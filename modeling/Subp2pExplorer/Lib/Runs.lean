import Mathlib.Logic.Function.Iterate

/-! Deterministic machines whose labels carry every outside choice, the runs
they allow, and the induction rules for what holds along a run. A label that
is not possible in a state has no successor, so a run is exactly a sequence
of labels that replays from the start. -/
namespace Subp2pExplorer.Lib

universe u v w

/-- A start state and the successor of a state under a label, if there is one. -/
structure Machine (State : Type u) (Label : Type v) where
  start : State
  next : State → Label → Option State

namespace Machine
variable {State : Type u} {Label : Type v} (m : Machine State Label)

/-- The state after taking these labels in order. -/
def replayFrom : State → List Label → Option State
  | s, [] => some s
  | s, l :: labels => (m.next s l).bind fun s' => replayFrom s' labels

def replay (labels : List Label) : Option State := m.replayFrom m.start labels

/-- Every label of a run is taken in a state where the condition admits it. -/
def MeetsFrom (condition : State → Label → Prop) : State → List Label → Prop
  | _, [] => True
  | s, l :: labels => condition s l ∧ ∀ s', m.next s l = some s' → MeetsFrom condition s' labels

def Meets (condition : State → Label → Prop) (labels : List Label) : Prop :=
  m.MeetsFrom condition m.start labels

/-- A computable check of each label in the state it is taken in. -/
def checksFrom (check : State → Label → Bool) : State → List Label → Bool
  | _, [] => true
  | s, l :: labels => check s l && (m.next s l).all fun s' => checksFrom check s' labels

/-- What a run puts out, step after step. -/
def traceFrom {α : Type w} (emit : State → Label → State → List α) : State → List Label → List α
  | _, [] => []
  | s, l :: labels => match m.next s l with
    | some s' => emit s l s' ++ traceFrom emit s' labels
    | none => []

def trace {α : Type w} (emit : State → Label → State → List α) (labels : List Label) : List α :=
  m.traceFrom emit m.start labels

variable {m} {s t : State} {l : Label} {labels rest : List Label}

/-- What passes a check that only admits what the condition admits meets it. -/
theorem checks_meet {condition : State → Label → Prop} {check : State → Label → Bool}
    (admits : ∀ s l, check s l = true → condition s l) (checked : m.checksFrom check s labels = true) :
    m.MeetsFrom condition s labels := by
  induction labels generalizing s with
  | nil => exact trivial
  | cons l labels ih =>
    obtain ⟨now, later⟩ := Bool.and_eq_true_iff.mp checked
    refine ⟨admits s l now, fun s' step => ih ?_⟩
    rw [step] at later
    exact later

theorem replay_from_cons :
    m.replayFrom s (l :: labels) = some t ↔ ∃ s', m.next s l = some s' ∧ m.replayFrom s' labels = some t := by
  simp only [replayFrom, Option.bind_eq_some_iff]

theorem replay_append {more : List Label} (run : m.replay labels = some t) :
    m.replay (labels ++ more) = m.replayFrom t more := by
  have from_any : ∀ (labels : List Label) (s : State), m.replayFrom s labels = some t →
      m.replayFrom s (labels ++ more) = m.replayFrom t more := by
    intro labels
    induction labels with
    | nil =>
      intro s run
      cases run
      rfl
    | cons l labels ih =>
      intro s run
      obtain ⟨s', step, run⟩ := replay_from_cons.mp run
      rw [List.cons_append, replayFrom, step, Option.bind_some]
      exact ih s' run
  exact from_any labels m.start run

/-- A run meets a condition if each of its labels does where it is taken. -/
theorem meets_iff {condition : State → Label → Prop} :
    m.Meets condition labels ↔ ∀ earlier l later s, labels = earlier ++ l :: later →
      m.replay earlier = some s → condition s l := by
  have from_any : ∀ (labels : List Label) (s : State), m.MeetsFrom condition s labels ↔
      ∀ earlier l later t, labels = earlier ++ l :: later → m.replayFrom s earlier = some t →
        condition t l := by
    intro labels
    induction labels with
    | nil => simp [MeetsFrom]
    | cons l labels ih =>
      intro s
      constructor
      · rintro ⟨now, rest⟩ earlier l' later t split run
        cases earlier with
        | nil =>
          cases split
          cases run
          exact now
        | cons l'' earlier =>
          cases split
          obtain ⟨s', step, run⟩ := replay_from_cons.mp run
          exact (ih s').mp (rest s' step) earlier l' later t rfl run
      · intro each
        refine ⟨each [] l labels s rfl rfl, fun s' step => (ih s').mpr ?_⟩
        intro earlier l' later t split run
        apply each (l :: earlier) l' later t
        · rw [split, List.cons_append]
        · exact replay_from_cons.mpr ⟨s', step, run⟩
  exact from_any labels m.start

/-- What every step keeps, and the condition may help to keep, holds of the
state together with the labels taken so far. -/
theorem history_invariant {condition : State → Label → Prop} {I : List Label → State → Prop}
    (keep : ∀ past s l s', I past s → condition s l → m.next s l = some s' → I (past ++ [l]) s')
    (base : I [] m.start) (meets : m.Meets condition labels) (run : m.replay labels = some t) :
    I labels t := by
  have from_past : ∀ (labels past : List Label) (s : State), I past s →
      m.MeetsFrom condition s labels → m.replayFrom s labels = some t → I (past ++ labels) t := by
    intro labels
    induction labels with
    | nil =>
      intro past s held _ run
      simp only [replayFrom, Option.some.injEq] at run
      subst run
      simpa using held
    | cons l labels ih =>
      intro past s held meets run
      obtain ⟨s', step, run⟩ := replay_from_cons.mp run
      have later := ih (past ++ [l]) s' (keep past s l s' held meets.1 step) (meets.2 s' step) run
      simpa using later
  simpa using from_past labels [] m.start base meets run

/-- A condition that admits a label in every state is met wherever it is taken. -/
theorem meets_all {condition : State → Label → Prop} (admitted : ∀ l ∈ labels, ∀ s, condition s l) :
    m.Meets condition labels := by
  have everywhere : ∀ (labels : List Label), (∀ l ∈ labels, ∀ s, condition s l) →
      ∀ s : State, m.MeetsFrom condition s labels := by
    intro labels
    induction labels with
    | nil => exact fun _ _ => trivial
    | cons l labels ih =>
      intro admitted s
      have later := ih fun l member => admitted l (List.mem_cons_of_mem _ member)
      exact ⟨admitted l List.mem_cons_self s, fun s' _ => later s'⟩
  exact everywhere labels admitted m.start

theorem meets_trivial (labels : List Label) : m.Meets (fun _ _ => True) labels :=
  meets_all fun _ _ _ => trivial

/-- An invariant of single steps that may use the condition each step meets. -/
theorem invariant_under {condition : State → Label → Prop} {I : State → Prop}
    (keep : ∀ s l s', I s → condition s l → m.next s l = some s' → I s')
    (base : I m.start) (meets : m.Meets condition labels) (run : m.replay labels = some t) :
    I t := by
  have step : ∀ (_ : List Label) s l s', I s → condition s l → m.next s l = some s' → I s' :=
    fun _ => keep
  exact history_invariant step base meets run

/-- An invariant of single steps holds at the end of every run. -/
theorem invariant {I : State → Prop} (keep : ∀ s l s', I s → m.next s l = some s' → I s')
    (base : I m.start) (run : m.replay labels = some t) : I t := by
  have step : ∀ s l s', I s → True → m.next s l = some s' → I s' :=
    fun s l s' held _ taken => keep s l s' held taken
  exact invariant_under step base (meets_trivial labels) run

/-- What every step keeps of a state and all that was put out before it holds
at the end of every run. -/
theorem trace_invariant {α : Type w} {emit : State → Label → State → List α} {I : List α → State → Prop}
    (keep : ∀ past s l s', I past s → m.next s l = some s' → I (past ++ emit s l s') s')
    (base : I [] m.start) (run : m.replay labels = some t) : I (m.trace emit labels) t := by
  have from_past : ∀ (labels : List Label) (past : List α) (s : State), I past s →
      m.replayFrom s labels = some t → I (past ++ m.traceFrom emit s labels) t := by
    intro labels
    induction labels with
    | nil =>
      intro past s held run
      simp only [replayFrom, Option.some.injEq] at run
      subst run
      simpa [traceFrom] using held
    | cons l labels ih =>
      intro past s held run
      obtain ⟨s', step, run⟩ := replay_from_cons.mp run
      have later := ih (past ++ emit s l s') s' (keep past s l s' held step) run
      simpa [traceFrom, step] using later
  simpa [trace] using from_past labels [] m.start base run

/-- Where a step keeps an invariant exactly if the condition admits it, the
invariant holds all along a run exactly if the run meets the condition. -/
theorem throughout_iff {condition : State → Label → Prop} {I : State → Prop} (base : I m.start)
    (keep : ∀ s l s', I s → m.next s l = some s' → (I s' ↔ condition s l))
    (run : m.replay labels = some t) :
    (∀ earlier later s, labels = earlier ++ later → m.replay earlier = some s → I s) ↔
      m.Meets condition labels := by
  have from_any : ∀ (labels : List Label) (s : State), I s → m.replayFrom s labels = some t →
      ((∀ earlier later s', labels = earlier ++ later → m.replayFrom s earlier = some s' → I s') ↔
        m.MeetsFrom condition s labels) := by
    intro labels
    induction labels with
    | nil =>
      intro s held _
      refine ⟨fun _ => trivial, fun _ earlier later s' split taken => ?_⟩
      obtain ⟨rfl, rfl⟩ := List.append_eq_nil_iff.mp split.symm
      cases taken
      exact held
    | cons l labels ih =>
      intro s held run
      obtain ⟨s₁, step, run⟩ := replay_from_cons.mp run
      constructor
      · intro each
        have next : I s₁ := each [l] labels s₁ rfl (replay_from_cons.mpr ⟨s₁, step, rfl⟩)
        refine ⟨(keep s l s₁ held step).mp next, fun s₂ step' => ?_⟩
        cases step.symm.trans step'
        refine (ih s₁ next run).mp fun earlier later s' split taken => ?_
        exact each (l :: earlier) later s' (by rw [split, List.cons_append])
          (replay_from_cons.mpr ⟨s₁, step, taken⟩)
      · rintro ⟨admitted, rest⟩ earlier later s' split taken
        have next : I s₁ := (keep s l s₁ held step).mpr admitted
        cases earlier with
        | nil =>
          cases taken
          exact held
        | cons l' earlier =>
          cases split
          obtain ⟨s₂, step', taken⟩ := replay_from_cons.mp taken
          cases step.symm.trans step'
          exact (ih s₁ next run).mpr (rest s₁ step) earlier later s' rfl taken
  exact from_any labels m.start base run

/-- Conditions that agree wherever an invariant holds are met by the same runs. -/
theorem meets_congr {P Q : State → Label → Prop} {I : State → Prop} (base : I m.start)
    (keep : ∀ s l s', I s → Q s l → m.next s l = some s' → I s') (agree : ∀ s l, I s → (P s l ↔ Q s l)) :
    m.Meets P labels ↔ m.Meets Q labels := by
  have from_any : ∀ (labels : List Label) (s : State), I s → (m.MeetsFrom P s labels ↔ m.MeetsFrom Q s labels) := by
    intro labels
    induction labels with
    | nil => exact fun _ _ => Iff.rfl
    | cons l labels ih =>
      intro s held
      rw [MeetsFrom, MeetsFrom, agree s l held]
      apply and_congr_right
      intro admitted
      exact forall₂_congr fun s' step => ih s' (keep s l s' held admitted step)
  exact from_any labels m.start base

end Machine

/-! ## Loops of one step -/

section Loops
variable {State : Type u} {α : Type v} {β : Type w}

/-- A loop keeps what each of its rounds keeps. -/
theorem fold_keeps {f : State → α → State} (get : State → β) (keeps : ∀ s a, get (f s a) = get s) (l : List α)
    (s : State) : get (l.foldl f s) = get s := by
  induction l generalizing s with
  | nil => rfl
  | cons a l ih => rw [List.foldl_cons, ih, keeps]

theorem iterate_keeps {f : State → State} (get : State → β) (keeps : ∀ s, get (f s) = get s) (rounds : Nat)
    (s : State) : get (f^[rounds] s) = get s := by
  induction rounds generalizing s with
  | zero => rfl
  | succ rounds ih => rw [Function.iterate_succ_apply, ih, keeps]

end Loops
end Subp2pExplorer.Lib
