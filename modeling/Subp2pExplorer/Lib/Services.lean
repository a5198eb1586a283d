import Mathlib.Data.List.Basic

/-! Services that are told of events, asked questions, and polled for what they
have to say. A service sees its calls only, not who makes them: what holds of
one that is driven alone holds of one that has an owner, for the calls that the
owner makes. -/
namespace Subp2pExplorer.Lib

universe u v w x y z

structure Service (State : Type u) (Event : Type v) (Request : Type w) (Answer : Type x) (Out : Type y) where
  tell : Event → State → State
  ask : Request → State → Answer × State
  /-- Nothing is said where the service has to wait. -/
  poll : State → Option Out × State

namespace Service

inductive Call (Event : Type v) (Request : Type w) where
  | tell (event : Event)
  | ask (request : Request)
  | poll

variable {State : Type u} {Event : Type v} {Request : Type w} {Answer : Type x} {Out : Type y}
  (service : Service State Event Request Answer Out)

/-- A call, with what is answered or said to it. -/
def call (s : State) : Call Event Request → (Option Answer × Option Out) × State
  | .tell event => ((none, none), service.tell event s)
  | .ask request => ((some (service.ask request s).1, none), (service.ask request s).2)
  | .poll => ((none, (service.poll s).1), (service.poll s).2)

/-- The state after some calls. -/
def after : List (Call Event Request) → State → State
  | [], s => s
  | c :: calls, s => after calls (service.call s c).2

def replies : List (Call Event Request) → State → List (Option Answer × Option Out)
  | [], _ => []
  | c :: calls, s => (service.call s c).1 :: replies calls (service.call s c).2

/-- The answers that were given on the way, and what was said. -/
def answers (calls : List (Call Event Request)) (s : State) : List Answer :=
  (service.replies calls s).filterMap Prod.fst

def said (calls : List (Call Event Request)) (s : State) : List Out :=
  (service.replies calls s).filterMap Prod.snd

variable {Passed : Type z} (pass : Out → Option Passed)

/-- Poll until something is passed on or nothing is said any more. -/
def drain : Nat → State → Option (Option Passed × State)
  | 0, _ => none
  | rounds + 1, s =>
    match service.poll s with
    | (none, s) => some (none, s)
    | (some out, s) =>
      match pass out with
      | some passed => some (some passed, s)
      | none => drain rounds s

/-- The service was polled and had nothing to say. -/
def Waits (s : State) : Prop := ∃ before, service.poll before = (none, s)

/-- A service that was told and asked these things, in this order, and polled
in between: its answers, and what was passed on of what it said. -/
structure Driven (start : State) (calls : List (Call Event Request)) (answered : List Answer) (passed : List Passed)
    (s : State) : Prop where
  alone : ∃ all : List (Call Event Request), service.after all start = s ∧
    (all.filter fun c => c matches .tell _ | .ask _) = calls ∧ service.answers all start = answered ∧
    (service.said all start).filterMap pass = passed

section Lemmas
variable {service pass}

@[simp] theorem after_append (first second : List (Call Event Request)) (s : State) :
    service.after (first ++ second) s = service.after second (service.after first s) := by
  induction first generalizing s with
  | nil => rfl
  | cons c first ih => exact ih _

theorem replies_append (first second : List (Call Event Request)) (s : State) :
    service.replies (first ++ second) s = service.replies first s ++ service.replies second (service.after first s) := by
  induction first generalizing s with
  | nil => rfl
  | cons c first ih => exact congrArg ((service.call s c).1 :: ·) (ih _)

@[simp] theorem answers_append (first second : List (Call Event Request)) (s : State) :
    service.answers (first ++ second) s = service.answers first s ++ service.answers second (service.after first s) := by
  rw [answers, replies_append, List.filterMap_append]
  rfl

@[simp] theorem said_append (first second : List (Call Event Request)) (s : State) :
    service.said (first ++ second) s = service.said first s ++ service.said second (service.after first s) := by
  rw [said, replies_append, List.filterMap_append]
  rfl

/-- Draining is some polls in a row, of which the last one decides. -/
theorem drain_polls {rounds : Nat} {s t : State} {passed : Option Passed}
    (drained : service.drain pass rounds s = some (passed, t)) :
    ∃ polls, service.after (List.replicate polls .poll) s = t ∧
      service.answers (List.replicate polls .poll) s = [] ∧
      (service.said (List.replicate polls .poll) s).filterMap pass = passed.toList ∧
      (passed = none → service.Waits t) := by
  induction rounds generalizing s with
  | zero => cases drained
  | succ rounds ih =>
    rw [drain] at drained
    cases polled : service.poll s with
    | mk out s' =>
      have once : service.call s .poll = ((none, out), s') := by rw [call, polled]
      rw [polled] at drained
      cases out with
      | none =>
        cases drained
        refine ⟨1, ?_, ?_, ?_, fun _ => ⟨s, polled⟩⟩ <;> simp [after, answers, said, replies, once]
      | some out =>
        dsimp only at drained
        cases kept : pass out with
        | some result =>
          rw [kept] at drained
          cases drained
          refine ⟨1, ?_, ?_, ?_, nofun⟩ <;> simp [after, answers, said, replies, once, kept]
        | none =>
          rw [kept] at drained
          obtain ⟨polls, reached, silent, heard, waits⟩ := ih drained
          refine ⟨polls + 1, ?_, ?_, ?_, waits⟩
          · rw [List.replicate_succ, after, once]
            exact reached
          · rw [List.replicate_succ, answers, replies, once]
            exact silent
          · rw [List.replicate_succ, said, replies, once, List.filterMap_cons]
            dsimp only
            rw [List.filterMap_cons, kept]
            exact heard

theorem drain_passed {rounds : Nat} {s t : State} {passed : Passed}
    (drained : service.drain pass rounds s = some (some passed, t)) : ∃ out, pass out = some passed := by
  obtain ⟨_, _, _, heard, _⟩ := drain_polls drained
  have member := List.mem_singleton_self passed
  rw [← Option.toList_some, ← heard] at member
  obtain ⟨out, _, same⟩ := List.mem_filterMap.mp member
  exact ⟨out, same⟩

variable (pass) in
/-- A service that has nothing to say after some polls is drained. -/
theorem drain_settles {polls rounds : Nat} {s : State}
    (settles : (service.poll (service.after (List.replicate polls .poll) s)).1 = none) (enough : polls < rounds) :
    (service.drain pass rounds s).isSome := by
  induction polls generalizing s rounds with
  | zero =>
    obtain ⟨rounds, rfl⟩ := Nat.exists_eq_add_of_lt enough
    have quiet : (service.poll s).1 = none := settles
    rw [Nat.zero_add, drain]
    cases polled : service.poll s with
    | mk out s' =>
      rw [polled] at quiet
      cases quiet
      rfl
  | succ polls ih =>
    obtain ⟨rounds, rfl⟩ : ∃ r, rounds = r + 1 := ⟨rounds - 1, by omega⟩
    rw [drain]
    cases polled : service.poll s with
    | mk out s' =>
      have once : (service.call s .poll).2 = s' := by rw [call, polled]
      rw [List.replicate_succ, after, once] at settles
      cases out with
      | none => rfl
      | some out =>
        dsimp only
        cases pass out with
        | some result => rfl
        | none => exact ih settles (by omega)

namespace Driven
variable {start s : State} {calls : List (Call Event Request)} {answered : List Answer} {passed : List Passed}

theorem fresh : service.Driven pass start [] [] [] start := ⟨[], rfl, rfl, rfl, rfl⟩

theorem tell (driven : service.Driven pass start calls answered passed s) (event : Event) :
    service.Driven pass start (calls ++ [.tell event]) answered passed (service.tell event s) := by
  obtain ⟨all, rfl, rfl, rfl, rfl⟩ := driven
  refine ⟨all ++ [.tell event], ?_, ?_, ?_, ?_⟩
  · exact after_append _ _ _
  · simp
  · exact (answers_append _ _ _).trans (List.append_nil _)
  · rw [said_append]
    exact congrArg (List.filterMap pass) (List.append_nil _)

theorem ask (driven : service.Driven pass start calls answered passed s) (request : Request) :
    service.Driven pass start (calls ++ [.ask request]) (answered ++ [(service.ask request s).1]) passed
      (service.ask request s).2 := by
  obtain ⟨all, rfl, rfl, rfl, rfl⟩ := driven
  refine ⟨all ++ [.ask request], ?_, ?_, ?_, ?_⟩
  · exact after_append _ _ _
  · simp
  · exact answers_append _ _ _
  · rw [said_append]
    exact congrArg (List.filterMap pass) (List.append_nil _)

theorem drained (driven : service.Driven pass start calls answered passed s) {rounds : Nat} {result : Option Passed}
    {t : State} (drained : service.drain pass rounds s = some (result, t)) :
    service.Driven pass start calls answered (passed ++ result.toList) t := by
  obtain ⟨all, rfl, rfl, rfl, rfl⟩ := driven
  obtain ⟨polls, rfl, silent, heard, _⟩ := drain_polls drained
  refine ⟨all ++ List.replicate polls .poll, ?_, ?_, ?_, ?_⟩
  · rw [after_append]
  · simp
  · rw [answers_append, silent, List.append_nil]
  · rw [said_append, List.filterMap_append, heard]

end Driven
end Lemmas
end Service

/-- Two lists merged into one, each in its order. -/
inductive Interleaved {α : Type*} : List α → List α → List α → Prop where
  | nil : Interleaved [] [] []
  | left {first second whole : List α} (a : α) : Interleaved first second whole →
      Interleaved (first ++ [a]) second (whole ++ [a])
  | right {first second whole : List α} (a : α) : Interleaved first second whole →
      Interleaved first (second ++ [a]) (whole ++ [a])

end Subp2pExplorer.Lib
