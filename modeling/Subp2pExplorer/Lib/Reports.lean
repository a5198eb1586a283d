import Mathlib.Data.Finset.Basic
import Mathlib.Data.List.Nodup

/-! Tasks that are started under fresh ids. When one ends its report is queued,
and is outstanding until it is taken from the queue. -/
namespace Subp2pExplorer.Lib
variable {α : Type} {started running : Finset α} {queued : List α}

/-- No report is queued twice or while its task runs, and each is of a task that
was started. -/
structure Reported (started running : Finset α) (queued : List α) : Prop where
  apart : queued.Nodup
  ended : ∀ id ∈ queued, id ∉ running
  known : ∀ id, id ∈ running ∨ id ∈ queued → id ∈ started

theorem mem_started [DecidableEq α] (fresh id : α) :
    id ∈ insert fresh running ∨ id ∈ queued ↔ id = fresh ∨ id ∈ running ∨ id ∈ queued := by
  rw [Finset.mem_insert, or_assoc]

/-- A task that ends stays outstanding. -/
theorem mem_reported [DecidableEq α] {ended : α} (runs : ended ∈ running) (id : α) :
    id ∈ running.erase ended ∨ id ∈ queued ++ [ended] ↔ id ∈ running ∨ id ∈ queued := by
  rw [Finset.mem_erase, List.mem_append, List.mem_singleton]
  constructor
  · rintro (⟨_, runs⟩ | waits | rfl)
    · exact .inl runs
    · exact .inr waits
    · exact .inl runs
  · rintro (runs | waits)
    · by_cases same : id = ended
      · exact .inr (.inr same)
      · exact .inl ⟨same, runs⟩
    · exact .inr (.inl waits)

namespace Reported

theorem start [DecidableEq α] (reported : Reported started running queued) {fresh : α} (unseen : fresh ∉ started) :
    Reported (insert fresh started) (insert fresh running) queued where
  apart := reported.apart
  ended id waits runs := by
    obtain rfl | runs := Finset.mem_insert.mp runs
    · exact unseen (reported.known id (.inr waits))
    · exact reported.ended id waits runs
  known id there := by
    rw [mem_started] at there
    exact Finset.mem_insert.mpr (there.imp_right (reported.known id))

theorem report [DecidableEq α] (reported : Reported started running queued) {ended : α} (runs : ended ∈ running) :
    Reported started (running.erase ended) (queued ++ [ended]) where
  apart := by
    rw [← List.concat_eq_append]
    exact reported.apart.concat fun waits => reported.ended ended waits runs
  ended id member runs' := by
    obtain ⟨other, runs'⟩ := Finset.mem_erase.mp runs'
    rw [List.mem_append, List.mem_singleton] at member
    exact reported.ended id (member.resolve_right other) runs'
  known id there := by
    rw [mem_reported runs] at there
    exact reported.known id there

theorem take {first : α} (reported : Reported started running (first :: queued)) : Reported started running queued where
  apart := reported.apart.of_cons
  ended id waits := reported.ended id (List.mem_cons_of_mem _ waits)
  known id there := reported.known id (there.imp_right (List.mem_cons_of_mem _))

/-- Taking a report ends its task and no other. -/
theorem mem_taken {first : α} (reported : Reported started running (first :: queued)) (id : α) :
    id ∈ running ∨ id ∈ queued ↔ (id ∈ running ∨ id ∈ first :: queued) ∧ id ≠ first := by
  constructor
  · rintro (runs | waits)
    · exact ⟨.inl runs, fun same => reported.ended first List.mem_cons_self (same ▸ runs)⟩
    · exact ⟨.inr (List.mem_cons_of_mem _ waits), fun same => (List.nodup_cons.mp reported.apart).1 (same ▸ waits)⟩
  · rintro ⟨runs | waits, other⟩
    · exact .inl runs
    · exact .inr ((List.mem_cons.mp waits).resolve_left other)

end Reported
end Subp2pExplorer.Lib
