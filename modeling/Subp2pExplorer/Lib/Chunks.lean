import Mathlib.Data.List.Basic

/-! A list handled in chunks of a fixed length, the last one shorter. -/
namespace Subp2pExplorer.Lib
variable {α : Type}

def chunksFrom (size : Nat) : Nat → List α → List (List α)
  | 0, _ => []
  | _ + 1, [] => []
  | fuel + 1, a :: rest => (a :: rest).take size :: chunksFrom size fuel ((a :: rest).drop size)

/-- The chunks of a list, of which there are no more than elements. -/
def chunks (size : Nat) (l : List α) : List (List α) := chunksFrom size l.length l

/-- One after the other the chunks are the list. -/
theorem chunks_flatten {size : Nat} (positive : 0 < size) (l : List α) : (chunks size l).flatten = l := by
  have from_any : ∀ (fuel : Nat) (l : List α), l.length ≤ fuel → (chunksFrom size fuel l).flatten = l := by
    intro fuel
    induction fuel with
    | zero =>
      intro l short
      rw [List.length_eq_zero_iff.mp (Nat.le_zero.mp short)]
      rfl
    | succ fuel ih =>
      intro l short
      cases l with
      | nil => rfl
      | cons a rest =>
        have shorter : ((a :: rest).drop size).length ≤ fuel := by
          rw [List.length_drop]
          simp only [List.length_cons] at short ⊢
          omega
        rw [chunksFrom, List.flatten_cons, ih _ shorter, List.take_append_drop]
  exact from_any l.length l (Nat.le_refl _)

end Subp2pExplorer.Lib
