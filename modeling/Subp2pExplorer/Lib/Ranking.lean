import Mathlib.Algebra.Order.BigOperators.Group.List
import Mathlib.Algebra.Order.Ring.Nat

/-! Rankings: items by their scores, the greatest first, of which a number is
shown. Ties stand as the items came, so all that depends on that order is which
of those tied with the last place are shown. -/
namespace Subp2pExplorer.Lib.Ranking
variable {α : Type*} (score : α → Nat)

def ranked (items : List α) : List α := items.mergeSort fun a b => decide (score b ≤ score a)

/-- The items of the first places. -/
def top (places : Nat) (items : List α) : List α := (ranked score items).take places

variable {score} {items items' : List α} {places : Nat} {a b : α}

theorem ranked_perm (items : List α) : (ranked score items).Perm items := List.mergeSort_perm ..

theorem ranked_pairwise (items : List α) : (ranked score items).Pairwise fun a b => score b ≤ score a := by
  have sorted : (ranked score items).Pairwise fun a b => decide (score b ≤ score a) = true := List.pairwise_mergeSort
    (fun a b c first second => by simp only [decide_eq_true_eq] at *; omega)
    (fun a b => by simp only [Bool.or_eq_true, decide_eq_true_eq]; omega) items
  exact sorted.imp of_decide_eq_true

theorem top_sublist (places : Nat) (items : List α) : (top score places items).Sublist (ranked score items) :=
  List.take_sublist ..

theorem top_pairwise (places : Nat) (items : List α) : (top score places items).Pairwise fun a b => score b ≤ score a :=
  (ranked_pairwise items).sublist (top_sublist places items)

theorem top_length (places : Nat) (items : List α) : (top score places items).length = min places items.length := by
  rw [top, List.length_take, (ranked_perm items).length_eq]

theorem mem_of_top (shown : a ∈ top score places items) : a ∈ items :=
  (ranked_perm items).mem_iff.mp (List.mem_of_mem_take shown)

theorem top_sum_le (places : Nat) (items : List α) : ((top score places items).map score).sum ≤ (items.map score).sum :=
  calc ((top score places items).map score).sum
      ≤ ((ranked score items).map score).sum := ((top_sublist places items).map score).sum_le_sum fun _ _ => Nat.zero_le _
    _ = (items.map score).sum := ((ranked_perm items).map score).sum_eq

theorem top_distinct {β : Type*} {name : α → β} (distinct : (items.map name).Nodup) (places : Nat) :
    ((top score places items).map name).Nodup :=
  (((ranked_perm items).map name).nodup_iff.mpr distinct).sublist ((top_sublist places items).map name)

/-- Where something is not shown, all the places are taken. -/
theorem top_full (member : a ∈ items) (hidden : a ∉ top score places items) :
    (top score places items).length = places := by
  by_contra short
  have fits : (top score places items).length = min places items.length := top_length places items
  have whole : top score places items = ranked score items := by
    refine List.take_of_length_le ?_
    rw [(ranked_perm items).length_eq]
    omega
  exact hidden (whole ▸ (ranked_perm items).mem_iff.mpr member)

/-- What is not shown scores no more than what is. -/
theorem top_dominates (shown : a ∈ top score places items) (member : b ∈ items) (hidden : b ∉ top score places items) :
    score b ≤ score a := by
  have split : (ranked score items).Pairwise fun a b => score b ≤ score a := ranked_pairwise items
  rw [← List.take_append_drop places (ranked score items), List.pairwise_append] at split
  refine split.2.2 a shown b ?_
  have placed : b ∈ ranked score items := (ranked_perm items).mem_iff.mpr member
  rw [← List.take_append_drop places (ranked score items), List.mem_append] at placed
  exact placed.resolve_left hidden

/-- The scores shown do not depend on the order of the items. -/
theorem top_scores (same : items.Perm items') :
    (top score places items).map score = (top score places items').map score := by
  have sorted : ∀ l : List α, ((ranked score l).map score).Pairwise (· ≥ ·) :=
    fun l => List.pairwise_map.mpr (ranked_pairwise l)
  have scores : ((ranked score items).map score).Perm ((ranked score items').map score) :=
    ((ranked_perm items).trans (same.trans (ranked_perm items').symm)).map score
  have equal := scores.eq_of_pairwise (fun a b _ _ first second => Nat.le_antisymm second first) (sorted items) (sorted items')
  rw [top, top, List.map_take, List.map_take, equal]

/-- What scores more than something shown is shown in every order. -/
theorem top_certain (same : items.Perm items') (member : a ∈ items) (shown : b ∈ top score places items)
    (above : score b < score a) : a ∈ top score places items' := by
  by_contra hidden
  have scored : score b ∈ (top score places items').map score := top_scores same ▸ List.mem_map_of_mem shown
  obtain ⟨c, placed, equal⟩ := List.mem_map.mp scored
  have least := top_dominates placed (same.mem_iff.mp member) hidden
  omega

end Subp2pExplorer.Lib.Ranking
