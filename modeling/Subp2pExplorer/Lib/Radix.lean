import Mathlib.Data.List.TakeWhile
import Mathlib.Data.Nat.Digits.Lemmas

/-! Digit strings read in one base and written in another. Leading zeros carry
no value, so they are kept as they are; nothing else is lost on the way. -/
namespace Subp2pExplorer.Lib.Radix

/-- The digits of the same number in another base, high ones first. -/
def rebase (source target : Nat) (digits : List Nat) : List Nat :=
  digits.takeWhile (· = 0) ++
    (Nat.digits target (Nat.ofDigits source (digits.dropWhile (· = 0)).reverse)).reverse

theorem take_while_front {α : Type} (p : α → Bool) (front back : List α) (all : ∀ a ∈ front, p a = true)
    (stops : ∀ a ∈ back.head?, p a = false) :
    (front ++ back).takeWhile p = front ∧ (front ++ back).dropWhile p = back := by
  rw [List.takeWhile_append_of_pos all, List.dropWhile_append_of_pos all]
  cases back with
  | nil => simp
  | cons a back =>
    have stop := stops a rfl
    simp [stop]

theorem digits_lead (target n : Nat) (a : Nat) (lead : a ∈ (Nat.digits target n).reverse.head?) : a ≠ 0 := by
  rw [List.head?_reverse] at lead
  obtain ⟨nonempty, rfl⟩ := List.mem_getLast?_eq_getLast lead
  exact Nat.getLast_digit_ne_zero target (Nat.digits_ne_nil_iff_ne_zero.mp nonempty)

theorem rebase_small (source target : Nat) (base : 1 < target) (digits : List Nat) :
    ∀ d ∈ rebase source target digits, d < target := by
  intro d member
  rcases List.mem_append.mp member with zero | digit
  · have lead := List.mem_takeWhile_imp (p := fun d => decide (d = 0)) zero
    have same : d = 0 := by simpa using lead
    omega
  · exact Nat.digits_lt_base base (List.mem_reverse.mp digit)

/-- Nothing is lost by writing a digit string in another base. -/
theorem rebase_back (source target : Nat) (base : 1 < source) (digits : List Nat)
    (small : ∀ d ∈ digits, d < source) : rebase target source (rebase source target digits) = digits := by
  have zeros : ∀ d ∈ digits.takeWhile (· = 0), decide (d = 0) = true := fun d member =>
    List.mem_takeWhile_imp (p := fun d => decide (d = 0)) member
  have lead : ∀ d ∈ (Nat.digits target (Nat.ofDigits source (digits.dropWhile (· = 0)).reverse)).reverse.head?,
      decide (d = 0) = false := fun d member => decide_eq_false (digits_lead target _ d member)
  obtain ⟨front, back⟩ := take_while_front (fun d => decide (d = 0)) _ _ zeros lead
  have valid : ∀ d ∈ (digits.dropWhile (· = 0)).reverse, d < source := fun d member =>
    small d ((List.dropWhile_sublist _).subset (List.mem_reverse.mp member))
  have top : ∀ nonempty : (digits.dropWhile (· = 0)).reverse ≠ [],
      (digits.dropWhile (· = 0)).reverse.getLast nonempty ≠ 0 := by
    intro nonempty
    rw [List.getLast_reverse]
    have head := List.head_dropWhile_not (fun d => decide (d = 0)) (l := digits) (by simpa using nonempty)
    simpa using head
  rw [rebase, rebase, front, back, List.reverse_reverse, Nat.ofDigits_digits,
    Nat.digits_ofDigits source base _ valid top, List.reverse_reverse, List.takeWhile_append_dropWhile]

end Subp2pExplorer.Lib.Radix
