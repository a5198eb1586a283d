import Mathlib.Algebra.Group.Nat.Defs

/-! Streams that arrive in pieces. A reader sees the piece boundaries, an empty
piece is a poll that finds nothing yet, and the stream ends after the last one.
What a reader takes must not depend on the boundaries: every rule here speaks
of the pieces joined. -/
namespace Subp2pExplorer.Lib.Streams
variable {α : Type*}

/-- Fill a buffer of this length, from as many pieces as it takes. -/
def readExact : Nat → List (List α) → Option (List α × List (List α))
  | 0, pieces => some ([], pieces)
  | _ + 1, [] => none
  | n + 1, piece :: pieces =>
    if n + 1 ≤ piece.length then some (piece.take (n + 1), piece.drop (n + 1) :: pieces)
    else (readExact (n + 1 - piece.length) pieces).map fun (read, rest) => (piece ++ read, rest)

/-- One element, past the polls that find nothing. -/
def readOne : List (List α) → Option (α × List (List α))
  | [] => none
  | [] :: pieces => readOne pieces
  | (a :: piece) :: pieces => some (a, piece :: pieces)

theorem read_exact_joined (pieces : List (List α)) (read rest : List α) (joined : pieces.flatten = read ++ rest) :
    ∃ left, readExact read.length pieces = some (read, left) ∧ left.flatten = rest := by
  induction pieces generalizing read with
  | nil =>
    obtain ⟨rfl, rfl⟩ : read = [] ∧ rest = [] := by simpa using joined
    exact ⟨[], rfl, rfl⟩
  | cons piece pieces ih =>
    cases read with
    | nil => exact ⟨piece :: pieces, rfl, joined⟩
    | cons a read =>
      rw [List.flatten_cons] at joined
      rw [List.length_cons, readExact]
      split
      next whole =>
        -- the buffer is filled inside this piece
        obtain ⟨tail, rfl, rest_eq⟩ : ∃ tail, piece = (a :: read) ++ tail ∧ rest = tail ++ pieces.flatten := by
          rcases List.append_eq_append_iff.mp joined with ⟨tail, front, back⟩ | ⟨tail, front, back⟩
          · have short : tail.length = 0 := by
              have := congrArg List.length front
              simp only [List.length_append, List.length_cons] at this
              omega
            obtain rfl := List.length_eq_zero_iff.mp short
            exact ⟨[], by simpa using front.symm, by simpa using back.symm⟩
          · exact ⟨tail, front, back⟩
        refine ⟨_, ?_, rest_eq ▸ List.flatten_cons⟩
        simp
      next longer =>
        obtain ⟨tail, front, back⟩ : ∃ tail, a :: read = piece ++ tail ∧ pieces.flatten = tail ++ rest := by
          rcases List.append_eq_append_iff.mp joined with found | ⟨tail, front, back⟩
          · exact found
          · have := congrArg List.length front
            simp only [List.length_append, List.length_cons] at this
            omega
        obtain ⟨left, taken, rest_eq⟩ := ih tail back
        have remaining : read.length + 1 - piece.length = tail.length := by
          have := congrArg List.length front
          simp only [List.length_append, List.length_cons] at this
          omega
        refine ⟨left, ?_, rest_eq⟩
        rw [remaining, taken, front]
        rfl

/-- A stream that ends early fills no buffer. -/
theorem read_exact_short (n : Nat) (pieces : List (List α)) (short : pieces.flatten.length < n) :
    readExact n pieces = none := by
  induction pieces generalizing n with
  | nil =>
    obtain ⟨n, rfl⟩ := Nat.exists_eq_add_of_lt short
    simp [readExact]
  | cons piece pieces ih =>
    rw [List.flatten_cons, List.length_append] at short
    obtain ⟨n, rfl⟩ : ∃ m, n = m + 1 := ⟨n - 1, by omega⟩
    have inner := ih (n + 1 - piece.length) (by omega)
    rw [readExact, if_neg (by omega), inner]
    rfl

theorem read_one_joined (pieces : List (List α)) (a : α) (rest : List α) (joined : pieces.flatten = a :: rest) :
    ∃ left, readOne pieces = some (a, left) ∧ left.flatten = rest := by
  induction pieces with
  | nil => simp at joined
  | cons piece pieces ih =>
    cases piece with
    | nil => exact ih joined
    | cons b piece =>
      obtain ⟨rfl, rfl⟩ : b = a ∧ piece ++ pieces.flatten = rest := by simpa using joined
      exact ⟨_, rfl, List.flatten_cons⟩

theorem read_one_ended (pieces : List (List α)) (ended : pieces.flatten = []) : readOne pieces = none := by
  induction pieces with
  | nil => rfl
  | cons piece pieces ih =>
    obtain ⟨rfl, ended⟩ : piece = [] ∧ pieces.flatten = [] := by simpa using ended
    exact ih ended

/-- Two elements become neighbors in what is kept of a stream where only what
is dropped stands between them. -/
theorem kept_neighbors_iff {β : Type*} {keep : α → Option β} {a b : β} (stream : List α) :
    [a, b] <:+: stream.filterMap keep ↔ ∃ before x gap y after, stream = before ++ x :: (gap ++ y :: after) ∧
      keep x = some a ∧ keep y = some b ∧ ∀ dropped ∈ gap, keep dropped = none := by
  constructor
  · rintro ⟨front, back, kept⟩
    rw [List.append_assoc] at kept
    obtain ⟨before, rest, rfl, _, kept⟩ := List.filterMap_eq_append_iff.mp kept.symm
    obtain ⟨skipped, x, rest, rfl, _, first, kept⟩ := List.filterMap_eq_cons_iff.mp kept
    obtain ⟨gap, y, after, rfl, dropped, second, _⟩ := List.filterMap_eq_cons_iff.mp kept
    refine ⟨before ++ skipped, x, gap, y, after, ?_, first, second, dropped⟩
    simp
  · rintro ⟨before, x, gap, y, after, rfl, first, second, dropped⟩
    have nothing : gap.filterMap keep = [] := List.filterMap_eq_nil_iff.mpr dropped
    refine ⟨before.filterMap keep, after.filterMap keep, ?_⟩
    simp [first, second, nothing]

end Subp2pExplorer.Lib.Streams
