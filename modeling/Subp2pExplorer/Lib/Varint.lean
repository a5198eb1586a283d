import Subp2pExplorer.Lib.Streams

/-! Unsigned variable-length integers, and byte strings behind their length.
Both are read from a stream in pieces: a reader takes exactly the bytes that
were written for it, and one that is cut short finds nothing. -/
namespace Subp2pExplorer.Lib.Varint
open Subp2pExplorer.Lib.Streams

/-- Groups of seven bits, low ones first, in at most `width` bytes. The high
bit of a byte tells that more follow. -/
def encode : Nat → Nat → List UInt8
  | 0, _ => []
  | width + 1, n =>
    if n < 128 then [UInt8.ofNat n] else UInt8.ofNat (n % 128 + 128) :: encode width (n / 128)

def read : Nat → List (List UInt8) → Option (Nat × List (List UInt8))
  | 0, _ => none
  | width + 1, pieces =>
    match readOne pieces with
    | none => none
    | some (b, pieces) =>
      if b.toNat < 128 then some (b.toNat, pieces)
      else (read width pieces).map fun (n, pieces) => (b.toNat % 128 + 128 * n, pieces)

/-- A byte string behind its length. -/
def frame (width : Nat) (payload : List UInt8) : List UInt8 := encode width payload.length ++ payload

def parse (width : Nat) (buffer : List UInt8) : Option (List UInt8 × List UInt8) :=
  (read width [buffer]).bind fun (n, left) =>
    (readExact n left).map fun (payload, left) => (payload, left.flatten)

theorem encode_nonempty (width n : Nat) : encode (width + 1) n ≠ [] := by
  unfold encode
  split <;> simp

theorem read_encoded (width n : Nat) (room : 0 < width) (fits : n < 128 ^ width) (pieces : List (List UInt8))
    (rest : List UInt8) (joined : pieces.flatten = encode width n ++ rest) :
    ∃ left, read width pieces = some (n, left) ∧ left.flatten = rest := by
  induction width generalizing n pieces with
  | zero => exact absurd room (by simp)
  | succ width ih =>
    unfold encode at joined
    split at joined
    next small =>
      obtain ⟨left, one, back⟩ := read_one_joined pieces _ rest joined
      have value : (UInt8.ofNat n).toNat = n := by
        rw [UInt8.toNat_ofNat']
        omega
      refine ⟨left, ?_, back⟩
      simp only [read, one, value, if_pos small]
    next large =>
      obtain ⟨middle, one, later⟩ := read_one_joined pieces _ _ joined
      have fits : n / 128 < 128 ^ width := by
        rw [Nat.pow_succ] at fits
        omega
      have room : 0 < width := by
        rcases Nat.eq_zero_or_pos width with rfl | room
        · rw [Nat.pow_zero] at fits
          omega
        · exact room
      obtain ⟨left, high, back⟩ := ih (n / 128) room fits middle later
      have value : (UInt8.ofNat (n % 128 + 128)).toNat = n % 128 + 128 := by
        rw [UInt8.toNat_ofNat']
        omega
      refine ⟨left, ?_, back⟩
      simp only [read, one, value, high, Option.map_some]
      rw [if_neg (by omega)]
      congr 2
      omega

/-- The bytes of a number are only read once all of them are there. -/
theorem read_cut (width n : Nat) (pieces : List (List UInt8)) (missing : List UInt8) (some_missing : missing ≠ [])
    (joined : pieces.flatten ++ missing = encode width n) : read width pieces = none := by
  induction width generalizing n pieces with
  | zero => rfl
  | succ width ih =>
    cases front : pieces.flatten with
    | nil =>
      simp only [read, read_one_ended pieces front]
    | cons b later =>
      obtain ⟨left, one, back⟩ := read_one_joined pieces b later front
      rw [front] at joined
      unfold encode at joined
      split at joined
      next small =>
        obtain ⟨-, -, rfl⟩ : b = UInt8.ofNat n ∧ later = [] ∧ missing = [] := by simpa using joined
        exact absurd rfl some_missing
      next large =>
        obtain ⟨rfl, tail⟩ := List.cons.inj joined
        have value : (UInt8.ofNat (n % 128 + 128)).toNat = n % 128 + 128 := by
          rw [UInt8.toNat_ofNat']
          omega
        have none_yet := ih (n / 128) left (back ▸ tail)
        simp only [read, one, value, none_yet, Option.map_none]
        rw [if_neg (by omega)]

theorem parse_frame (width : Nat) (payload rest : List UInt8) (room : 0 < width)
    (fits : payload.length < 128 ^ width) : parse width (frame width payload ++ rest) = some (payload, rest) := by
  obtain ⟨middle, length, later⟩ := read_encoded width payload.length room fits [frame width payload ++ rest]
    (payload ++ rest) (by simp [frame])
  obtain ⟨left, whole, back⟩ := read_exact_joined middle payload rest later
  simp only [parse, length, Option.bind_some, whole, Option.map_some, back]

theorem parse_cut (width : Nat) (payload buffer missing : List UInt8) (room : 0 < width)
    (fits : payload.length < 128 ^ width) (some_missing : missing ≠ []) (joined : buffer ++ missing = frame width payload) :
    parse width buffer = none := by
  rcases List.append_eq_append_iff.mp joined with ⟨tail, front, back⟩ | ⟨tail, rfl, back⟩
  · -- the length itself is cut
    by_cases ended : tail = []
    · subst ended
      rw [List.append_nil] at front
      obtain ⟨left, length, later⟩ := read_encoded width payload.length room fits [buffer] [] (by simp [front])
      have positive : left.flatten.length < payload.length := by
        rw [later]
        obtain rfl : missing = payload := back
        exact List.length_pos_iff.mpr some_missing
      simp only [parse, length, Option.bind_some, read_exact_short _ _ positive, Option.map_none]
    · have cut := read_cut width payload.length [buffer] tail ended (by simp [front])
      simp only [parse, cut, Option.bind_none]
  · obtain ⟨left, length, later⟩ := read_encoded width payload.length room fits [encode width payload.length ++ tail]
      tail (by simp)
    have short : left.flatten.length < payload.length := by
      rw [later, back, List.length_append]
      have := List.length_pos_iff.mpr some_missing
      omega
    simp only [parse, length, Option.bind_some, read_exact_short _ _ short, Option.map_none]

/-- A buffer at the start of a frame holds all of it, or is not yet parsed. -/
theorem parse_front (width : Nat) (payload buffer later rest : List UInt8) (room : 0 < width)
    (fits : payload.length < 128 ^ width) (joined : buffer ++ later = frame width payload ++ rest) :
    (∃ left, parse width buffer = some (payload, left) ∧ left ++ later = rest) ∨
      parse width buffer = none ∧ later ≠ [] := by
  rcases List.append_eq_append_iff.mp joined with ⟨missing, front, back⟩ | ⟨left, rfl, back⟩
  · by_cases whole : missing = []
    · subst whole
      obtain rfl : later = rest := by simpa using back
      have parsed := parse_frame width payload [] room fits
      rw [front, List.append_nil, List.append_nil] at parsed
      exact .inl ⟨[], parsed, rfl⟩
    · refine .inr ⟨parse_cut width payload buffer missing room fits whole front.symm, ?_⟩
      rw [back]
      simp [whole]
  · exact .inl ⟨left, parse_frame width payload left room fits, back.symm⟩

end Subp2pExplorer.Lib.Varint
