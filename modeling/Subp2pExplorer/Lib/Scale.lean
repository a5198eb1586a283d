import Mathlib.Data.Nat.Log
import Mathlib.Tactic.Ring

/-! SCALE byte strings: little-endian integers of fixed width and compact
integers of four lengths. Reading is a decoder's business; what the format
promises of a decoder is that it takes back exactly what was written and
leaves the following bytes alone. -/
namespace Subp2pExplorer.Lib.Scale

/-- Little-endian bytes of a number, cut to a width. -/
def leBytes : Nat → Nat → List UInt8
  | 0, _ => []
  | width + 1, n => UInt8.ofNat (n % 256) :: leBytes width (n / 256)

def ofLeBytes : List UInt8 → Nat
  | [] => 0
  | b :: bytes => b.toNat + 256 * ofLeBytes bytes

/-- A fixed-width integer and the bytes after it. -/
def readLe (width : Nat) (input : List UInt8) : Option (Nat × List UInt8) :=
  if input.length < width then none else some (ofLeBytes (input.take width), input.drop width)

/-- The number of bytes a number needs. -/
def byteLength (n : Nat) : Nat := Nat.log 256 n + 1

/-- The compact form: the two low bits of the first byte tell its length. -/
def encodeCompact (n : Nat) : List UInt8 :=
  if n < 2 ^ 6 then [UInt8.ofNat (4 * n)]
  else if n < 2 ^ 14 then leBytes 2 (4 * n + 1)
  else if n < 2 ^ 30 then leBytes 4 (4 * n + 2)
  else
    let width := max 4 (byteLength n)
    UInt8.ofNat (4 * (width - 4) + 3) :: leBytes width n

/-- A decoder of compact integers of two widths, with the format's promise. -/
structure Decoder where
  compactU32 : List UInt8 → Option (Nat × List UInt8)
  compactU128 : List UInt8 → Option (Nat × List UInt8)
  u32_written : ∀ n < 2 ^ 32, ∀ rest, compactU32 (encodeCompact n ++ rest) = some (n, rest)
  u128_written : ∀ n < 2 ^ 128, ∀ rest, compactU128 (encodeCompact n ++ rest) = some (n, rest)

/-- A decoder that accepts the shortest form of a number and no other. -/
structure Decoder.Canonical (decoder : Decoder) : Prop where
  u32_only : ∀ n input rest, decoder.compactU32 input = some (n, rest) →
    n < 2 ^ 32 ∧ input = encodeCompact n ++ rest
  u128_only : ∀ n input rest, decoder.compactU128 input = some (n, rest) →
    n < 2 ^ 128 ∧ input = encodeCompact n ++ rest

@[simp] theorem le_bytes_length (width n : Nat) : (leBytes width n).length = width := by
  induction width generalizing n with
  | zero => rfl
  | succ width ih => simp [leBytes, ih]

theorem of_le_bytes (width n : Nat) : ofLeBytes (leBytes width n) = n % 256 ^ width := by
  induction width generalizing n with
  | zero => simp [leBytes, ofLeBytes, Nat.mod_one]
  | succ width ih =>
    have low : (UInt8.ofNat (n % 256)).toNat = n % 256 := by
      simp [UInt8.toNat_ofNat']
    have split : n % 256 ^ (width + 1) = n % 256 + 256 * (n / 256 % 256 ^ width) := by
      rw [Nat.pow_succ', Nat.mod_mul]
    rw [leBytes, ofLeBytes, low, ih, split]

theorem read_le_written (width n : Nat) (fits : n < 256 ^ width) (rest : List UInt8) :
    readLe width (leBytes width n ++ rest) = some (n, rest) := by
  have long : ¬ (leBytes width n ++ rest).length < width := by simp
  have front : (leBytes width n ++ rest).take width = leBytes width n := by
    rw [List.take_left' (le_bytes_length width n)]
  have back : (leBytes width n ++ rest).drop width = rest := by
    rw [List.drop_left' (le_bytes_length width n)]
  rw [readLe, if_neg long, front, back, of_le_bytes, Nat.mod_eq_of_lt fits]

theorem lt_byte_length (n : Nat) : n < 256 ^ byteLength n := by
  exact Nat.lt_pow_succ_log_self (by decide) n

/-- The length of a list is written in one byte when it is below 64. -/
theorem compact_small (n : Nat) (small : n < 64) : encodeCompact n = [UInt8.ofNat (4 * n)] := by
  simp [encodeCompact, small]

section Reference

/-- The value of a compact integer of at most `bits` bits, written as short as
it can be. -/
def readCompact (bits : Nat) (input : List UInt8) : Option (Nat × List UInt8) :=
  match input with
  | [] => none
  | first :: tail =>
    if first.toNat % 4 = 0 then some (first.toNat / 4, tail)
    else if first.toNat % 4 = 1 then
      (readLe 2 input).bind fun read =>
        if 2 ^ 6 ≤ read.1 / 4 then some (read.1 / 4, read.2) else none
    else if first.toNat % 4 = 2 then
      (readLe 4 input).bind fun read =>
        if 2 ^ 14 ≤ read.1 / 4 then some (read.1 / 4, read.2) else none
    else
      (readLe (first.toNat / 4 + 4) tail).bind fun read =>
        if 2 ^ 30 ≤ read.1 ∧ 256 ^ (first.toNat / 4 + 3) ≤ max read.1 (256 ^ 3) ∧ read.1 < 2 ^ bits then
          some read
        else none

private theorem le_bytes_first (width n : Nat) :
    leBytes (width + 1) n = UInt8.ofNat (n % 256) :: leBytes width (n / 256) := rfl

private theorem first_byte (n : Nat) : (UInt8.ofNat (n % 256)).toNat = n % 256 := by
  simp [UInt8.toNat_ofNat']

private theorem wide_length (n bits : Nat) (large : 2 ^ 30 ≤ n) (fits : n < 2 ^ bits) (words : bits ≤ 256) :
    max 4 (byteLength n) ≤ 67 := by
  have enough : n < 256 ^ 32 := by
    calc n < 2 ^ bits := fits
      _ ≤ 2 ^ 256 := Nat.pow_le_pow_right (by decide) words
      _ = 256 ^ 32 := by norm_num
  have short : Nat.log 256 n < 32 := Nat.log_lt_of_lt_pow (by omega) enough
  unfold byteLength
  omega

/-- Reading back a written number, for every width up to 256 bits. -/
theorem read_compact_written (bits n : Nat) (fits : n < 2 ^ bits) (words : bits ≤ 256)
    (rest : List UInt8) : readCompact bits (encodeCompact n ++ rest) = some (n, rest) := by
  unfold encodeCompact
  split
  · rename_i one
    have value : (UInt8.ofNat (4 * n)).toNat = 4 * n := by
      simp only [UInt8.toNat_ofNat']
      omega
    simp only [List.singleton_append, readCompact, value]
    rw [if_pos (by omega), show 4 * n / 4 = n by omega]
  · split
    · rename_i one two
      have read := read_le_written 2 (4 * n + 1) (by omega) rest
      rw [le_bytes_first, List.cons_append] at read ⊢
      rw [readCompact, first_byte, if_neg (by omega), if_pos (by omega), read, Option.bind_some,
        if_pos (by omega), show (4 * n + 1) / 4 = n by omega]
    · split
      · rename_i one two four
        have read := read_le_written 4 (4 * n + 2) (by omega) rest
        rw [le_bytes_first, List.cons_append] at read ⊢
        rw [readCompact, first_byte, if_neg (by omega), if_neg (by omega), if_pos (by omega), read,
          Option.bind_some, if_pos (by omega), show (4 * n + 2) / 4 = n by omega]
      · rename_i one two four
        have large : 2 ^ 30 ≤ n := by omega
        have short := wide_length n bits large fits words
        generalize widthDef : max 4 (byteLength n) = width at short
        have value : (UInt8.ofNat (4 * (width - 4) + 3)).toNat = 4 * (width - 4) + 3 := by
          simp only [UInt8.toNat_ofNat']
          omega
        have room : n < 256 ^ width :=
          Nat.lt_of_lt_of_le (lt_byte_length n) (Nat.pow_le_pow_right (by decide) (by omega))
        have minimal : 256 ^ (width - 1) ≤ max n (256 ^ 3) := by
          by_cases narrow : byteLength n ≤ 4
          · have four : width - 1 = 3 := by omega
            rw [four]
            exact Nat.le_max_right _ _
          · have same : width - 1 = Nat.log 256 n := by
              unfold byteLength at narrow widthDef
              omega
            rw [same]
            exact Nat.le_trans (Nat.pow_log_le_self 256 (by omega)) (Nat.le_max_left _ _)
        have read := read_le_written width n room rest
        rw [List.cons_append, readCompact, value, if_neg (by omega), if_neg (by omega), if_neg (by omega),
          show (4 * (width - 4) + 3) / 4 + 4 = width by omega,
          show (4 * (width - 4) + 3) / 4 + 3 = width - 1 by omega, read, Option.bind_some,
          if_pos ⟨large, minimal, fits⟩]

/-! ## What is accepted was written -/

theorem le_bytes_of (bytes : List UInt8) : leBytes bytes.length (ofLeBytes bytes) = bytes := by
  induction bytes with
  | nil => rfl
  | cons b bytes ih =>
    have bound := b.toNat_lt
    have low : (b.toNat + 256 * ofLeBytes bytes) % 256 = b.toNat := by omega
    have high : (b.toNat + 256 * ofLeBytes bytes) / 256 = ofLeBytes bytes := by omega
    rw [List.length_cons, ofLeBytes, leBytes, low, high, ih, UInt8.ofNat_toNat]

theorem of_le_bytes_lt (bytes : List UInt8) : ofLeBytes bytes < 256 ^ bytes.length := by
  have written := of_le_bytes bytes.length (ofLeBytes bytes)
  rw [le_bytes_of] at written
  rw [written]
  exact Nat.mod_lt _ (Nat.pow_pos (by decide))

theorem read_le_only (width n : Nat) (input rest : List UInt8) (read : readLe width input = some (n, rest)) :
    n < 256 ^ width ∧ input = leBytes width n ++ rest := by
  unfold readLe at read
  split at read
  · cases read
  · rename_i long
    cases read
    have length : (input.take width).length = width := by
      rw [List.length_take]
      omega
    have bound := of_le_bytes_lt (input.take width)
    have bytes := le_bytes_of (input.take width)
    rw [length] at bound bytes
    exact ⟨bound, by rw [bytes, List.take_append_drop]⟩

/-- A number read in the big form is written in as many bytes as were read. -/
private theorem wide_form (n width : Nat) (wide : 4 ≤ width) (bound : n < 256 ^ width)
    (minimal : 256 ^ (width - 1) ≤ max n (256 ^ 3)) : max 4 (byteLength n) = width := by
  by_cases four : width = 4
  · subst four
    have log : Nat.log 256 n < 4 := by
      by_cases zero : n = 0
      · simp [zero]
      · exact Nat.log_lt_of_lt_pow zero bound
    unfold byteLength
    omega
  · have more : 256 ^ 3 < 256 ^ (width - 1) := Nat.pow_lt_pow_right (by decide) (by omega)
    have least : 256 ^ (width - 1) ≤ n := by omega
    have log : Nat.log 256 n = width - 1 := by
      rw [Nat.log_eq_iff (by omega)]
      exact ⟨least, by rwa [Nat.sub_add_cancel (by omega)]⟩
    unfold byteLength
    omega

private theorem mode_of (n width : Nat) (first : UInt8) (tail rest : List UInt8)
    (split : first :: tail = leBytes (width + 1) n ++ rest) : n % 256 = first.toNat := by
  rw [le_bytes_first, List.cons_append] at split
  rw [(List.cons.inj split).1, first_byte]

/-- The reader takes the written form of a number and nothing else. -/
theorem read_compact_only (bits n : Nat) (words : 30 ≤ bits) (input rest : List UInt8)
    (read : readCompact bits input = some (n, rest)) : n < 2 ^ bits ∧ input = encodeCompact n ++ rest := by
  have room : 2 ^ 30 ≤ 2 ^ bits := Nat.pow_le_pow_right (by decide) words
  cases input with
  | nil => cases read
  | cons first tail =>
    have bound := first.toNat_lt
    rw [readCompact] at read
    split at read
    · cases read
      refine ⟨by omega, ?_⟩
      rw [compact_small _ (by omega), show 4 * (first.toNat / 4) = first.toNat by omega, UInt8.ofNat_toNat,
        List.singleton_append]
    · split at read
      · obtain ⟨⟨value, after⟩, two, kept⟩ := Option.bind_eq_some_iff.mp read
        obtain ⟨small, written⟩ := read_le_only 2 value _ after two
        have mode := mode_of value 1 first tail after written
        split at kept
        · cases kept
          refine ⟨by omega, ?_⟩
          rw [written, encodeCompact, if_neg (by omega), if_pos (by omega),
            show 4 * (value / 4) + 1 = value by omega]
        · cases kept
      · split at read
        · obtain ⟨⟨value, after⟩, four, kept⟩ := Option.bind_eq_some_iff.mp read
          obtain ⟨small, written⟩ := read_le_only 4 value _ after four
          have mode := mode_of value 3 first tail after written
          split at kept
          · cases kept
            refine ⟨by omega, ?_⟩
            rw [written, encodeCompact, if_neg (by omega), if_neg (by omega), if_pos (by omega),
              show 4 * (value / 4) + 2 = value by omega]
          · cases kept
        · obtain ⟨⟨value, after⟩, many, kept⟩ := Option.bind_eq_some_iff.mp read
          obtain ⟨small, written⟩ := read_le_only _ value _ after many
          split at kept
          · rename_i fits
            cases kept
            have width := wide_form n (first.toNat / 4 + 4) (by omega) small fits.2.1
            refine ⟨fits.2.2, ?_⟩
            rw [written, encodeCompact, if_neg (by omega), if_neg (by omega), if_neg (by omega)]
            dsimp only
            rw [width, show 4 * (first.toNat / 4 + 4 - 4) + 3 = first.toNat by omega, UInt8.ofNat_toNat,
              List.cons_append]
          · cases kept

/-- A decoder that reads the compact form as written. -/
def Decoder.reference : Decoder where
  compactU32 := readCompact 32
  compactU128 := readCompact 128
  u32_written n fits rest := read_compact_written 32 n fits (by decide) rest
  u128_written n fits rest := read_compact_written 128 n fits (by decide) rest

theorem reference_canonical : Decoder.reference.Canonical where
  u32_only n input rest := read_compact_only 32 n (by decide) input rest
  u128_only n input rest := read_compact_only 128 n (by decide) input rest

end Reference
end Subp2pExplorer.Lib.Scale
