import Mathlib.Logic.Basic

/-! Lossy UTF-8 decoding. Every maximal prefix of a character that the bytes
break off becomes one replacement character, and the byte that broke it is
read again as the start of the next character. -/
namespace Subp2pExplorer.Lib.Utf8

/-- A character whose first bytes were read: its bits so far, the bytes still
owed, and the range the next one must lie in. -/
structure Pending where
  bits : Nat
  owed : Nat
  low : UInt8
  high : UInt8

/-- What the first byte of a character leads to. -/
inductive Start where
  | char (c : Char)
  | invalid
  | more (pending : Pending)

def start (b : UInt8) : Start :=
  if b < 0x80 then .char (Char.ofNat b.toNat)
  else if b < 0xC2 then .invalid
  else if b < 0xE0 then .more ⟨b.toNat % 32, 1, 0x80, 0xBF⟩
  else if b = 0xE0 then .more ⟨0, 2, 0xA0, 0xBF⟩
  else if b = 0xED then .more ⟨13, 2, 0x80, 0x9F⟩
  else if b < 0xF0 then .more ⟨b.toNat % 16, 2, 0x80, 0xBF⟩
  else if b = 0xF0 then .more ⟨0, 3, 0x90, 0xBF⟩
  else if b < 0xF4 then .more ⟨b.toNat % 8, 3, 0x80, 0xBF⟩
  else if b = 0xF4 then .more ⟨4, 3, 0x80, 0x8F⟩
  else .invalid

def replacement : Char := Char.ofNat 0xFFFD

mutual

/-- The characters of these bytes, read from between two characters. -/
def chars : List UInt8 → List Char
  | [] => []
  | b :: bytes =>
    match start b with
    | .char c => c :: chars bytes
    | .invalid => replacement :: chars bytes
    | .more pending => continued pending bytes

/-- The characters of these bytes, read from inside a character. -/
def continued (pending : Pending) : List UInt8 → List Char
  | [] => [replacement]
  | b :: bytes =>
    if pending.low ≤ b ∧ b ≤ pending.high then
      let bits := pending.bits * 64 + b.toNat % 64
      if pending.owed = 1 then Char.ofNat bits :: chars bytes
      else continued ⟨bits, pending.owed - 1, 0x80, 0xBF⟩ bytes
    else
      -- The unfinished character ends here and this byte starts afresh.
      replacement :: match start b with
        | .char c => c :: chars bytes
        | .invalid => replacement :: chars bytes
        | .more pending => continued pending bytes

end

/-- `String::from_utf8_lossy`. -/
def fromUtf8Lossy (bytes : List UInt8) : String := String.ofList (chars bytes)

theorem continued_nonempty (pending : Pending) (bytes : List UInt8) : continued pending bytes ≠ [] := by
  induction bytes generalizing pending with
  | nil => simp [continued]
  | cons b bytes ih =>
    rw [continued]
    split
    · dsimp only
      split
      · simp
      · exact ih _
    · simp

/-- No byte is dropped without a trace: some text comes of any bytes at all. -/
theorem lossy_empty_iff (bytes : List UInt8) : fromUtf8Lossy bytes = "" ↔ bytes = [] := by
  rw [fromUtf8Lossy, String.ofList_eq_empty_iff]
  cases bytes with
  | nil => simp [chars]
  | cons b bytes =>
    have some_char : chars (b :: bytes) ≠ [] := by
      rw [chars]
      cases start b with
      | char c => simp
      | invalid => simp
      | more pending => exact continued_nonempty pending bytes
    simp [some_char]

example : fromUtf8Lossy [0x41, 0xE2, 0x82, 0xAC, 0xF0, 0x9F, 0x41, 0xFF] = "A€\uFFFDA\uFFFD" := by decide

end Subp2pExplorer.Lib.Utf8
