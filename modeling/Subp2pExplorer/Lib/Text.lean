import Mathlib.Algebra.GroupWithZero.Nat
import Mathlib.Data.List.Infix

/-! Texts cut at byte offsets. An offset is good where it is the byte size of
a prefix; past the end or inside a character there is nothing to cut, and the
program that tries stops. -/
namespace Subp2pExplorer.Lib.Text

section Chars

/-- The length of the encoding. -/
def byteLen (text : List Char) : Nat := (text.map Char.utf8Size).sum

/-- A text in two at a byte offset. -/
def cut (offset : Nat) : List Char → Option (List Char × List Char)
  | [] => if offset = 0 then some ([], []) else none
  | c :: rest =>
    if offset = 0 then some ([], c :: rest)
    else if c.utf8Size ≤ offset then (cut (offset - c.utf8Size) rest).map fun parts => (c :: parts.1, parts.2)
    else none

/-- The offset of the first occurrence of a pattern. -/
def seek (pattern : List Char) : List Char → Option Nat
  | [] => if pattern.isEmpty then some 0 else none
  | c :: rest => if pattern <+: c :: rest then some 0 else (seek pattern rest).map (· + c.utf8Size)

/-- What stands before the last occurrence of a pattern. -/
def beforeLast (pattern : List Char) : List Char → Option (List Char)
  | [] => if pattern.isEmpty then some [] else none
  | c :: rest =>
    match beforeLast pattern rest with
    | some before => some (c :: before)
    | none => if pattern <+: c :: rest then some [] else none

variable {pattern text before after : List Char}

@[simp] theorem byte_len_nil : byteLen [] = 0 := rfl

@[simp] theorem byte_len_cons (c : Char) (text : List Char) : byteLen (c :: text) = c.utf8Size + byteLen text := by
  simp [byteLen]

theorem byte_len_append (before after : List Char) :
    byteLen (before ++ after) = byteLen before + byteLen after := by
  simp [byteLen]

/-- A text is cut where one of its prefixes ends, and nowhere else. -/
theorem cut_iff {offset : Nat} :
    cut offset text = some (before, after) ↔ text = before ++ after ∧ byteLen before = offset := by
  induction text generalizing offset before with
  | nil =>
    rw [cut]
    split
    · rename_i zero
      subst zero
      constructor
      · intro parts
        cases parts
        exact ⟨rfl, rfl⟩
      · rintro ⟨whole, _⟩
        obtain ⟨rfl, rfl⟩ := List.append_eq_nil_iff.mp whole.symm
        rfl
    · rename_i positive
      simp only [reduceCtorEq, false_iff, not_and]
      rintro whole size
      obtain ⟨rfl, _⟩ := List.append_eq_nil_iff.mp whole.symm
      exact positive size.symm
  | cons c rest ih =>
    have wide : 0 < c.utf8Size := Char.utf8Size_pos c
    rw [cut]
    by_cases zero : offset = 0
    · subst zero
      rw [if_pos rfl]
      cases before with
      | nil => simp [eq_comm]
      | cons d before =>
        have wide : 0 < d.utf8Size := Char.utf8Size_pos d
        simp
        omega
    · rw [if_neg zero]
      cases before with
      | nil =>
        split
        · simp [Ne.symm zero]
        · simp [Ne.symm zero]
      | cons d before =>
        split
        · rename_i fits
          simp only [Option.map_eq_some_iff, Prod.mk.injEq, List.cons.injEq, List.cons_append, byte_len_cons]
          constructor
          · rintro ⟨⟨left, right⟩, found, ⟨rfl, rfl⟩, rfl⟩
            obtain ⟨whole, size⟩ := ih.mp found
            refine ⟨⟨rfl, whole⟩, ?_⟩
            rw [size, Nat.add_sub_cancel' fits]
          · rintro ⟨⟨rfl, whole⟩, size⟩
            exact ⟨(before, after), ih.mpr ⟨whole, by omega⟩, ⟨rfl, rfl⟩, rfl⟩
        · rename_i short
          simp only [reduceCtorEq, List.cons_append, List.cons.injEq, byte_len_cons, false_iff, not_and]
          rintro ⟨rfl, _⟩
          omega

theorem cut_append (before after : List Char) : cut (byteLen before) (before ++ after) = some (before, after) :=
  cut_iff.mpr ⟨rfl, rfl⟩

/-- Nothing is found exactly where the pattern does not occur. -/
theorem seek_none : seek pattern text = none ↔ ¬pattern <:+: text := by
  induction text with
  | nil => simp [seek]
  | cons c rest ih =>
    rw [seek, List.infix_cons_iff, not_or, ← ih]
    split
    · rename_i here
      simp [here]
    · rename_i elsewhere
      simp [elsewhere]

/-- What is found is an occurrence, and none ends before it does. -/
theorem seek_some {offset : Nat} (nonempty : pattern ≠ []) (found : seek pattern text = some offset) :
    ∃ before after, text = before ++ (pattern ++ after) ∧ byteLen before = offset ∧
      ¬pattern <:+: before ++ pattern.dropLast := by
  induction text generalizing offset with
  | nil =>
    simp only [seek, Option.ite_none_right_eq_some, List.isEmpty_iff] at found
    exact absurd found.1 nonempty
  | cons c rest ih =>
    rw [seek] at found
    split at found
    · rename_i here
      cases found
      obtain ⟨after, whole⟩ := here
      refine ⟨[], after, whole.symm, rfl, fun inside => ?_⟩
      have short := inside.length_le
      have positive := List.length_pos_iff.mpr nonempty
      simp at short
      omega
    · rename_i elsewhere
      obtain ⟨earlier, deeper, rfl⟩ := Option.map_eq_some_iff.mp found
      obtain ⟨before, after, rfl, size, first⟩ := ih deeper
      refine ⟨c :: before, after, rfl, by rw [byte_len_cons, size, Nat.add_comm], ?_⟩
      rw [List.cons_append, List.infix_cons_iff, not_or]
      refine ⟨fun here => elsewhere (here.trans ?_), first⟩
      rw [List.cons_prefix_cons]
      refine ⟨rfl, (List.prefix_append_right_inj before).mpr ?_⟩
      exact (List.dropLast_prefix pattern).trans (List.prefix_append pattern after)

/-- A single character is found where the characters before it end. -/
theorem seek_char (c : Char) (text : List Char) :
    seek [c] text = if c ∈ text then some (byteLen (text.takeWhile (· ≠ c))) else none := by
  induction text with
  | nil => rfl
  | cons d rest ih =>
    rw [seek]
    by_cases same : d = c
    · subst same
      simp [List.cons_prefix_cons]
    · have other : ¬[c] <+: d :: rest := by
        rw [List.cons_prefix_cons]
        exact fun here => same here.1.symm
      rw [if_neg other, ih, List.takeWhile_cons_of_pos (by simp [same])]
      by_cases later : c ∈ rest
      · simp [later, Nat.add_comm]
      · simp [later, Ne.symm same]

end Chars

section Strings

/-- The text up to a byte offset. -/
def sliceTo (text : String) (offset : Nat) : Option String :=
  (cut offset text.toList).map fun parts => .ofList parts.1

/-- The text from a byte offset on. -/
def sliceFrom (text : String) (offset : Nat) : Option String :=
  (cut offset text.toList).map fun parts => .ofList parts.2

/-- The byte offset at which a pattern occurs first. -/
def find (text pattern : String) : Option Nat := seek pattern.toList text.toList

theorem byte_len_to_list (text : String) : byteLen text.toList = text.utf8ByteSize := by
  have of_chars : ∀ chars : List Char, byteLen chars = (String.ofList chars).utf8ByteSize := by
    intro chars
    induction chars with
    | nil => rfl
    | cons c rest ih =>
      rw [byte_len_cons, String.ofList_cons, String.utf8ByteSize_append, String.utf8ByteSize_singleton, ih]
  rw [of_chars, String.ofList_toList]

theorem slice_to_append (before after : String) :
    sliceTo (before ++ after) before.utf8ByteSize = some before := by
  rw [sliceTo, ← byte_len_to_list, String.toList_append, cut_append, Option.map_some, String.ofList_toList]

theorem slice_from_append (before after : String) :
    sliceFrom (before ++ after) before.utf8ByteSize = some after := by
  rw [sliceFrom, ← byte_len_to_list, String.toList_append, cut_append, Option.map_some, String.ofList_toList]

/-- A slice is taken exactly where a prefix ends. -/
theorem slice_to_iff {text before : String} {offset : Nat} :
    sliceTo text offset = some before ↔ ∃ after, text = before ++ after ∧ before.utf8ByteSize = offset := by
  constructor
  · intro taken
    obtain ⟨⟨left, right⟩, parts, rfl⟩ := Option.map_eq_some_iff.mp taken
    obtain ⟨whole, size⟩ := cut_iff.mp parts
    refine ⟨.ofList right, ?_, ?_⟩
    · rw [← String.toList_inj, whole, String.toList_append, String.toList_ofList, String.toList_ofList]
    · rw [← byte_len_to_list, String.toList_ofList, size]
  · rintro ⟨after, rfl, rfl⟩
    exact slice_to_append before after

/-- Whether a character starts or the text ends at a byte offset. -/
def Boundary (text : String) (offset : Nat) : Prop :=
  ∃ before after, text = before ++ after ∧ before.utf8ByteSize = offset

theorem slice_to_some {text : String} {offset : Nat} : (sliceTo text offset).isSome ↔ Boundary text offset := by
  rw [Option.isSome_iff_exists]
  exact exists_congr fun before => slice_to_iff

/-- Inside a first part the boundaries are those of that part. -/
theorem boundary_append {first : String} {offset : Nat} (inside : offset ≤ first.utf8ByteSize) (second : String) :
    Boundary (first ++ second) offset ↔ Boundary first offset := by
  constructor
  · rintro ⟨before, after, whole, size⟩
    have chars := congrArg String.toList whole
    rw [String.toList_append, String.toList_append] at chars
    rcases List.append_eq_append_iff.mp chars with ⟨more, split, _⟩ | ⟨more, split, _⟩
    · -- The cut is no earlier than the end of the first part, so it is there.
      have longer : before.utf8ByteSize = first.utf8ByteSize + byteLen more := by
        rw [← byte_len_to_list, split, byte_len_append, byte_len_to_list]
      exact ⟨first, "", by simp, by omega⟩
    · refine ⟨before, .ofList more, ?_, size⟩
      rw [← String.toList_inj, split, String.toList_append, String.toList_ofList]
  · rintro ⟨before, after, rfl, size⟩
    exact ⟨before, after ++ second, String.append_assoc, size⟩

theorem boundary_skip {first second : String} {offset : Nat} (boundary : Boundary second offset) :
    Boundary (first ++ second) (first.utf8ByteSize + offset) := by
  obtain ⟨before, after, rfl, rfl⟩ := boundary
  exact ⟨first ++ before, after, String.append_assoc.symm, String.utf8ByteSize_append⟩

theorem find_none {text pattern : String} : find text pattern = none ↔ ¬pattern.toList <:+: text.toList :=
  seek_none

theorem find_some {text pattern : String} {offset : Nat} (nonempty : pattern.toList ≠ [])
    (found : find text pattern = some offset) :
    ∃ before after, text = before ++ (pattern ++ after) ∧ before.utf8ByteSize = offset ∧
      ¬pattern.toList <:+: before.toList ++ pattern.toList.dropLast := by
  obtain ⟨before, after, whole, size, first⟩ := seek_some nonempty found
  refine ⟨.ofList before, .ofList after, ?_, ?_, ?_⟩
  · rw [← String.toList_inj, whole]
    simp only [String.toList_append, String.toList_ofList]
  · rw [← byte_len_to_list, String.toList_ofList, size]
  · rw [String.toList_ofList]
    exact first

end Strings
end Subp2pExplorer.Lib.Text
