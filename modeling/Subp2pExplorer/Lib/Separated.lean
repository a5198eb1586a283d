import Mathlib.Data.List.DropRight

/-! Texts of pieces between separators. White space around a piece does not
count, so one list of pieces has many texts; none of them is read as another
list, as long as no piece holds the separator or white space. -/
namespace Subp2pExplorer.Lib.Separated

/-- White space as Unicode has it. -/
def isWhiteSpace (c : Char) : Bool :=
  (9 ≤ c.toNat ∧ c.toNat ≤ 13) ∨ c.toNat = 0x20 ∨ c.toNat = 0x85 ∨ c.toNat = 0xA0 ∨ c.toNat = 0x1680 ∨
    (0x2000 ≤ c.toNat ∧ c.toNat ≤ 0x200A) ∨ c.toNat = 0x2028 ∨ c.toNat = 0x2029 ∨ c.toNat = 0x202F ∨
    c.toNat = 0x205F ∨ c.toNat = 0x3000

/-- A text without the white space at its ends. -/
def trim (text : String) : String :=
  .ofList ((text.toList.dropWhile isWhiteSpace).rdropWhile isWhiteSpace)

/-- The pieces of a text, trimmed. A text without a separator is one piece. -/
def pieces (separator : Char) (text : String) : List String :=
  (text.toList.splitOn separator).map fun piece => trim (.ofList piece)

/-- Nothing but white space. -/
def Blank (text : String) : Prop := ∀ c ∈ text.toList, isWhiteSpace c = true

/-- A piece that the reader gives back as it is. -/
def Plain (separator : Char) (piece : String) : Prop := ∀ c ∈ piece.toList, c ≠ separator ∧ isWhiteSpace c = false

/-- A piece between what stands around it. -/
structure Padded where
  before : String
  piece : String
  after : String

def Padded.text (padded : Padded) : String := padded.before ++ padded.piece ++ padded.after

private theorem drop_none {p : Char → Bool} {front back : List Char} (kept : ∀ c ∈ front, p c = false)
    (dropped : ∀ c ∈ back, p c = true) : (front ++ back).rdropWhile p = front := by
  unfold List.rdropWhile
  rw [List.reverse_append, List.dropWhile_append_of_pos fun c member => dropped c (List.mem_reverse.mp member)]
  cases shape : front.reverse with
  | nil => simpa using shape.symm
  | cons c rest =>
    have last : p c = false := kept c (List.mem_reverse.mp (shape ▸ List.mem_cons_self))
    rw [List.dropWhile_cons_of_neg (by simp [last]), ← shape, List.reverse_reverse]

theorem trim_padded {separator : Char} {padded : Padded} (before : Blank padded.before)
    (plain : Plain separator padded.piece) (after : Blank padded.after) : trim padded.text = padded.piece := by
  have kept : ∀ c ∈ padded.piece.toList, isWhiteSpace c = false := fun c member => (plain c member).2
  unfold trim Padded.text
  rw [String.toList_append, String.toList_append, List.append_assoc, List.dropWhile_append_of_pos before]
  cases shape : padded.piece.toList with
  | nil =>
    have none : padded.after.toList.dropWhile isWhiteSpace = [] := List.dropWhile_eq_nil_iff.mpr after
    rw [List.nil_append, none, List.rdropWhile_nil, ← shape, String.ofList_toList]
  | cons c rest =>
    have first : isWhiteSpace c = false := kept c (shape ▸ List.mem_cons_self)
    rw [List.cons_append, List.dropWhile_cons_of_neg (by simp [first]), ← List.cons_append, ← shape,
      drop_none kept after, String.ofList_toList]

/-- Joined pieces are read back, whatever white space was put around them. -/
theorem pieces_joined (separator : Char) (blank : isWhiteSpace separator = false) {padded : List Padded}
    (nonempty : padded ≠ []) (before : ∀ p ∈ padded, Blank p.before)
    (plain : ∀ p ∈ padded, Plain separator p.piece) (after : ∀ p ∈ padded, Blank p.after) :
    pieces separator ((String.singleton separator).intercalate (padded.map Padded.text)) =
      padded.map Padded.piece := by
  have apart : ∀ text ∈ (padded.map Padded.text).map String.toList, separator ∉ text := by
    intro text mapped found
    rw [List.map_map] at mapped
    obtain ⟨p, member, rfl⟩ := List.mem_map.mp mapped
    rw [Function.comp_apply, Padded.text, String.toList_append, String.toList_append, List.mem_append, List.mem_append] at found
    rcases found with (ahead | inside) | behind
    · exact absurd (before p member separator ahead) (by simp [blank])
    · exact (plain p member separator inside).1 rfl
    · exact absurd (after p member separator behind) (by simp [blank])
  unfold pieces
  rw [String.toList_intercalate, String.toList_singleton, List.splitOn_intercalate separator apart (by simpa),
    List.map_map, List.map_map]
  refine List.map_congr_left fun p member => ?_
  show trim (.ofList p.text.toList) = p.piece
  rw [String.ofList_toList]
  exact trim_padded (before p member) (plain p member) (after p member)

end Subp2pExplorer.Lib.Separated
