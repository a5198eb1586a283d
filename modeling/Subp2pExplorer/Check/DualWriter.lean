import Subp2pExplorer.Authorities.Record
import Subp2pExplorer.Lib.Streams

/-! The log of the authority check. What is printed goes to the log with its
escape sequences taken out, write by write. A text that is cut differently, or
in which a sequence stands inside the introducer of another, brings introducers
into the log. -/
namespace Subp2pExplorer.Check
open Lib Authorities

def escape : UInt8 := 0x1b

/-- `[`. -/
def bracket : UInt8 := 0x5b

/-- The text behind the next `m`. -/
def behindM (buf : Bytes) : Bytes := (buf.dropWhile (· ≠ 0x6d)).drop 1

/-- A sequence takes bytes away. -/
theorem behind_sequence_length (b : UInt8) (rest : Bytes) :
    (behindM (rest.drop 1)).length < (b :: rest).length := by
  unfold behindM
  have tail := List.IsSuffix.length_le (List.dropWhile_suffix (l := rest.drop 1) (· ≠ 0x6d))
  simp only [List.length_drop, List.length_cons] at tail ⊢
  omega

/-- `strip_ansi`. -/
def stripAnsi : Bytes → Bytes
  | [] => []
  | b :: rest =>
    if b = escape ∧ rest.head? = some bracket then stripAnsi (behindM (rest.drop 1)) else b :: stripAnsi rest
termination_by buf => buf.length
decreasing_by
  · exact behind_sequence_length b rest
  · simp

structure DualWriter where
  stdout : Bytes
  file : Option Bytes

namespace DualWriter

def new (file : Option Bytes) : DualWriter := ⟨[], file⟩

/-- One call of `write`, which takes all it is given. -/
def write (w : DualWriter) (buf : Bytes) : DualWriter where
  stdout := w.stdout ++ buf
  file := w.file.map (· ++ stripAnsi buf)

end DualWriter

section Pieces

/-- A text consists of escape sequences, the last perhaps unfinished, and of
the bytes between them. -/
inductive Piece where
  | byte (b : UInt8)
  | sequence (body : Bytes)
  deriving DecidableEq

namespace Piece

def text : Piece → Bytes
  | byte b => [b]
  | sequence body => escape :: bracket :: body

def kept : Piece → Option UInt8
  | byte b => some b
  | sequence _ => none

end Piece

/-- The text up to the next `m`, and with it. -/
def upToM (buf : Bytes) : Bytes := buf.takeWhile (· ≠ 0x6d) ++ (buf.dropWhile (· ≠ 0x6d)).take 1

/-- The pieces of a text. Each introducer that is not inside a sequence begins
one. -/
def pieces : Bytes → List Piece
  | [] => []
  | b :: rest =>
    if b = escape ∧ rest.head? = some bracket then .sequence (upToM (rest.drop 1)) :: pieces (behindM (rest.drop 1))
    else .byte b :: pieces rest
termination_by buf => buf.length
decreasing_by
  · exact behind_sequence_length b rest
  · simp

theorem up_to_behind (buf : Bytes) : upToM buf ++ behindM buf = buf := by
  unfold upToM behindM
  rw [List.append_assoc, List.take_append_drop, List.takeWhile_append_dropWhile]

/-- The pieces are the whole text. -/
theorem pieces_text (buf : Bytes) : (pieces buf).flatMap Piece.text = buf := by
  fun_induction pieces buf with
  | case1 => rfl
  | case2 b rest introducer ih =>
    obtain ⟨rfl, next⟩ := introducer
    obtain ⟨tail, rfl⟩ := List.head?_eq_some_iff.mp next
    rw [List.flatMap_cons, ih]
    simp [Piece.text, up_to_behind]
  | case3 b rest plain ih =>
    rw [List.flatMap_cons, ih]
    rfl

/-- Stripping keeps the bytes that belong to no sequence. -/
theorem strip_pieces (buf : Bytes) : stripAnsi buf = (pieces buf).filterMap Piece.kept := by
  fun_induction stripAnsi buf with
  | case1 => simp [pieces]
  | case2 b rest introducer ih =>
    rw [ih, pieces, if_pos introducer, List.filterMap_cons]
    rfl
  | case3 b rest plain ih =>
    rw [ih, pieces, if_neg plain, List.filterMap_cons]
    rfl

/-- The introducer of a sequence. -/
def introducer : Bytes := [escape, bracket]

/-- A text no write may leave in the log: an escape byte that begins no sequence
itself, and up to the next bracket outside of sequences nothing but sequences,
in the same write or across several. -/
def Joins (writes : List Bytes) : Prop :=
  ∃ before gap after, writes.flatMap pieces = before ++ .byte escape :: (gap ++ .byte bracket :: after) ∧
    ∀ piece ∈ gap, ∃ body, piece = .sequence body

theorem introducer_at_head {b : UInt8} {rest : Bytes} :
    introducer <+: b :: rest ↔ b = escape ∧ rest.head? = some bracket := by
  unfold introducer
  rw [List.cons_prefix_cons]
  cases rest with
  | nil => simp
  | cons c rest => simp [eq_comm]

theorem strip_length (buf : Bytes) : (stripAnsi buf).length ≤ buf.length := by
  fun_induction stripAnsi buf with
  | case1 => simp
  | case2 b rest introducer ih =>
    have skipped := behind_sequence_length b rest
    omega
  | case3 b rest plain ih =>
    simp only [List.length_cons]
    omega

/-- Stripping leaves a text alone exactly if it has no introducer. -/
theorem strip_fixed_iff (buf : Bytes) : stripAnsi buf = buf ↔ ¬introducer <:+: buf := by
  fun_induction stripAnsi buf with
  | case1 => simp [introducer]
  | case2 b rest opens ih =>
    refine iff_of_false (fun fixed => ?_) (not_not_intro (introducer_at_head.mpr opens).isInfix)
    have stripped := strip_length (behindM (rest.drop 1))
    have skipped := behind_sequence_length b rest
    rw [fixed] at stripped
    omega
  | case3 b rest plain ih =>
    have elsewhere : introducer <:+: b :: rest ↔ introducer <:+: rest := by
      rw [List.infix_cons_iff, introducer_at_head, or_iff_right plain]
    rw [elsewhere, ← ih, List.cons.injEq, and_iff_right rfl]

/-- The log is what stripping leaves of each write. -/
theorem log_written (writes : List Bytes) (w : DualWriter) :
    (writes.foldl DualWriter.write w).file = w.file.map (· ++ writes.flatMap stripAnsi) := by
  induction writes generalizing w with
  | nil => cases w with | mk stdout file => cases file <;> simp
  | cons buf writes ih =>
    rw [List.foldl_cons, ih]
    cases w with | mk stdout file => cases file <;> simp [DualWriter.write]

theorem log_introducer_iff (writes : List Bytes) : introducer <:+: writes.flatMap stripAnsi ↔ Joins writes := by
  have kept : writes.flatMap stripAnsi = (writes.flatMap pieces).filterMap Piece.kept := by
    rw [List.filterMap_flatMap]
    exact List.flatMap_congr fun buf _ => strip_pieces buf
  have byte_of : ∀ (piece : Piece) b, piece.kept = some b ↔ piece = .byte b := by
    rintro (c | body) b <;> simp [Piece.kept]
  have sequence_of : ∀ piece : Piece, piece.kept = none ↔ ∃ body, piece = .sequence body := by
    rintro (c | body) <;> simp [Piece.kept]
  rw [kept, introducer, Streams.kept_neighbors_iff]
  simp only [byte_of, sequence_of]
  constructor
  · rintro ⟨before, _, gap, _, after, split, rfl, rfl, sequences⟩
    exact ⟨before, gap, after, split, sequences⟩
  · rintro ⟨before, gap, after, split, sequences⟩
    exact ⟨before, _, gap, _, after, split, rfl, rfl, sequences⟩

/-- After any writes, cut in any way, the log has no introducer, and stripping
it once more changes nothing, exactly if no text in them joins to one. -/
theorem log_clean_iff (writes : List Bytes) : ∃ log,
    (writes.foldl DualWriter.write (.new (some []))).file = some log ∧
    (¬introducer <:+: log ↔ ¬Joins writes) ∧ (stripAnsi log = log ↔ ¬Joins writes) := by
  refine ⟨writes.flatMap stripAnsi, ?_, ?_, ?_⟩
  · rw [log_written]
    rfl
  · rw [log_introducer_iff]
  · rw [strip_fixed_iff, log_introducer_iff]

/-- A sequence inside an introducer, and an introducer in two writes, are in
the log as `ESC [`. -/
theorem joined_log_not_clean :
    (∀ writes ∈ [[[escape, escape, bracket, 0x6d, bracket]], [[escape], [bracket]]],
      (writes.foldl DualWriter.write (.new (some []))).file = some introducer) ∧
    introducer <:+: introducer ∧ stripAnsi introducer ≠ introducer := by
  have clean := strip_fixed_iff introducer
  refine ⟨?_, List.infix_rfl, fun fixed => clean.mp fixed List.infix_rfl⟩
  simp [log_written, DualWriter.new, stripAnsi, behindM, escape, bracket, introducer]

end Pieces
end Subp2pExplorer.Check
