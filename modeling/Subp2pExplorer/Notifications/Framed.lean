import Subp2pExplorer.Lib.Varint
import Subp2pExplorer.Notifications.Wire

/-! A varint library and a framed socket as the upgrades expect them: seven bits
a byte, and two buffers around a socket. -/
namespace Subp2pExplorer.Notifications
open Subp2pExplorer.Lib

/-- Lengths in seven bits a byte; ten bytes hold every `usize`. -/
def Varint.leb128 : Varint where
  encode := Lib.Varint.encode 10
  readUsize socket :=
    match Lib.Varint.read 10 socket.input with
    | some (n, input) => (.ok n, { socket with input })
    | none => (.error (.io (socket.broken.getD ⟨"UnexpectedEof"⟩)), { socket with input := [] })
  read_encoded := by
    intro n fits socket rest joined
    obtain ⟨left, read, back⟩ := Lib.Varint.read_encoded 10 n (by simp) (by omega) socket.input rest joined
    exact ⟨left, by rw [read], back⟩
  read_cut := by
    intro n _ socket missing some_missing joined
    rw [Lib.Varint.read_cut 10 n socket.input missing some_missing joined]
    exact ⟨_, _, rfl⟩

/-- A socket between a read buffer and a write buffer. -/
structure Framed where
  socket : Socket
  readBuffer : Bytes
  writeBuffer : Bytes

namespace Framed

/-- The next frame: out of the read buffer, or of what the next pieces add. -/
def pull (broken : Option IoError) : Bytes → List Bytes → Poll (Option (Except IoError Bytes)) × Bytes × List Bytes
  | buffer, pieces =>
    match Lib.Varint.parse 10 buffer with
    | some (item, left) => (.ready (some (.ok item)), left, pieces)
    | none =>
      match pieces with
      | [] =>
        match broken with
        | some error => (.ready (some (.error error)), buffer, [])
        | none => if buffer = [] then (.ready none, [], []) else (.ready (some (.error ⟨"UnexpectedEof"⟩)), buffer, [])
      | piece :: pieces => if piece = [] then (.pending, buffer, pieces) else pull broken (buffer ++ piece) pieces

def flush (framed : Framed) : Poll (Except IoError Unit) × Framed :=
  match framed.socket.writeAll framed.writeBuffer with
  | (.ok (), socket) => (.ready (.ok ()), { framed with socket, writeBuffer := [] })
  | (.error error, socket) => (.ready (.error error), { framed with socket })

def transport : Transport Framed Unit where
  pollReady framed w := (.ready (.ok ()), framed, w)
  startSend item framed w :=
    (.ok (), { framed with writeBuffer := framed.writeBuffer ++ Varint.leb128.frame item }, w)
  pollFlush framed w := let (outcome, framed) := framed.flush; (outcome, framed, w)
  pollClose framed w := let (outcome, framed) := framed.flush; (outcome, framed, w)
  pollNext framed w :=
    let (outcome, readBuffer, input) := pull framed.socket.broken framed.readBuffer framed.socket.input
    (outcome, { framed with socket := { framed.socket with input }, readBuffer }, w)

def parts : FramedParts Framed where
  unread framed := framed.readBuffer ++ framed.socket.input.flatten
  written framed := framed.socket.output
  buffered := writeBuffer
  waits framed := framed.socket.input.countP (· = [])

variable {broken : Option IoError} {buffer : Bytes} {pieces : List Bytes}

theorem pull_parsed {item left : Bytes} (parsed : Lib.Varint.parse 10 buffer = some (item, left)) :
    pull broken buffer pieces = (.ready (some (.ok item)), left, pieces) := by
  unfold pull
  simp only [parsed]

theorem pull_waits (unparsed : Lib.Varint.parse 10 buffer = none) :
    pull broken buffer ([] :: pieces) = (.pending, buffer, pieces) := by
  unfold pull
  simp only [unparsed]
  rfl

theorem pull_more {piece : Bytes} (unparsed : Lib.Varint.parse 10 buffer = none) (nonempty : piece ≠ []) :
    pull broken buffer (piece :: pieces) = pull broken (buffer ++ piece) pieces := by
  rw [pull]
  simp only [unparsed, if_neg nonempty]

/-- Pulling gives out the first frame, or finds nothing and has used up a wait. -/
theorem pull_frame (item rest : Bytes) (fits : item.length < 2 ^ 64)
    (joined : buffer ++ pieces.flatten = Varint.leb128.frame item ++ rest) :
    match pull broken buffer pieces with
    | (.ready (some (.ok given)), left, later) => given = item ∧ left ++ later.flatten = rest ∧
        later.countP (· = []) ≤ pieces.countP (· = [])
    | (.ready (some (.error _)), left, later) => left ++ later.flatten = buffer ++ pieces.flatten
    | (.ready none, _, _) => False
    | (.pending, left, later) => left ++ later.flatten = buffer ++ pieces.flatten ∧
        later.countP (· = []) < pieces.countP (· = []) := by
  have fits : item.length < 128 ^ 10 := by omega
  induction pieces generalizing buffer with
  | nil =>
    rcases Lib.Varint.parse_front 10 item buffer [] rest (by simp) fits joined with
      ⟨left, parsed, back⟩ | ⟨_, nothing⟩
    · rw [pull_parsed parsed]
      exact ⟨rfl, back, Nat.le_refl _⟩
    · exact absurd rfl nothing
  | cons piece pieces ih =>
    rcases Lib.Varint.parse_front 10 item buffer _ rest (by simp) fits joined with
      ⟨left, parsed, back⟩ | ⟨unparsed, _⟩
    · rw [pull_parsed parsed]
      exact ⟨rfl, back, Nat.le_refl _⟩
    · by_cases empty : piece = []
      · subst empty
        rw [pull_waits unparsed]
        simp
      · have later := @ih (buffer ++ piece) (by simpa using joined)
        rw [pull_more unparsed empty]
        simpa [empty] using later

/-- Nothing is given out of nothing. -/
theorem pull_ended (ended : pieces.flatten = []) :
    (pull broken [] pieces).2.1 ++ (pull broken [] pieces).2.2.flatten = [] ∧
      ∀ given, (pull broken [] pieces).1 ≠ .ready (some (.ok given)) := by
  have unparsed : Lib.Varint.parse 10 [] = none := rfl
  cases pieces with
  | nil => cases broken <;> simp [pull, unparsed]
  | cons piece pieces =>
    rw [List.flatten_cons, List.append_eq_nil_iff] at ended
    obtain ⟨rfl, ended⟩ := ended
    rw [pull_waits unparsed]
    exact ⟨ended, by rintro given ⟨⟩⟩

theorem flush_writes (framed : Framed) : parts.Writes framed framed.flush.2 := by
  obtain ⟨⟨input, output, broken⟩, readBuffer, writeBuffer⟩ := framed
  cases broken with
  | some error => exact ⟨rfl, [], by simp [parts, flush, Socket.writeAll]⟩
  | none => exact ⟨rfl, writeBuffer, by simp [parts, flush, Socket.writeAll]⟩

/-- A socket framed by the length-prefixed codec. -/
def framing : Framing Varint.leb128 Framed Unit where
  toFramedParts := parts
  new socket := ⟨socket, [], []⟩
  transport := transport
  new_unread _ := rfl
  new_written _ := rfl
  new_buffered _ := rfl
  ready_writes _ _ := ⟨rfl, [], by simp [transport]⟩
  flush_writes f _ := f.flush_writes
  flush_empties := by
    rintro ⟨⟨input, output, broken⟩, readBuffer, writeBuffer⟩ w f' w' flushed
    cases broken with
    | some error => cases flushed
    | none => cases flushed; rfl
  close_writes f _ := f.flush_writes
  send_queues := by
    rintro item f w f' w' sent
    cases sent
    exact ⟨rfl, rfl, rfl⟩
  send_fails := by
    rintro item f w error f' w' sent
    cases sent
  next_writes_nothing _ _ := ⟨rfl, rfl⟩
  next_frame := by
    intro f w item rest fits joined
    have pulled := @pull_frame f.socket.broken f.readBuffer f.socket.input item rest fits joined
    revert pulled
    simp only [transport]
    rcases pull f.socket.broken f.readBuffer f.socket.input with ⟨(_ | _ | _) | _, left, later⟩ <;> exact id
  next_ended := by
    intro f w ended
    obtain ⟨⟨input, output, broken⟩, readBuffer, writeBuffer⟩ := f
    obtain ⟨rfl, ended⟩ := List.append_eq_nil_iff.mp ended
    exact pull_ended ended

end Framed
end Subp2pExplorer.Notifications
