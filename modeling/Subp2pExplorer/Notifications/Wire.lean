import Subp2pExplorer.Lib.Streams
import Subp2pExplorer.Notifications.Upgrades

/-! The two upgrades of a notification substream, down to the bytes on the
wire. The varint library and the framed socket are parameters: each comes with
what its documentation promises. -/
namespace Subp2pExplorer.Notifications
open Subp2pExplorer.Lib

/-- Maximum allowed size of the handshake message in bytes. -/
def maxHandshakeSize : Nat := 1024

/-- Why bytes are not a variable-length integer. -/
inductive DecodeError where
  | insufficient
  | overflow
  | notMinimal
  deriving DecidableEq

/-- Why no length was read. The library keeps the right to more reasons. -/
inductive ReadError where
  | io (error : IoError)
  | decode (error : DecodeError)
  | unrecognized

/-- Error generated by an upgrade. -/
inductive HandshakeError where
  /-- I/O error on the substream. -/
  | io (error : IoError)
  /-- Initial message or handshake was too large. -/
  | tooLarge (requested max : Nat)
  /-- Error while decoding the variable-length integer. -/
  | varintDecode (error : DecodeError)
  deriving DecidableEq

def HandshakeError.ofReadError : ReadError → HandshakeError
  | .io error => .io error
  | .decode error => .varintDecode error
  | .unrecognized => .io ⟨"InvalidData"⟩

/-- A substream before it is framed: the pieces in which the bytes of the remote
arrive, the bytes written to it, and the error it ends in if it breaks. -/
structure Socket where
  input : List Bytes
  output : Bytes
  broken : Option IoError

namespace Socket

def readExact (length : Nat) (socket : Socket) : Except IoError Bytes × Socket :=
  match Streams.readExact length socket.input with
  | some (read, input) => (.ok read, { socket with input })
  | none => (.error (socket.broken.getD ⟨"UnexpectedEof"⟩), { socket with input := [] })

def writeAll (bytes : Bytes) (socket : Socket) : Except IoError Unit × Socket :=
  match socket.broken with
  | some error => (.error error, socket)
  | none => (.ok (), { socket with output := socket.output ++ bytes })

def flush (socket : Socket) : Except IoError Unit × Socket :=
  match socket.broken with
  | some error => (.error error, socket)
  | none => (.ok (), socket)

end Socket

/-- Lengths as variable-length integers. What was written is read back from any
pieces without a byte of what follows, and is not read from a part of it. -/
structure Varint where
  encode : Nat → Bytes
  readUsize : Socket → Except ReadError Nat × Socket
  read_encoded : ∀ n < 2 ^ 64, ∀ (socket : Socket) (rest : Bytes), socket.input.flatten = encode n ++ rest →
    ∃ input, readUsize socket = (.ok n, { socket with input }) ∧ input.flatten = rest
  read_cut : ∀ n < 2 ^ 64, ∀ (socket : Socket) (missing : Bytes), missing ≠ [] →
    socket.input.flatten ++ missing = encode n → ∃ error left, readUsize socket = (.error error, left)

namespace Varint
variable (varint : Varint)

/-- A byte string behind its length. -/
def frame (payload : Bytes) : Bytes := varint.encode payload.length ++ payload

/-- Frames on the wire, one after the other. -/
def frames (payloads : List Bytes) : Bytes := payloads.flatMap varint.frame

end Varint

/-- The handshake of the remote, as both upgrades read it. Larger handshakes
are discarded. -/
def readHandshake (varint : Varint) (socket : Socket) : Except HandshakeError Bytes × Socket :=
  match varint.readUsize socket with
  | (.error error, socket) => (.error (.ofReadError error), socket)
  | (.ok handshakeLen, socket) =>
    if handshakeLen > maxHandshakeSize then
      (.error (.tooLarge handshakeLen maxHandshakeSize), socket)
    else if handshakeLen = 0 then (.ok [], socket)
    else
      match socket.readExact handshakeLen with
      | (.error error, socket) => (.error (.io error), socket)
      | (.ok handshake, socket) => (.ok handshake, socket)

/-- The future run to its end, with the socket as it is then: `framed` is the
codec that takes the socket over. -/
def HandshakeInbound.upgradeInbound {σ : Type} (varint : Varint) (framed : Socket → σ) (_ : HandshakeInbound)
    (socket : Socket) (negotiatedName : String) : Except HandshakeError (HandshakeInboundOpen σ) × Socket :=
  match readHandshake varint socket with
  | (.error error, socket) => (.error error, socket)
  | (.ok handshake, socket) => (.ok (HandshakeInbound.opened negotiatedName handshake (framed socket)), socket)

/-- The write half of `upgrade_outbound`. -/
def HandshakeOutbound.submit (varint : Varint) (upgrade : HandshakeOutbound) (socket : Socket) :
    Except IoError Unit × Socket :=
  match socket.writeAll (varint.encode upgrade.handshake.length) with
  | (.error error, socket) => (.error error, socket)
  | (.ok (), socket) =>
    match socket.writeAll upgrade.handshake with
    | (.error error, socket) => (.error error, socket)
    | (.ok (), socket) => socket.flush

def HandshakeOutbound.upgradeOutbound {σ : Type} (varint : Varint) (framed : Socket → σ)
    (upgrade : HandshakeOutbound) (socket : Socket) :
    Except HandshakeError (HandshakeOutboundOpen σ) × Socket :=
  match upgrade.submit varint socket with
  | (.error error, socket) => (.error (.io error), socket)
  | (.ok (), socket) =>
    match readHandshake varint socket with
    | (.error error, socket) => (.error error, socket)
    | (.ok handshake, socket) => (.ok ⟨handshake, ⟨framed socket⟩⟩, socket)

section Reading
variable {varint : Varint} {socket : Socket} {handshake rest : Bytes}

theorem read_exact_front {bytes : Bytes} (joined : socket.input.flatten = bytes ++ rest) :
    ∃ input, socket.readExact bytes.length = (.ok bytes, { socket with input }) ∧ input.flatten = rest := by
  obtain ⟨left, read, back⟩ := Streams.read_exact_joined socket.input bytes rest joined
  refine ⟨left, ?_, back⟩
  rw [Socket.readExact, read]

theorem read_handshake_fits (fits : handshake.length ≤ maxHandshakeSize)
    (joined : socket.input.flatten = varint.frame handshake ++ rest) :
    ∃ input, readHandshake varint socket = (.ok handshake, { socket with input }) ∧ input.flatten = rest := by
  rw [Varint.frame, List.append_assoc] at joined
  have bound : handshake.length < 2 ^ 64 := by
    unfold maxHandshakeSize at fits
    omega
  obtain ⟨middle, length, later⟩ := varint.read_encoded _ bound socket _ joined
  simp only [readHandshake, length]
  rw [if_neg (by omega)]
  split
  next empty =>
    obtain rfl := List.length_eq_zero_iff.mp empty
    exact ⟨middle, rfl, later⟩
  next nonempty =>
    obtain ⟨left, read, back⟩ := @read_exact_front { socket with input := middle } rest handshake later
    refine ⟨left, ?_, back⟩
    rw [read]

/-- A handshake that is too large is refused on its length alone. -/
theorem read_handshake_large (bound : handshake.length < 2 ^ 64) (large : maxHandshakeSize < handshake.length)
    (joined : socket.input.flatten = varint.frame handshake ++ rest) :
    ∃ input, readHandshake varint socket =
      (.error (.tooLarge handshake.length maxHandshakeSize), { socket with input }) ∧
      input.flatten = handshake ++ rest := by
  rw [Varint.frame, List.append_assoc] at joined
  obtain ⟨middle, length, later⟩ := varint.read_encoded _ bound socket _ joined
  refine ⟨middle, ?_, later⟩
  simp only [readHandshake, length]
  rw [if_pos large]

theorem read_exact_cut {length : Nat} (short : socket.input.flatten.length < length) :
    ∃ error left, socket.readExact length = (.error error, left) := by
  rw [Socket.readExact, Streams.read_exact_short _ _ short]
  exact ⟨_, _, rfl⟩

/-- A handshake is only read once all of it is there. -/
theorem read_handshake_cut {missing : Bytes} (bound : handshake.length < 2 ^ 64) (some_missing : missing ≠ [])
    (joined : socket.input.flatten ++ missing = varint.frame handshake) :
    ∃ error left, readHandshake varint socket = (.error error, left) := by
  have after_length : ∀ front : Bytes, front.length < handshake.length →
      socket.input.flatten = varint.encode handshake.length ++ front →
      ∃ error left, readHandshake varint socket = (.error error, left) := by
    intro front short begun
    obtain ⟨input, length, later⟩ := varint.read_encoded _ bound socket front begun
    simp only [readHandshake, length]
    rw [if_neg (by omega : ¬ handshake.length = 0)]
    split
    · exact ⟨_, _, rfl⟩
    · have cut : (⟨input, socket.output, socket.broken⟩ : Socket).input.flatten.length < handshake.length := by
        rwa [later]
      obtain ⟨error, left, failed⟩ := read_exact_cut cut
      rw [failed]
      exact ⟨_, _, rfl⟩
  rcases List.append_eq_append_iff.mp joined with ⟨tail, begun, whole⟩ | ⟨front, begun, whole⟩
  · by_cases ended : tail = []
    · subst ended
      rw [List.append_nil] at begun
      obtain rfl : missing = handshake := whole
      exact after_length [] (List.length_pos_iff.mpr some_missing) (by rw [begun, List.append_nil])
    · obtain ⟨error, left, failed⟩ := varint.read_cut _ bound socket tail ended begun.symm
      simp only [readHandshake, failed]
      exact ⟨_, _, rfl⟩
  · refine after_length front ?_ begun
    have positive := List.length_pos_iff.mpr some_missing
    rw [whole, List.length_append]
    omega

/-- No length is written as nothing. -/
theorem encode_nonempty : varint.encode 0 ≠ [] := by
  intro nothing
  obtain ⟨_, as_zero, _⟩ := varint.read_encoded 0 (by omega) ⟨[varint.encode 1], [], none⟩ (varint.encode 1)
    (by rw [nothing]; simp)
  obtain ⟨_, as_one, _⟩ := varint.read_encoded 1 (by omega) ⟨[varint.encode 1], [], none⟩ [] (by simp)
  have same := congrArg Prod.fst (as_zero.symm.trans as_one)
  cases same

/-- What is read from the beginning of a frame is what was put into it. -/
theorem read_handshake_prefix {read : Bytes} {left : Socket} (bound : handshake.length < 2 ^ 64)
    (begun : socket.input.flatten <+: varint.frame handshake)
    (ok : readHandshake varint socket = (.ok read, left)) : read = handshake := by
  obtain ⟨missing, joined⟩ := begun
  by_cases whole : missing = []
  · subst whole
    have joined : socket.input.flatten = varint.frame handshake ++ [] := by
      rw [List.append_nil] at joined ⊢
      exact joined
    rcases Nat.lt_or_ge maxHandshakeSize handshake.length with large | small
    · obtain ⟨_, refused, _⟩ := read_handshake_large bound large joined
      cases ok.symm.trans refused
    · obtain ⟨_, took, _⟩ := read_handshake_fits small joined
      cases ok.symm.trans took
      rfl
  · obtain ⟨_, _, failed⟩ := read_handshake_cut bound whole joined
    cases ok.symm.trans failed

/-- Nothing is read from nothing. -/
theorem read_handshake_nothing (ended : socket.input.flatten = []) :
    ∃ error left, readHandshake varint socket = (.error error, left) := by
  obtain ⟨error, left, failed⟩ := varint.read_cut 0 (by omega) socket _ encode_nonempty (by rw [ended]; rfl)
  simp only [readHandshake, failed]
  exact ⟨_, _, rfl⟩

theorem submit_unbroken {upgrade : HandshakeOutbound} (unbroken : socket.broken = none) :
    upgrade.submit varint socket =
      (.ok (), { socket with output := socket.output ++ varint.frame upgrade.handshake }) := by
  simp only [HandshakeOutbound.submit, Socket.writeAll, Socket.flush, unbroken, List.append_assoc]
  rfl

end Reading

section Upgrades
variable {σ : Type} {varint : Varint} {framed : Socket → σ} {socket : Socket}

theorem upgrade_inbound_reads (listening : HandshakeInbound) (negotiatedName : String) :
    let accepted := listening.upgradeInbound varint framed socket negotiatedName
    let read := readHandshake varint socket
    (accepted.1.map fun opened => (opened.handshake, opened.substream.socket)) =
        (read.1.map fun handshake => (handshake, framed read.2)) ∧ accepted.2 = read.2 ∧
      ∀ opened, accepted.1 = .ok opened → ∃ handshake, read.1 = .ok handshake ∧
        opened = HandshakeInbound.opened negotiatedName handshake (framed read.2) := by
  unfold HandshakeInbound.upgradeInbound
  rcases readHandshake varint socket with ⟨error | handshake, left⟩
  · exact ⟨rfl, rfl, nofun⟩
  · refine ⟨rfl, rfl, fun opened accepted => ⟨handshake, rfl, ?_⟩⟩
    cases accepted
    rfl

theorem upgrade_outbound_reads (dialing : HandshakeOutbound) (unbroken : socket.broken = none) :
    let dialed := dialing.upgradeOutbound varint framed socket
    let read := readHandshake varint { socket with output := socket.output ++ varint.frame dialing.handshake }
    (dialed.1.map fun opened => (opened.handshake, opened.substream.socket)) =
        (read.1.map fun handshake => (handshake, framed read.2)) ∧ dialed.2 = read.2 ∧
      ∀ opened, dialed.1 = .ok opened → ∃ handshake, read.1 = .ok handshake ∧
        opened = ⟨handshake, ⟨framed read.2⟩⟩ := by
  unfold HandshakeOutbound.upgradeOutbound
  rw [submit_unbroken unbroken]
  dsimp only
  rcases readHandshake varint _ with ⟨error | handshake, left⟩
  · exact ⟨rfl, rfl, nofun⟩
  · refine ⟨rfl, rfl, fun opened dialed => ⟨handshake, rfl, ?_⟩⟩
    cases dialed
    rfl

end Upgrades

/-- What is to be told about a framed socket: the bytes of the remote it has not
given out, those it wrote, those in its write buffer, and a bound on the polls
for a frame that may yet find nothing. -/
structure FramedParts (σ : Type) where
  unread : σ → Bytes
  written : σ → Bytes
  buffered : σ → Bytes
  waits : σ → Nat

/-- Nothing is read, and the front of the write buffer may go out. -/
structure FramedParts.Writes {σ : Type} (parts : FramedParts σ) (f f' : σ) : Prop where
  unread : parts.unread f' = parts.unread f
  out : ∃ out, parts.written f' = parts.written f ++ out ∧ parts.buffered f = out ++ parts.buffered f'

/-- A socket framed by the length-prefixed codec: what it sends goes behind its
length into the write buffer, and what it receives is given out frame by frame,
starting from the first byte of the socket it was made of. -/
structure Framing (varint : Varint) (σ ω : Type) extends FramedParts σ where
  new : Socket → σ
  transport : Transport σ ω
  new_unread : ∀ socket, unread (new socket) = socket.input.flatten
  new_written : ∀ socket, written (new socket) = socket.output
  new_buffered : ∀ socket, buffered (new socket) = []
  ready_writes : ∀ f w, toFramedParts.Writes f (transport.pollReady f w).2.1
  flush_writes : ∀ f w, toFramedParts.Writes f (transport.pollFlush f w).2.1
  flush_empties : ∀ f w f' w', transport.pollFlush f w = (.ready (.ok ()), f', w') → buffered f' = []
  close_writes : ∀ f w, toFramedParts.Writes f (transport.pollClose f w).2.1
  send_queues : ∀ item f w f' w', transport.startSend item f w = (.ok (), f', w') →
    unread f' = unread f ∧ written f' = written f ∧ buffered f' = buffered f ++ varint.frame item
  send_fails : ∀ item f w error f' w', transport.startSend item f w = (.error error, f', w') →
    toFramedParts.Writes f f'
  next_writes_nothing : ∀ f w, written (transport.pollNext f w).2.1 = written f ∧
    buffered (transport.pollNext f w).2.1 = buffered f
  next_frame : ∀ f w item rest, item.length < 2 ^ 64 → unread f = varint.frame item ++ rest →
    match transport.pollNext f w with
    | (.ready (some (.ok given)), f', _) => given = item ∧ unread f' = rest ∧ waits f' ≤ waits f
    | (.ready (some (.error _)), f', _) => unread f' = unread f
    | (.ready none, _, _) => False
    | (.pending, f', _) => unread f' = unread f ∧ waits f' < waits f
  next_ended : ∀ f w, unread f = [] → unread (transport.pollNext f w).2.1 = [] ∧
    ∀ given, (transport.pollNext f w).1 ≠ .ready (some (.ok given))

end Subp2pExplorer.Notifications
