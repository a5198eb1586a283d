import Subp2pExplorer.Lib.Runs
import Subp2pExplorer.Notifications.Exchange

/-! The rounds a poll of an inbound substream takes. Each round moves the state
out, asks the socket, and puts a state back; what an error or the end of the
substream leaves there is the placeholder. Calls are taken apart into their
rounds here, so that every state in between is seen. -/
namespace Subp2pExplorer.Notifications
open Lib

/-- The world a poll under way asks its socket in. -/
def SubstreamPoll.world {ω : Type} : SubstreamPoll ω → ω
  | process w => w
  | next w => w

/-- A substream with the poll it is in, and what came of its handshake: how
often it was handed to the socket, whether the socket took it and flushed. -/
structure SubstreamRun (σ ω : Type) where
  stream : HandshakeInboundSubstream σ
  poll : Option (SubstreamPoll ω)
  sends : Nat
  sent : Bool
  flushed : Bool
  received : List Bytes

inductive SubstreamTurn (ω : Type) where
  | setHandshake (handshake : Bytes)
  | pollProcess (w : ω)
  | pollNext (w : ω)
  | round

section Rounds
variable {σ ω : Type} (transport : Transport σ ω)

namespace HandshakeInboundSubstream

/-- The arms that both loops have: the handshake is sent, and flushed. There is
no answer where the loop goes on. -/
def handshakeRound {α : Type} (fail : IoError → α) (stream : HandshakeInboundSubstream σ) (w : ω) :
    Option (Poll α) × HandshakeInboundSubstream σ × ω :=
  match stream.state with
  | .sending handshake =>
    match transport.pollReady stream.socket w with
    | (.ready _, socket, w) =>
      match transport.startSend handshake socket w with
      | (.ok (), socket, w) => (none, { stream with socket := socket, state := .flush }, w)
      | (.error error, socket, w) =>
        (some (.ready (fail error)), { stream with socket := socket, state := .flush }, w)
    | (.pending, socket, w) =>
      (some .pending, { stream with socket := socket, state := .sending handshake }, w)
  | .flush =>
    match transport.pollFlush stream.socket w with
    | (.ready (.ok ()), socket, w) => (none, { stream with socket := socket, state := .done }, w)
    | (.ready (.error error), socket, w) =>
      (some (.ready (fail error)), { stream with socket := socket, state := .done }, w)
    | (.pending, socket, w) => (some .pending, { stream with socket := socket, state := .flush }, w)
  | _ => (some .pending, stream, w)

/-- One round of `poll_process`. -/
def processRound (stream : HandshakeInboundSubstream σ) (w : ω) :
    Option (Poll (Except IoError Empty)) × HandshakeInboundSubstream σ × ω :=
  handshakeRound transport .error stream w

/-- One round of `poll_next`. -/
def nextRound (stream : HandshakeInboundSubstream σ) (w : ω) :
    Option (Poll (Option (Except IoError Bytes))) × HandshakeInboundSubstream σ × ω :=
  match stream.state with
  | .done =>
    match transport.pollNext stream.socket w with
    | (.ready none, socket, w) => (none, { stream with socket := socket, state := .needsClose }, w)
    | (.ready (some result), socket, w) =>
      (some (.ready (some result)), { stream with socket := socket, state := .done }, w)
    | (.pending, socket, w) => (some .pending, { stream with socket := socket, state := .done }, w)
  | .needsClose =>
    match transport.pollClose stream.socket w with
    | (.ready (.ok ()), socket, w) => (none, { stream with socket := socket, state := .fullyClosed }, w)
    | (.ready (.error error), socket, w) =>
      (some (.ready (some (.error error))), { stream with socket := socket, state := .done }, w)
    | (.pending, socket, w) => (some .pending, { stream with socket := socket, state := .needsClose }, w)
  | .fullyClosed => (some (.ready none), { stream with state := .done }, w)
  | _ => handshakeRound transport (some ∘ .error) stream w

end HandshakeInboundSubstream

namespace SubstreamRun

/-- What a round does with the handshake. -/
def record (r : SubstreamRun σ ω) (w : ω) : SubstreamRun σ ω :=
  match r.stream.state with
  | .sending handshake =>
    match transport.pollReady r.stream.socket w with
    | (.ready _, socket, w) =>
      { r with sends := r.sends + 1, sent := (transport.startSend handshake socket w).1.toBool }
    | (.pending, _, _) => r
  | .flush =>
    match (transport.pollFlush r.stream.socket w).1 with
    | .ready (.ok ()) => { r with flushed := true }
    | _ => r
  | _ => r

/-- One round of the poll under way. -/
def round (r : SubstreamRun σ ω) : Option (SubstreamRun σ ω) :=
  match r.poll with
  | none => none
  | some (.process w) =>
    let result := r.stream.processRound transport w
    some { r.record transport w with
      stream := result.2.1
      poll := if result.1.isSome then none else some (.process result.2.2) }
  | some (.next w) =>
    let result := r.stream.nextRound transport w
    some { r.record transport w with
      stream := result.2.1
      poll := if result.1.isSome then none else some (.next result.2.2)
      received := r.received ++ (result.1.bind Poll.frame).toList }

/-- A poll is run to its end before the next call. -/
def turn (r : SubstreamRun σ ω) : SubstreamTurn ω → Option (SubstreamRun σ ω)
  | .setHandshake handshake =>
    if r.poll.isNone then some { r with stream := r.stream.setHandshake handshake } else none
  | .pollProcess w => if r.poll.isNone then some { r with poll := some (.process w) } else none
  | .pollNext w => if r.poll.isNone then some { r with poll := some (.next w) } else none
  | .round => r.round transport

end SubstreamRun

/-- The runs of a substream from its upgrade on. -/
def substreamRuns (socket : σ) (negotiatedName : String) : Machine (SubstreamRun σ ω) (SubstreamTurn ω) where
  start := ⟨⟨socket, .waiting, negotiatedName⟩, none, 0, false, false, []⟩
  next r l := r.turn transport l

/-- The place of a state in the order they are meant to come in. -/
def HandshakeInboundSubstreamState.rank : HandshakeInboundSubstreamState → Nat
  | waiting => 0
  | sending _ => 1
  | flush => 2
  | done => 3
  | needsClose => 4
  | fullyClosed => 5

namespace SubstreamRun

/-- A step that moves the state forward, if at all: from a flush once the
socket flushed, to the end once it closed, and from there no more. Messages are
received once the handshake was sent and flushed. -/
structure Forward (r r' : SubstreamRun σ ω) : Prop where
  forward : r.stream.state.rank ≤ r'.stream.state.rank
  flushed : r.stream.state = .flush → r'.stream.state ≠ .flush →
    ∃ poll, r.poll = some poll ∧ (transport.pollFlush r.stream.socket poll.world).1 = .ready (.ok ())
  closed : r.stream.state = .needsClose → r'.stream.state ≠ .needsClose →
    ∃ poll, r.poll = some poll ∧ (transport.pollClose r.stream.socket poll.world).1 = .ready (.ok ())
  final : r.stream.state = .fullyClosed → r'.stream.state = .fullyClosed
  received : r'.received ≠ r.received → r.sent = true ∧ r.flushed = true

/-- Every step a turn takes is one forward. -/
def StepsForward (r : SubstreamRun σ ω) (l : SubstreamTurn ω) : Prop :=
  ∀ r', r.turn transport l = some r' → Forward transport r r'

/-- The socket answers a round so that it goes forward: no flush fails, no close
fails, nothing is asked of it once it closed, and no message comes where it did
not take the handshake. -/
def Answered (r : SubstreamRun σ ω) : SubstreamTurn ω → Prop
  | .round => ∀ poll, r.poll = some poll → match r.stream.state with
    | .flush => ∀ error, (transport.pollFlush r.stream.socket poll.world).1 ≠ .ready (.error error)
    | .done => ∀ w, poll = .next w → r.sent = false →
      ∀ message, (transport.pollNext r.stream.socket w).1 ≠ .ready (some (.ok message))
    | .needsClose => ∀ w, poll = .next w →
      ∀ error, (transport.pollClose r.stream.socket w).1 ≠ .ready (.error error)
    | .fullyClosed => ∀ w, poll ≠ .next w
    | _ => True
  | _ => True

/-- What a step leaves as it was. -/
structure SameHistory (r r' : SubstreamRun σ ω) : Prop where
  sends : r'.sends = r.sends
  sent : r'.sent = r.sent
  flushed : r'.flushed = r.flushed
  received : r'.received = r.received

/-- All that a round can do. -/
inductive Effect (r r' : SubstreamRun σ ω) : Prop where
  | waits (state : r'.stream.state = r.stream.state) (history : SameHistory r r')
      (answered : r.Answered transport .round)
  | sends (handshake : Bytes) (before : r.stream.state = .sending handshake) (after : r'.stream.state = .flush)
      (sends : r'.sends = r.sends + 1) (flushed : r'.flushed = r.flushed) (received : r'.received = r.received)
  | flushes (poll : SubstreamPoll ω) (polled : r.poll = some poll) (before : r.stream.state = .flush)
      (answer : (transport.pollFlush r.stream.socket poll.world).1 = .ready (.ok ()))
      (after : r'.stream.state = .done) (sends : r'.sends = r.sends) (flushed : r'.flushed = true)
      (received : r'.received = r.received)
  | flushFails (poll : SubstreamPoll ω) (polled : r.poll = some poll) (before : r.stream.state = .flush)
      (error : IoError) (answer : (transport.pollFlush r.stream.socket poll.world).1 = .ready (.error error))
      (after : r'.stream.state = .done) (history : SameHistory r r')
  | receives (w : ω) (polled : r.poll = some (.next w)) (before : r.stream.state = .done)
      (message : Bytes) (answer : (transport.pollNext r.stream.socket w).1 = .ready (some (.ok message)))
      (after : r'.stream.state = .done) (sends : r'.sends = r.sends) (flushed : r'.flushed = r.flushed)
      (received : r'.received = r.received ++ [message])
  | ends (w : ω) (polled : r.poll = some (.next w)) (before : r.stream.state = .done)
      (answer : (transport.pollNext r.stream.socket w).1 = .ready none)
      (after : r'.stream.state = .needsClose) (history : SameHistory r r')
  | closes (w : ω) (polled : r.poll = some (.next w)) (before : r.stream.state = .needsClose)
      (answer : (transport.pollClose r.stream.socket w).1 = .ready (.ok ()))
      (after : r'.stream.state = .fullyClosed) (history : SameHistory r r')
  | closeFails (w : ω) (polled : r.poll = some (.next w)) (before : r.stream.state = .needsClose)
      (error : IoError) (answer : (transport.pollClose r.stream.socket w).1 = .ready (.error error))
      (after : r'.stream.state = .done) (history : SameHistory r r')
  | leaves (w : ω) (polled : r.poll = some (.next w)) (before : r.stream.state = .fullyClosed)
      (after : r'.stream.state = .done) (history : SameHistory r r')

/-- Past the flush there was one. -/
def Past (r : SubstreamRun σ ω) : Prop := 3 ≤ r.stream.state.rank → r.flushed = true

variable {transport} {r r' : SubstreamRun σ ω} {l : SubstreamTurn ω}

theorem record_received (w : ω) : (r.record transport w).received = r.received := by
  unfold record
  split
  · split <;> rfl
  · split <;> rfl
  · rfl

variable (transport) in
/-- The arms both loops have send or flush the handshake, or wait. -/
theorem handshake_effect {α : Type} (fail : IoError → α) {poll : SubstreamPoll ω} (polled : r.poll = some poll)
    (early : r.stream.state.rank < 3) (after : Option (SubstreamPoll ω)) :
    Effect transport r { r.record transport poll.world with
      stream := (r.stream.handshakeRound transport fail poll.world).2.1
      poll := after
      received := r.received } := by
  obtain ⟨⟨socket, state, name⟩, poll', sends, sent, flushed, received⟩ := r
  cases polled
  cases state with
  | waiting =>
    exact .waits rfl ⟨rfl, rfl, rfl, rfl⟩ fun _ _ => trivial
  | sending handshake =>
    unfold record HandshakeInboundSubstream.handshakeRound
    dsimp only
    rcases ready : transport.pollReady socket poll.world with ⟨_ | _, socket', w'⟩
    · dsimp only
      rcases taken : transport.startSend handshake socket' w' with ⟨_ | _, _, _⟩
      · exact .sends handshake rfl rfl rfl rfl rfl
      · exact .sends handshake rfl rfl rfl rfl rfl
    · exact .waits rfl ⟨rfl, rfl, rfl, rfl⟩ fun _ _ => trivial
  | flush =>
    unfold record HandshakeInboundSubstream.handshakeRound
    dsimp only
    rcases answer : transport.pollFlush socket poll.world with ⟨(error | _) | _, socket', w'⟩
    · exact .flushFails poll rfl rfl error (congrArg Prod.fst answer) rfl ⟨rfl, rfl, rfl, rfl⟩
    · exact .flushes poll rfl rfl (congrArg Prod.fst answer) rfl rfl rfl rfl
    · refine .waits rfl ⟨rfl, rfl, rfl, rfl⟩ ?_
      rintro _ ⟨⟩ error failed
      rw [answer] at failed
      cases failed
  | done | needsClose | fullyClosed => simp [HandshakeInboundSubstreamState.rank] at early

variable (transport) in
/-- None of them brings a message. -/
theorem handshake_message (stream : HandshakeInboundSubstream σ) (w : ω) :
    (stream.handshakeRound transport (some ∘ Except.error) w).1.bind Poll.frame = none := by
  unfold HandshakeInboundSubstream.handshakeRound
  cases stream.state with
  | sending handshake =>
    dsimp only
    rcases transport.pollReady stream.socket w with ⟨_ | _, socket', w'⟩
    · dsimp only
      rcases transport.startSend handshake socket' w' with ⟨_ | _, _, _⟩ <;> rfl
    · rfl
  | flush =>
    dsimp only
    rcases transport.pollFlush stream.socket w with ⟨(_ | _) | _, _, _⟩ <;> rfl
  | waiting | done | needsClose | fullyClosed => rfl

theorem process_effect {w : ω} (polled : r.poll = some (.process w)) (step : r.round transport = some r') :
    Effect transport r r' := by
  unfold round at step
  rw [polled] at step
  obtain rfl := Option.some.inj step
  by_cases early : r.stream.state.rank < 3
  · have effect := handshake_effect transport (Except.error (α := Empty)) polled early
    rw [← record_received] at effect
    exact effect _
  · obtain ⟨⟨socket, state, name⟩, poll, sends, sent, flushed, received⟩ := r
    cases polled
    cases state with
    | waiting | sending _ | flush => simp [HandshakeInboundSubstreamState.rank] at early
    | done | needsClose | fullyClosed => exact .waits rfl ⟨rfl, rfl, rfl, rfl⟩ (by rintro _ ⟨⟩ _ ⟨⟩)

theorem next_effect {w : ω} (polled : r.poll = some (.next w)) (step : r.round transport = some r') :
    Effect transport r r' := by
  unfold round at step
  rw [polled] at step
  obtain rfl := Option.some.inj step
  by_cases early : r.stream.state.rank < 3
  · have effect := handshake_effect transport (some ∘ Except.error (α := Bytes)) polled early
    have silent := handshake_message transport r.stream w
    have shared : r.stream.nextRound transport w = r.stream.handshakeRound transport (some ∘ .error) w := by
      unfold HandshakeInboundSubstream.nextRound
      cases state : r.stream.state with
      | waiting | sending _ | flush => rfl
      | done | needsClose | fullyClosed => simp [state, HandshakeInboundSubstreamState.rank] at early
    dsimp only
    rw [shared, silent, Option.toList_none, List.append_nil]
    exact effect _
  · obtain ⟨⟨socket, state, name⟩, poll, sends, sent, flushed, received⟩ := r
    cases polled
    cases state with
    | waiting | sending _ | flush => simp [HandshakeInboundSubstreamState.rank] at early
    | done =>
      unfold record HandshakeInboundSubstream.nextRound
      dsimp only
      rcases answer : transport.pollNext socket w with ⟨(_ | (error | message)) | _, socket', w'⟩
      · exact .ends w rfl rfl (congrArg Prod.fst answer) rfl ⟨rfl, rfl, rfl, by simp⟩
      · refine .waits rfl ⟨rfl, rfl, rfl, by simp [Poll.frame]⟩ ?_
        rintro _ ⟨⟩ _ ⟨⟩ _ message came
        rw [answer] at came
        cases came
      · exact .receives w rfl rfl message (congrArg Prod.fst answer) rfl rfl rfl rfl
      · refine .waits rfl ⟨rfl, rfl, rfl, by simp [Poll.frame]⟩ ?_
        rintro _ ⟨⟩ _ ⟨⟩ _ message came
        rw [answer] at came
        cases came
    | needsClose =>
      unfold record HandshakeInboundSubstream.nextRound
      dsimp only
      rcases answer : transport.pollClose socket w with ⟨(error | _) | _, socket', w'⟩
      · exact .closeFails w rfl rfl error (congrArg Prod.fst answer) rfl ⟨rfl, rfl, rfl, by simp [Poll.frame]⟩
      · exact .closes w rfl rfl (congrArg Prod.fst answer) rfl ⟨rfl, rfl, rfl, by simp⟩
      · refine .waits rfl ⟨rfl, rfl, rfl, by simp [Poll.frame]⟩ ?_
        rintro _ ⟨⟩ _ ⟨⟩ error failed
        rw [answer] at failed
        cases failed
    | fullyClosed =>
      exact .leaves w rfl rfl rfl ⟨rfl, rfl, rfl, by simp [Poll.frame, HandshakeInboundSubstream.nextRound]⟩

theorem round_effect (step : r.round transport = some r') : Effect transport r r' := by
  cases polled : r.poll with
  | none =>
    unfold round at step
    rw [polled] at step
    cases step
  | some poll =>
    cases poll with
    | process w => exact process_effect polled step
    | next w => exact next_effect polled step

/-- Before the flush and while messages are received, only the order counts. -/
theorem Forward.of_open (order : r.stream.state.rank ≤ r'.stream.state.rank)
    (state : r.stream.state.rank ≤ 1 ∨ r.stream.state = .done)
    (received : r'.received ≠ r.received → r.sent = true ∧ r.flushed = true) : Forward transport r r' := by
  refine ⟨order, fun before => ?_, fun before => ?_, fun before => ?_, received⟩
  all_goals
    rw [before] at state
    simp [HandshakeInboundSubstreamState.rank] at state

/-- A round goes forward exactly where the socket answers so. -/
theorem round_forward_iff (past : r.Past) (step : r.round transport = some r') :
    Forward transport r r' ↔ r.Answered transport .round := by
  cases round_effect step with
  | waits state history answered =>
    refine iff_of_true ⟨?_, fun flush moved => ?_, fun close moved => ?_, fun final => ?_, fun more => ?_⟩ answered
    · exact Nat.le_of_eq (by rw [state])
    · exact absurd (state.trans flush) moved
    · exact absurd (state.trans close) moved
    · exact state.trans final
    · exact absurd history.received more
  | sends handshake before after _ _ received =>
    refine iff_of_true (.of_open ?_ ?_ fun more => absurd received more) ?_
    · simp [before, after, HandshakeInboundSubstreamState.rank]
    · simp [before, HandshakeInboundSubstreamState.rank]
    · simp [Answered, before]
  | flushes poll polled before answer after _ _ received =>
    refine iff_of_true ⟨?_, fun _ _ => ⟨poll, polled, answer⟩, ?_, ?_, fun more => absurd received more⟩ ?_
    · simp [before, after, HandshakeInboundSubstreamState.rank]
    · simp [before]
    · simp [before]
    · simp [Answered, before, polled, answer]
  | flushFails poll polled before error answer after =>
    refine iff_of_false (fun forward => ?_) fun answered => ?_
    · obtain ⟨poll', same, ok⟩ := forward.flushed before (by simp [after])
      cases polled.symm.trans same
      cases answer.symm.trans ok
    · simp [Answered, before, polled, answer] at answered
  | receives w polled before message answer after _ _ received =>
    have flushed : r.flushed = true := past (by simp [before, HandshakeInboundSubstreamState.rank])
    have needed : r.Answered transport .round ↔ r.sent = true := by
      simp [Answered, before, polled, answer]
    rw [needed]
    constructor
    · intro forward
      exact (forward.received (by simp [received])).1
    · intro sent
      exact .of_open (Nat.le_of_eq (by rw [before, after])) (.inr before) fun _ => ⟨sent, flushed⟩
  | ends w polled before answer after history =>
    refine iff_of_true (.of_open ?_ (.inr before) fun more => absurd history.received more) ?_
    · simp [before, after, HandshakeInboundSubstreamState.rank]
    · simp [Answered, before, polled, answer]
  | closes w polled before answer after history =>
    refine iff_of_true ⟨?_, ?_, fun _ _ => ⟨_, polled, answer⟩, ?_, fun more => absurd history.received more⟩ ?_
    · simp [before, after, HandshakeInboundSubstreamState.rank]
    · simp [before]
    · simp [before]
    · simp [Answered, before, polled, answer]
  | closeFails w polled before error answer after =>
    refine iff_of_false (fun forward => ?_) fun answered => ?_
    · have order := forward.forward
      simp [before, after, HandshakeInboundSubstreamState.rank] at order
    · simp [Answered, before, polled, answer] at answered
  | leaves w polled before after =>
    refine iff_of_false (fun forward => ?_) fun answered => ?_
    · have final := forward.final before
      rw [after] at final
      cases final
    · simp [Answered, before, polled] at answered

/-- A round that goes forward does not come past the flush without one. -/
theorem round_past (past : r.Past) (answered : r.Answered transport .round) (step : r.round transport = some r') :
    r'.Past := by
  cases round_effect step with
  | waits state history _ =>
    intro late
    rw [history.flushed]
    exact past (state ▸ late)
  | sends _ _ after =>
    intro late
    simp [after, HandshakeInboundSubstreamState.rank] at late
  | flushes _ _ _ _ _ _ flushed => exact fun _ => flushed
  | flushFails _ polled before error answer => simp [Answered, before, polled, answer] at answered
  | receives w _ before _ _ _ _ flushed =>
    intro _
    rw [flushed]
    exact past (by simp [before, HandshakeInboundSubstreamState.rank])
  | ends w _ before _ _ history | closes w _ before _ _ history | closeFails w _ before _ _ _ history
  | leaves w _ before _ history =>
    intro _
    rw [history.flushed]
    exact past (by simp [before, HandshakeInboundSubstreamState.rank])

theorem idle_turn_forward (idle : r.poll = none) (step : r.turn transport l = some r') :
    Forward transport r r' ∧ (r.Past → r'.Past) ∧ r'.sends = r.sends ∧
      (r'.stream.state.rank ≤ 1 → r.stream.state.rank ≤ 1) := by
  have stays : ∀ poll, Forward transport r { r with poll := poll } := by
    intro poll
    refine ⟨Nat.le_refl _, fun before moved => absurd before moved, fun before moved => absurd before moved, id, ?_⟩
    exact fun more => absurd rfl more
  cases l with
  | pollProcess w =>
    simp only [turn, idle, Option.isNone_none, if_true, Option.some.injEq] at step
    subst step
    exact ⟨stays _, id, rfl, id⟩
  | pollNext w =>
    simp only [turn, idle, Option.isNone_none, if_true, Option.some.injEq] at step
    subst step
    exact ⟨stays _, id, rfl, id⟩
  | round => simp [turn, round, idle] at step
  | setHandshake handshake =>
    simp only [turn, idle, Option.isNone_none, if_true, Option.some.injEq] at step
    subst step
    unfold HandshakeInboundSubstream.setHandshake
    cases state : r.stream.state with
    | waiting =>
      refine ⟨.of_open ?_ ?_ fun more => absurd rfl more, fun _ late => ?_, rfl, fun _ => ?_⟩
      · simp [state, HandshakeInboundSubstreamState.rank]
      · simp [state, HandshakeInboundSubstreamState.rank]
      · simp [HandshakeInboundSubstreamState.rank] at late
      · simp [HandshakeInboundSubstreamState.rank]
    | sending _ | flush | done | needsClose | fullyClosed =>
      have same := stays none
      dsimp only
      rw [state]
      exact ⟨same, id, rfl, id⟩

theorem turn_forward_iff (past : r.Past) : StepsForward transport r l ↔ r.Answered transport l := by
  cases polled : r.poll with
  | none =>
    refine iff_of_true (fun r' step => (idle_turn_forward polled step).1) ?_
    cases l with
    | round => simp [Answered, polled]
    | _ => trivial
  | some poll =>
    cases l with
    | round =>
      have steps : ∃ r', r.round transport = some r' := by
        unfold round
        rw [polled]
        cases poll <;> exact ⟨_, rfl⟩
      obtain ⟨r', step⟩ := steps
      rw [← round_forward_iff past step]
      constructor
      · exact fun forward => forward r' step
      · intro forward r'' step'
        cases step.symm.trans step'
        exact forward
    | _ => exact iff_of_true (fun r' step => by simp [turn, polled] at step) trivial

theorem turn_past (past : r.Past) (answered : r.Answered transport l) (step : r.turn transport l = some r') :
    r'.Past := by
  cases polled : r.poll with
  | none => exact (idle_turn_forward polled step).2.1 past
  | some poll =>
    cases l with
    | round => exact round_past past answered step
    | _ => simp [turn, polled] at step

/-- The handshake is handed to the socket once, on the way from `Sending`. -/
theorem turn_sends (once : r.sends ≤ 1 ∧ (r.stream.state.rank ≤ 1 → r.sends = 0))
    (step : r.turn transport l = some r') : r'.sends ≤ 1 ∧ (r'.stream.state.rank ≤ 1 → r'.sends = 0) := by
  cases polled : r.poll with
  | none =>
    obtain ⟨-, -, sends, early⟩ := idle_turn_forward polled step
    rw [sends]
    exact ⟨once.1, fun now => once.2 (early now)⟩
  | some poll =>
    cases l with
    | round =>
      cases round_effect step with
      | waits state history _ =>
        rw [history.sends, state]
        exact once
      | sends handshake before after sends =>
        have none := once.2 (by simp [before, HandshakeInboundSubstreamState.rank])
        rw [sends, after, none]
        simp [HandshakeInboundSubstreamState.rank]
      | flushes _ _ _ _ after sends | receives _ _ _ _ _ after sends =>
        rw [sends, after]
        exact ⟨once.1, by simp [HandshakeInboundSubstreamState.rank]⟩
      | flushFails _ _ _ _ _ after history | ends _ _ _ _ after history | closes _ _ _ _ after history
      | closeFails _ _ _ _ _ after history | leaves _ _ _ after history =>
        rw [history.sends, after]
        exact ⟨once.1, by simp [HandshakeInboundSubstreamState.rank]⟩
    | _ => simp [turn, polled] at step

end SubstreamRun

/-! ## Polls and their rounds -/

section Polls
variable {transport : Transport σ ω} {socket : σ} {negotiatedName : String} {r r' : SubstreamRun σ ω} {w : ω}

/-- The poll under way ends after some rounds, with the substream like this and
these messages received. -/
def Ends (transport : Transport σ ω) (r : SubstreamRun σ ω) (stream : HandshakeInboundSubstream σ)
    (received : List Bytes) : Prop :=
  ∃ (rounds : Nat) (r' : SubstreamRun σ ω),
    (substreamRuns transport stream.socket stream.negotiatedName).replayFrom r (List.replicate rounds .round) =
        some r' ∧
      r'.poll = none ∧ r'.stream = stream ∧ r'.received = received

theorem Ends.later {stream : HandshakeInboundSubstream σ} {received : List Bytes}
    (step : r.round transport = some r') (ends : Ends transport r' stream received) :
    Ends transport r stream received := by
  obtain ⟨rounds, r'', run, ended⟩ := ends
  exact ⟨rounds + 1, r'', Machine.replay_from_cons.mpr ⟨r', step, run⟩, ended⟩

variable {stream stream' : HandshakeInboundSubstream σ} {received : List Bytes} {w' : ω}

theorem next_answered {answer : Poll (Option (Except IoError Bytes))} (polled : r.poll = some (.next w))
    (round : r.stream.nextRound transport w = (some answer, stream, w')) :
    Ends transport r stream (r.received ++ answer.frame.toList) := by
  have step : r.round transport = some { r.record transport w with
      stream := stream, poll := none, received := r.received ++ answer.frame.toList } := by
    simp [SubstreamRun.round, polled, round]
  exact ⟨1, _, Machine.replay_from_cons.mpr ⟨_, step, rfl⟩, rfl, rfl, rfl⟩

theorem next_goes_on (polled : r.poll = some (.next w))
    (round : r.stream.nextRound transport w = (none, stream', w'))
    (later : ∀ r' : SubstreamRun σ ω, r'.poll = some (.next w') → r'.stream = stream' → r'.received = r.received →
      Ends transport r' stream received) : Ends transport r stream received := by
  have step : r.round transport =
      some { r.record transport w with stream := stream', poll := some (.next w'), received := r.received } := by
    simp [SubstreamRun.round, polled, round]
  exact .later step (later _ rfl rfl rfl)

variable (transport) in
theorem next_closes (polled : r.poll = some (.next w)) (state : r.stream.state = .needsClose) :
    Ends transport r (r.stream.nextNeedsClose transport w).2.1
      (r.received ++ (r.stream.nextNeedsClose transport w).1.frame.toList) := by
  unfold HandshakeInboundSubstream.nextNeedsClose
  have round := HandshakeInboundSubstream.nextRound.eq_def transport r.stream w
  simp only [state] at round
  rcases answer : transport.pollClose r.stream.socket w with ⟨(error | _) | _, socket', w'⟩
  · rw [answer] at round
    exact next_answered polled round
  · rw [answer] at round
    refine next_goes_on polled round fun r' polled' same kept => ?_
    have final : r'.stream.nextRound transport w' =
        (some (.ready none), { r.stream with socket := socket', state := .done }, w') := by
      rw [same]
      rfl
    have ends := next_answered polled' final
    rw [kept] at ends
    exact ends
  · rw [answer] at round
    exact next_answered polled round

variable (transport) in
theorem next_done (polled : r.poll = some (.next w)) (state : r.stream.state = .done) :
    Ends transport r (r.stream.nextDone transport w).2.1
      (r.received ++ (r.stream.nextDone transport w).1.frame.toList) := by
  unfold HandshakeInboundSubstream.nextDone
  have round := HandshakeInboundSubstream.nextRound.eq_def transport r.stream w
  simp only [state] at round
  rcases answer : transport.pollNext r.stream.socket w with ⟨(_ | result) | _, socket', w'⟩
  · rw [answer] at round
    refine next_goes_on polled round fun r' polled' same kept => ?_
    have ends := next_closes transport polled' (congrArg _ same)
    rw [same, kept] at ends
    exact ends
  · rw [answer] at round
    exact next_answered polled round
  · rw [answer] at round
    exact next_answered polled round

variable (transport) in
theorem next_flushes (polled : r.poll = some (.next w)) (state : r.stream.state = .flush) :
    Ends transport r (r.stream.nextFlush transport w).2.1
      (r.received ++ (r.stream.nextFlush transport w).1.frame.toList) := by
  unfold HandshakeInboundSubstream.nextFlush
  have round := HandshakeInboundSubstream.nextRound.eq_def transport r.stream w
  simp only [state, HandshakeInboundSubstream.handshakeRound.eq_def] at round
  rcases answer : transport.pollFlush r.stream.socket w with ⟨(error | _) | _, socket', w'⟩
  · rw [answer] at round
    exact next_answered polled round
  · rw [answer] at round
    refine next_goes_on polled round fun r' polled' same kept => ?_
    have ends := next_done transport polled' (congrArg _ same)
    rw [same, kept] at ends
    exact ends
  · rw [answer] at round
    exact next_answered polled round

theorem next_ends (polled : r.poll = some (.next w)) :
    Ends transport r (r.stream.pollNext transport w).2.1
      (r.received ++ (r.stream.pollNext transport w).1.frame.toList) := by
  unfold HandshakeInboundSubstream.pollNext
  have round := HandshakeInboundSubstream.nextRound.eq_def transport r.stream w
  cases state : r.stream.state with
  | waiting =>
    simp only [state, HandshakeInboundSubstream.handshakeRound.eq_def] at round
    exact next_answered polled round
  | sending handshake =>
    simp only [state, HandshakeInboundSubstream.handshakeRound.eq_def] at round
    dsimp only
    rcases ready : transport.pollReady r.stream.socket w with ⟨_ | _, socket', w'⟩
    · rw [ready] at round
      dsimp only at round ⊢
      rcases taken : transport.startSend handshake socket' w' with ⟨error | _, socket'', w''⟩
      · rw [taken] at round
        exact next_answered polled round
      · rw [taken] at round
        refine next_goes_on polled round fun r' polled' same kept => ?_
        have ends := next_flushes transport polled' (congrArg _ same)
        rw [same, kept] at ends
        exact ends
    · rw [ready] at round
      exact next_answered polled round
  | flush => exact next_flushes transport polled state
  | done => exact next_done transport polled state
  | needsClose => exact next_closes transport polled state
  | fullyClosed =>
    simp only [state] at round
    exact next_answered polled round

theorem process_answered {answer : Poll (Except IoError Empty)} (polled : r.poll = some (.process w))
    (round : r.stream.processRound transport w = (some answer, stream, w')) :
    Ends transport r stream r.received := by
  have step : r.round transport = some { r.record transport w with stream := stream, poll := none } := by
    simp [SubstreamRun.round, polled, round]
  exact ⟨1, _, Machine.replay_from_cons.mpr ⟨_, step, rfl⟩, rfl, rfl, SubstreamRun.record_received w⟩

theorem process_goes_on (polled : r.poll = some (.process w))
    (round : r.stream.processRound transport w = (none, stream', w'))
    (later : ∀ r' : SubstreamRun σ ω, r'.poll = some (.process w') → r'.stream = stream' →
      Ends transport r' stream r'.received) : Ends transport r stream r.received := by
  have step : r.round transport =
      some { r.record transport w with stream := stream', poll := some (.process w') } := by
    simp [SubstreamRun.round, polled, round]
  have ends := later { r.record transport w with stream := stream', poll := some (.process w') } rfl rfl
  rw [SubstreamRun.record_received] at ends
  exact .later step ends

variable (transport) in
theorem process_flushes (polled : r.poll = some (.process w)) (state : r.stream.state = .flush) :
    Ends transport r (r.stream.processFlush transport w).2.1 r.received := by
  unfold HandshakeInboundSubstream.processFlush
  have round := HandshakeInboundSubstream.processRound.eq_def transport r.stream w
  simp only [state, HandshakeInboundSubstream.handshakeRound.eq_def] at round
  rcases answer : transport.pollFlush r.stream.socket w with ⟨(error | _) | _, socket', w'⟩
  · rw [answer] at round
    exact process_answered polled round
  · rw [answer] at round
    refine process_goes_on polled round fun r' polled' same => ?_
    have waits : r'.stream.processRound transport w' =
        (some .pending, { r.stream with socket := socket', state := .done }, w') := by
      rw [same]
      rfl
    exact process_answered polled' waits
  · rw [answer] at round
    exact process_answered polled round

theorem process_ends (polled : r.poll = some (.process w)) :
    Ends transport r (r.stream.pollProcess transport w).2.1 r.received := by
  unfold HandshakeInboundSubstream.pollProcess
  have round := HandshakeInboundSubstream.processRound.eq_def transport r.stream w
  cases state : r.stream.state with
  | sending handshake =>
    simp only [state, HandshakeInboundSubstream.handshakeRound.eq_def] at round
    dsimp only
    rcases ready : transport.pollReady r.stream.socket w with ⟨_ | _, socket', w'⟩
    · rw [ready] at round
      dsimp only at round ⊢
      rcases taken : transport.startSend handshake socket' w' with ⟨error | _, socket'', w''⟩
      · rw [taken] at round
        exact process_answered polled round
      · rw [taken] at round
        refine process_goes_on polled round fun r' polled' same => ?_
        have ends := process_flushes transport polled' (congrArg _ same)
        rw [same] at ends
        exact ends
    · rw [ready] at round
      exact process_answered polled round
  | flush => exact process_flushes transport polled state
  | waiting | done | needsClose | fullyClosed =>
    simp only [state, HandshakeInboundSubstream.handshakeRound.eq_def] at round
    exact process_answered polled round

/-- A call of either poll is the rounds of its loop, up to the one that returns. -/
theorem polls_in_rounds (idle : r.poll = none) (w : ω) :
    (∃ r', r.turn transport (.pollProcess w) = some r' ∧
      Ends transport r' (r.stream.pollProcess transport w).2.1 r.received) ∧
    ∃ r', r.turn transport (.pollNext w) = some r' ∧ Ends transport r' (r.stream.pollNext transport w).2.1
      (r.received ++ (r.stream.pollNext transport w).1.frame.toList) := by
  constructor
  · refine ⟨{ r with poll := some (.process w) }, ?_, ?_⟩
    · simp [SubstreamRun.turn, idle]
    · exact process_ends (r := { r with poll := some (.process w) }) rfl
  · refine ⟨{ r with poll := some (.next w) }, ?_, ?_⟩
    · simp [SubstreamRun.turn, idle]
    · exact next_ends (r := { r with poll := some (.next w) }) rfl

end Polls

section Runs
variable {transport : Transport σ ω} {socket : σ} {negotiatedName : String} {turns : List (SubstreamTurn ω)}
  {t : SubstreamRun σ ω}

/-- In every run the handshake is handed to the socket at most once, and every
step goes forward exactly if the socket answers so all along. -/
theorem substream_forward_iff (run : (substreamRuns transport socket negotiatedName).replay turns = some t) :
    ((substreamRuns transport socket negotiatedName).Meets (SubstreamRun.StepsForward transport) turns ↔
      (substreamRuns transport socket negotiatedName).Meets (SubstreamRun.Answered transport) turns) ∧
    t.sends ≤ 1 := by
  constructor
  · refine Machine.meets_congr (I := SubstreamRun.Past) ?_ ?_ ?_
    · intro late
      simp [substreamRuns, HandshakeInboundSubstreamState.rank] at late
    · exact fun r l r' past answered step => SubstreamRun.turn_past past answered step
    · exact fun r l past => SubstreamRun.turn_forward_iff past
  · have once := Machine.invariant (I := fun r : SubstreamRun σ ω =>
      r.sends ≤ 1 ∧ (r.stream.state.rank ≤ 1 → r.sends = 0)) ?_ ?_ run
    · exact once.1
    · exact fun r l r' once step => SubstreamRun.turn_sends once step
    · simp [substreamRuns]

/-- A handshake that is sent and flushed, in four rounds of one poll. -/
theorem flushed_handshake_forward : ∃ t,
    (substreamRuns .flushing () "/sup").replay [.setHandshake [4], .pollNext true, .round, .round, .round] = some t ∧
    ((substreamRuns .flushing () "/sup").Meets (SubstreamRun.StepsForward .flushing)
        [.setHandshake [4], .pollNext true, .round, .round, .round] ↔
      (substreamRuns .flushing () "/sup").Meets (SubstreamRun.Answered .flushing)
        [.setHandshake [4], .pollNext true, .round, .round, .round]) ∧ t.sends ≤ 1 :=
  ⟨_, rfl, substream_forward_iff rfl⟩

/-- A socket that flushes as the world says, and always has a message. -/
def Transport.talking : Transport Unit Bool :=
  { Transport.flushing with pollNext := fun socket w => (.ready (some (.ok [7])), socket, w) }

/-- A socket that flushes as the world says, and has ended. -/
def Transport.ending : Transport Unit Bool :=
  { Transport.flushing with pollNext := fun socket w => (.ready none, socket, w) }

/-- After a flush that fails the next poll hands out a message, though the
handshake was never flushed. A substream that closed is not closed for long:
the round that reports the end takes it back. -/
theorem failed_flush_not_forward :
    ((substreamRuns .talking () "/sup").replay
      [.setHandshake [4], .pollNext false, .round, .round, .pollNext false, .round]).map
        (fun t => (t.stream.state, t.flushed, t.received)) = some (.done, false, [[7]]) ∧
    ¬(substreamRuns .talking () "/sup").Meets (SubstreamRun.StepsForward .talking)
      [.setHandshake [4], .pollNext false, .round, .round, .pollNext false, .round] ∧
    ((substreamRuns .ending () "/sup").replay
      [.setHandshake [4], .pollNext true, .round, .round, .round, .round]).map
        (fun t => t.stream.state) = some .fullyClosed ∧
    ((substreamRuns .ending () "/sup").replay
      [.setHandshake [4], .pollNext true, .round, .round, .round, .round, .round]).map
        (fun t => t.stream.state) = some .done := by
  refine ⟨by decide, fun meets => ?_, by decide, by decide⟩
  have step := Machine.meets_iff.mp meets [.setHandshake [4], .pollNext false, .round] .round _ _ rfl rfl
  obtain ⟨poll, same, answer⟩ := (step _ rfl).flushed rfl (by exact nofun)
  cases same
  cases answer

end Runs
end Rounds
end Subp2pExplorer.Notifications
