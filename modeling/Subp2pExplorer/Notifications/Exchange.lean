import Subp2pExplorer.Notifications.Framed

/-! Two handshakes over the wire. The reader that takes a socket over after the
handshake starts at the first byte behind it, whatever the pieces are in which
the bytes arrive and however the substream is polled. -/
namespace Subp2pExplorer.Notifications
open Subp2pExplorer.Lib

/-- What polling for a frame once gives. -/
abbrev NextPoll := Poll (Option (Except IoError Bytes))

def Poll.frame : NextPoll → Option Bytes
  | .ready (some (.ok frame)) => some frame
  | _ => none

def Poll.failed : NextPoll → Prop
  | .ready (some (.error _)) => True
  | _ => False

/-- The frames given out, in order. -/
def received : List NextPoll → List Bytes
  | [] => []
  | outcome :: outcomes => outcome.frame.toList ++ received outcomes

/-- The outcomes of polling a socket for its next frame over and over. -/
def Transport.polls {σ ω : Type} (transport : Transport σ ω) : σ → List ω → List NextPoll × σ
  | f, [] => ([], f)
  | f, w :: worlds =>
    let polled := transport.pollNext f w
    let later := polls transport polled.2.1 worlds
    (polled.1 :: later.1, later.2)

/-- One poll of an inbound substream: for our handshake only, or for a frame. -/
inductive SubstreamPoll (ω : Type) where
  | process (w : ω)
  | next (w : ω)

/-- `poll_process` is only ever ready with an error. -/
def Poll.processed : Poll (Except IoError Empty) → NextPoll
  | .ready (.error error) => .ready (some (.error error))
  | .pending => .pending

namespace HandshakeInboundSubstream
variable {σ ω : Type} (transport : Transport σ ω)

def poll (stream : HandshakeInboundSubstream σ) : SubstreamPoll ω → NextPoll × HandshakeInboundSubstream σ
  | .process w => let (outcome, stream, _) := pollProcess transport stream w; (outcome.processed, stream)
  | .next w => let (outcome, stream, _) := pollNext transport stream w; (outcome, stream)

def polls : HandshakeInboundSubstream σ → List (SubstreamPoll ω) → List NextPoll × HandshakeInboundSubstream σ
  | stream, [] => ([], stream)
  | stream, p :: more =>
    let polled := stream.poll transport p
    let later := polls polled.2 more
    (polled.1 :: later.1, later.2)

end HandshakeInboundSubstream

namespace Framing
variable {σ ω : Type} {varint : Varint} (framing : Framing varint σ ω)

/-- However it is polled, the reader gives out these frames in order and each
one once, and reports the end only behind the last. Polled often enough it has
given all of them, unless it failed. -/
def Delivers (f : σ) (frames : List Bytes) : Prop :=
  ∀ worlds : List ω,
    let polled := framing.transport.polls f worlds
    ∃ later, frames = received polled.1 ++ later ∧ framing.unread polled.2 = varint.frames later ∧
      (.ready none ∈ polled.1 → later = []) ∧
      (frames.length + framing.waits f ≤ worlds.length → later = [] ∨ ∃ outcome ∈ polled.1, outcome.failed)

/-- One poll takes at most the first frame, and comes closer to having given
all of them unless it fails. -/
theorem next_serves {f : σ} {frames : List Bytes} (fits : ∀ frame ∈ frames, frame.length < 2 ^ 64)
    (unread : framing.unread f = varint.frames frames) (w : ω) :
    let (outcome, f', _) := framing.transport.pollNext f w
    ∃ later, frames = outcome.frame.toList ++ later ∧ framing.unread f' = varint.frames later ∧
      (outcome = .ready none → later = []) ∧
      (later = [] ∨ outcome.failed ∨ later.length + framing.waits f' < frames.length + framing.waits f) := by
  cases frames with
  | nil =>
    obtain ⟨ended, nothing⟩ := framing.next_ended f w unread
    refine ⟨[], ?_, ended, fun _ => rfl, .inl rfl⟩
    cases polled : (framing.transport.pollNext f w).1 with
    | pending => rfl
    | ready outcome =>
      rcases outcome with _ | _ | given
      · rfl
      · rfl
      · exact absurd polled (nothing given)
  | cons item frames =>
    have taken := framing.next_frame f w item (varint.frames frames) (fits item (by simp)) unread
    revert taken
    rcases framing.transport.pollNext f w with ⟨(_ | _ | given) | _, f', w'⟩
    · exact False.elim
    · intro same
      exact ⟨item :: frames, rfl, same.trans unread, nofun, .inr (.inl trivial)⟩
    · rintro ⟨rfl, rest, waits⟩
      refine ⟨frames, rfl, rest, nofun, .inr (.inr ?_)⟩
      rw [List.length_cons]
      omega
    · rintro ⟨same, waits⟩
      exact ⟨item :: frames, rfl, same.trans unread, nofun, .inr (.inr (by omega))⟩

theorem delivers_unread {f : σ} {frames : List Bytes} (fits : ∀ frame ∈ frames, frame.length < 2 ^ 64)
    (unread : framing.unread f = varint.frames frames) : framing.Delivers f frames := by
  intro worlds
  induction worlds generalizing f frames with
  | nil =>
    refine ⟨frames, rfl, unread, nofun, fun enough => ?_⟩
    have none_left : frames.length = 0 := by
      rw [List.length_nil] at enough
      omega
    exact .inl (List.length_eq_zero_iff.mp none_left)
  | cons w worlds ih =>
    obtain ⟨left, split, unread, ended, closer⟩ := framing.next_serves fits unread w
    have fits : ∀ frame ∈ left, frame.length < 2 ^ 64 := fun frame member =>
      fits frame (split ▸ List.mem_append_right _ member)
    obtain ⟨later, rest, unread, finished, progress⟩ := ih fits unread
    have none_later : left = [] → later = [] := by
      rintro rfl
      exact (List.append_eq_nil_iff.mp rest.symm).2
    refine ⟨later, ?_, unread, fun seen => ?_, fun enough => ?_⟩
    · calc frames = _ ++ left := split
        _ = _ ++ (_ ++ later) := congrArg _ rest
        _ = _ := (List.append_assoc _ _ _).symm
    · rcases List.mem_cons.mp seen with now | seen
      · exact none_later (ended now.symm)
      · exact finished seen
    · rw [List.length_cons] at enough
      rcases closer with nothing | failed | closer
      · exact .inl (none_later nothing)
      · exact .inr ⟨_, List.mem_cons_self, failed⟩
      · rcases progress (by omega) with nothing | ⟨outcome, member, failed⟩
        · exact .inl nothing
        · exact .inr ⟨outcome, List.mem_cons_of_mem _ member, failed⟩

/-- What was sent, whether or not it has gone out. -/
def sent (f : σ) : Bytes := framing.written f ++ framing.buffered f

theorem writes_sent {f f' : σ} (writes : framing.Writes f f') : framing.sent f' = framing.sent f := by
  obtain ⟨out, went, stayed⟩ := writes.out
  rw [sent, sent, went, stayed, List.append_assoc]

theorem writes_nothing {f f' : σ} (writes : framing.Writes f f') (empty : framing.buffered f = []) :
    framing.buffered f' = [] := by
  obtain ⟨out, _, stayed⟩ := writes.out
  exact (List.append_eq_nil_iff.mp (empty ▸ stayed.symm)).2

/-- How far an inbound substream has come that was to send this handshake
behind these bytes. A poll that failed may have lost it, but sent no part. -/
def Sending (before handshake : Bytes) (clean : Prop) (state : HandshakeInboundSubstreamState) (f : σ) : Prop :=
  match state with
  | .waiting => False
  | .sending queued => queued = handshake ∧ framing.sent f = before
  | .flush => framing.sent f = before ++ varint.frame handshake ∨ framing.sent f = before ∧ ¬ clean
  | _ => framing.sent f = before ++ varint.frame handshake ∧ framing.buffered f = [] ∨
      (framing.sent f = before ∨ framing.sent f = before ++ varint.frame handshake) ∧ ¬ clean

/-- An inbound substream between two polls, with the frames it has yet to give out. -/
structure Answering (before handshake : Bytes) (clean : Prop) (frames : List Bytes)
    (stream : HandshakeInboundSubstream σ) : Prop where
  sending : framing.Sending before handshake clean stream.state stream.socket
  unread : framing.unread stream.socket = varint.frames frames
  ended : stream.state = .needsClose ∨ stream.state = .fullyClosed → frames = []

/-- What one poll of it does. -/
def Answered (before handshake : Bytes) (clean : Prop) (frames : List Bytes)
    (polled : NextPoll × HandshakeInboundSubstream σ) : Prop :=
  ∃ later, frames = polled.1.frame.toList ++ later ∧ (polled.1 = .ready none → later = []) ∧
    framing.Answering before handshake (clean ∧ ¬ polled.1.failed) later polled.2

variable {framing} {before handshake : Bytes} {clean : Prop} {frames : List Bytes}
  {stream : HandshakeInboundSubstream σ} {f f' : σ}

theorem sending_weaker {clean' : Prop} {state : HandshakeInboundSubstreamState} (weaker : clean' → clean)
    (sending : framing.Sending before handshake clean state f) :
    framing.Sending before handshake clean' state f := by
  cases state with
  | waiting => exact sending
  | sending queued => exact sending
  | flush => exact sending.imp_right fun ⟨lost, failed⟩ => ⟨lost, fun now => failed (weaker now)⟩
  | done => exact sending.imp_right fun ⟨either, failed⟩ => ⟨either, fun now => failed (weaker now)⟩
  | needsClose => exact sending.imp_right fun ⟨either, failed⟩ => ⟨either, fun now => failed (weaker now)⟩
  | fullyClosed => exact sending.imp_right fun ⟨either, failed⟩ => ⟨either, fun now => failed (weaker now)⟩

theorem sending_either {state : HandshakeInboundSubstreamState}
    (sending : framing.Sending before handshake clean state f) :
    framing.sent f = before ∨ framing.sent f = before ++ varint.frame handshake := by
  cases state with
  | waiting => exact sending.elim
  | sending queued => exact .inl sending.2
  | flush => exact sending.symm.imp_left And.left
  | done => exact sending.elim (fun whole => .inr whole.1) And.left
  | needsClose => exact sending.elim (fun whole => .inr whole.1) And.left
  | fullyClosed => exact sending.elim (fun whole => .inr whole.1) And.left

theorem sending_gone {state : HandshakeInboundSubstreamState}
    (sending : framing.Sending before handshake clean state f) (now_clean : clean)
    (pushed : ∀ queued, state ≠ .sending queued) (flushed : state ≠ .flush) :
    framing.written f = before ++ varint.frame handshake := by
  have settled : framing.sent f = before ++ varint.frame handshake ∧ framing.buffered f = [] := by
    cases state with
    | waiting => exact sending.elim
    | sending queued => exact absurd rfl (pushed queued)
    | flush => exact absurd rfl flushed
    | done => exact sending.resolve_right fun lost => lost.2 now_clean
    | needsClose => exact sending.resolve_right fun lost => lost.2 now_clean
    | fullyClosed => exact sending.resolve_right fun lost => lost.2 now_clean
  rw [← settled.1, sent, settled.2, List.append_nil]

theorem Answering.weaker {clean' : Prop} (weaker : clean' → clean)
    (answering : framing.Answering before handshake clean frames stream) :
    framing.Answering before handshake clean' frames stream :=
  { answering with sending := sending_weaker weaker answering.sending }

/-- Once the handshake has gone out, writing adds nothing. -/
theorem sending_settled (sending : framing.Sending before handshake clean .done f)
    (writes : framing.Writes f f') : framing.Sending before handshake clean .done f' := by
  rcases sending with ⟨whole, empty⟩ | ⟨either, failed⟩
  · exact .inl ⟨(framing.writes_sent writes).trans whole, framing.writes_nothing writes empty⟩
  · exact .inr ⟨by rwa [framing.writes_sent writes], failed⟩

theorem sending_flushed (sending : framing.Sending before handshake clean .flush f)
    (writes : framing.Writes f f') (empty : framing.buffered f' = []) :
    framing.Sending before handshake clean .done f' := by
  rcases sending with whole | ⟨lost, failed⟩
  · exact .inl ⟨(framing.writes_sent writes).trans whole, empty⟩
  · exact .inr ⟨.inl ((framing.writes_sent writes).trans lost), failed⟩

theorem sending_broke (sending : framing.Sending before handshake clean .flush f)
    (writes : framing.Writes f f') (dirty : ¬ clean) : framing.Sending before handshake clean .done f' := by
  refine .inr ⟨?_, dirty⟩
  rw [framing.writes_sent writes]
  exact sending.symm.imp_left And.left

theorem sending_delayed (sending : framing.Sending before handshake clean .flush f)
    (writes : framing.Writes f f') : framing.Sending before handshake clean .flush f' := by
  have same := framing.writes_sent writes
  exact sending.imp same.trans (And.imp_left same.trans)

/-- A poll that waits gives out no frame. -/
theorem answered_pending (answering : framing.Answering before handshake clean frames stream) :
    framing.Answered before handshake clean frames (.pending, stream) :=
  ⟨frames, rfl, nofun, answering.weaker And.left⟩

/-- A poll that fails may have lost the handshake. -/
theorem answered_broken {error : IoError} (broken : framing.Answering before handshake False frames stream) :
    framing.Answered before handshake clean frames (.ready (some (.error error)), stream) :=
  ⟨frames, rfl, nofun, broken.weaker fun clean => clean.2 trivial⟩

theorem flush_answered (answering : framing.Answering before handshake clean frames stream)
    (flushing : stream.state = .flush) (w : ω) :
    match framing.transport.pollFlush stream.socket w with
    | (.ready (.ok ()), f', _) =>
      framing.Answering before handshake clean frames { stream with socket := f', state := .done }
    | (.ready (.error _), f', _) =>
      framing.Answering before handshake False frames { stream with socket := f', state := .done }
    | (.pending, f', _) =>
      framing.Answering before handshake clean frames { stream with socket := f', state := .flush } := by
  obtain ⟨sending, unread, -⟩ := answering
  rw [flushing] at sending
  have writes := framing.flush_writes stream.socket w
  rcases flushed : framing.transport.pollFlush stream.socket w with ⟨(_ | ⟨⟨⟩⟩) | _, f', w'⟩
  all_goals
    rw [flushed] at writes
    have unread := writes.unread.trans unread
  · have sending := sending_weaker (fun never : False => never.elim) sending
    exact ⟨sending_broke sending writes id, unread, nofun⟩
  · exact ⟨sending_flushed sending writes (framing.flush_empties _ _ _ _ flushed), unread, nofun⟩
  · exact ⟨sending_delayed sending writes, unread, nofun⟩

/-- Handing the handshake to the socket, from a socket ready or not. -/
theorem push_answered {queued : Bytes} (answering : framing.Answering before handshake clean frames stream)
    (sending : stream.state = .sending queued) (w : ω) :
    match framing.transport.pollReady stream.socket w with
    | (.ready _, f', w) =>
      match framing.transport.startSend queued f' w with
      | (.ok (), f', _) =>
        framing.Answering before handshake clean frames { stream with socket := f', state := .flush }
      | (.error _, f', _) =>
        framing.Answering before handshake False frames { stream with socket := f', state := .flush }
    | (.pending, f', _) =>
      framing.Answering before handshake clean frames { stream with socket := f', state := .sending queued } := by
  obtain ⟨untouched, unread, -⟩ := answering
  rw [sending] at untouched
  obtain ⟨rfl, unsent⟩ := untouched
  have ready := framing.ready_writes stream.socket w
  rcases polled : framing.transport.pollReady stream.socket w with ⟨_ | _, f', w'⟩
  all_goals
    rw [polled] at ready
    have unsent := (framing.writes_sent ready).trans unsent
    have unread := ready.unread.trans unread
    dsimp only
  · rcases started : framing.transport.startSend queued f' w' with ⟨error | ⟨⟨⟩⟩, f'', w''⟩
    · have fails := framing.send_fails _ _ _ _ _ _ started
      exact ⟨.inr ⟨(framing.writes_sent fails).trans unsent, id⟩, fails.unread.trans unread, nofun⟩
    · obtain ⟨same, written, buffered⟩ := framing.send_queues _ _ _ _ _ started
      refine ⟨.inl ?_, same.trans unread, nofun⟩
      rw [← unsent, sent, sent, written, buffered, List.append_assoc]
  · exact ⟨⟨rfl, unsent⟩, unread, nofun⟩

theorem needs_close_answered (answering : framing.Answering before handshake clean [] stream)
    (closing : stream.state = .needsClose) (w : ω) :
    framing.Answered before handshake clean []
      ((HandshakeInboundSubstream.nextNeedsClose framing.transport stream w).1,
        (HandshakeInboundSubstream.nextNeedsClose framing.transport stream w).2.1) := by
  obtain ⟨sending, unread, -⟩ := answering
  rw [closing] at sending
  have writes := framing.close_writes stream.socket w
  unfold HandshakeInboundSubstream.nextNeedsClose
  rcases closed : framing.transport.pollClose stream.socket w with ⟨(_ | ⟨⟨⟩⟩) | _, f', w'⟩
  all_goals
    rw [closed] at writes
    have unread := writes.unread.trans unread
    have settled := sending_settled sending writes
  · exact ⟨[], rfl, nofun, sending_weaker And.left settled, unread, nofun⟩
  · exact ⟨[], rfl, fun _ => rfl, sending_weaker And.left settled, unread, nofun⟩
  · exact ⟨[], rfl, nofun, sending_weaker And.left settled, unread, fun _ => rfl⟩

theorem done_answered (fits : ∀ frame ∈ frames, frame.length < 2 ^ 64)
    (answering : framing.Answering before handshake clean frames stream) (settled : stream.state = .done) (w : ω) :
    framing.Answered before handshake clean frames
      ((HandshakeInboundSubstream.nextDone framing.transport stream w).1,
        (HandshakeInboundSubstream.nextDone framing.transport stream w).2.1) := by
  obtain ⟨sending, unread, -⟩ := answering
  rw [settled] at sending
  have serves := framing.next_serves fits unread w
  obtain ⟨written, buffered⟩ := framing.next_writes_nothing stream.socket w
  have writes : ∀ f', framing.written f' = framing.written stream.socket →
      framing.buffered f' = framing.buffered stream.socket →
      framing.Sending before handshake clean .done f' := by
    intro f' written buffered
    have same : framing.sent f' = framing.sent stream.socket := by rw [sent, sent, written, buffered]
    exact sending.imp (And.imp same.trans buffered.trans) (And.imp_left (Or.imp same.trans same.trans))
  unfold HandshakeInboundSubstream.nextDone
  rcases polled : framing.transport.pollNext stream.socket w with ⟨(_ | outcome) | _, f', w'⟩
  all_goals
    rw [polled] at serves written buffered
    obtain ⟨later, split, yet_unread, ended, -⟩ := serves
    have sending := writes f' written buffered
  · -- the remote is done: every frame was given out
    obtain rfl := ended rfl
    obtain rfl : frames = [] := split
    exact @needs_close_answered _ _ _ _ before handshake clean
      { stream with socket := f', state := .needsClose } ⟨sending, yet_unread, fun _ => rfl⟩ rfl w'
  · exact ⟨later, split, nofun, sending_weaker And.left sending, yet_unread, nofun⟩
  · exact ⟨later, split, nofun, sending_weaker And.left sending, yet_unread, nofun⟩

theorem next_flush_answered (fits : ∀ frame ∈ frames, frame.length < 2 ^ 64)
    (answering : framing.Answering before handshake clean frames stream) (flushing : stream.state = .flush) (w : ω) :
    framing.Answered before handshake clean frames
      ((HandshakeInboundSubstream.nextFlush framing.transport stream w).1,
        (HandshakeInboundSubstream.nextFlush framing.transport stream w).2.1) := by
  have flushed := flush_answered answering flushing w
  unfold HandshakeInboundSubstream.nextFlush
  revert flushed
  rcases framing.transport.pollFlush stream.socket w with ⟨(_ | ⟨⟨⟩⟩) | _, f', w'⟩
  · exact answered_broken
  · intro done
    exact done_answered fits done rfl w'
  · exact answered_pending

theorem process_flush_answered (answering : framing.Answering before handshake clean frames stream)
    (flushing : stream.state = .flush) (w : ω) :
    framing.Answered before handshake clean frames
      ((HandshakeInboundSubstream.processFlush framing.transport stream w).1.processed,
        (HandshakeInboundSubstream.processFlush framing.transport stream w).2.1) := by
  have flushed := flush_answered answering flushing w
  unfold HandshakeInboundSubstream.processFlush
  revert flushed
  rcases framing.transport.pollFlush stream.socket w with ⟨(_ | ⟨⟨⟩⟩) | _, f', w'⟩
  · exact answered_broken
  · exact answered_pending
  · exact answered_pending

/-- A poll of either kind, from any state but the first. -/
theorem poll_answered (fits : ∀ frame ∈ frames, frame.length < 2 ^ 64)
    (answering : framing.Answering before handshake clean frames stream) (p : SubstreamPoll ω) :
    framing.Answered before handshake clean frames (stream.poll framing.transport p) := by
  cases p with
  | process w =>
    unfold HandshakeInboundSubstream.poll HandshakeInboundSubstream.pollProcess
    cases state : stream.state with
    | waiting => exact (state ▸ answering.sending : framing.Sending _ _ _ .waiting _).elim
    | sending queued =>
      have pushed := push_answered answering state w
      revert pushed
      dsimp only
      rcases framing.transport.pollReady stream.socket w with ⟨_ | _, f', w'⟩
      · dsimp only
        rcases framing.transport.startSend queued f' w' with ⟨_ | ⟨⟨⟩⟩, f'', w''⟩
        · exact answered_broken
        · intro queued
          exact process_flush_answered queued rfl w''
      · exact answered_pending
    | flush => exact process_flush_answered answering state w
    | done => exact answered_pending answering
    | needsClose => exact answered_pending answering
    | fullyClosed => exact answered_pending answering
  | next w =>
    unfold HandshakeInboundSubstream.poll HandshakeInboundSubstream.pollNext
    cases state : stream.state with
    | waiting => exact (state ▸ answering.sending : framing.Sending _ _ _ .waiting _).elim
    | sending queued =>
      have pushed := push_answered answering state w
      revert pushed
      dsimp only
      rcases framing.transport.pollReady stream.socket w with ⟨_ | _, f', w'⟩
      · dsimp only
        rcases framing.transport.startSend queued f' w' with ⟨_ | ⟨⟨⟩⟩, f'', w''⟩
        · exact answered_broken
        · intro queued
          exact next_flush_answered fits queued rfl w''
      · exact answered_pending
    | flush => exact next_flush_answered fits answering state w
    | done => exact done_answered fits answering state w
    | needsClose =>
      obtain rfl := answering.ended (.inl state)
      exact needs_close_answered answering state w
    | fullyClosed =>
      obtain rfl := answering.ended (.inr state)
      refine ⟨[], rfl, fun _ => rfl, ?_, answering.unread, nofun⟩
      have sending := answering.sending
      rw [state] at sending
      exact sending_weaker And.left sending

theorem polls_answered (fits : ∀ frame ∈ frames, frame.length < 2 ^ 64)
    (answering : framing.Answering before handshake clean frames stream) (polls : List (SubstreamPoll ω)) :
    let polled := stream.polls framing.transport polls
    ∃ later, frames = received polled.1 ++ later ∧ (.ready none ∈ polled.1 → later = []) ∧
      framing.Answering before handshake (clean ∧ ∀ outcome ∈ polled.1, ¬ outcome.failed) later polled.2 := by
  induction polls generalizing stream clean frames with
  | nil => exact ⟨frames, rfl, nofun, answering.weaker And.left⟩
  | cons p polls ih =>
    obtain ⟨left, split, ended, answering⟩ := poll_answered fits answering p
    have fits : ∀ frame ∈ left, frame.length < 2 ^ 64 := fun frame member =>
      fits frame (split ▸ List.mem_append_right _ member)
    obtain ⟨later, rest, finished, answering⟩ := ih fits answering
    refine ⟨later, ?_, fun seen => ?_, Answering.weaker (fun ⟨clean, none_failed⟩ => ?_) answering⟩
    · calc frames = _ ++ left := split
        _ = _ ++ (_ ++ later) := congrArg _ rest
        _ = _ := (List.append_assoc _ _ _).symm
    · rcases List.mem_cons.mp seen with now | seen
      · obtain rfl := ended now.symm
        exact (List.append_eq_nil_iff.mp rest.symm).2
      · exact finished seen
    · exact ⟨⟨clean, none_failed _ List.mem_cons_self⟩,
        fun outcome member => none_failed outcome (List.mem_cons_of_mem _ member)⟩

variable (framing) in
/-- What a side makes of the handshake of the remote and of the frames behind
it: the handshake and a reader that starts at the first frame, or a refusal
that leaves all of it where it was. -/
def TakesOver (handshake : Bytes) (frames : List Bytes) (outcome : Except HandshakeError (Bytes × σ))
    (socket : Socket) : Prop :=
  if handshake.length ≤ maxHandshakeSize then
    ∃ f, outcome = .ok (handshake, f) ∧ framing.unread f = varint.frames frames ∧ framing.Delivers f frames
  else outcome = .error (.tooLarge handshake.length maxHandshakeSize) ∧
    socket.input.flatten = handshake ++ varint.frames frames

theorem read_output {socket : Socket} {rest : Bytes} (bound : handshake.length < 2 ^ 64)
    (joined : socket.input.flatten = varint.frame handshake ++ rest) :
    (readHandshake varint socket).2.output = socket.output := by
  rcases Nat.lt_or_ge maxHandshakeSize handshake.length with large | small
  · obtain ⟨input, read, _⟩ := read_handshake_large bound large joined
    rw [read]
  · obtain ⟨input, read, _⟩ := read_handshake_fits small joined
    rw [read]

/-- The substream of a listener that was just given its handshake. -/
theorem opened_answering {socket : Socket} {submitted read : Bytes} {negotiatedName : String}
    (bound : submitted.length < 2 ^ 64)
    (joined : socket.input.flatten = varint.frame submitted ++ varint.frames frames)
    (accepted : (readHandshake varint socket).1 = .ok read) :
    framing.Answering socket.output handshake True frames
      ((HandshakeInbound.opened negotiatedName read (framing.new (readHandshake varint socket).2)).substream.setHandshake
        handshake) := by
  rcases Nat.lt_or_ge maxHandshakeSize submitted.length with large | small
  · obtain ⟨input, refused, _⟩ := read_handshake_large bound large joined
    rw [refused] at accepted
    cases accepted
  · obtain ⟨input, took, back⟩ := read_handshake_fits small joined
    rw [took]
    refine ⟨⟨rfl, ?_⟩, (framing.new_unread _).trans back, nofun⟩
    show framing.sent (framing.new _) = _
    rw [sent, framing.new_written, framing.new_buffered, List.append_nil]

/-- Reading a handshake and framing what is left takes the stream over. -/
theorem read_takes_over {socket : Socket} (bound : handshake.length < 2 ^ 64)
    (fits : ∀ frame ∈ frames, frame.length < 2 ^ 64)
    (joined : socket.input.flatten = varint.frame handshake ++ varint.frames frames) :
    framing.TakesOver handshake frames
      ((readHandshake varint socket).1.map fun read => (read, framing.new (readHandshake varint socket).2))
      (readHandshake varint socket).2 := by
  unfold TakesOver
  split
  next small =>
    obtain ⟨input, read, back⟩ := read_handshake_fits small joined
    have unread := (framing.new_unread { socket with input }).trans back
    rw [read]
    exact ⟨_, rfl, unread, framing.delivers_unread fits unread⟩
  next large =>
    obtain ⟨input, read, back⟩ := read_handshake_large bound (by omega) joined
    rw [read]
    exact ⟨rfl, back⟩

end Framing

/-- Both handshakes arrive as they were sent, or are refused on their length
alone, and each reader goes on at the first byte behind them. The listener
sends its own once, whole, and however its substream is polled. -/
theorem handshakes_exchanged {σ ω : Type} (varint : Varint) (framing : Framing varint σ ω)
    (dialing : HandshakeOutbound) (listening : HandshakeInbound) (negotiatedName : String) (answer : Bytes)
    (frames returned : List Bytes) (dialer listener : Socket)
    (sizes : ∀ bytes ∈ dialing.handshake :: answer :: frames ++ returned, bytes.length < 2 ^ 64)
    (unbroken : dialer.broken = none)
    (arrives : listener.input.flatten = varint.frame dialing.handshake ++ varint.frames frames)
    (returns : dialer.input.flatten = varint.frame answer ++ varint.frames returned) :
    let dialed := dialing.upgradeOutbound varint framing.new dialer
    let accepted := listening.upgradeInbound varint framing.new listener negotiatedName
    dialed.2.output = dialer.output ++ varint.frame dialing.handshake ∧
    framing.TakesOver dialing.handshake frames
      (accepted.1.map fun opened => (opened.handshake, opened.substream.socket)) accepted.2 ∧
    framing.TakesOver answer returned
      (dialed.1.map fun opened => (opened.handshake, opened.substream.socket)) dialed.2 ∧
    ∀ opened, accepted.1 = .ok opened → ∀ polls,
      let polled := (opened.substream.setHandshake answer).polls framing.transport polls
      ∃ later, frames = received polled.1 ++ later ∧ framing.unread polled.2.socket = varint.frames later ∧
        (.ready none ∈ polled.1 → later = []) ∧
        (framing.sent polled.2.socket = listener.output ∨
          framing.sent polled.2.socket = listener.output ++ varint.frame answer) ∧
        ((∀ outcome ∈ polled.1, ¬ outcome.failed) → (∀ queued, polled.2.state ≠ .sending queued) →
          polled.2.state ≠ .flush →
          framing.written polled.2.socket = listener.output ++ varint.frame answer) := by
  have size : ∀ bytes ∈ [dialing.handshake, answer], bytes.length < 2 ^ 64 := fun bytes member =>
    sizes bytes (List.mem_append_left _ (by rcases member with _ | ⟨_, _ | ⟨_, ⟨⟩⟩⟩ <;> simp))
  have fits : ∀ frame ∈ frames, frame.length < 2 ^ 64 := fun frame member => sizes frame (by simp [member])
  have returned_fits : ∀ frame ∈ returned, frame.length < 2 ^ 64 := fun frame member =>
    sizes frame (by simp [member])
  obtain ⟨dials, dialed_socket, _⟩ := @upgrade_outbound_reads _ varint framing.new _ dialing unbroken
  obtain ⟨accepts, accepted_socket, accepts_opened⟩ :=
    @upgrade_inbound_reads _ varint framing.new listener listening negotiatedName
  refine ⟨?_, ?_, ?_, fun opened accepted polls => ?_⟩
  · rw [dialed_socket]
    exact Framing.read_output (size answer (by simp)) returns
  · rw [accepts, accepted_socket]
    exact Framing.read_takes_over (size _ (by simp)) fits arrives
  · rw [dials, dialed_socket]
    exact Framing.read_takes_over (size _ (by simp)) returned_fits returns
  · obtain ⟨handshake, read, rfl⟩ := accepts_opened opened accepted
    obtain ⟨later, split, ended, answering⟩ :=
      Framing.polls_answered fits (framing.opened_answering (size _ (by simp)) arrives read) polls
    refine ⟨later, split, answering.unread, ended, Framing.sending_either answering.sending, fun none_failed sent flushed => ?_⟩
    exact Framing.sending_gone answering.sending ⟨trivial, none_failed⟩ sent flushed

/-- A handshake of two bytes answered by one of one byte, whose bytes arrive
apart from its length, with a frame behind each. -/
theorem short_handshakes_exchanged :
    let dialed := HandshakeOutbound.upgradeOutbound Varint.leb128 Framed.framing.new ⟨"/block-announces/1", [4, 5]⟩
      ⟨[[], [1], [9, 1], [8]], [], none⟩
    dialed.2.output = [2, 4, 5] ∧
    Framed.framing.TakesOver [9] [[8]]
      (dialed.1.map fun opened => (opened.handshake, opened.substream.socket)) dialed.2 := by
  have exchanged := handshakes_exchanged Varint.leb128 Framed.framing ⟨"/block-announces/1", [4, 5]⟩
    ⟨"/block-announces/1"⟩ "/block-announces/1" [9] [[7]] [[8]] ⟨[[], [1], [9, 1], [8]], [], none⟩
    ⟨[[2, 4], [5, 1, 7]], [], none⟩ (by simp) rfl rfl rfl
  exact ⟨exchanged.1, exchanged.2.2.1⟩

end Subp2pExplorer.Notifications
