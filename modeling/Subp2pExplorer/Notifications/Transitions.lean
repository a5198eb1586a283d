import Mathlib.Data.List.Forall2
import Subp2pExplorer.Notifications.Handler

/-! What the callbacks and the poll of a handler can do to a protocol, said
once: each callback takes one of the listed transitions, and a poll drives the
substreams without opening or closing anything but a refused remote. -/
namespace Subp2pExplorer.Notifications

section Effects
variable {PeerId σ : Type}

/-- What the swarm can call a handler with for one protocol. -/
inductive Callback (σ : Type) where
  | «open»
  | close
  | inbound (substream : HandshakeInboundSubstream σ)
  | outbound (opened : HandshakeOutboundOpen σ)
  | dialError

/-- Whether a callback answers a request for an outbound substream. -/
def Callback.answers : Callback σ → Bool
  | .outbound _ => true
  | .dialError => true
  | _ => false

/-- Every transition of a protocol: the state before a callback, the state
after it, and the events it queues. -/
inductive Effect (h : NotificationsHandler PeerId σ) (proto : ProtocolDetails σ) (index : Nat) :
    Callback σ → State σ → State σ → List (HandlerEvent PeerId) → Prop where
  | openClosed : Effect h proto index .open (.closed false) (.opening none false)
      [.outboundSubstreamRequest ⟨proto.name, proto.handshake⟩ index]
  | openPending : Effect h proto index .open (.closed true) (.opening none false) []
  | openRemote {inbound} : Effect h proto index .open (.openDesiredByRemote inbound false)
      (.opening (some (inbound.setHandshake proto.handshake)) true)
      [.outboundSubstreamRequest ⟨proto.name, proto.handshake⟩ index]
  | openRemotePending {inbound} : Effect h proto index .open (.openDesiredByRemote inbound true)
      (.opening (some (inbound.setHandshake proto.handshake)) true) []
  | openOpening {inbound direction} :
      Effect h proto index .open (.opening inbound direction) (.opening inbound direction) []
  | openOpened {recv inbound outbound} :
      Effect h proto index .open (.opened recv inbound outbound) (.opened recv inbound outbound) []
  | closeClosed {pendingOpening} : Effect h proto index .close (.closed pendingOpening) (.closed pendingOpening)
      [.notifyBehaviour (.close index)]
  | closeRemote {inbound pendingOpening} : Effect h proto index .close
      (.openDesiredByRemote inbound pendingOpening) (.closed pendingOpening) [.notifyBehaviour (.close index)]
  | closeOpening {inbound direction} : Effect h proto index .close (.opening inbound direction) (.closed true)
      [.notifyBehaviour (.handshakeError index), .notifyBehaviour (.close index)]
  | closeOpened {recv inbound outbound} : Effect h proto index .close (.opened recv inbound outbound)
      (.closed false) [.notifyBehaviour (.close index)]
  | inboundClosed {substream pendingOpening} : Effect h proto index (.inbound substream)
      (.closed pendingOpening) (.openDesiredByRemote substream pendingOpening)
      [.notifyBehaviour (.openDesiredByRemote index)]
  | inboundRemote {substream inbound pendingOpening} : Effect h proto index (.inbound substream)
      (.openDesiredByRemote inbound pendingOpening) (.openDesiredByRemote inbound pendingOpening) []
  | inboundOpeningHeld {substream inbound direction} : Effect h proto index (.inbound substream)
      (.opening (some inbound) direction) (.opening (some inbound) direction) []
  | inboundOpening {substream direction} : Effect h proto index (.inbound substream)
      (.opening none direction) (.opening (some (substream.setHandshake proto.handshake)) direction) []
  | inboundOpenedHeld {substream recv inbound outbound} : Effect h proto index (.inbound substream)
      (.opened recv (some inbound) outbound) (.opened recv (some inbound) outbound) []
  | inboundOpened {substream recv outbound} : Effect h proto index (.inbound substream)
      (.opened recv none outbound) (.opened recv (some (substream.setHandshake proto.handshake)) outbound) []
  | outboundClosed {opened pendingOpening} : Effect h proto index (.outbound opened)
      (.closed pendingOpening) (.closed false) []
  | outboundRemote {opened inbound pendingOpening} : Effect h proto index (.outbound opened)
      (.openDesiredByRemote inbound pendingOpening) (.openDesiredByRemote inbound false) []
  | outboundOpening {opened inbound direction} : Effect h proto index (.outbound opened)
      (.opening inbound direction)
      (.opened ⟨h.channels + 1, none, []⟩ inbound (some opened.substream))
      [.notifyBehaviour (.handshakeCompleted index h.endpoint opened.handshake direction (h.channels + 1))]
  | outboundOpened {opened recv inbound outbound} : Effect h proto index (.outbound opened)
      (.opened recv inbound outbound) (.opened recv inbound outbound) []
  | dialErrorClosed {pendingOpening} : Effect h proto index .dialError (.closed pendingOpening) (.closed false) []
  | dialErrorRemote {inbound pendingOpening} : Effect h proto index .dialError
      (.openDesiredByRemote inbound pendingOpening) (.openDesiredByRemote inbound false) []
  | dialErrorOpening {inbound direction} : Effect h proto index .dialError (.opening inbound direction)
      (.closed false) [.notifyBehaviour (.handshakeError index)]
  | dialErrorOpened {recv inbound outbound} : Effect h proto index .dialError
      (.opened recv inbound outbound) (.opened recv inbound outbound) []

/-- A handler after one protocol changed its state and queued events. -/
structure Applied (h h' : NotificationsHandler PeerId σ) (proto : ProtocolDetails σ) (index : Nat)
    (state : State σ) (added : List (HandlerEvent PeerId)) : Prop where
  found : h.protocols[index]? = some proto
  protocols : h'.protocols = h.protocols.set index { proto with state := state }
  pending : h'.pendingEvents = h.pendingEvents ++ added

namespace NotificationsHandler

/-- A measure of the state of one protocol, zero where there is none. -/
def measure (h : NotificationsHandler PeerId σ) (f : State σ → Nat) (i : Nat) : Nat :=
  (h.protocols[i]?.map fun proto => f proto.state).getD 0

/-- How many of the pending events are of a kind. -/
def queued (h : NotificationsHandler PeerId σ) (kind : HandlerEvent PeerId → Bool) : Nat :=
  h.pendingEvents.countP kind

variable {h h' : NotificationsHandler PeerId σ} {proto : ProtocolDetails σ} {index : Nat}

theorem measure_found (found : h.protocols[index]? = some proto) (f : State σ → Nat) :
    h.measure f index = f proto.state := by
  simp [measure, found]

theorem applied_measure {state : State σ} {added : List (HandlerEvent PeerId)}
    (applied : Applied h h' proto index state added) (f : State σ → Nat) (i : Nat) :
    h'.measure f i = if i = index then f state else h.measure f i := by
  have within := (List.getElem?_eq_some_iff.mp applied.found).1
  unfold measure
  rw [applied.protocols]
  by_cases same : i = index
  · simp [same, within]
  · simp [same, List.getElem?_set_ne (Ne.symm same)]

theorem applied_queued {state : State σ} {added : List (HandlerEvent PeerId)}
    (applied : Applied h h' proto index state added) (kind : HandlerEvent PeerId → Bool) :
    h'.queued kind = h.queued kind + added.countP kind := by
  rw [queued, applied.pending, List.countP_append]
  rfl

private theorem applied_unchanged (found : h.protocols[index]? = some proto) {state : State σ}
    (same : proto.state = state) : Applied h h proto index state [] where
  found := found
  protocols := by
    obtain ⟨within, held⟩ := List.getElem?_eq_some_iff.mp found
    subst same
    rw [← held, List.set_getElem_self]
  pending := (List.append_nil _).symm

theorem open_protocol_effect (found : h.protocols[index]? = some proto) :
    ∃ state added, Effect h proto index .open proto.state state added ∧
      Applied h (h.openProtocol proto index) proto index state added := by
  unfold openProtocol
  cases state : proto.state with
  | closed pendingOpening =>
    cases pendingOpening with
    | true => exact ⟨_, _, .openPending, found, rfl, (List.append_nil _).symm⟩
    | false => exact ⟨_, _, .openClosed, found, rfl, rfl⟩
  | openDesiredByRemote inbound pendingOpening =>
    cases pendingOpening with
    | true => exact ⟨_, _, .openRemotePending, found, rfl, (List.append_nil _).symm⟩
    | false => exact ⟨_, _, .openRemote, found, rfl, rfl⟩
  | opening inbound direction => exact ⟨_, _, .openOpening, applied_unchanged found state⟩
  | opened recv inbound outbound => exact ⟨_, _, .openOpened, applied_unchanged found state⟩

theorem close_protocol_effect (found : h.protocols[index]? = some proto) :
    ∃ state added, Effect h proto index .close proto.state state added ∧
      Applied h (h.closeProtocol proto index) proto index state added := by
  unfold closeProtocol
  cases state : proto.state with
  | closed pendingOpening =>
    exact ⟨_, _, .closeClosed, found, (applied_unchanged found state).protocols, rfl⟩
  | openDesiredByRemote inbound pendingOpening => exact ⟨_, _, .closeRemote, found, rfl, rfl⟩
  | opening inbound direction =>
    refine ⟨_, _, .closeOpening, found, rfl, ?_⟩
    exact List.append_assoc h.pendingEvents _ _
  | opened recv inbound outbound => exact ⟨_, _, .closeOpened, found, rfl, rfl⟩

theorem negotiated_inbound_effect (found : h.protocols[index]? = some proto)
    (substream : HandshakeInboundSubstream σ) :
    ∃ state added, Effect h proto index (.inbound substream) proto.state state added ∧
      Applied h (h.negotiatedInbound proto index substream) proto index state added := by
  unfold negotiatedInbound
  cases state : proto.state with
  | closed pendingOpening => exact ⟨_, _, .inboundClosed, found, rfl, rfl⟩
  | openDesiredByRemote inbound pendingOpening =>
    exact ⟨_, _, .inboundRemote, applied_unchanged found state⟩
  | opening inbound direction =>
    cases inbound with
    | some inbound => exact ⟨_, _, .inboundOpeningHeld, applied_unchanged found state⟩
    | none => exact ⟨_, _, .inboundOpening, found, rfl, (List.append_nil _).symm⟩
  | opened recv inbound outbound =>
    cases inbound with
    | some inbound => exact ⟨_, _, .inboundOpenedHeld, applied_unchanged found state⟩
    | none => exact ⟨_, _, .inboundOpened, found, rfl, (List.append_nil _).symm⟩

theorem negotiated_outbound_effect (found : h.protocols[index]? = some proto)
    (opened : HandshakeOutboundOpen σ) :
    ∃ state added, Effect h proto index (.outbound opened) proto.state state added ∧
      Applied h (h.negotiatedOutbound proto index opened) proto index state added := by
  unfold negotiatedOutbound
  cases state : proto.state with
  | closed pendingOpening => exact ⟨_, _, .outboundClosed, found, rfl, (List.append_nil _).symm⟩
  | openDesiredByRemote inbound pendingOpening =>
    exact ⟨_, _, .outboundRemote, found, rfl, (List.append_nil _).symm⟩
  | opening inbound direction => exact ⟨_, _, .outboundOpening, found, rfl, rfl⟩
  | opened recv inbound outbound => exact ⟨_, _, .outboundOpened, applied_unchanged found state⟩

theorem dial_upgrade_error_effect (found : h.protocols[index]? = some proto) :
    ∃ state added, Effect h proto index .dialError proto.state state added ∧
      Applied h (h.dialUpgradeError proto index) proto index state added := by
  unfold dialUpgradeError
  cases state : proto.state with
  | closed pendingOpening => exact ⟨_, _, .dialErrorClosed, found, rfl, (List.append_nil _).symm⟩
  | openDesiredByRemote inbound pendingOpening =>
    exact ⟨_, _, .dialErrorRemote, found, rfl, (List.append_nil _).symm⟩
  | opening inbound direction => exact ⟨_, _, .dialErrorOpening, found, rfl, rfl⟩
  | opened recv inbound outbound => exact ⟨_, _, .dialErrorOpened, applied_unchanged found state⟩

/-- The handler behind a callback for one protocol. -/
def called (h : NotificationsHandler PeerId σ) (proto : ProtocolDetails σ) (index : Nat) :
    Callback σ → NotificationsHandler PeerId σ
  | .open => h.openProtocol proto index
  | .close => h.closeProtocol proto index
  | .inbound substream => h.negotiatedInbound proto index substream
  | .outbound opened => h.negotiatedOutbound proto index opened
  | .dialError => h.dialUpgradeError proto index

theorem called_effect (found : h.protocols[index]? = some proto) (callback : Callback σ) :
    ∃ state added, Effect h proto index callback proto.state state added ∧
      Applied h (h.called proto index callback) proto index state added := by
  cases callback with
  | «open» => exact open_protocol_effect found
  | close => exact close_protocol_effect found
  | inbound substream => exact negotiated_inbound_effect found substream
  | outbound opened => exact negotiated_outbound_effect found opened
  | dialError => exact dial_upgrade_error_effect found

end NotificationsHandler

/-- What polling can make of the state of a protocol. -/
inductive Polled : State σ → State σ → Prop where
  | same (state : State σ) : Polled state state
  | opened {recv recv' : Receiver} {inbound inbound' : Option (HandshakeInboundSubstream σ)}
      {outbound outbound' : Option (HandshakeOutboundSubstream σ)} :
      Polled (.opened recv inbound outbound) (.opened recv' inbound' outbound')
  | openDesiredByRemote {inbound inbound' : HandshakeInboundSubstream σ} {pendingOpening : Bool} :
      Polled (.openDesiredByRemote inbound pendingOpening) (.openDesiredByRemote inbound' pendingOpening)
  | refused {inbound : HandshakeInboundSubstream σ} {pendingOpening : Bool} :
      Polled (.openDesiredByRemote inbound pendingOpening) (.closed pendingOpening)
  | opening {inbound inbound' : Option (HandshakeInboundSubstream σ)} {direction : Bool} :
      Polled (.opening inbound direction) (.opening inbound' direction)

theorem Polled.trans {before middle after : State σ} (first : Polled before middle)
    (second : Polled middle after) : Polled before after := by
  cases first with
  | same => exact second
  | opened =>
    cases second with
    | same => exact .opened
    | opened => exact .opened
  | openDesiredByRemote =>
    cases second with
    | same => exact .openDesiredByRemote
    | openDesiredByRemote => exact .openDesiredByRemote
    | refused => exact .refused
  | refused =>
    cases second with
    | same => exact .refused
  | opening =>
    cases second with
    | same => exact .opening
    | opening => exact .opening

/-- Polling keeps what a protocol was configured with. -/
def PolledProtocol (before after : ProtocolDetails σ) : Prop :=
  after = { before with state := after.state } ∧ Polled before.state after.state

theorem PolledProtocol.rfl {proto : ProtocolDetails σ} : PolledProtocol proto proto := ⟨by rfl, .same _⟩

theorem PolledProtocol.trans {before middle after : ProtocolDetails σ} (first : PolledProtocol before middle)
    (second : PolledProtocol middle after) : PolledProtocol before after := by
  refine ⟨?_, first.2.trans second.2⟩
  rw [second.1, first.1]

end Effects

section Polls
variable {PeerId σ ω : Type} {transport : Transport σ ω}

private theorem polled_all_trans {before middle after : List (ProtocolDetails σ)}
    (first : List.Forall₂ PolledProtocol before middle) (second : List.Forall₂ PolledProtocol middle after) :
    List.Forall₂ PolledProtocol before after := by
  induction first generalizing after with
  | nil => exact second
  | cons head _ ih =>
    cases second with
    | cons next rest => exact .cons (head.trans next) (ih rest)

variable (transport) in
theorem poll_send_polled (protocols : List (ProtocolDetails σ)) (w : ω) :
    List.Forall₂ PolledProtocol protocols (pollSend transport protocols w).1 := by
  induction protocols generalizing w with
  | nil => exact .nil
  | cons proto rest ih =>
    unfold pollSend
    refine .cons ⟨rfl, ?_⟩ (ih _)
    cases proto.state with
    | opened recv inbound outbound =>
      cases outbound with
      | none => exact .same _
      | some outbound => exact .opened
    | _ => exact .same _

variable (PeerId transport) in
/-- A flush ends with no event or with the wish to close a protocol. -/
theorem poll_flush_polled (protocols : List (ProtocolDetails σ)) (index : Nat) (w : ω) :
    List.Forall₂ PolledProtocol protocols (@pollFlush PeerId _ _ transport index protocols w).2.1 ∧
      ∀ event, (@pollFlush PeerId _ _ transport index protocols w).1 = some event →
        ∃ i, event = .closeDesired i := by
  induction protocols generalizing index w with
  | nil => exact ⟨.nil, fun event none => by cases none⟩
  | cons proto rest ih =>
    unfold pollFlush
    split
    · rename_i recv inbound outbound opened
      have changed : ∀ outbound', PolledProtocol proto { proto with state := .opened recv inbound outbound' } := by
        intro outbound'
        refine ⟨rfl, ?_⟩
        rw [opened]
        exact .opened
      have unchanged : List.Forall₂ (PolledProtocol (σ := σ)) rest rest :=
        List.forall₂_same.mpr fun _ _ => .rfl
      split
      · refine ⟨.cons (changed none) unchanged, fun event last => ⟨index, ?_⟩⟩
        exact (Option.some.inj last).symm
      · exact ⟨.cons (changed _) (ih _ _).1, (ih _ _).2⟩
    · exact ⟨.cons .rfl (ih _ _).1, (ih _ _).2⟩

/-- An event of the third pass: a wish to close, or a notification. -/
def Inbound (event : ToBehavior PeerId) : Prop :=
  (∃ i, event = .closeDesired i) ∨ ∃ i bytes, event = .notification i bytes

variable (PeerId transport) in
theorem poll_inbound_state_polled (index : Nat) (state : State σ) (w : ω) :
    Polled state (@pollInboundState PeerId _ _ transport index state w).2.1 ∧
      ∀ event, (@pollInboundState PeerId _ _ transport index state w).1 = some event →
        Inbound event := by
  unfold pollInboundState
  split
  · split
    · exact ⟨.opened, fun event none => by cases none⟩
    · exact ⟨.opened, fun event last => .inr ⟨index, _, (Option.some.inj last).symm⟩⟩
    · exact ⟨.opened, fun event none => by cases none⟩
    · exact ⟨.opened, fun event none => by cases none⟩
  · split
    · exact ⟨.openDesiredByRemote, fun event none => by cases none⟩
    · exact ⟨.refused, fun event last => .inl ⟨index, (Option.some.inj last).symm⟩⟩
  · split
    · exact ⟨.opening, fun event none => by cases none⟩
    · exact ⟨.opening, fun event none => by cases none⟩
  · exact ⟨.same _, fun event none => by cases none⟩

variable (PeerId transport) in
theorem poll_inbound_polled (protocols : List (ProtocolDetails σ)) (index : Nat) (w : ω) :
    List.Forall₂ PolledProtocol protocols (@pollInbound PeerId _ _ transport index protocols w).2.1 ∧
      ∀ event, (@pollInbound PeerId _ _ transport index protocols w).1 = some event →
        Inbound event := by
  induction protocols generalizing index w with
  | nil => exact ⟨.nil, fun event none => by cases none⟩
  | cons proto rest ih =>
    unfold pollInbound
    have step := poll_inbound_state_polled PeerId transport index proto.state w
    have unchanged : List.Forall₂ (PolledProtocol (σ := σ)) rest rest :=
      List.forall₂_same.mpr fun _ _ => .rfl
    split
    · rename_i event state w' polled
      rw [polled] at step
      exact ⟨.cons ⟨rfl, step.1⟩ unchanged, fun last same => Option.some.inj same ▸ step.2 event rfl⟩
    · rename_i state w' polled
      rw [polled] at step
      exact ⟨.cons ⟨rfl, step.1⟩ (ih _ _).1, (ih _ _).2⟩

variable (transport) in
/-- A poll hands out the first pending event, or, where there is none, drives
the protocols and returns at most a wish to close or a notification. -/
theorem poll_cases (h : NotificationsHandler PeerId σ) (w : ω) :
    (∃ event rest, h.pendingEvents = event :: rest ∧
        h.poll transport w = (.ready event, { h with pendingEvents := rest }, w)) ∨
      h.pendingEvents = [] ∧ ∃ result protocols w',
        h.poll transport w = (result, { h with protocols := protocols }, w') ∧
        List.Forall₂ PolledProtocol h.protocols protocols ∧
        (result = .pending ∨ ∃ event, result = .ready (.notifyBehaviour event) ∧ Inbound event) := by
  unfold NotificationsHandler.poll
  cases pending : h.pendingEvents with
  | cons event rest => exact .inl ⟨event, rest, rfl, rfl⟩
  | nil =>
    refine .inr ⟨rfl, ?_⟩
    dsimp only
    have sent := poll_send_polled transport h.protocols w
    generalize pollSend transport h.protocols w = after at sent ⊢
    obtain ⟨protocols, w⟩ := after
    dsimp only at sent ⊢
    have flushed := poll_flush_polled PeerId transport protocols 0 w
    split
    · rename_i event protocols' w' polled
      rw [polled] at flushed
      refine ⟨_, _, _, rfl, polled_all_trans sent flushed.1, .inr ⟨event, rfl, .inl ?_⟩⟩
      exact flushed.2 event rfl
    · rename_i protocols' w' polled
      rw [polled] at flushed
      have driven := polled_all_trans sent flushed.1
      have received := poll_inbound_polled PeerId transport protocols' 0 w'
      split
      · rename_i event protocols'' w'' polled
        rw [polled] at received
        exact ⟨_, _, _, rfl, polled_all_trans driven received.1, .inr ⟨event, rfl, received.2 event rfl⟩⟩
      · rename_i protocols'' w'' polled
        rw [polled] at received
        exact ⟨_, _, _, rfl, polled_all_trans driven received.1, .inl rfl⟩

/-- A measure that polling a state keeps is kept by polling all protocols. -/
theorem polled_measure {h : NotificationsHandler PeerId σ} {protocols : List (ProtocolDetails σ)}
    {f : State σ → Nat} (kept : ∀ before after, Polled before after → f after = f before)
    (driven : List.Forall₂ PolledProtocol h.protocols protocols) (i : Nat) :
    ({ h with protocols := protocols } : NotificationsHandler PeerId σ).measure f i = h.measure f i := by
  unfold NotificationsHandler.measure
  dsimp only
  generalize h.protocols = before at driven
  induction driven generalizing i with
  | nil => rfl
  | cons head _ ih =>
    cases i with
    | zero => exact kept _ _ head.2
    | succ i => exact ih i

/-- A message of the user reaches the receiver of its channel. -/
def userSend (channel : Nat) (message : Bytes) (h : NotificationsHandler PeerId σ) :
    NotificationsHandler PeerId σ :=
  { h with protocols := h.protocols.map fun proto => { proto with state := match proto.state with
      | .opened recv inboundSubstream outboundSubstream =>
        .opened (recv.send channel message) inboundSubstream outboundSubstream
      | state => state } }

theorem user_send_polled (channel : Nat) (message : Bytes) (h : NotificationsHandler PeerId σ) :
    List.Forall₂ PolledProtocol h.protocols (userSend channel message h).protocols := by
  refine List.forall₂_map_right_iff.mpr (List.forall₂_same.mpr fun proto _ => ⟨rfl, ?_⟩)
  cases proto.state with
  | opened recv inbound outbound => exact .opened
  | _ => exact .same _

end Polls

end Subp2pExplorer.Notifications
