import Subp2pExplorer.Lib.Runs
import Subp2pExplorer.Notifications.Transitions

/-! Runs of one handler. The swarm keeps the outbound substreams that were
requested and answers each of them once; everything else that arrives, and
every outcome of a socket, is up to the run. -/
namespace Subp2pExplorer.Notifications
open Lib

/-- A handler with the requests the swarm holds unanswered and the events it
was handed for the behaviour. -/
structure HandlerRun (PeerId σ : Type) where
  handler : NotificationsHandler PeerId σ
  requested : List Nat
  returned : List (ToBehavior PeerId)

inductive HandlerTurn (σ ω : Type) where
  | command (message : FromBehavior)
  | inbound (protocol : ProtocolResponse (HandshakeInboundOpen σ))
  | outbound (opened : HandshakeOutboundOpen σ) (info : Nat)
  | dialError (info : Nat)
  | poll (w : ω)
  | send (channel : Nat) (message : Bytes)

/-- The callback a turn makes, and the protocol it is for. -/
def HandlerTurn.callback {σ ω : Type} : HandlerTurn σ ω → Option (Callback σ × Nat)
  | .command (.open index) => some (.open, index)
  | .command (.close index) => some (.close, index)
  | .inbound protocol => some (.inbound protocol.data.substream, protocol.index)
  | .outbound opened info => some (.outbound opened, info)
  | .dialError info => some (.dialError, info)
  | .poll _ => none
  | .send _ _ => none

section Runs
variable {PeerId σ ω : Type} (transport : Transport σ ω)

namespace HandlerRun

/-- The swarm takes what a poll returned. -/
def take (r : HandlerRun PeerId σ) (handler : NotificationsHandler PeerId σ) :
    Poll (HandlerEvent PeerId) → HandlerRun PeerId σ
  | .ready (.notifyBehaviour event) => { r with handler := handler, returned := r.returned ++ [event] }
  | .ready (.outboundSubstreamRequest _ info) =>
    { r with handler := handler, requested := info :: r.requested }
  | .pending => { r with handler := handler }

/-- One callback of the handler. An answer needs a request it is for. -/
def turn (r : HandlerRun PeerId σ) : HandlerTurn σ ω → Option (HandlerRun PeerId σ)
  | .command message => (r.handler.onBehaviourEvent message).map fun h => { r with handler := h }
  | .inbound protocol =>
    (r.handler.onConnectionEvent (.fullyNegotiatedInbound protocol)).map fun h => { r with handler := h }
  | .outbound opened info =>
    if info ∈ r.requested then
      (r.handler.onConnectionEvent (.fullyNegotiatedOutbound opened info)).map fun h =>
        { r with handler := h, requested := r.requested.erase info }
    else none
  | .dialError info =>
    if info ∈ r.requested then
      (r.handler.onConnectionEvent (.dialUpgradeError info)).map fun h =>
        { r with handler := h, requested := r.requested.erase info }
    else none
  | .poll w =>
    let (result, h, _) := r.handler.poll transport w
    some (r.take h result)
  | .send channel message => some { r with handler := userSend channel message r.handler }

end HandlerRun

/-- The runs of a handler from its construction on. -/
def handlerRuns (peer : PeerId) (endpoint : ConnectedPoint PeerId) (data : ProtocolsData) :
    Machine (HandlerRun PeerId σ) (HandlerTurn σ ω) where
  start := ⟨.new peer endpoint data, [], []⟩
  next := HandlerRun.turn transport

end Runs

section Turns
variable {PeerId σ ω : Type} {transport : Transport σ ω} {r r' : HandlerRun PeerId σ}

/-- A turn that makes a callback is this callback for the protocol it names; an
answer uses up a request the swarm holds. -/
theorem callback_made {l : HandlerTurn σ ω} {callback : Callback σ} {index : Nat}
    (made : l.callback = some (callback, index)) (step : r.turn transport l = some r') :
    ∃ proto, r.handler.protocols[index]? = some proto ∧
      r' = { r with
        handler := r.handler.called proto index callback
        requested := if callback.answers then r.requested.erase index else r.requested } ∧
      (callback.answers → index ∈ r.requested) := by
  cases l with
  | command message =>
    obtain ⟨h, taken, rfl⟩ := Option.map_eq_some_iff.mp step
    cases message with
    | «open» i =>
      cases made
      obtain ⟨proto, found, rfl⟩ := Option.map_eq_some_iff.mp taken
      exact ⟨proto, found, rfl, fun answers => by cases answers⟩
    | close i =>
      cases made
      obtain ⟨proto, found, rfl⟩ := Option.map_eq_some_iff.mp taken
      exact ⟨proto, found, rfl, fun answers => by cases answers⟩
  | inbound protocol =>
    cases made
    obtain ⟨h, taken, rfl⟩ := Option.map_eq_some_iff.mp step
    obtain ⟨proto, found, rfl⟩ := Option.map_eq_some_iff.mp taken
    exact ⟨proto, found, rfl, fun answers => by cases answers⟩
  | outbound opened info =>
    cases made
    obtain ⟨held, step⟩ := Option.ite_none_right_eq_some.mp step
    obtain ⟨h, taken, rfl⟩ := Option.map_eq_some_iff.mp step
    obtain ⟨proto, found, rfl⟩ := Option.map_eq_some_iff.mp taken
    exact ⟨proto, found, rfl, fun _ => held⟩
  | dialError info =>
    cases made
    obtain ⟨held, step⟩ := Option.ite_none_right_eq_some.mp step
    obtain ⟨h, taken, rfl⟩ := Option.map_eq_some_iff.mp step
    obtain ⟨proto, found, rfl⟩ := Option.map_eq_some_iff.mp taken
    exact ⟨proto, found, rfl, fun _ => held⟩
  | poll w => cases made
  | send channel message => cases made

/-- A turn that makes a callback takes one transition. -/
theorem callback_turn {l : HandlerTurn σ ω} {callback : Callback σ} {index : Nat}
    (made : l.callback = some (callback, index)) (step : r.turn transport l = some r') :
    ∃ proto state added, Effect r.handler proto index callback proto.state state added ∧
      Applied r.handler r'.handler proto index state added ∧ r'.returned = r.returned ∧
      r'.requested = (if callback.answers then r.requested.erase index else r.requested) ∧
      (callback.answers → index ∈ r.requested) := by
  obtain ⟨proto, found, rfl, held⟩ := callback_made made step
  obtain ⟨state, added, effect, applied⟩ := NotificationsHandler.called_effect found callback
  exact ⟨proto, state, added, effect, applied, rfl, rfl, held⟩

/-- A turn without a callback hands out the first pending event, or drives the
protocols and hands out at most a wish to close or a notification. -/
theorem quiet_turn {l : HandlerTurn σ ω} (quiet : l.callback = none)
    (step : r.turn transport l = some r') :
    (∃ event rest, r.handler.pendingEvents = event :: rest ∧
        r' = r.take { r.handler with pendingEvents := rest } (.ready event)) ∨
      ∃ protocols events, List.Forall₂ PolledProtocol r.handler.protocols protocols ∧
        (∀ event ∈ events, Inbound event) ∧
        r' = { r with
          handler := { r.handler with protocols := protocols }, returned := r.returned ++ events } := by
  cases l with
  | command message => cases message <;> cases quiet
  | inbound protocol => cases quiet
  | outbound opened info => cases quiet
  | dialError info => cases quiet
  | poll w =>
    have taken : r' = r.take (r.handler.poll transport w).2.1 (r.handler.poll transport w).1 :=
      (Option.some.inj step).symm
    subst taken
    rcases poll_cases transport r.handler w with
      ⟨event, rest, pending, polled⟩ | ⟨_, result, protocols, w', polled, driven, outcome⟩
    · rw [polled]
      exact .inl ⟨event, rest, pending, rfl⟩
    · rw [polled]
      rcases outcome with same | ⟨event, same, inbound⟩
      · subst same
        refine .inr ⟨protocols, [], driven, fun event absent => ?_, ?_⟩
        · cases absent
        · rw [List.append_nil]
          rfl
      · subst same
        exact .inr ⟨protocols, [event], driven, fun last only => List.mem_singleton.mp only ▸ inbound, rfl⟩
  | send channel message =>
    cases step
    refine .inr ⟨_, [], user_send_polled channel message r.handler, fun event absent => ?_, ?_⟩
    · cases absent
    · rw [List.append_nil]
      rfl

end Turns

section Requests
variable {PeerId σ ω : Type}

/-- How many outbound substreams a state waits for. -/
def State.awaited : State σ → Nat
  | .closed pendingOpening => pendingOpening.toNat
  | .openDesiredByRemote _ pendingOpening => pendingOpening.toNat
  | .opening _ _ => 1
  | .opened _ _ _ => 0

def requestFor (i : Nat) : HandlerEvent PeerId → Bool
  | .outboundSubstreamRequest _ info => info = i
  | .notifyBehaviour _ => false

/-- Requests for an index that are queued or held unanswered by the swarm. -/
def HandlerRun.outstanding (r : HandlerRun PeerId σ) (i : Nat) : Nat :=
  r.handler.queued (requestFor i) + r.requested.count i

/-- The states record the outstanding requests. -/
def Balanced (r : HandlerRun PeerId σ) : Prop := ∀ i, r.outstanding i = r.handler.measure State.awaited i

theorem polled_awaited {before after : State σ} (polled : Polled before after) :
    after.awaited = before.awaited := by
  cases polled <;> rfl

theorem awaited_le_one (state : State σ) : state.awaited ≤ 1 := by
  cases state with
  | closed pendingOpening => exact Bool.toNat_le pendingOpening
  | openDesiredByRemote inbound pendingOpening => exact Bool.toNat_le pendingOpening
  | opening inbound direction => exact Nat.le_refl 1
  | opened recv inbound outbound => exact Nat.zero_le 1

theorem measure_awaited_le_one (h : NotificationsHandler PeerId σ) (i : Nat) : h.measure State.awaited i ≤ 1 := by
  unfold NotificationsHandler.measure
  cases h.protocols[i]? with
  | none => exact Nat.zero_le 1
  | some proto => exact awaited_le_one proto.state

/-- No callback requests a substream for another protocol. -/
theorem effect_requests_own {h : NotificationsHandler PeerId σ} {proto : ProtocolDetails σ} {index i : Nat}
    {callback : Callback σ} {before after : State σ} {added : List (HandlerEvent PeerId)}
    (effect : Effect h proto index callback before after added) (apart : i ≠ index) :
    added.countP (requestFor i) = 0 := by
  cases effect <;> simp [requestFor, Ne.symm apart]

/-- A request is queued for what becomes awaited; after an answer nothing is. -/
theorem effect_requests {h : NotificationsHandler PeerId σ} {proto : ProtocolDetails σ} {index : Nat}
    {callback : Callback σ} {before after : State σ} {added : List (HandlerEvent PeerId)}
    (effect : Effect h proto index callback before after added) :
    if callback.answers then added.countP (requestFor index) = 0 ∧ after.awaited = 0
    else added.countP (requestFor index) + before.awaited = after.awaited := by
  cases effect <;> simp [Callback.answers, requestFor, State.awaited]

theorem turn_balanced {transport : Transport σ ω} {r r' : HandlerRun PeerId σ} {l : HandlerTurn σ ω}
    (balanced : Balanced r) (step : r.turn transport l = some r') : Balanced r' := by
  intro i
  have before : r.handler.queued (requestFor i) + r.requested.count i = r.handler.measure State.awaited i :=
    balanced i
  cases made : l.callback with
  | some pair =>
    obtain ⟨callback, index⟩ := pair
    obtain ⟨proto, state, added, effect, applied, _, requested, held⟩ := callback_turn made step
    unfold HandlerRun.outstanding
    rw [NotificationsHandler.applied_queued applied, NotificationsHandler.applied_measure applied, requested]
    by_cases same : i = index
    · subst same
      rw [NotificationsHandler.measure_found applied.found] at before
      have requests := effect_requests effect
      cases answers : callback.answers with
      | true =>
        have present := List.count_pos_iff.mpr (held answers)
        have single := awaited_le_one proto.state
        simp only [answers, if_true] at requests
        rw [if_pos rfl, if_pos rfl, List.count_erase_self]
        omega
      | false =>
        simp only [answers, Bool.false_eq_true, if_false] at requests
        rw [if_neg Bool.false_ne_true, if_pos rfl]
        omega
    · rw [effect_requests_own effect same, if_neg same]
      split
      · rw [List.count_erase_of_ne same]
        exact before
      · exact before
  | none =>
    rcases quiet_turn made step with ⟨event, rest, pending, rfl⟩ | ⟨protocols, events, driven, _, rfl⟩
    · rw [NotificationsHandler.queued, pending, List.countP_cons] at before
      cases event with
      | notifyBehaviour event => exact before
      | outboundSubstreamRequest protocol info =>
        show rest.countP (requestFor i) + (info :: r.requested).count i = r.handler.measure State.awaited i
        rw [List.count_cons, ← before]
        simp only [requestFor, decide_eq_true_eq, beq_iff_eq]
        omega
    · exact before.trans (polled_measure (fun _ _ => polled_awaited) driven i).symm

/-- Whether a callback answers a request for this index. -/
def HandlerTurn.Answers (index : Nat) : HandlerTurn σ ω → Prop
  | .outbound _ info => info = index
  | .dialError info => info = index
  | _ => False

/-- In every run the state of a protocol records its one outstanding request,
and no answer finds the protocol open. -/
theorem requests_recorded {transport : Transport σ ω} {peer : PeerId} {endpoint : ConnectedPoint PeerId}
    {data : ProtocolsData} {turns : List (HandlerTurn σ ω)} {t : HandlerRun PeerId σ}
    (run : (handlerRuns transport peer endpoint data).replay turns = some t) :
    (∀ i, t.outstanding i ≤ 1) ∧
    (∀ (i : Nat) (proto : ProtocolDetails σ), t.handler.protocols[i]? = some proto →
      t.outstanding i = proto.state.awaited) ∧
    ∀ (l : HandlerTurn σ ω) (index : Nat), l.Answers index → (t.turn transport l).isSome →
      ∀ proto, t.handler.protocols[index]? = some proto →
        ∀ recv inbound outbound, proto.state ≠ .opened recv inbound outbound := by
  have balanced : Balanced t := by
    apply Machine.invariant (fun s l s' held step => turn_balanced held step) ?_ run
    intro i
    show 0 = _
    rcases i with _ | _ | i <;> rfl
  have recorded : ∀ (i : Nat) (proto : ProtocolDetails σ), t.handler.protocols[i]? = some proto →
      t.outstanding i = proto.state.awaited :=
    fun i proto found => (balanced i).trans (NotificationsHandler.measure_found found State.awaited)
  refine ⟨fun i => (balanced i).trans_le (measure_awaited_le_one _ _), recorded, ?_⟩
  intro l index answers possible proto found recv inbound outbound opened
  have none : t.requested.count index = 0 := by
    have outstanding : t.handler.queued (requestFor index) + t.requested.count index = 0 := by
      rw [← show proto.state.awaited = 0 by rw [opened]; rfl]
      exact recorded index proto found
    omega
  have absent : index ∉ t.requested := List.count_eq_zero.mp none
  cases l with
  | outbound opening info =>
    cases answers
    simp [HandlerRun.turn, absent] at possible
  | dialError info =>
    cases answers
    simp [HandlerRun.turn, absent] at possible
  | _ => exact answers

/-- An opening is closed while its request is with the swarm, the remote opens,
and the late answer is taken. -/
def lateAnswer : List (HandlerTurn Unit Bool) :=
  [.command (.open 0), .poll true, .command (.close 0), .inbound ⟨⟨[4], ⟨(), .waiting, "/0/block-announces/1"⟩⟩, 0⟩,
    .outbound ⟨[4], ⟨()⟩⟩ 0, .command (.open 0)]

theorem late_answer_recorded : ∃ t : HandlerRun Nat Unit,
    (handlerRuns .flushing 7 (.listener [] []) .zero).replay lateAnswer = some t ∧
    (∀ i, t.outstanding i ≤ 1) ∧
    (∀ (i : Nat) (proto : ProtocolDetails Unit), t.handler.protocols[i]? = some proto →
      t.outstanding i = proto.state.awaited) ∧
    ∀ (l : HandlerTurn Unit Bool) (index : Nat), l.Answers index → (t.turn .flushing l).isSome →
      ∀ proto, t.handler.protocols[index]? = some proto →
        ∀ recv inbound outbound, proto.state ≠ .opened recv inbound outbound := by
  have possible : ((handlerRuns .flushing (7 : Nat) (.listener [] []) .zero).replay lateAnswer).isSome =
      true := by
    rfl
  obtain ⟨t, run⟩ := Option.isSome_iff_exists.mp possible
  exact ⟨t, run, requests_recorded run⟩

end Requests
end Subp2pExplorer.Notifications
