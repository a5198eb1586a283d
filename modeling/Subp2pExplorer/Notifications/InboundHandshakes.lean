import Subp2pExplorer.Notifications.Polling

/-! Our handshake on the substreams the remote opens. A substream that waits
for the behaviour is in the state the upgrade left it in, and from the command
to open on it has been given our handshake. -/
namespace Subp2pExplorer.Notifications
open Lib

section Runs
variable {PeerId σ ω : Type} {transport : Transport σ ω} {peer : PeerId} {endpoint : ConnectedPoint PeerId}
  {data : ProtocolsData} {turns : List (HandlerTurn σ ω)} {r r' t : HandlerRun PeerId σ}

/-- Every inbound substream is handed over as the upgrade yields it. -/
def Upgraded (_ : HandlerRun PeerId σ) : HandlerTurn σ ω → Prop
  | .inbound protocol => ∃ name handshake socket, protocol.data = HandshakeInbound.opened name handshake socket
  | _ => True

theorem upgraded_fresh {l : HandlerTurn σ ω} (upgraded : Upgraded r l) {callback : Callback σ} {index : Nat}
    (made : l.callback = some (callback, index)) : callback.Fresh := by
  cases l with
  | inbound protocol =>
    obtain ⟨name, handshake, socket, opened⟩ := upgraded
    cases made
    show protocol.data.substream.state = .waiting
    rw [opened]
    rfl
  | command message => cases message <;> cases made <;> trivial
  | outbound opened info =>
    cases made
    trivial
  | dialError info =>
    cases made
    trivial
  | poll w => cases made
  | send channel message => cases made

theorem turn_supplied {l : HandlerTurn σ ω} (supplied : r.handler.Supplied) (upgraded : Upgraded r l)
    (step : r.turn transport l = some r') : r'.handler.Supplied := by
  cases made : l.callback with
  | some pair =>
    obtain ⟨proto, state, added, _, _, kept, _, _⟩ := callback_view made step
    exact kept (upgraded_fresh upgraded made) supplied
  | none =>
    rcases quiet_view made step with
      ⟨event, rest, _, rfl⟩ | ⟨_, kept, _, _⟩ | ⟨k, event, before, after, _, _, kept, _⟩
    · cases event <;> exact supplied
    · exact kept supplied
    · exact (kept supplied).1

theorem new_supplied (peer : PeerId) (endpoint : ConnectedPoint PeerId) (data : ProtocolsData) :
    (NotificationsHandler.new (σ := σ) peer endpoint data).Supplied := by
  intro proto member
  rcases List.mem_cons.mp member with rfl | member
  · trivial
  · cases List.mem_singleton.mp member
    trivial

theorem run_supplied (meets : (handlerRuns transport peer endpoint data).Meets Upgraded turns)
    (run : (handlerRuns transport peer endpoint data).replay turns = some t) : t.handler.Supplied := by
  apply Machine.invariant_under (fun s l s' held upgraded step => turn_supplied held upgraded step) ?_ meets run
  exact new_supplied peer endpoint data

/-- Not yet opened by us. -/
def Unopened (shape : Option Shape) : Prop := shape = none ∨ shape = some .closed ∨ shape = some .openDesiredByRemote

/-- Only a command to open takes a protocol out of closed and the wish of the
remote. -/
theorem effect_unopened {h : NotificationsHandler PeerId σ} {proto : ProtocolDetails σ} {index : Nat}
    {callback : Callback σ} {before after : State σ} {added : List (HandlerEvent PeerId)}
    (effect : Effect h proto index callback before after added) (other : callback ≠ .open)
    (unopened : Unopened (some before.shape)) : Unopened (some after.shape) := by
  cases effect <;> simp_all [Unopened, State.shape]

theorem turn_unopened {l : HandlerTurn σ ω} {i : Nat} (unopened : Unopened (r.handler.shape i))
    (other : l ≠ .command (.open i)) (step : r.turn transport l = some r') :
    Unopened (r'.handler.shape i) := by
  cases made : l.callback with
  | some pair =>
    obtain ⟨callback, index⟩ := pair
    obtain ⟨proto, state, added, effect, reshaped, _, _, _⟩ := callback_view made step
    by_cases same : i = index
    · subst same
      rw [reshaped.before] at unopened
      rw [reshaped.after]
      refine effect_unopened effect (fun opens => other ?_) unopened
      subst opens
      cases l with
      | command message =>
        cases message with
        | «open» index =>
          cases made
          rfl
        | close index => cases made
      | _ => cases made
    · rw [reshaped.others i same]
      exact unopened
  | none =>
    rcases quiet_view made step with
      ⟨event, rest, _, rfl⟩ | ⟨kept, _⟩ | ⟨k, event, before, after, direct, reshaped, _⟩
    · cases event <;> exact unopened
    · rw [kept]
      exact unopened
    · by_cases same : i = k
      · subst same
        rw [reshaped.before] at unopened
        rw [reshaped.after]
        cases direct <;> simp_all [Unopened]
      · rw [reshaped.others i same]
        exact unopened

/-- The three visits of a poll leave a waiting remote and its socket alone. -/
theorem waiting_untouched {inbound : HandshakeInboundSubstream σ} (waiting : inbound.state = .waiting)
    (pendingOpening : Bool) (index : Nat) (w : ω) :
    sendState transport (.openDesiredByRemote inbound pendingOpening) w =
        (.openDesiredByRemote inbound pendingOpening, w) ∧
      @flushState PeerId _ _ transport index (.openDesiredByRemote inbound pendingOpening) w =
        (none, .openDesiredByRemote inbound pendingOpening, w) ∧
      @pollInboundState PeerId _ _ transport index (.openDesiredByRemote inbound pendingOpening) w =
        (none, .openDesiredByRemote inbound pendingOpening, w) := by
  refine ⟨rfl, rfl, ?_⟩
  unfold pollInboundState
  dsimp only
  rw [HandshakeInboundSubstream.poll_process_waiting waiting]

/-- In every run a remote's substream waits untouched until we open, and has
our handshake from then on; without a command to open, it is not opened. -/
theorem inbound_handshakes (meets : (handlerRuns transport peer endpoint data).Meets Upgraded turns)
    (run : (handlerRuns transport peer endpoint data).replay turns = some t) :
    ∀ (i : Nat) (proto : ProtocolDetails σ), t.handler.protocols[i]? = some proto →
      (∀ inbound pendingOpening, proto.state = .openDesiredByRemote inbound pendingOpening →
        inbound.state = .waiting ∧ ∀ w,
          sendState transport proto.state w = (proto.state, w) ∧
          @flushState PeerId _ _ transport i proto.state w = (none, proto.state, w) ∧
          @pollInboundState PeerId _ _ transport i proto.state w = (none, proto.state, w)) ∧
      (∀ inbound direction, proto.state = .opening (some inbound) direction → inbound.state ≠ .waiting) ∧
      (∀ recv inbound outbound, proto.state = .opened recv (some inbound) outbound →
        inbound.state ≠ .waiting) ∧
      (HandlerTurn.command (.open i) ∉ turns →
        proto.state.shape = .closed ∨ proto.state.shape = .openDesiredByRemote) := by
  have unopened : ∀ i, HandlerTurn.command (.open i) ∉ turns → Unopened (t.handler.shape i) := by
    refine Machine.history_invariant
      (I := fun past s => ∀ i, HandlerTurn.command (.open i) ∉ past → Unopened (s.handler.shape i))
      (fun past s l s' held _ step i fresh => ?_) (fun i _ => ?_) (Machine.meets_trivial turns) run
    · rw [List.mem_append, List.mem_singleton, not_or] at fresh
      exact turn_unopened (held i fresh.1) (Ne.symm fresh.2) step
    · rcases i with _ | _ | i
      · exact .inr (.inl rfl)
      · exact .inr (.inl rfl)
      · exact .inl rfl
  intro i proto found
  have supplied := run_supplied meets run proto (List.mem_of_getElem? found)
  refine ⟨fun inbound pendingOpening state => ?_, fun inbound direction state => ?_,
    fun recv inbound outbound state => ?_, fun fresh => ?_⟩
  · rw [state] at supplied ⊢
    exact ⟨supplied, fun w => waiting_untouched supplied pendingOpening i w⟩
  · rw [state] at supplied
    exact supplied
  · rw [state] at supplied
    exact supplied
  · have shape : t.handler.shape i = some proto.state.shape := by
      rw [NotificationsHandler.shape, found]
      rfl
    rcases unopened i fresh with absent | closed | remote
    · rw [shape] at absent
      cases absent
    · exact .inl (Option.some.inj (shape.symm.trans closed))
    · exact .inr (Option.some.inj (shape.symm.trans remote))

/-- The remote opens a substream and the handler is polled twice, before any
command. -/
def remoteOpening : List (HandlerTurn Unit Bool) :=
  [.inbound ⟨HandshakeInbound.opened "/0/block-announces/1" [4] (), 0⟩, .poll true, .poll true]

theorem remote_opening_waits : ∃ (t : HandlerRun Nat Unit) (proto : ProtocolDetails Unit)
    (inbound : HandshakeInboundSubstream Unit),
    (handlerRuns .flushing 7 (.listener [] []) .zero).replay remoteOpening = some t ∧
      t.handler.protocols[0]? = some proto ∧ proto.state = .openDesiredByRemote inbound false ∧
      inbound.state = .waiting := by
  have shape : ((handlerRuns .flushing (7 : Nat) (.listener [] []) .zero).replay remoteOpening).map
      (fun t => t.handler.protocols[0]?.map fun proto => proto.state) =
        some (some (.openDesiredByRemote ⟨(), .waiting, "/0/block-announces/1"⟩ false)) := by
    rfl
  obtain ⟨t, run, state⟩ := Option.map_eq_some_iff.mp shape
  obtain ⟨proto, found, state⟩ := Option.map_eq_some_iff.mp state
  have meets : (handlerRuns .flushing (7 : Nat) (.listener [] []) .zero).Meets Upgraded remoteOpening :=
    ⟨⟨_, _, _, rfl⟩, fun _ _ => ⟨trivial, fun _ _ => ⟨trivial, fun _ _ => trivial⟩⟩⟩
  exact ⟨t, proto, _, run, found, state, ((inbound_handshakes meets run 0 proto found).1 _ _ state).1⟩

end Runs

end Subp2pExplorer.Notifications
