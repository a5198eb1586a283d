import Subp2pExplorer.Notifications.HandlerRuns

/-! A poll visits one protocol after another, three times over. What every
visit keeps, the poll keeps; the event it hands out comes from its last visit.
The outer states are seen here as shapes, the substreams held in them by
whether they have our handshake. -/
namespace Subp2pExplorer.Notifications

section Visits
variable {PeerId σ ω : Type} (transport : Transport σ ω)

/-- What the first pass does for one protocol. -/
def sendState (state : State σ) (w : ω) : State σ × ω :=
  match state with
  | .opened recv inboundSubstream (some outbound) =>
    let (recv, outbound, w) := sendMessages transport recv.messages.length recv outbound w
    (.opened recv inboundSubstream (some outbound), w)
  | state => (state, w)

/-- What the second pass does for one protocol. -/
def flushState (index : Nat) (state : State σ) (w : ω) : Option (ToBehavior PeerId) × State σ × ω :=
  match state with
  | .opened recv inboundSubstream (some outbound) =>
    match outbound.pollFlush transport w with
    | (.ready (.error _), _, w) => (some (.closeDesired index), .opened recv inboundSubstream none, w)
    | (_, outbound, w) => (none, .opened recv inboundSubstream (some outbound), w)
  | state => (none, state, w)

/-- A pass visits the protocols in order and stops at an event. -/
def pass (visit : Nat → State σ → ω → Option (ToBehavior PeerId) × State σ × ω) (index : Nat) :
    List (ProtocolDetails σ) → ω → Option (ToBehavior PeerId) × List (ProtocolDetails σ) × ω
  | [], w => (none, [], w)
  | proto :: rest, w =>
    match visit index proto.state w with
    | (some event, state, w) => (some event, { proto with state := state } :: rest, w)
    | (none, state, w) =>
      let (event, rest, w) := pass visit (index + 1) rest w
      (event, { proto with state := state } :: rest, w)

theorem poll_send_cons (proto : ProtocolDetails σ) (rest : List (ProtocolDetails σ)) (w : ω) :
    pollSend transport (proto :: rest) w =
      ({ proto with state := (sendState transport proto.state w).1 } ::
          (pollSend transport rest (sendState transport proto.state w).2).1,
        (pollSend transport rest (sendState transport proto.state w).2).2) := rfl

variable {transport} {visit : Nat → State σ → ω → Option (ToBehavior PeerId) × State σ × ω}
  {proto : ProtocolDetails σ} {index : Nat} {state : State σ} {w w' : ω}

theorem pass_stops {event : ToBehavior PeerId} (visited : visit index proto.state w = (some event, state, w'))
    (rest : List (ProtocolDetails σ)) :
    pass visit index (proto :: rest) w = (some event, { proto with state := state } :: rest, w') := by
  rw [pass, visited]

theorem pass_goes_on (visited : visit index proto.state w = (none, state, w'))
    (rest : List (ProtocolDetails σ)) :
    pass visit index (proto :: rest) w =
      ((pass visit (index + 1) rest w').1,
        { proto with state := state } :: (pass visit (index + 1) rest w').2.1,
        (pass visit (index + 1) rest w').2.2) := by
  rw [pass, visited]

variable (transport)

theorem poll_flush_pass (protocols : List (ProtocolDetails σ)) (index : Nat) (w : ω) :
    @pollFlush PeerId _ _ transport index protocols w = pass (flushState transport) index protocols w := by
  induction protocols generalizing index w with
  | nil => rfl
  | cons proto rest ih =>
    unfold pollFlush
    split
    · rename_i recv inbound outbound opened
      split
      · rename_i w' flushed
        have visited : flushState transport index proto.state w =
            (some (.closeDesired index : ToBehavior PeerId), .opened recv inbound none, w') := by
          simp only [flushState, opened, flushed]
        rw [pass_stops visited]
      · rename_i result outbound' w' other flushed
        have visited : flushState transport index proto.state w =
            ((none : Option (ToBehavior PeerId)), .opened recv inbound (some outbound'), w') := by
          simp only [flushState, opened, flushed]
        rw [pass_goes_on visited, ih]
    · rename_i other
      have visited : flushState transport index proto.state w =
          ((none : Option (ToBehavior PeerId)), proto.state, w) := by
        unfold flushState
        split
        · rename_i opened
          exact absurd opened (other _ _ _)
        · rfl
      rw [pass_goes_on visited, ih]

theorem poll_inbound_pass (protocols : List (ProtocolDetails σ)) (index : Nat) (w : ω) :
    @pollInbound PeerId _ _ transport index protocols w =
      pass (pollInboundState transport) index protocols w := by
  induction protocols generalizing index w with
  | nil => rfl
  | cons proto rest ih =>
    unfold pollInbound
    split
    · rename_i visited
      rw [pass_stops visited]
    · rename_i visited
      rw [pass_goes_on visited, ih]

end Visits

section Rules
variable {PeerId σ ω : Type} {transport : Transport σ ω} {J : List (ProtocolDetails σ) → ω → Prop}

/-- A visit hands out an event: the last one of a pass. -/
def Handed (transport : Transport σ ω) (k : Nat) (before : State σ) (w : ω) (event : ToBehavior PeerId)
    (after : State σ) (w' : ω) : Prop :=
  flushState transport k before w = (some event, after, w') ∨
    pollInboundState transport k before w = (some event, after, w')

/-- What every visit without an event keeps of the protocols and the world. -/
structure PollKeeps (PeerId : Type) (transport : Transport σ ω)
    (J : List (ProtocolDetails σ) → ω → Prop) : Prop where
  send : ∀ protocols w k proto state w', J protocols w → protocols[k]? = some proto →
    sendState transport proto.state w = (state, w') → J (protocols.set k { proto with state := state }) w'
  flush : ∀ protocols w k proto state w', J protocols w → protocols[k]? = some proto →
    @flushState PeerId _ _ transport k proto.state w = (none, state, w') →
    J (protocols.set k { proto with state := state }) w'
  inbound : ∀ protocols w k proto state w', J protocols w → protocols[k]? = some proto →
    @pollInboundState PeerId _ _ transport k proto.state w = (none, state, w') →
    J (protocols.set k { proto with state := state }) w'

theorem at_cursor (done rest : List (ProtocolDetails σ)) (proto : ProtocolDetails σ) :
    (done ++ proto :: rest)[done.length]? = some proto := by
  rw [List.getElem?_append_right (Nat.le_refl _), Nat.sub_self]
  rfl

theorem set_cursor (done rest : List (ProtocolDetails σ)) (proto proto' : ProtocolDetails σ) :
    (done ++ proto :: rest).set done.length proto' = (done ++ [proto']) ++ rest := by
  rw [List.set_append_right _ _ (Nat.le_refl _), Nat.sub_self, List.append_assoc]
  rfl

/-- An entry of a list in which one was replaced. -/
theorem set_entry {α : Type} {entries : List α} {at_k new entry : α} {i : Nat} (found : entries[k]? = some at_k)
    (at_i : (entries.set k new)[i]? = some entry) : i = k ∧ entry = new ∨ i ≠ k ∧ entries[i]? = some entry := by
  by_cases same : i = k
  · subst same
    rw [List.getElem?_set_self (List.getElem?_eq_some_iff.mp found).1] at at_i
    exact .inl ⟨rfl, (Option.some.inj at_i).symm⟩
  · rw [List.getElem?_set_ne (Ne.symm same)] at at_i
    exact .inr ⟨same, at_i⟩

theorem send_keeps (keeps : PollKeeps PeerId transport J) {protocols : List (ProtocolDetails σ)} {w : ω}
    (held : J protocols w) : J (pollSend transport protocols w).1 (pollSend transport protocols w).2 := by
  have from_cursor : ∀ (rest done : List (ProtocolDetails σ)) (w : ω), J (done ++ rest) w →
      J (done ++ (pollSend transport rest w).1) (pollSend transport rest w).2 := by
    intro rest
    induction rest with
    | nil => exact fun done w held => held
    | cons proto rest ih =>
      intro done w held
      have visited := keeps.send _ w _ proto _ _ held (at_cursor done rest proto) rfl
      rw [set_cursor] at visited
      have later := ih _ _ visited
      rw [poll_send_cons]
      rwa [List.append_assoc] at later
  exact from_cursor protocols [] w held

/-- A pass without an event keeps what its visits keep; otherwise its event
comes from a visit before which they had kept it. -/
theorem pass_keeps {visit : Nat → State σ → ω → Option (ToBehavior PeerId) × State σ × ω}
    (keep : ∀ protocols w k proto state w', J protocols w → protocols[k]? = some proto →
      visit k proto.state w = (none, state, w') → J (protocols.set k { proto with state := state }) w')
    {protocols : List (ProtocolDetails σ)} {w : ω} (held : J protocols w) :
    ((pass visit 0 protocols w).1 = none ∧ J (pass visit 0 protocols w).2.1 (pass visit 0 protocols w).2.2) ∨
      ∃ event k proto before w' state, (pass visit 0 protocols w).1 = some event ∧ J before w' ∧
        before[k]? = some proto ∧ visit k proto.state w' = (some event, state, (pass visit 0 protocols w).2.2) ∧
        (pass visit 0 protocols w).2.1 = before.set k { proto with state := state } := by
  have from_cursor : ∀ (rest done : List (ProtocolDetails σ)) (w : ω), J (done ++ rest) w →
      ((pass visit done.length rest w).1 = none ∧
        J (done ++ (pass visit done.length rest w).2.1) (pass visit done.length rest w).2.2) ∨
      ∃ event k proto before w' state, (pass visit done.length rest w).1 = some event ∧ J before w' ∧
        before[k]? = some proto ∧
        visit k proto.state w' = (some event, state, (pass visit done.length rest w).2.2) ∧
        done ++ (pass visit done.length rest w).2.1 = before.set k { proto with state := state } := by
    intro rest
    induction rest with
    | nil => exact fun done w held => .inl ⟨rfl, held⟩
    | cons proto rest ih =>
      intro done w held
      rcases visited : visit done.length proto.state w with ⟨_ | event, state, w'⟩
      · have kept := keep _ w _ proto _ _ held (at_cursor done rest proto) visited
        rw [set_cursor] at kept
        have later := ih _ _ kept
        rw [List.length_append, List.length_singleton] at later
        simp only [List.append_assoc, List.singleton_append] at later
        rw [pass_goes_on visited]
        exact later
      · rw [pass_stops visited]
        refine .inr ⟨event, _, proto, _, w, state, rfl, held, at_cursor done rest proto, visited, ?_⟩
        rw [set_cursor, List.append_assoc]
        rfl
  have whole := from_cursor protocols [] w held
  simpa using whole

/-- A poll with nothing pending keeps what its visits keep, or ends at the visit
whose event it hands out. -/
theorem poll_keeps (keeps : PollKeeps PeerId transport J) {h : NotificationsHandler PeerId σ} {w : ω}
    (empty : h.pendingEvents = []) (held : J h.protocols w) :
    ∃ result protocols w', h.poll transport w = (result, { h with protocols := protocols }, w') ∧
      (result = .pending ∧ J protocols w' ∨
        ∃ event k proto before w₀ state, result = .ready (.notifyBehaviour event) ∧ J before w₀ ∧
          before[k]? = some proto ∧ Handed transport k proto.state w₀ event state w' ∧
          protocols = before.set k { proto with state := state }) := by
  have sent := send_keeps keeps held
  unfold NotificationsHandler.poll
  rw [empty]
  dsimp only
  generalize pollSend transport h.protocols w = after at sent ⊢
  obtain ⟨protocols, w⟩ := after
  have flushed := pass_keeps keeps.flush sent
  rw [← poll_flush_pass] at flushed
  generalize pollFlush transport 0 protocols w = after at flushed ⊢
  obtain ⟨_ | event, protocols, w'⟩ := after
  · have quiet : J protocols w' := by
      rcases flushed with ⟨_, kept⟩ | ⟨_, _, _, _, _, _, absent, _⟩
      · exact kept
      · cases absent
    have received := pass_keeps keeps.inbound quiet
    rw [← poll_inbound_pass] at received
    dsimp only
    generalize pollInbound transport 0 protocols w' = after at received ⊢
    obtain ⟨_ | event, protocols, w''⟩ := after
    · refine ⟨_, _, _, rfl, .inl ⟨rfl, ?_⟩⟩
      rcases received with ⟨_, kept⟩ | ⟨_, _, _, _, _, _, absent, _⟩
      · exact kept
      · cases absent
    · refine ⟨_, _, _, rfl, .inr ?_⟩
      rcases received with ⟨absent, _⟩ | ⟨_, k, proto, before, w₀, state, same, kept, found, visited, set⟩
      · cases absent
      · cases same
        exact ⟨event, k, proto, before, w₀, state, rfl, kept, found, .inr visited, set⟩
  · refine ⟨_, _, _, rfl, .inr ?_⟩
    rcases flushed with ⟨absent, _⟩ | ⟨_, k, proto, before, w₀, state, same, kept, found, visited, set⟩
    · cases absent
    · cases same
      exact ⟨event, k, proto, before, w₀, state, rfl, kept, found, .inl visited, set⟩

end Rules

/-- What a state is from outside, and whether an open protocol has a substream
to send on. -/
inductive Shape where
  | closed
  | openDesiredByRemote
  | opening
  | opened (sending : Bool)
  deriving DecidableEq

section Views
variable {PeerId σ ω : Type} {transport : Transport σ ω}

def State.shape : State σ → Shape
  | .closed _ => .closed
  | .openDesiredByRemote _ _ => .openDesiredByRemote
  | .opening _ _ => .opening
  | .opened _ _ outboundSubstream => .opened outboundSubstream.isSome

/-- Before we open, the remote's substream waits for our handshake; from then
on it has it. -/
def State.Supplied : State σ → Prop
  | .openDesiredByRemote inboundSubstream _ => inboundSubstream.state = .waiting
  | .opening (some inboundSubstream) _ => inboundSubstream.state ≠ .waiting
  | .opened _ (some inboundSubstream) _ => inboundSubstream.state ≠ .waiting
  | _ => True

namespace NotificationsHandler

def shape (h : NotificationsHandler PeerId σ) (i : Nat) : Option Shape :=
  h.protocols[i]?.map fun proto => proto.state.shape

def Supplied (h : NotificationsHandler PeerId σ) : Prop := ∀ proto ∈ h.protocols, proto.state.Supplied

end NotificationsHandler

namespace HandshakeInboundSubstream
variable {stream : HandshakeInboundSubstream σ}

/-- A waiting substream is left alone, and its socket with it. -/
theorem poll_process_waiting (waiting : stream.state = .waiting) (w : ω) :
    stream.pollProcess transport w = (.pending, stream, w) := by
  unfold pollProcess
  rw [waiting]

/-- Past waiting, under this name. -/
structure Continues (stream : HandshakeInboundSubstream σ) (name : String) : Prop where
  supplied : stream.state ≠ .waiting
  name : stream.negotiatedName = name

theorem process_flush_continues (stream : HandshakeInboundSubstream σ) (w : ω) :
    Continues (stream.processFlush transport w).2.1 stream.negotiatedName := by
  unfold processFlush
  split <;> exact ⟨by simp, rfl⟩

theorem poll_process_continues (stream : HandshakeInboundSubstream σ) (w : ω) :
    (stream.pollProcess transport w).2.1 = stream ∨
      Continues (stream.pollProcess transport w).2.1 stream.negotiatedName := by
  unfold pollProcess
  split
  · right
    split
    · split
      · exact process_flush_continues _ _
      · exact ⟨by simp, rfl⟩
    · exact ⟨by simp, rfl⟩
  · exact .inr (process_flush_continues _ _)
  · exact .inl rfl

theorem next_needs_close_continues (stream : HandshakeInboundSubstream σ) (w : ω) :
    Continues (stream.nextNeedsClose transport w).2.1 stream.negotiatedName := by
  unfold nextNeedsClose
  split <;> exact ⟨by simp, rfl⟩

theorem next_done_continues (stream : HandshakeInboundSubstream σ) (w : ω) :
    Continues (stream.nextDone transport w).2.1 stream.negotiatedName := by
  unfold nextDone
  split
  · exact next_needs_close_continues _ _
  · exact ⟨by simp, rfl⟩
  · exact ⟨by simp, rfl⟩

theorem next_flush_continues (stream : HandshakeInboundSubstream σ) (w : ω) :
    Continues (stream.nextFlush transport w).2.1 stream.negotiatedName := by
  unfold nextFlush
  split
  · exact next_done_continues _ _
  · exact ⟨by simp, rfl⟩
  · exact ⟨by simp, rfl⟩

theorem poll_next_continues (stream : HandshakeInboundSubstream σ) (w : ω) :
    (stream.pollNext transport w).2.1 = stream ∨
      Continues (stream.pollNext transport w).2.1 stream.negotiatedName := by
  unfold pollNext
  split
  · exact .inl rfl
  all_goals right
  · split
    · split
      · exact next_flush_continues _ _
      · exact ⟨by simp, rfl⟩
    · exact ⟨by simp, rfl⟩
  · exact next_flush_continues _ _
  · exact next_done_continues _ _
  · exact next_needs_close_continues _ _
  · exact ⟨by simp, rfl⟩

theorem poll_process_supplied (supplied : stream.state ≠ .waiting) (w : ω) :
    (stream.pollProcess transport w).2.1.state ≠ .waiting := by
  rcases poll_process_continues stream w with same | continues
  · rwa [same]
  · exact continues.supplied

theorem poll_next_supplied (supplied : stream.state ≠ .waiting) (w : ω) :
    (stream.pollNext transport w).2.1.state ≠ .waiting := by
  rcases poll_next_continues stream w with same | continues
  · rwa [same]
  · exact continues.supplied

theorem poll_process_name (stream : HandshakeInboundSubstream σ) (w : ω) :
    (stream.pollProcess transport w).2.1.negotiatedName = stream.negotiatedName := by
  rcases poll_process_continues stream w with same | continues
  · rw [same]
  · exact continues.name

theorem poll_next_name (stream : HandshakeInboundSubstream σ) (w : ω) :
    (stream.pollNext transport w).2.1.negotiatedName = stream.negotiatedName := by
  rcases poll_next_continues stream w with same | continues
  · rw [same]
  · exact continues.name

theorem set_handshake_supplied (stream : HandshakeInboundSubstream σ) (handshake : Bytes) :
    (stream.setHandshake handshake).state ≠ .waiting := by
  unfold setHandshake
  split
  · simp
  · assumption

end HandshakeInboundSubstream

/-- The events a poll hands out itself, with what their visit makes of the
protocol. -/
inductive Direct (k : Nat) : ToBehavior PeerId → Shape → Shape → Prop where
  | flushFailed : Direct k (.closeDesired k) (.opened true) (.opened false)
  | received {bytes : Bytes} {sending : Bool} :
      Direct k (.notification k bytes) (.opened sending) (.opened sending)
  | refused : Direct k (.closeDesired k) .openDesiredByRemote .closed

variable {k : Nat} {before after : State σ} {w w' : ω}

theorem send_state_view (visited : sendState transport before w = (after, w')) :
    after.shape = before.shape ∧ (before.Supplied → after.Supplied) := by
  unfold sendState at visited
  split at visited
  · cases visited
    rename_i inbound _
    cases inbound with
    | none => exact ⟨rfl, id⟩
    | some inbound => exact ⟨rfl, id⟩
  · cases visited
    exact ⟨rfl, id⟩

theorem flush_state_view {event : Option (ToBehavior PeerId)}
    (visited : flushState transport k before w = (event, after, w')) :
    (before.Supplied → after.Supplied) ∧
      (event = none ∧ after.shape = before.shape ∨
        ∃ told, event = some told ∧ Direct k told before.shape after.shape) := by
  unfold flushState at visited
  split at visited
  · rename_i recv inbound outbound
    have kept : ∀ sent : Option (HandshakeOutboundSubstream σ),
        (State.opened recv inbound (some outbound)).Supplied → (State.opened recv inbound sent).Supplied := by
      cases inbound with
      | none => exact fun _ => id
      | some inbound => exact fun _ => id
    split at visited
    · cases visited
      exact ⟨kept none, .inr ⟨_, rfl, .flushFailed⟩⟩
    · cases visited
      exact ⟨kept _, .inl ⟨rfl, rfl⟩⟩
  · cases visited
    exact ⟨id, .inl ⟨rfl, rfl⟩⟩

/-- A remote is refused only if its substream had a handshake already. -/
theorem inbound_state_view {event : Option (ToBehavior PeerId)}
    (visited : pollInboundState transport k before w = (event, after, w')) :
    (before.Supplied → after.Supplied) ∧
      (event = none ∧ after.shape = before.shape ∨
        ∃ told, event = some told ∧ Direct k told before.shape after.shape ∧
          (before.Supplied → before.shape ≠ .openDesiredByRemote)) := by
  unfold pollInboundState at visited
  split at visited
  · rename_i recv inbound outbound
    have next : inbound.state ≠ .waiting → (inbound.pollNext transport w).2.1.state ≠ .waiting :=
      fun supplied => HandshakeInboundSubstream.poll_next_supplied supplied w
    split at visited
    · rename_i polled
      rw [polled] at next
      cases visited
      exact ⟨next, .inl ⟨rfl, rfl⟩⟩
    · rename_i polled
      rw [polled] at next
      cases visited
      refine ⟨next, .inr ⟨_, rfl, .received, fun _ => ?_⟩⟩
      simp [State.shape]
    · cases visited
      exact ⟨fun _ => trivial, .inl ⟨rfl, rfl⟩⟩
    · cases visited
      exact ⟨fun _ => trivial, .inl ⟨rfl, rfl⟩⟩
  · rename_i inbound pendingOpening
    split at visited
    · rename_i polled
      cases visited
      refine ⟨fun waiting => ?_, .inl ⟨rfl, rfl⟩⟩
      rw [HandshakeInboundSubstream.poll_process_waiting waiting] at polled
      cases polled
      exact waiting
    · rename_i polled
      cases visited
      refine ⟨fun _ => trivial, .inr ⟨_, rfl, .refused, fun waiting => ?_⟩⟩
      rw [HandshakeInboundSubstream.poll_process_waiting waiting] at polled
      cases polled
  · rename_i inbound direction
    have process : inbound.state ≠ .waiting → (inbound.pollProcess transport w).2.1.state ≠ .waiting :=
      fun supplied => HandshakeInboundSubstream.poll_process_supplied supplied w
    split at visited
    · rename_i polled
      rw [polled] at process
      cases visited
      exact ⟨process, .inl ⟨rfl, rfl⟩⟩
    · cases visited
      exact ⟨fun _ => trivial, .inl ⟨rfl, rfl⟩⟩
  · cases visited
    exact ⟨id, .inl ⟨rfl, rfl⟩⟩

/-- Protocols that look as those of the handler did, and hold their substreams
as well as those. -/
structure SameView (h : NotificationsHandler PeerId σ) (protocols : List (ProtocolDetails σ)) : Prop where
  shape : ∀ i, (protocols[i]?.map fun proto => proto.state.shape) = h.shape i
  supplied : h.Supplied → ∀ proto ∈ protocols, proto.state.Supplied

/-- One protocol got a new state that holds its substream as well. -/
theorem set_supplied {protocols : List (ProtocolDetails σ)} {proto : ProtocolDetails σ} {state : State σ}
    (held : ∀ proto ∈ protocols, proto.state.Supplied) (found : protocols[k]? = some proto)
    (supplied : proto.state.Supplied → state.Supplied) :
    ∀ other ∈ protocols.set k { proto with state := state }, other.state.Supplied := by
  intro other member
  rcases List.mem_or_eq_of_mem_set member with before | rfl
  · exact held other before
  · exact supplied (held proto (List.mem_of_getElem? found))

private theorem set_view {h : NotificationsHandler PeerId σ} {protocols : List (ProtocolDetails σ)}
    {proto : ProtocolDetails σ} {state : State σ} (view : SameView h protocols)
    (found : protocols[k]? = some proto) (shape : state.shape = proto.state.shape)
    (supplied : proto.state.Supplied → state.Supplied) :
    SameView h (protocols.set k { proto with state := state }) where
  shape i := by
    rw [← view.shape]
    by_cases same : i = k
    · subst same
      obtain ⟨within, held⟩ := List.getElem?_eq_some_iff.mp found
      simp [within, held, shape]
    · rw [List.getElem?_set_ne (Ne.symm same)]
  supplied held := set_supplied (view.supplied held) found supplied

theorem view_kept (h : NotificationsHandler PeerId σ) :
    PollKeeps PeerId transport fun protocols (_ : ω) => SameView h protocols where
  send protocols w k proto state w' view found visited := by
    obtain ⟨shape, supplied⟩ := send_state_view visited
    exact set_view view found shape supplied
  flush protocols w k proto state w' view found visited := by
    obtain ⟨supplied, ⟨_, shape⟩ | ⟨_, absent, _⟩⟩ := flush_state_view visited
    · exact set_view view found shape supplied
    · cases absent
  inbound protocols w k proto state w' view found visited := by
    obtain ⟨supplied, ⟨_, shape⟩ | ⟨_, absent, _⟩⟩ := inbound_state_view visited
    · exact set_view view found shape supplied
    · cases absent

theorem handed_view {event : ToBehavior PeerId} (handed : Handed transport k before w event after w') :
    Direct k event before.shape after.shape ∧ (before.Supplied → after.Supplied) ∧
      (before.Supplied → before.shape ≠ .openDesiredByRemote) := by
  rcases handed with visited | visited
  · obtain ⟨supplied, ⟨absent, _⟩ | ⟨told, same, direct⟩⟩ := flush_state_view visited
    · cases absent
    · cases same
      refine ⟨direct, supplied, fun _ remote => ?_⟩
      unfold flushState at visited
      split at visited
      · cases remote
      · cases visited
  · obtain ⟨supplied, ⟨absent, _⟩ | ⟨told, same, direct, refused⟩⟩ := inbound_state_view visited
    · cases absent
    · cases same
      exact ⟨direct, supplied, refused⟩

/-- One protocol changed its shape, the others did not. -/
structure Reshaped (h h' : NotificationsHandler PeerId σ) (k : Nat) (before after : Shape) : Prop where
  before : h.shape k = some before
  after : h'.shape k = some after
  others : ∀ i, i ≠ k → h'.shape i = h.shape i

theorem set_reshaped {h h' : NotificationsHandler PeerId σ} {protocols : List (ProtocolDetails σ)}
    {proto : ProtocolDetails σ} {state : State σ} (view : SameView h protocols)
    (found : protocols[k]? = some proto)
    (set : h'.protocols = protocols.set k { proto with state := state }) :
    Reshaped h h' k proto.state.shape state.shape where
  before := by
    rw [← view.shape, found]
    rfl
  after := by
    have within := (List.getElem?_eq_some_iff.mp found).1
    simp [NotificationsHandler.shape, set, within]
  others i apart := by
    rw [← view.shape, NotificationsHandler.shape, set, List.getElem?_set_ne (Ne.symm apart)]

theorem SameView.rfl {h : NotificationsHandler PeerId σ} : SameView h h.protocols := ⟨fun _ => by rfl, id⟩

/-- What a turn without a callback does: it returns what was pending, it
changes nothing that can be seen, or it hands out an event of its own. -/
theorem quiet_view {r r' : HandlerRun PeerId σ} {l : HandlerTurn σ ω} (quiet : l.callback = none)
    (step : r.turn transport l = some r') :
    (∃ event rest, r.handler.pendingEvents = event :: rest ∧
        r' = r.take { r.handler with pendingEvents := rest } (.ready event)) ∨
      ((∀ i, r'.handler.shape i = r.handler.shape i) ∧ (r.handler.Supplied → r'.handler.Supplied) ∧
        r'.handler.pendingEvents = r.handler.pendingEvents ∧ r'.returned = r.returned) ∨
      ∃ k event before after, Direct k event before after ∧ Reshaped r.handler r'.handler k before after ∧
        (r.handler.Supplied → r'.handler.Supplied ∧ before ≠ .openDesiredByRemote) ∧
        r.handler.pendingEvents = [] ∧ r'.handler.pendingEvents = [] ∧
        r'.returned = r.returned ++ [event] := by
  cases l with
  | command message => cases message <;> cases quiet
  | inbound protocol => cases quiet
  | outbound opened info => cases quiet
  | dialError info => cases quiet
  | send channel message =>
    cases step
    refine .inr (.inl ⟨fun i => ?_, fun supplied proto member => ?_, rfl, rfl⟩)
    · simp only [NotificationsHandler.shape, userSend, List.getElem?_map, Option.map_map]
      refine Option.map_congr fun proto _ => ?_
      dsimp only [Function.comp]
      split <;> simp_all [State.shape]
    · obtain ⟨before, earlier, rfl⟩ := List.mem_map.mp member
      have held := supplied before earlier
      dsimp only
      split
      · rename_i recv inbound outbound opened
        rw [opened] at held
        cases inbound with
        | none => exact held
        | some inbound => exact held
      · exact held
  | poll w =>
    have taken : r' = r.take (r.handler.poll transport w).2.1 (r.handler.poll transport w).1 :=
      (Option.some.inj step).symm
    subst taken
    cases pending : r.handler.pendingEvents with
    | cons event rest =>
      refine .inl ⟨event, rest, rfl, ?_⟩
      rw [NotificationsHandler.poll, pending]
    | nil =>
      obtain ⟨result, protocols, w', polled, outcome⟩ := poll_keeps (view_kept r.handler) pending .rfl
      rw [polled]
      rcases outcome with
        ⟨rfl, view⟩ | ⟨event, k, proto, earlier, w₀, state, rfl, view, found, handed, set⟩
      · exact .inr (.inl ⟨view.shape, view.supplied, pending, rfl⟩)
      · obtain ⟨direct, supplied, refused⟩ := handed_view handed
        refine .inr (.inr ⟨k, event, _, _, direct, set_reshaped view found set, fun held => ⟨?_, ?_⟩, rfl,
          pending, rfl⟩)
        · subst set
          exact set_supplied (view.supplied held) found supplied
        · exact refused (view.supplied held proto (List.mem_of_getElem? found))

/-- A substream as the upgrade hands it over waits for our handshake. -/
def Callback.Fresh : Callback σ → Prop
  | .inbound substream => substream.state = .waiting
  | _ => True

theorem effect_supplied {h : NotificationsHandler PeerId σ} {proto : ProtocolDetails σ} {index : Nat}
    {callback : Callback σ} {added : List (HandlerEvent PeerId)}
    (effect : Effect h proto index callback before after added) (fresh : callback.Fresh)
    (supplied : before.Supplied) : after.Supplied := by
  cases effect with
  | openRemote => exact HandshakeInboundSubstream.set_handshake_supplied _ _
  | openRemotePending => exact HandshakeInboundSubstream.set_handshake_supplied _ _
  | inboundClosed => exact fresh
  | inboundOpening => exact HandshakeInboundSubstream.set_handshake_supplied _ _
  | inboundOpened => exact HandshakeInboundSubstream.set_handshake_supplied _ _
  | @outboundOpening opened inbound direction =>
    cases inbound with
    | none => trivial
    | some inbound => exact supplied
  | _ => first | exact supplied | trivial

/-- What a turn with a callback does: it takes one transition and queues what
that adds. -/
theorem callback_view {r r' : HandlerRun PeerId σ} {l : HandlerTurn σ ω} {callback : Callback σ} {index : Nat}
    (made : l.callback = some (callback, index)) (step : r.turn transport l = some r') :
    ∃ proto state added, Effect r.handler proto index callback proto.state state added ∧
      Reshaped r.handler r'.handler index proto.state.shape state.shape ∧
      (callback.Fresh → r.handler.Supplied → r'.handler.Supplied) ∧
      r'.handler.pendingEvents = r.handler.pendingEvents ++ added ∧ r'.returned = r.returned := by
  obtain ⟨proto, state, added, effect, applied, returned, _, _⟩ := callback_turn made step
  refine ⟨proto, state, added, effect, set_reshaped .rfl applied.found applied.protocols, ?_,
    applied.pending, returned⟩
  intro fresh supplied
  rw [NotificationsHandler.Supplied, applied.protocols]
  exact set_supplied supplied applied.found (effect_supplied effect fresh)

end Views
end Subp2pExplorer.Notifications
