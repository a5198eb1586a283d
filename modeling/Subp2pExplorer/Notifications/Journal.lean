import Subp2pExplorer.Notifications.Connections
import Subp2pExplorer.Notifications.InboundHandshakes

/-! The events a handler tells the behaviour, in the order they come about:
each handshake is answered once, each close is confirmed, and what depends on
an open protocol is told between its opening and its close. -/
namespace Subp2pExplorer.Notifications
open Lib

section Journals
variable {PeerId σ ω : Type} {transport : Transport σ ω} {r r' : HandlerRun PeerId σ} {l : HandlerTurn σ ω}

def HandlerEvent.told : HandlerEvent PeerId → Option (ToBehavior PeerId)
  | .notifyBehaviour event => some event
  | .outboundSubstreamRequest _ _ => none

/-- The events for the behaviour, those already returned before those pending. -/
def HandlerRun.journal (r : HandlerRun PeerId σ) : List (ToBehavior PeerId) :=
  r.returned ++ r.handler.pendingEvents.filterMap HandlerEvent.told

/-- The events for the behaviour that a turn brings about: those a callback
queues, or the one a poll hands out past an empty queue. -/
def produced (r : HandlerRun PeerId σ) (l : HandlerTurn σ ω) (r' : HandlerRun PeerId σ) :
    List (ToBehavior PeerId) :=
  match l.callback with
  | some _ => (r'.handler.pendingEvents.drop r.handler.pendingEvents.length).filterMap HandlerEvent.told
  | none => if r.handler.pendingEvents.isEmpty then r'.returned.drop r.returned.length else []

/-- A turn with a callback brings about what its transition adds. -/
theorem callback_produced {callback : Callback σ} {index : Nat}
    (made : l.callback = some (callback, index)) (step : r.turn transport l = some r') :
    ∃ proto state added, Effect r.handler proto index callback proto.state state added ∧
      Reshaped r.handler r'.handler index proto.state.shape state.shape ∧
      produced r l r' = added.filterMap HandlerEvent.told ∧
      r'.journal = r.journal ++ added.filterMap HandlerEvent.told := by
  obtain ⟨proto, state, added, effect, reshaped, _, pending, returned⟩ := callback_view made step
  refine ⟨proto, state, added, effect, reshaped, ?_, ?_⟩
  · unfold produced
    rw [made, pending, List.drop_left]
  · rw [HandlerRun.journal, HandlerRun.journal, pending, returned, List.filterMap_append, List.append_assoc]

/-- A turn without a callback brings about nothing, or the one event of its poll. -/
theorem quiet_produced (quiet : l.callback = none) (step : r.turn transport l = some r') :
    ((∀ i, r'.handler.shape i = r.handler.shape i) ∧ produced r l r' = [] ∧ r'.journal = r.journal) ∨
      ∃ k event before after, Direct k event before after ∧ Reshaped r.handler r'.handler k before after ∧
        (r.handler.Supplied → before ≠ .openDesiredByRemote) ∧
        produced r l r' = [event] ∧ r'.journal = r.journal ++ [event] := by
  unfold produced
  rw [quiet]
  rcases quiet_view quiet step with
    ⟨event, rest, pending, rfl⟩ | ⟨shape, _, pending, returned⟩ |
      ⟨k, event, before, after, direct, reshaped, supplied, empty, empty', returned⟩
  · refine .inl ⟨?_, ?_, ?_⟩
    · cases event <;> exact fun i => rfl
    · rw [pending]
      rfl
    · rw [HandlerRun.journal, HandlerRun.journal, pending]
      cases event with
      | notifyBehaviour event => simp [HandlerRun.take, HandlerEvent.told]
      | outboundSubstreamRequest protocol info => rfl
  · refine .inl ⟨shape, ?_, ?_⟩
    · rw [returned, List.drop_length]
      exact ite_self _
    · rw [HandlerRun.journal, HandlerRun.journal, pending, returned]
  · refine .inr ⟨k, event, before, after, direct, reshaped, fun held => (supplied held).2, ?_, ?_⟩
    · rw [empty, returned, List.drop_left]
      rfl
    · rw [HandlerRun.journal, HandlerRun.journal, empty, empty', returned]
      simp

theorem turn_journal (step : r.turn transport l = some r') : r'.journal = r.journal ++ produced r l r' := by
  cases made : l.callback with
  | some pair =>
    obtain ⟨_, _, _, _, _, same, grown⟩ := callback_produced made step
    rw [grown, same]
  | none =>
    rcases quiet_produced made step with ⟨_, same, kept⟩ | ⟨_, _, _, _, _, _, _, same, grown⟩
    · rw [kept, same, List.append_nil]
    · rw [grown, same]

end Journals

section Exchanges
variable {PeerId σ ω : Type} {transport : Transport σ ω} {r r' : HandlerRun PeerId σ} {l : HandlerTurn σ ω}

/-- A command that asks for an answer, and the answer. -/
inductive Exchange where
  | asked
  | answered
  deriving DecidableEq

/-- So many commands, each with its answer before the next. -/
def rounds : Nat → List Exchange
  | 0 => []
  | n + 1 => rounds n ++ [.asked, .answered]

def answersOpen (i : Nat) : ToBehavior PeerId → Option Exchange
  | .handshakeCompleted index _ _ _ _ => if index = i then some .answered else none
  | .handshakeError index => if index = i then some .answered else none
  | _ => none

def answersClose (i : Nat) : ToBehavior PeerId → Option Exchange
  | .close index => if index = i then some .answered else none
  | _ => none

/-- A command to open asks for an answer if it moves the protocol into opening. -/
def Callback.asksOpen (callback : Callback σ) (before after : Option Shape) : List Exchange :=
  match callback with
  | .open => if before ≠ some .opening ∧ after = some .opening then [.asked] else []
  | _ => []

def Callback.asksClose : Callback σ → List Exchange
  | .close => [.asked]
  | _ => []

/-- The commands to open that move a protocol into opening, and the results of
handshakes told of it. -/
def openings (i : Nat) (r : HandlerRun PeerId σ) (l : HandlerTurn σ ω) (r' : HandlerRun PeerId σ) :
    List Exchange :=
  (match l.callback with
    | some (callback, index) =>
      if index = i then callback.asksOpen (r.handler.shape i) (r'.handler.shape i) else []
    | none => []) ++ (produced r l r').filterMap (answersOpen i)

/-- The commands to close a protocol, and the closes told of it. -/
def closings (i : Nat) (r : HandlerRun PeerId σ) (l : HandlerTurn σ ω) (r' : HandlerRun PeerId σ) :
    List Exchange :=
  (match l.callback with
    | some (callback, index) => if index = i then callback.asksClose else []
    | none => []) ++ (produced r l r').filterMap (answersClose i)

/-- The question that is open while a protocol is opening. -/
def asking (shape : Option Shape) : List Exchange := if shape = some .opening then [.asked] else []

/-- How exchanges go on, between what is asked before and after. -/
inductive Advance : List Exchange → List Exchange → List Exchange → Prop where
  | rest (asked : List Exchange) : Advance asked [] asked
  | ask : Advance [] [.asked] [.asked]
  | answer : Advance [.asked] [.answered] []
  | both : Advance [] [.asked, .answered] []

theorem rounds_advance {past before marks after : List Exchange} (advance : Advance before marks after)
    (held : ∃ n, past = rounds n ++ before) : ∃ n, past ++ marks = rounds n ++ after := by
  obtain ⟨n, rfl⟩ := held
  cases advance with
  | rest => exact ⟨n, List.append_nil _⟩
  | ask => exact ⟨n, by rw [List.append_nil]⟩
  | answer => exact ⟨n + 1, by rw [List.append_assoc, List.append_nil]; rfl⟩
  | both => exact ⟨n + 1, by rw [List.append_nil, List.append_nil]; rfl⟩

section Effects
variable {h : NotificationsHandler PeerId σ} {proto : ProtocolDetails σ} {index : Nat} {callback : Callback σ}
  {before after : State σ} {added : List (HandlerEvent PeerId)}

/-- A callback answers for its own protocol only. -/
theorem effect_answers_own (effect : Effect h proto index callback before after added) {i : Nat}
    (apart : i ≠ index) :
    (added.filterMap HandlerEvent.told).filterMap (answersOpen i) = [] ∧
      (added.filterMap HandlerEvent.told).filterMap (answersClose i) = [] := by
  cases effect <;> simp [HandlerEvent.told, answersOpen, answersClose, Ne.symm apart]

/-- An opening is asked for when it begins and answered when it ends. -/
theorem effect_openings (effect : Effect h proto index callback before after added) :
    Advance (asking (some before.shape))
      (callback.asksOpen (some before.shape) (some after.shape) ++
        (added.filterMap HandlerEvent.told).filterMap (answersOpen index))
      (asking (some after.shape)) := by
  cases effect <;>
    simp [Callback.asksOpen, HandlerEvent.told, answersOpen, asking, State.shape] <;> constructor

theorem effect_closings (effect : Effect h proto index callback before after added) :
    Advance [] (callback.asksClose ++ (added.filterMap HandlerEvent.told).filterMap (answersClose index)) [] := by
  cases effect <;>
    simp [Callback.asksClose, HandlerEvent.told, answersClose, List.filterMap_cons] <;> constructor

end Effects

/-- Nothing a poll hands out itself answers a command. -/
theorem direct_answers_none {k : Nat} {event : ToBehavior PeerId} {before after : Shape}
    (direct : Direct k event before after) (i : Nat) :
    [event].filterMap (answersOpen i) = [] ∧ [event].filterMap (answersClose i) = [] ∧
      asking (some after) = asking (some before) := by
  cases direct <;> exact ⟨rfl, rfl, rfl⟩

theorem turn_openings (step : r.turn transport l = some r') (i : Nat) :
    Advance (asking (r.handler.shape i)) (openings i r l r') (asking (r'.handler.shape i)) := by
  unfold openings
  cases made : l.callback with
  | some pair =>
    obtain ⟨callback, index⟩ := pair
    obtain ⟨proto, state, added, effect, reshaped, same, _⟩ := callback_produced made step
    rw [same]
    dsimp only
    by_cases own : i = index
    · subst own
      rw [if_pos rfl, reshaped.before, reshaped.after]
      exact effect_openings effect
    · rw [if_neg (Ne.symm own), reshaped.others i own, (effect_answers_own effect own).1]
      exact .rest _
  | none =>
    rcases quiet_produced made step with
      ⟨shape, same, _⟩ | ⟨k, event, before, after, direct, reshaped, _, same, _⟩
    · rw [same, shape]
      exact .rest _
    · obtain ⟨silent, _, asked⟩ := direct_answers_none direct i
      have kept : asking (r'.handler.shape i) = asking (r.handler.shape i) := by
        by_cases own : i = k
        · subst own
          rw [reshaped.before, reshaped.after, asked]
        · rw [reshaped.others i own]
      rw [same, kept, silent]
      exact .rest _

theorem turn_closings (step : r.turn transport l = some r') (i : Nat) :
    Advance [] (closings i r l r') [] := by
  unfold closings
  cases made : l.callback with
  | some pair =>
    obtain ⟨callback, index⟩ := pair
    obtain ⟨proto, state, added, effect, _, same, _⟩ := callback_produced made step
    rw [same]
    dsimp only
    by_cases own : i = index
    · subst own
      rw [if_pos rfl]
      exact effect_closings effect
    · rw [if_neg (Ne.symm own), (effect_answers_own effect own).2]
      exact .rest _
  | none =>
    rcases quiet_produced made step with ⟨_, same, _⟩ | ⟨k, event, before, after, direct, _, _, same, _⟩
    · rw [same]
      exact .rest _
    · rw [same, (direct_answers_none direct i).2.1]
      exact .rest _

/-- In every run each opening is answered once before the next, each close is
confirmed at once, and the polls return the events in the order they came about. -/
theorem commands_answered {peer : PeerId} {endpoint : ConnectedPoint PeerId} {data : ProtocolsData}
    {turns : List (HandlerTurn σ ω)} {t : HandlerRun PeerId σ}
    (run : (handlerRuns transport peer endpoint data).replay turns = some t) :
    (∀ i, ∃ n, (handlerRuns transport peer endpoint data).trace (openings i) turns = rounds n ∨
      (handlerRuns transport peer endpoint data).trace (openings i) turns = rounds n ++ [.asked]) ∧
    (∀ i, ∃ n, (handlerRuns transport peer endpoint data).trace (closings i) turns = rounds n) ∧
    t.returned ++ t.handler.pendingEvents.filterMap HandlerEvent.told =
      (handlerRuns transport peer endpoint data).trace produced turns := by
  refine ⟨fun i => ?_, fun i => ?_, ?_⟩
  · obtain ⟨n, same⟩ : ∃ n, (handlerRuns transport peer endpoint data).trace (openings i) turns =
        rounds n ++ asking (t.handler.shape i) := by
      refine Machine.trace_invariant
        (I := fun past (s : HandlerRun PeerId σ) => ∃ n, past = rounds n ++ asking (s.handler.shape i))
        (fun past s l s' held step => rounds_advance (turn_openings step i) held) ⟨0, ?_⟩ run
      rcases i with _ | _ | i <;> rfl
    refine ⟨n, ?_⟩
    unfold asking at same
    split at same
    · exact .inr same
    · rw [List.append_nil] at same
      exact .inl same
  · obtain ⟨n, same⟩ : ∃ n, (handlerRuns transport peer endpoint data).trace (closings i) turns =
        rounds n ++ [] :=
      Machine.trace_invariant (I := fun past _ => ∃ n, past = rounds n ++ [])
        (fun past s l s' held step => rounds_advance (turn_closings step i) held) ⟨0, rfl⟩ run
    exact ⟨n, same.trans (List.append_nil _)⟩
  · exact Machine.trace_invariant (I := fun past (s : HandlerRun PeerId σ) => s.journal = past)
      (fun past s l s' held step => (turn_journal step).trans (congrArg (· ++ produced s l s') held)) rfl run

/-- The first opening is answered by its close, the second is not answered yet. -/
theorem late_answer_answered : ∃ t : HandlerRun Nat Unit,
    (handlerRuns .flushing 7 (.listener [] []) .zero).replay lateAnswer = some t ∧
    (∀ i, ∃ n, (handlerRuns .flushing 7 (.listener [] []) .zero).trace (openings i) lateAnswer = rounds n ∨
      (handlerRuns .flushing 7 (.listener [] []) .zero).trace (openings i) lateAnswer = rounds n ++ [.asked]) ∧
    (∀ i, ∃ n, (handlerRuns .flushing 7 (.listener [] []) .zero).trace (closings i) lateAnswer = rounds n) ∧
    t.returned ++ t.handler.pendingEvents.filterMap HandlerEvent.told =
      (handlerRuns .flushing 7 (.listener [] []) .zero).trace produced lateAnswer := by
  have possible : ((handlerRuns .flushing (7 : Nat) (.listener [] []) .zero).replay lateAnswer).isSome =
      true := by
    rfl
  obtain ⟨t, run⟩ := Option.isSome_iff_exists.mp possible
  exact ⟨t, run, commands_answered run⟩

end Exchanges

section Lifetimes
variable {PeerId σ ω : Type} {transport : Transport σ ω} {r r' : HandlerRun PeerId σ} {l : HandlerTurn σ ω}

/-- What the events so far leave to be told of a protocol: while it is live,
notifications, and one wish to close it. -/
inductive Phase where
  | shut
  | live (wishing : Bool)
  deriving DecidableEq

/-- The next event about a protocol, where the phase allows it. -/
def Phase.hear (i : Nat) (phase : Phase) : ToBehavior PeerId → Option Phase
  | .handshakeCompleted index _ _ _ _ =>
    if index = i then if phase = .shut then some (.live true) else none else some phase
  | .close index => if index = i then some .shut else some phase
  | .closeDesired index =>
    if index = i then if phase = .live true then some (.live false) else none else some phase
  | .notification index _ => if index = i then if phase = .shut then none else some phase else some phase
  | _ => some phase

/-- Events that need the protocol open. -/
def NeedsOpen (i : Nat) (event : ToBehavior PeerId) : Prop :=
  event = .closeDesired i ∨ ∃ bytes, event = .notification i bytes

def wishes (i : Nat) : ToBehavior PeerId → Bool
  | .closeDesired index => index = i
  | _ => false

section Hearing
variable {i : Nat} {phase phase' : Phase} {event : ToBehavior PeerId} {events : List (ToBehavior PeerId)}

theorem hear_needs_open (heard : phase.hear i event = some phase') (needs : NeedsOpen i event) :
    phase ≠ .shut := by
  rintro rfl
  rcases needs with rfl | ⟨bytes, rfl⟩ <;> simp [Phase.hear] at heard

/-- A phase is live after its handshake, and stays so until a close. -/
theorem hear_live (heard : phase.hear i event = some phase') (live : phase' ≠ .shut) :
    completed i event = true ∨ phase ≠ .shut ∧ event ≠ .close i := by
  cases event <;> simp_all [Phase.hear, completed] <;> grind

/-- A wish to close is used up, and only a close brings it back. -/
theorem hear_wishes {wishing : Bool} (heard : (Phase.live wishing).hear i event = some phase')
    (stays : event ≠ .close i) :
    ∃ wishing', phase' = .live wishing' ∧
      (if wishes i event then 1 else 0) + wishing'.toNat = wishing.toNat := by
  cases wishing <;> cases event <;>
    (simp_all [Phase.hear, wishes]; try grind)

theorem heard_live (heard : events.foldlM (Phase.hear i) .shut = some phase) (live : phase ≠ .shut) :
    ∃ earlier start since, events = earlier ++ start :: since ∧ completed i start = true ∧
      ToBehavior.close i ∉ since := by
  induction events using List.reverseRecOn generalizing phase with
  | nil =>
    cases heard
    exact absurd rfl live
  | append_singleton events event ih =>
    rw [List.foldlM_append] at heard
    obtain ⟨before, past, last⟩ := Option.bind_eq_some_iff.mp heard
    have now : before.hear i event = some phase := by simpa using last
    rcases hear_live now live with start | ⟨before_live, still⟩
    · exact ⟨events, event, [], rfl, start, List.not_mem_nil⟩
    · obtain ⟨earlier, start, since, rfl, done, kept⟩ := ih past before_live
      refine ⟨earlier, start, since ++ [event], ?_, done, ?_⟩
      · rw [List.append_assoc]
        rfl
      · rw [List.mem_append, List.mem_singleton]
        rintro (closed | same)
        · exact kept closed
        · exact still same.symm

theorem heard_wishes {wishing : Bool} (heard : events.foldlM (Phase.hear i) (.live wishing) = some phase)
    (still : ToBehavior.close i ∉ events) : events.countP (wishes i) ≤ wishing.toNat := by
  induction events generalizing wishing with
  | nil => exact Nat.zero_le _
  | cons event events ih =>
    rw [List.foldlM_cons] at heard
    obtain ⟨after, now, later⟩ := Option.bind_eq_some_iff.mp heard
    rw [List.mem_cons, not_or] at still
    obtain ⟨wishing', rfl, count⟩ := hear_wishes now (Ne.symm still.1)
    have rest := ih later still.2
    rw [List.countP_cons]
    omega

end Hearing

/-- The phase a protocol of this shape is in. -/
def Shape.phase : Option Shape → Phase
  | some (.opened sending) => .live sending
  | _ => .shut

/-- A callback queues what the phase of its protocol allows. -/
theorem effect_hears {h : NotificationsHandler PeerId σ} {proto : ProtocolDetails σ} {index : Nat}
    {callback : Callback σ} {before after : State σ} {added : List (HandlerEvent PeerId)}
    (effect : Effect h proto index callback before after added) :
    (added.filterMap HandlerEvent.told).foldlM (Phase.hear index) (Shape.phase (some before.shape)) =
      some (Shape.phase (some after.shape)) := by
  cases effect <;> simp [HandlerEvent.told, List.filterMap_cons, Phase.hear, Shape.phase, State.shape]

theorem effect_hears_own {h : NotificationsHandler PeerId σ} {proto : ProtocolDetails σ} {index i : Nat}
    {callback : Callback σ} {before after : State σ} {added : List (HandlerEvent PeerId)}
    (effect : Effect h proto index callback before after added) (apart : i ≠ index) (phase : Phase) :
    (added.filterMap HandlerEvent.told).foldlM (Phase.hear i) phase = some phase := by
  cases effect <;> simp [HandlerEvent.told, List.filterMap_cons, Phase.hear, Ne.symm apart]

theorem direct_hears {k : Nat} {event : ToBehavior PeerId} {before after : Shape}
    (direct : Direct k event before after) (opens : before ≠ .openDesiredByRemote) (i : Nat) :
    (Shape.phase (some before)).hear k event = some (Shape.phase (some after)) ∧
      (i ≠ k → ∀ phase : Phase, phase.hear i event = some phase) := by
  cases direct with
  | flushFailed => exact ⟨by simp [Shape.phase, Phase.hear], fun apart _ => by simp [Phase.hear, Ne.symm apart]⟩
  | received => exact ⟨by simp [Shape.phase, Phase.hear], fun apart _ => by simp [Phase.hear, Ne.symm apart]⟩
  | refused => exact absurd rfl opens

theorem turn_hears (supplied : r.handler.Supplied) (step : r.turn transport l = some r') (i : Nat) :
    (produced r l r').foldlM (Phase.hear i) (Shape.phase (r.handler.shape i)) =
      some (Shape.phase (r'.handler.shape i)) := by
  cases made : l.callback with
  | some pair =>
    obtain ⟨callback, index⟩ := pair
    obtain ⟨proto, state, added, effect, reshaped, same, _⟩ := callback_produced made step
    rw [same]
    by_cases own : i = index
    · subst own
      rw [reshaped.before, reshaped.after]
      exact effect_hears effect
    · rw [reshaped.others i own]
      exact effect_hears_own effect own _
  | none =>
    rcases quiet_produced made step with
      ⟨shape, same, _⟩ | ⟨k, event, before, after, direct, reshaped, refused, same, _⟩
    · rw [same, shape]
      rfl
    · obtain ⟨now, other⟩ := direct_hears direct (refused supplied) i
      rw [same]
      by_cases own : i = k
      · subst own
        rw [reshaped.before, reshaped.after]
        simpa using now
      · rw [reshaped.others i own]
        simpa using other own _

/-- In every run the events returned for a protocol that need it open come
after its handshake and before a close, one wish to close it at most. -/
theorem told_while_open {peer : PeerId} {endpoint : ConnectedPoint PeerId} {data : ProtocolsData}
    {turns : List (HandlerTurn σ ω)} {t : HandlerRun PeerId σ}
    (meets : (handlerRuns transport peer endpoint data).Meets Upgraded turns)
    (run : (handlerRuns transport peer endpoint data).replay turns = some t) (i : Nat) :
    (∀ before event after, t.returned = before ++ event :: after → NeedsOpen i event →
      ∃ earlier start since, before = earlier ++ start :: since ∧ completed i start = true ∧
        ToBehavior.close i ∉ since) ∧
    ∀ earlier start since after, t.returned = earlier ++ start :: (since ++ after) →
      completed i start = true → ToBehavior.close i ∉ since → since.countP (wishes i) ≤ 1 := by
  have heard : t.journal.foldlM (Phase.hear i) .shut = some (Shape.phase (t.handler.shape i)) := by
    refine (Machine.invariant_under (I := fun (s : HandlerRun PeerId σ) => s.handler.Supplied ∧
        s.journal.foldlM (Phase.hear i) .shut = some (Shape.phase (s.handler.shape i)))
      (fun s l s' held upgraded step => ⟨turn_supplied held.1 upgraded step, ?_⟩)
      ⟨new_supplied peer endpoint data, ?_⟩ meets run).2
    · rw [turn_journal step, List.foldlM_append, held.2]
      exact turn_hears held.1 step i
    · rcases i with _ | _ | i <;> rfl
  refine ⟨fun before event after returned needs => ?_, fun earlier start since after returned done still => ?_⟩
  · rw [HandlerRun.journal, returned, List.append_assoc, List.foldlM_append] at heard
    obtain ⟨phase, past, later⟩ := Option.bind_eq_some_iff.mp heard
    rw [List.cons_append, List.foldlM_cons] at later
    obtain ⟨_, now, _⟩ := Option.bind_eq_some_iff.mp later
    exact heard_live past (hear_needs_open now needs)
  · rw [HandlerRun.journal, returned, List.append_assoc, List.foldlM_append] at heard
    obtain ⟨phase, _, later⟩ := Option.bind_eq_some_iff.mp heard
    rw [List.cons_append, List.foldlM_cons] at later
    obtain ⟨next, now, later⟩ := Option.bind_eq_some_iff.mp later
    rw [List.append_assoc, List.foldlM_append] at later
    obtain ⟨_, since_heard, _⟩ := Option.bind_eq_some_iff.mp later
    have live : next = .live true := by
      cases start <;> simp_all [completed, Phase.hear]
    subst live
    exact heard_wishes since_heard still

/-- A protocol opens and its flush fails: one wish to close it is returned. -/
def failingFlush : List (HandlerTurn Unit Bool) :=
  [.command (.open 0), .poll true, .outbound ⟨[4], ⟨()⟩⟩ 0, .poll true, .poll false, .poll false]

theorem failing_flush_told : ∃ t : HandlerRun Nat Unit,
    (handlerRuns .flushing 7 (.listener [] []) .zero).replay failingFlush = some t ∧
    t.returned.map (wishes 0) = [false, true] ∧
    (∀ before event after, t.returned = before ++ event :: after → NeedsOpen 0 event →
      ∃ earlier start since, before = earlier ++ start :: since ∧ completed 0 start = true ∧
        ToBehavior.close 0 ∉ since) ∧
    ∀ earlier start since after, t.returned = earlier ++ start :: (since ++ after) →
      completed 0 start = true → ToBehavior.close 0 ∉ since → since.countP (wishes 0) ≤ 1 := by
  have said : ((handlerRuns .flushing (7 : Nat) (.listener [] []) .zero).replay failingFlush).map
      (fun t => t.returned.map (wishes 0)) = some [false, true] := by
    rfl
  obtain ⟨t, run, said⟩ := Option.map_eq_some_iff.mp said
  have meets : (handlerRuns .flushing (7 : Nat) (.listener [] []) .zero).Meets Upgraded failingFlush := by
    apply Machine.meets_all
    intro l member s
    simp only [failingFlush, List.mem_cons, List.not_mem_nil, or_false] at member
    rcases member with rfl | rfl | rfl | rfl | rfl | rfl <;> trivial
  exact ⟨t, run, said, told_while_open meets run 0⟩

end Lifetimes
end Subp2pExplorer.Notifications
