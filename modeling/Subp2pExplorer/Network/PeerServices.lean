import Subp2pExplorer.Lib.Services
import Subp2pExplorer.Network.PeerBehavior

/-! The peer behavior with the two behaviors it is made of. Ping and identify
are libp2p's; what is shown here is that neither is disturbed by the other, and
what of the two reaches the swarm. -/
namespace Subp2pExplorer.Network
open Lib Subp2pExplorer.Types

/-- The types of libp2p that are only passed on: what an event of the swarm
carries beside what is read of it, what goes between each behavior and its
handlers, and what the swarm is asked for. -/
structure Passing where
  EventRest : Type
  PingFromHandler : Type
  PingToHandler : Type
  PingHandler : Type
  PingEvent : Type
  IdentifyFromHandler : Type
  IdentifyToHandler : Type
  IdentifyHandler : Type
  IdentifyError : Type
  DialOpts : Type
  ListenOpts : Type
  ListenerId : Type
  ConnectionDenied : Type

variable (PeerId ConnectionId : Type) (T : Passing)

/-- `ToSwarm`. Where no connection is named, any or all of the peer's are meant. -/
inductive ToSwarm (Event ToHandler : Type) where
  | generateEvent (event : Event)
  | dial (opts : T.DialOpts)
  | listenOn (opts : T.ListenOpts)
  | removeListener (id : T.ListenerId)
  | notifyHandler (peerId : PeerId) (handler : Option ConnectionId) (event : ToHandler)
  | newExternalAddrCandidate (address : LibP2pMultiaddr PeerId)
  | externalAddrConfirmed (address : LibP2pMultiaddr PeerId)
  | externalAddrExpired (address : LibP2pMultiaddr PeerId)
  | closeConnection (peerId : PeerId) (connection : Option ConnectionId)
  | newExternalAddrOfPeer (peerId : PeerId) (address : LibP2pMultiaddr PeerId)

inductive PeerInfoEvent where
  | identified (peerId : PeerId) (info : IdentifyInfo)

/-- The events of identify. -/
inductive PeerIdentifyEvent where
  | received (connectionId : ConnectionId) (peerId : PeerId) (info : IdentifyInfo)
  | sent (connectionId : ConnectionId) (peerId : PeerId)
  | pushed (connectionId : ConnectionId) (peerId : PeerId) (info : IdentifyInfo)
  | error (connectionId : ConnectionId) (peerId : PeerId) (error : T.IdentifyError)

/-- What a behavior is told. -/
inductive Told (FromHandler : Type) where
  | swarm (event : FromSwarm PeerId ConnectionId) (rest : T.EventRest)
  | handler (peerId : PeerId) (connectionId : ConnectionId) (event : FromHandler)

/-- What a behavior is asked of a connection: whether it may come to be, and for
the handler of one that did. -/
inductive ConnectionRequest where
  | pendingInbound (connectionId : ConnectionId) (localAddr remoteAddr : LibP2pMultiaddr PeerId)
  | establishedInbound (connectionId : ConnectionId) (peer : PeerId) (localAddr remoteAddr : LibP2pMultiaddr PeerId)
  | establishedOutbound (connectionId : ConnectionId) (peer : PeerId) (addr : LibP2pMultiaddr PeerId)
      (roleOverride : Endpoint) (portUse : PortUse)

/-- A denial, or the handler. A connection that is pending has none. -/
abbrev Granted (Handler : Type) : Type := Except T.ConnectionDenied (Option Handler)

abbrev Ping (State : Type) : Type :=
  Service State (Told PeerId ConnectionId T T.PingFromHandler) (ConnectionRequest PeerId ConnectionId)
    (Granted T T.PingHandler) (ToSwarm PeerId ConnectionId T T.PingEvent T.PingToHandler)

abbrev Identify (State : Type) : Type :=
  Service State (Told PeerId ConnectionId T T.IdentifyFromHandler) (ConnectionRequest PeerId ConnectionId)
    (Granted T T.IdentifyHandler)
    (ToSwarm PeerId ConnectionId T (PeerIdentifyEvent PeerId ConnectionId T) T.IdentifyToHandler)

/-- What the peer behavior asks of the swarm, with the handlers of both. -/
abbrev PeerCommand : Type := ToSwarm PeerId ConnectionId T (PeerInfoEvent PeerId) (T.PingToHandler ⊕ T.IdentifyToHandler)

abbrev PeerHandler : Type := T.PingHandler × T.IdentifyHandler

variable {PeerId ConnectionId T}

/-- The arms that both loops of `poll` have. What is not named there is dropped. -/
def ToSwarm.passOn {Event Event' ToHandler ToHandler' : Type} (generate : Event → Option Event')
    (wrap : ToHandler → ToHandler') :
    ToSwarm PeerId ConnectionId T Event ToHandler → Option (ToSwarm PeerId ConnectionId T Event' ToHandler')
  | .generateEvent event => (generate event).map .generateEvent
  | .dial opts => some (.dial opts)
  | .notifyHandler peerId handler event => some (.notifyHandler peerId handler (wrap event))
  | .closeConnection peerId connection => some (.closeConnection peerId connection)
  | .listenOn opts => some (.listenOn opts)
  | .removeListener id => some (.removeListener id)
  | .externalAddrExpired address => some (.externalAddrExpired address)
  | .externalAddrConfirmed address => some (.externalAddrConfirmed address)
  | .newExternalAddrCandidate address => some (.newExternalAddrCandidate address)
  | .newExternalAddrOfPeer _ _ => none

/-- The first loop: the events of ping are only logged. -/
def passPing : ToSwarm PeerId ConnectionId T T.PingEvent T.PingToHandler → Option (PeerCommand PeerId ConnectionId T) :=
  ToSwarm.passOn (fun _ => none) .inl

/-- The second loop: identified peers are reported. -/
def passIdentify : ToSwarm PeerId ConnectionId T (PeerIdentifyEvent PeerId ConnectionId T) T.IdentifyToHandler →
    Option (PeerCommand PeerId ConnectionId T) :=
  ToSwarm.passOn (fun
    | .received _ peerId info => some (.identified peerId info)
    | .error _ _ _ => none
    | .pushed _ _ _ => none
    | .sent _ _ => none) .inr

/-- `PeerBehaviour` with all its fields. -/
structure ServingPeerBehavior (PeerId PingState IdentifyState : Type) extends PeerBehavior PeerId where
  ping : PingState
  identify : IdentifyState

section Behavior
variable [DecidableEq PeerId]

/-- What is kept of a command on its way to the swarm. -/
def PeerBehavior.noted (command : PeerCommand PeerId ConnectionId T) (b : PeerBehavior PeerId) : PeerBehavior PeerId :=
  match command with
  | .generateEvent (.identified peerId info) => b.onIdentified peerId info
  | _ => b

/-- `ping_handler.select(identify_handler)`. -/
def select (first : Option T.PingHandler) (second : Option T.IdentifyHandler) : Option (PeerHandler T) := do
  let ping ← first
  let identify ← second
  return (ping, identify)

namespace ServingPeerBehavior
variable {PingState IdentifyState : Type} (ping : Ping PeerId ConnectionId T PingState)
  (identify : Identify PeerId ConnectionId T IdentifyState)

/-- `on_swarm_event`. -/
def onSwarmEvent (event : FromSwarm PeerId ConnectionId) (rest : T.EventRest)
    (b : ServingPeerBehavior PeerId PingState IdentifyState) : ServingPeerBehavior PeerId PingState IdentifyState where
  toPeerBehavior := b.toPeerBehavior.onSwarmEvent event
  ping := ping.tell (.swarm event rest) b.ping
  identify := identify.tell (.swarm event rest) b.identify

/-- `on_connection_handler_event`. -/
def onConnectionHandlerEvent (peerId : PeerId) (connectionId : ConnectionId)
    (event : T.PingFromHandler ⊕ T.IdentifyFromHandler) (b : ServingPeerBehavior PeerId PingState IdentifyState) :
    ServingPeerBehavior PeerId PingState IdentifyState :=
  match event with
  | .inl event => { b with ping := ping.tell (.handler peerId connectionId event) b.ping }
  | .inr event => { b with identify := identify.tell (.handler peerId connectionId event) b.identify }

/-- The three `handle_` functions that ask both behaviors. One that ping denies
does not reach identify. -/
def handleConnection (request : ConnectionRequest PeerId ConnectionId)
    (b : ServingPeerBehavior PeerId PingState IdentifyState) :
    Granted T (PeerHandler T) × ServingPeerBehavior PeerId PingState IdentifyState :=
  match ping.ask request b.ping with
  | (.error denied, ping) => (.error denied, { b with ping })
  | (.ok first, ping) =>
    let (second, identify) := identify.ask request b.identify
    (second.map (select first), { b with ping, identify })

/-- `poll`, with so many rounds for each of its loops. -/
def poll (rounds : Nat) (b : ServingPeerBehavior PeerId PingState IdentifyState) :
    Option (Option (PeerCommand PeerId ConnectionId T) × ServingPeerBehavior PeerId PingState IdentifyState) :=
  match ping.drain passPing rounds b.ping with
  | none => none
  | some (some command, ping) => some (some command, { b with ping })
  | some (none, ping) =>
    match identify.drain passIdentify rounds b.identify with
    | none => none
    | some (some command, identify) =>
      some (some command, { toPeerBehavior := b.toPeerBehavior.noted command, ping, identify })
    | some (none, identify) => some (none, { b with ping, identify })

end ServingPeerBehavior

variable (PeerId ConnectionId T) in
/-- What the swarm may do with the behavior. -/
inductive SwarmTurn where
  | told (event : FromSwarm PeerId ConnectionId) (rest : T.EventRest)
  | handled (peerId : PeerId) (connectionId : ConnectionId) (event : T.PingFromHandler ⊕ T.IdentifyFromHandler)
  | asked (request : ConnectionRequest PeerId ConnectionId)
  | polled (rounds : Nat)

variable (PeerId ConnectionId T) in
/-- A turn with what the swarm was answered, and whether ping let a connection pass. -/
inductive Exchange where
  | told (event : FromSwarm PeerId ConnectionId) (rest : T.EventRest)
  | handled (peerId : PeerId) (connectionId : ConnectionId) (event : T.PingFromHandler ⊕ T.IdentifyFromHandler)
  | asked (request : ConnectionRequest PeerId ConnectionId) (passed : Bool) (answer : Granted T (PeerHandler T))
  | polled (command : Option (PeerCommand PeerId ConnectionId T))

namespace Exchange

def ofPing : Exchange PeerId ConnectionId T →
    Option (Service.Call (Told PeerId ConnectionId T T.PingFromHandler) (ConnectionRequest PeerId ConnectionId))
  | told event rest => some (.tell (.swarm event rest))
  | handled peerId connectionId (.inl event) => some (.tell (.handler peerId connectionId event))
  | asked request _ _ => some (.ask request)
  | _ => none

def ofIdentify : Exchange PeerId ConnectionId T →
    Option (Service.Call (Told PeerId ConnectionId T T.IdentifyFromHandler) (ConnectionRequest PeerId ConnectionId))
  | told event rest => some (.tell (.swarm event rest))
  | handled peerId connectionId (.inr event) => some (.tell (.handler peerId connectionId event))
  | asked request true _ => some (.ask request)
  | _ => none

def answer? : Exchange PeerId ConnectionId T → Option (Granted T (PeerHandler T))
  | asked _ _ answer => some answer
  | _ => none

def command? : Exchange PeerId ConnectionId T → Option (PeerCommand PeerId ConnectionId T)
  | polled command => command
  | _ => none

end Exchange

/-- What is kept of an exchange: the swarm's event, or the peer identified. -/
def Exchange.event? : Exchange PeerId ConnectionId T → Option (PeeringEvent PeerId ConnectionId)
  | told event _ => some (.swarm event)
  | polled (some (.generateEvent (.identified peerId info))) => some (.identified peerId info)
  | _ => none

namespace ServingPeerBehavior
variable {PingState IdentifyState : Type} (ping : Ping PeerId ConnectionId T PingState)
  (identify : Identify PeerId ConnectionId T IdentifyState)

/-- `handle_pending_outbound_connection` is no turn: it answers with no address
and asks neither. -/
def turn (b : ServingPeerBehavior PeerId PingState IdentifyState) :
    SwarmTurn PeerId ConnectionId T → Option (Exchange PeerId ConnectionId T × ServingPeerBehavior PeerId PingState IdentifyState)
  | .told event rest => some (.told event rest, b.onSwarmEvent ping identify event rest)
  | .handled peerId connectionId event =>
    some (.handled peerId connectionId event, b.onConnectionHandlerEvent ping identify peerId connectionId event)
  | .asked request =>
    let (answer, b') := b.handleConnection ping identify request
    some (.asked request (ping.ask request b.ping).1.isOk answer, b')
  | .polled rounds => (b.poll ping identify rounds).map fun (command, b) => (.polled command, b)

variable (pingStart : PingState) (identifyStart : IdentifyState)

def machine : Machine (ServingPeerBehavior PeerId PingState IdentifyState) (SwarmTurn PeerId ConnectionId T) where
  start := { toPeerBehavior := .new, ping := pingStart, identify := identifyStart }
  next b t := (b.turn ping identify t).map Prod.snd

/-- What went between the swarm and the behavior in a turn. -/
def exchanged (b : ServingPeerBehavior PeerId PingState IdentifyState) (t : SwarmTurn PeerId ConnectionId T)
    (_ : ServingPeerBehavior PeerId PingState IdentifyState) : List (Exchange PeerId ConnectionId T) :=
  ((b.turn ping identify t).map Prod.fst).toList

end ServingPeerBehavior

/-- How the answers of both make those the swarm gets: a denial of ping stands
alone, and identify decides where ping has a handler. -/
inductive Combined : List (Granted T T.PingHandler) → List (Granted T T.IdentifyHandler) →
    List (Granted T (PeerHandler T)) → Prop where
  | nil : Combined [] [] []
  | denied {firsts seconds answers} (denial : T.ConnectionDenied) : Combined firsts seconds answers →
      Combined (firsts ++ [.error denial]) seconds (answers ++ [.error denial])
  | both {firsts seconds answers} (first : Option T.PingHandler) (second : Granted T T.IdentifyHandler) :
      Combined firsts seconds answers →
      Combined (firsts ++ [.ok first]) (seconds ++ [second]) (answers ++ [second.map (select first)])

def PeerBehavior.onEvent (b : PeerBehavior PeerId) : PeeringEvent PeerId ConnectionId → PeerBehavior PeerId
  | .swarm event => b.onSwarmEvent event
  | .identified peerId info => b.onIdentified peerId info

def learn (peerId : PeerId) (known : Option (Option IdentifyInfo)) :
    PeeringEvent PeerId ConnectionId → Option (Option IdentifyInfo)
  | .swarm (.connectionEstablished peer _ _) => if peer = peerId then some (known.getD none) else known
  | .identified peer info => if peer = peerId then known.map fun _ => some info else known
  | _ => known

/-- Of a peer that was ever connected, what it was last identified as since. -/
def profile (peerId : PeerId) (events : List (PeeringEvent PeerId ConnectionId)) : Option (Option IdentifyInfo) :=
  events.foldl (learn peerId) none

/-- What the details of a peer say of what it was identified as. -/
def NodeDetails.Says (details : NodeDetails PeerId) (known : Option IdentifyInfo) : Prop :=
  details.agentVersion = known.map (·.agentVersion) ∧ details.protocolVersion = known.map (·.protocolVersion) ∧
    details.protocols = known.elim ∅ fun info => info.protocols.toFinset

/-! ## Runs -/

section Kept

omit [DecidableEq PeerId] in
theorem stated_modified {held : Option (NodeDetails PeerId)} {known : Option (Option IdentifyInfo)}
    (said : Option.Rel NodeDetails.Says held known) {modify : NodeDetails PeerId → NodeDetails PeerId}
    {revise : Option IdentifyInfo → Option IdentifyInfo}
    (keeps : ∀ details info, details.Says info → (modify details).Says (revise info)) :
    Option.Rel NodeDetails.Says (held.map modify) (known.map revise) := by
  cases said with
  | none => exact .none
  | some stated => exact .some (keeps _ _ stated)

theorem event_learned {b : PeerBehavior PeerId} {peerId : PeerId} {known : Option (Option IdentifyInfo)}
    (said : Option.Rel NodeDetails.Says (b.details.lookup peerId) known) (event : PeeringEvent PeerId ConnectionId) :
    Option.Rel NodeDetails.Says ((b.onEvent event).details.lookup peerId) (learn peerId known event) := by
  cases event with
  | identified peer info =>
    show Option.Rel _ ((modifyDetails b.details peer _).lookup peerId) (if peer = peerId then _ else known)
    rw [PeerBehavior.lookup_modify_details]
    by_cases same : peerId = peer
    · rw [if_pos same, if_pos same.symm]
      exact stated_modified said fun _ _ _ => ⟨rfl, rfl, rfl⟩
    · rw [if_neg same, if_neg (Ne.symm same)]
      exact said
  | swarm event =>
    cases event with
    | connectionEstablished peer connectionId endpoint =>
      show Option.Rel _ ((b.details.upsert peer _ _).lookup peerId) (if peer = peerId then _ else known)
      by_cases same : peerId = peer
      · subst same
        rw [Finmap.lookup_upsert, if_pos rfl]
        generalize b.details.lookup peerId = held at said ⊢
        cases said with
        | none => exact .some ⟨rfl, rfl, rfl⟩
        | some stated => exact .some stated
      · rw [Finmap.lookup_upsert_ne _ _ _ same, if_neg (Ne.symm same)]
        exact said
    | connectionClosed peer connectionId endpoint =>
      show Option.Rel _ ((modifyDetails b.details peer _).lookup peerId) known
      rw [PeerBehavior.lookup_modify_details]
      split
      · rw [← Option.map_id' (x := known)]
        exact stated_modified said fun _ _ stated => stated
      · exact said
    | externalAddrConfirmed addr => exact said
    | externalAddrExpired addr => exact said
    | other => exact said

theorem details_learned (peerId : PeerId) (events : List (PeeringEvent PeerId ConnectionId)) :
    Option.Rel NodeDetails.Says ((events.foldl PeerBehavior.onEvent .new).details.lookup peerId)
      (profile peerId events) := by
  induction events using List.reverseRecOn with
  | nil => exact .none
  | append_singleton events event ih =>
    rw [profile, List.foldl_append, List.foldl_append]
    exact event_learned ih event

end Kept

namespace ServingPeerBehavior
variable {PingState IdentifyState : Type} {ping : Ping PeerId ConnectionId T PingState}
  {identify : Identify PeerId ConnectionId T IdentifyState} {pingStart : PingState} {identifyStart : IdentifyState}
  {b b' : ServingPeerBehavior PeerId PingState IdentifyState}

variable (ping identify pingStart identifyStart) in
/-- Both behaviors are as if they were driven alone, and the swarm gets what
they answer and say. -/
def Undisturbed (past : List (Exchange PeerId ConnectionId T)) (b : ServingPeerBehavior PeerId PingState IdentifyState) :
    Prop :=
  ∃ pingAnswers identifyAnswers pingCommands identifyCommands,
    ping.Driven passPing pingStart (past.filterMap Exchange.ofPing) pingAnswers pingCommands b.ping ∧
    identify.Driven passIdentify identifyStart (past.filterMap Exchange.ofIdentify) identifyAnswers identifyCommands
      b.identify ∧
    Combined pingAnswers identifyAnswers (past.filterMap Exchange.answer?) ∧
    Interleaved pingCommands identifyCommands (past.filterMap Exchange.command?)

variable {past : List (Exchange PeerId ConnectionId T)}

theorem told_undisturbed (held : Undisturbed ping identify pingStart identifyStart past b)
    (event : FromSwarm PeerId ConnectionId) (rest : T.EventRest) :
    Undisturbed ping identify pingStart identifyStart (past ++ [.told event rest])
      (b.onSwarmEvent ping identify event rest) := by
  obtain ⟨pingAnswers, identifyAnswers, pingCommands, identifyCommands, alone, alone', answers, commands⟩ := held
  refine ⟨pingAnswers, identifyAnswers, pingCommands, identifyCommands, ?_, ?_, ?_, ?_⟩ <;>
    rw [List.filterMap_append]
  · exact alone.tell (.swarm event rest)
  · exact alone'.tell (.swarm event rest)
  · exact (List.append_nil _).symm ▸ answers
  · exact (List.append_nil _).symm ▸ commands

omit [DecidableEq PeerId] in
theorem handled_undisturbed (held : Undisturbed ping identify pingStart identifyStart past b) (peerId : PeerId)
    (connectionId : ConnectionId) (event : T.PingFromHandler ⊕ T.IdentifyFromHandler) :
    Undisturbed ping identify pingStart identifyStart (past ++ [.handled peerId connectionId event])
      (b.onConnectionHandlerEvent ping identify peerId connectionId event) := by
  obtain ⟨pingAnswers, identifyAnswers, pingCommands, identifyCommands, alone, alone', answers, commands⟩ := held
  refine ⟨pingAnswers, identifyAnswers, pingCommands, identifyCommands, ?_, ?_, ?_, ?_⟩ <;>
    rw [List.filterMap_append]
  · cases event with
    | inl event => exact alone.tell (.handler peerId connectionId event)
    | inr event => exact (List.append_nil _).symm ▸ alone
  · cases event with
    | inl event => exact (List.append_nil _).symm ▸ alone'
    | inr event => exact alone'.tell (.handler peerId connectionId event)
  · exact (List.append_nil _).symm ▸ answers
  · exact (List.append_nil _).symm ▸ commands

omit [DecidableEq PeerId] in
theorem handle_denied {request : ConnectionRequest PeerId ConnectionId} {denial : T.ConnectionDenied}
    {ping' : PingState} (first : ping.ask request b.ping = (.error denial, ping')) :
    b.handleConnection ping identify request = (.error denial, { b with ping := ping' }) := by
  rw [handleConnection, first]

omit [DecidableEq PeerId] in
theorem handle_passed {request : ConnectionRequest PeerId ConnectionId} {handler : Option T.PingHandler}
    {ping' : PingState} (first : ping.ask request b.ping = (.ok handler, ping')) :
    b.handleConnection ping identify request = ((identify.ask request b.identify).1.map (select handler),
      { b with ping := ping', identify := (identify.ask request b.identify).2 }) := by
  rw [handleConnection, first]

omit [DecidableEq PeerId] in
theorem asked_undisturbed (held : Undisturbed ping identify pingStart identifyStart past b)
    (request : ConnectionRequest PeerId ConnectionId) :
    Undisturbed ping identify pingStart identifyStart
      (past ++ [.asked request (ping.ask request b.ping).1.isOk (b.handleConnection ping identify request).1])
      (b.handleConnection ping identify request).2 := by
  obtain ⟨pingAnswers, identifyAnswers, pingCommands, identifyCommands, alone, alone', answers, commands⟩ := held
  have asked := alone.ask request
  cases first : ping.ask request b.ping with
  | mk answer ping' =>
    rw [first] at asked
    cases answer with
    | error denial =>
      rw [handle_denied first]
      refine ⟨pingAnswers ++ [.error denial], identifyAnswers, pingCommands, identifyCommands, ?_, ?_, ?_, ?_⟩ <;>
        rw [List.filterMap_append]
      · exact asked
      · exact (List.append_nil _).symm ▸ alone'
      · exact answers.denied denial
      · exact (List.append_nil _).symm ▸ commands
    | ok handler =>
      rw [handle_passed first]
      refine ⟨pingAnswers ++ [.ok handler], identifyAnswers ++ [(identify.ask request b.identify).1], pingCommands,
        identifyCommands, ?_, ?_, ?_, ?_⟩ <;>
        rw [List.filterMap_append]
      · exact asked
      · exact alone'.ask request
      · exact answers.both handler _
      · exact (List.append_nil _).symm ▸ commands

theorem polled_undisturbed (held : Undisturbed ping identify pingStart identifyStart past b) {rounds : Nat}
    {command : Option (PeerCommand PeerId ConnectionId T)} (polled : b.poll ping identify rounds = some (command, b')) :
    Undisturbed ping identify pingStart identifyStart (past ++ [.polled command]) b' := by
  obtain ⟨pingAnswers, identifyAnswers, pingCommands, identifyCommands, alone, alone', answers, commands⟩ := held
  unfold poll at polled
  have silent : (past ++ [Exchange.polled command]).filterMap Exchange.ofPing = past.filterMap Exchange.ofPing ∧
      (past ++ [Exchange.polled command]).filterMap Exchange.ofIdentify = past.filterMap Exchange.ofIdentify ∧
      (past ++ [Exchange.polled command]).filterMap Exchange.answer? = past.filterMap Exchange.answer? := by
    simp [Exchange.ofPing, Exchange.ofIdentify, Exchange.answer?]
  rw [Undisturbed, silent.1, silent.2.1, silent.2.2, List.filterMap_append]
  split at polled
  · cases polled
  next result ping' drained =>
    cases polled
    refine ⟨pingAnswers, identifyAnswers, _, identifyCommands, alone.drained drained, alone', answers, ?_⟩
    exact commands.left result
  next ping' drained =>
    have quiet := alone.drained drained
    rw [Option.toList_none, List.append_nil] at quiet
    split at polled
    · cases polled
    next result identify' drained' =>
      cases polled
      refine ⟨pingAnswers, identifyAnswers, pingCommands, _, quiet, alone'.drained drained', answers, ?_⟩
      exact commands.right result
    next identify' drained' =>
      cases polled
      have quiet' := alone'.drained drained'
      rw [Option.toList_none, List.append_nil] at quiet'
      refine ⟨pingAnswers, identifyAnswers, pingCommands, identifyCommands, quiet, quiet', answers, ?_⟩
      exact (List.append_nil _).symm ▸ commands

theorem turn_undisturbed (held : Undisturbed ping identify pingStart identifyStart past b)
    {turn : SwarmTurn PeerId ConnectionId T} {exchange : Exchange PeerId ConnectionId T}
    (taken : b.turn ping identify turn = some (exchange, b')) :
    Undisturbed ping identify pingStart identifyStart (past ++ [exchange]) b' := by
  cases turn with
  | told event rest =>
    cases taken
    exact told_undisturbed held event rest
  | handled peerId connectionId event =>
    cases taken
    exact handled_undisturbed held peerId connectionId event
  | asked request =>
    cases taken
    exact asked_undisturbed held request
  | polled rounds =>
    obtain ⟨⟨command, after⟩, polled, same⟩ := Option.map_eq_some_iff.mp taken
    cases same
    exact polled_undisturbed held polled

omit [DecidableEq PeerId] in
/-- What ping has passed on is no report of the behavior's own. -/
theorem ping_reports_none {out : ToSwarm PeerId ConnectionId T T.PingEvent T.PingToHandler}
    {command : PeerCommand PeerId ConnectionId T} (passed : passPing out = some command) :
    (Exchange.polled (some command)).event? = none := by
  cases out <;> cases passed <;> rfl

theorem turn_kept {turn : SwarmTurn PeerId ConnectionId T} {exchange : Exchange PeerId ConnectionId T}
    (taken : b.turn ping identify turn = some (exchange, b')) :
    b'.toPeerBehavior = exchange.event?.toList.foldl PeerBehavior.onEvent b.toPeerBehavior := by
  cases turn with
  | told event rest =>
    cases taken
    rfl
  | handled peerId connectionId event =>
    cases taken
    cases event <;> rfl
  | asked request =>
    cases taken
    cases first : ping.ask request b.ping with
    | mk answer ping' =>
      cases answer <;> rfl
  | polled rounds =>
    obtain ⟨⟨command, after⟩, polled, same⟩ := Option.map_eq_some_iff.mp taken
    cases same
    unfold poll at polled
    split at polled
    · cases polled
    next result ping' drained =>
      cases polled
      obtain ⟨out, passed⟩ := Service.drain_passed drained
      rw [ping_reports_none passed]
      rfl
    · split at polled
      · cases polled
      next result identify' drained =>
        cases polled
        cases result <;> rfl
      · cases polled
        rfl

/-- Both wait where the poll answers that it does. -/
theorem polled_waits {rounds : Nat} (polled : b.poll ping identify rounds = some (none, b')) :
    ping.Waits b'.ping ∧ identify.Waits b'.identify := by
  unfold poll at polled
  split at polled
  · cases polled
  · cases polled
  next ping' drained =>
    split at polled
    · cases polled
    · cases polled
    next identify' drained' =>
      cases polled
      obtain ⟨_, _, _, _, waits⟩ := Service.drain_polls drained
      obtain ⟨_, _, _, _, waits'⟩ := Service.drain_polls drained'
      exact ⟨waits rfl, waits' rfl⟩

/-- Queues that are finite need finitely many rounds. -/
theorem poll_settles {polls rounds : Nat}
    (settles : (ping.poll (ping.after (List.replicate polls .poll) b.ping)).1 = none)
    (settles' : (identify.poll (identify.after (List.replicate polls .poll) b.identify)).1 = none)
    (enough : polls < rounds) : (b.poll ping identify rounds).isSome := by
  obtain ⟨⟨first, ping'⟩, drained⟩ := Option.isSome_iff_exists.mp (Service.drain_settles passPing settles enough)
  obtain ⟨⟨second, identify'⟩, drained'⟩ :=
    Option.isSome_iff_exists.mp (Service.drain_settles passIdentify settles' enough)
  rw [poll, drained]
  cases first with
  | some command => rfl
  | none =>
    dsimp only
    rw [drained']
    cases second <;> rfl

/-- Ping and identify run under the peer behavior as they would alone: told all
events of the swarm and what their own handlers send, asked for every connection
(identify for those ping does not deny). The swarm gets the commands of both,
each in its order, none twice, all but ping's events, those of identify that
identify no peer, and other peers' addresses. What is kept of a peer
is what it was last identified as, in the very order the swarm was told. A poll
that waits leaves both waiting, and none fails to end where both have an end. -/
theorem behaviors_undisturbed {turns : List (SwarmTurn PeerId ConnectionId T)}
    {t : ServingPeerBehavior PeerId PingState IdentifyState}
    (run : (machine ping identify pingStart identifyStart).replay turns = some t) :
    let log := (machine ping identify pingStart identifyStart).trace (exchanged ping identify) turns
    Undisturbed ping identify pingStart identifyStart log t ∧
      (∀ peerId, Option.Rel NodeDetails.Says (t.details.lookup peerId) (profile peerId (log.filterMap Exchange.event?))) ∧
      (log.getLast? = some (.polled none) → ping.Waits t.ping ∧ identify.Waits t.identify) ∧
      ∀ polls, (ping.poll (ping.after (List.replicate polls .poll) t.ping)).1 = none →
        (identify.poll (identify.after (List.replicate polls .poll) t.identify)).1 = none → ∀ rounds > polls,
          ((machine ping identify pingStart identifyStart).next t (.polled rounds)).isSome := by
  intro log
  have held : Undisturbed ping identify pingStart identifyStart log t ∧
      t.toPeerBehavior = (log.filterMap Exchange.event?).foldl PeerBehavior.onEvent .new ∧
      (log.getLast? = some (.polled none) → ping.Waits t.ping ∧ identify.Waits t.identify) := by
    refine Machine.trace_invariant (I := fun log b => Undisturbed ping identify pingStart identifyStart log b ∧
      b.toPeerBehavior = (log.filterMap Exchange.event?).foldl PeerBehavior.onEvent .new ∧
      (log.getLast? = some (.polled none) → ping.Waits b.ping ∧ identify.Waits b.identify)) ?_ ?_ run
    · rintro past b turn b' ⟨undisturbed, kept, -⟩ step
      obtain ⟨⟨exchange, after⟩, taken, same⟩ := Option.map_eq_some_iff.mp step
      cases same
      have put : exchanged ping identify b turn after = [exchange] := by rw [exchanged, taken]; rfl
      rw [put]
      refine ⟨turn_undisturbed undisturbed taken, ?_, fun last => ?_⟩
      · have one : [exchange].filterMap Exchange.event? = exchange.event?.toList := by
          rw [List.filterMap_cons]
          cases exchange.event? <;> rfl
        rw [List.filterMap_append, List.foldl_append, ← kept, turn_kept taken, one]
      · rw [List.getLast?_concat] at last
        cases last
        cases turn with
        | told event rest => cases taken
        | handled peerId connectionId event => cases taken
        | asked request => cases taken
        | polled rounds =>
          obtain ⟨⟨command, after⟩, polled, same⟩ := Option.map_eq_some_iff.mp taken
          cases same
          exact polled_waits polled
    · exact ⟨⟨[], [], [], [], .fresh, .fresh, .nil, .nil⟩, rfl, nofun⟩
  obtain ⟨undisturbed, kept, waits⟩ := held
  refine ⟨undisturbed, fun peerId => ?_, waits, fun polls settles settles' rounds enough => ?_⟩
  · rw [kept]
    exact details_learned peerId _
  · obtain ⟨polled, same⟩ := Option.isSome_iff_exists.mp (poll_settles settles settles' enough)
    show (Option.map _ (Option.map _ (t.poll ping identify rounds))).isSome
    rw [same]
    rfl

end ServingPeerBehavior
end Behavior

/-! Ping and identify as queues that their handlers fill. -/

def queued : Passing where
  EventRest := Unit
  PingFromHandler := Nat
  PingToHandler := Unit
  PingHandler := Unit
  PingEvent := Nat
  IdentifyFromHandler := IdentifyInfo
  IdentifyToHandler := Unit
  IdentifyHandler := Unit
  IdentifyError := Unit
  DialOpts := Unit
  ListenOpts := Unit
  ListenerId := Unit
  ConnectionDenied := Unit

def pingQueue : Ping Nat Nat queued (List (ToSwarm Nat Nat queued Nat Unit)) where
  tell
    | .swarm _ _, queue => queue
    | .handler _ _ roundTrip, queue => queue ++ [.generateEvent roundTrip]
  ask _ queue := (.ok (some ()), queue)
  poll queue := (queue.head?, queue.tail)

def identifyQueue : Identify Nat Nat queued (List (ToSwarm Nat Nat queued (PeerIdentifyEvent Nat Nat queued) Unit)) where
  tell
    | .swarm _ _, queue => queue
    | .handler peerId connectionId info, queue =>
      queue ++ [.generateEvent (.received connectionId peerId info), .newExternalAddrCandidate [.tcp 30333]]
  ask _ queue := (.ok (some ()), queue)
  poll queue := (queue.head?, queue.tail)

/-- A peer that was pinged and identified, and polls until nothing is left. -/
def identifiedTurns : List (SwarmTurn Nat Nat queued) :=
  [.told (.connectionEstablished 7 0 (.dialer [.tcp 30333] .dialer .reuse)) (), .handled 7 0 (.inl (12 : Nat)),
    .handled 7 0 (.inr (⟨"/substrate/1.0", "node", []⟩ : IdentifyInfo)), .polled 2, .polled 2, .polled 2]

theorem identified_told : ∃ t, (ServingPeerBehavior.machine pingQueue identifyQueue [] []).replay identifiedTurns = some t ∧
    (t.details.lookup 7).map NodeDetails.agentVersion = some (some "node") ∧
    pingQueue.Waits t.ping ∧ identifyQueue.Waits t.identify := by
  obtain ⟨t, run⟩ := Option.isSome_iff_exists.mp (show ((ServingPeerBehavior.machine pingQueue identifyQueue [] []).replay
    identifiedTurns).isSome from rfl)
  obtain ⟨-, details, waits, -⟩ := ServingPeerBehavior.behaviors_undisturbed run
  obtain ⟨waiting, waiting'⟩ := waits rfl
  refine ⟨t, run, ?_, waiting, waiting'⟩
  have said : Option.Rel NodeDetails.Says (t.details.lookup 7) (some (some ⟨"/substrate/1.0", "node", []⟩)) := details 7
  cases held : t.details.lookup 7 with
  | none =>
    rw [held] at said
    cases said
  | some details =>
    rw [held] at said
    cases said with
    | some stated => exact congrArg some stated.1

end Subp2pExplorer.Network
