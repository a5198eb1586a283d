import Subp2pExplorer.Lib.Runs
import Subp2pExplorer.Notifications.Behavior

/-! The waker of the behaviour. A poll stores the waker of its task, and the
first event that is propagated afterwards takes it and wakes the task. -/
namespace Subp2pExplorer.Notifications
open Lib

/-- `Notifications` with its waker, and the wakers it has woken. -/
structure WakingNotifications (PeerId ConnectionId Waker : Type) where
  behaviour : Notifications PeerId ConnectionId
  waker : Option Waker
  woken : List Waker

namespace WakingNotifications
variable {PeerId ConnectionId Waker : Type} [DecidableEq PeerId] [DecidableEq ConnectionId]

def new (data : ProtocolsData) : WakingNotifications PeerId ConnectionId Waker := ⟨.new data, none, []⟩

/-- Propagate an event back to the swarm. -/
def propagateEvent (b : WakingNotifications PeerId ConnectionId Waker) (event : ToSwarm PeerId ConnectionId) :
    WakingNotifications PeerId ConnectionId Waker :=
  ⟨b.behaviour.propagateEvent event, none, b.woken ++ b.waker.toList⟩

def notifyProtocols (b : WakingNotifications PeerId ConnectionId Waker) (peerId : PeerId) (connectionId : ConnectionId)
    (command : Nat → FromBehavior) : WakingNotifications PeerId ConnectionId Waker :=
  [0, 1].foldl (fun b index => b.propagateEvent (.notifyHandler peerId connectionId (command index))) b

def onSwarmEvent (b : WakingNotifications PeerId ConnectionId Waker) (event : FromSwarm PeerId ConnectionId) :
    WakingNotifications PeerId ConnectionId Waker :=
  match event with
  | .connectionEstablished peerId connectionId =>
    let peersDetails := b.behaviour.peersDetails.upsert peerId (fun entry => insert connectionId entry) {connectionId}
    { b with behaviour := { b.behaviour with peersDetails := peersDetails } }.notifyProtocols peerId connectionId .open
  | .connectionClosed peerId connectionId =>
    let b := match b.behaviour.peersDetails.lookup peerId with
      | some details =>
        let peersDetails := b.behaviour.peersDetails.insert peerId (details.erase connectionId)
        { b with behaviour := { b.behaviour with peersDetails := peersDetails } }
      | none => b
    b.notifyProtocols peerId connectionId .close
  | .other => b

def onConnectionHandlerEvent (b : WakingNotifications PeerId ConnectionId Waker) (peerId : PeerId)
    (connectionId : ConnectionId) (event : ToBehavior PeerId) : WakingNotifications PeerId ConnectionId Waker :=
  match event with
  | .handshakeCompleted index _ handshake isInbound sender =>
    b.propagateEvent (.generateEvent (.customProtocolOpen peerId index handshake isInbound sender))
  | .handshakeError _ => b
  | .openDesiredByRemote index => b.propagateEvent (.notifyHandler peerId connectionId (.open index))
  | .closeDesired index => b.propagateEvent (.notifyHandler peerId connectionId (.close index))
  | .close _ => b
  | .notification index bytes => b.propagateEvent (.generateEvent (.notification peerId index bytes))

def poll (b : WakingNotifications PeerId ConnectionId Waker) (waker : Waker) :
    Poll (ToSwarm PeerId ConnectionId) × WakingNotifications PeerId ConnectionId Waker :=
  (b.behaviour.poll.1, { b with behaviour := b.behaviour.poll.2, waker := some waker })

end WakingNotifications

/-- What the swarm calls the behaviour with. -/
inductive BehaviourCall (PeerId ConnectionId Waker : Type) where
  | swarm (event : FromSwarm PeerId ConnectionId)
  | handler (peerId : PeerId) (connectionId : ConnectionId) (event : ToBehavior PeerId)
  | poll (waker : Waker)

/-- The behaviour with the task that polls it: the waker of a last poll that
returned pending, and how many wakers had been woken by then. -/
structure Polling (PeerId ConnectionId Waker : Type) where
  notifications : WakingNotifications PeerId ConnectionId Waker
  pending : Option (Waker × Nat)

section Runs
variable {PeerId ConnectionId Waker : Type} [DecidableEq PeerId] [DecidableEq ConnectionId]

def Polling.call (p : Polling PeerId ConnectionId Waker) :
    BehaviourCall PeerId ConnectionId Waker → Polling PeerId ConnectionId Waker
  | .swarm event => { p with notifications := p.notifications.onSwarmEvent event }
  | .handler peerId connectionId event =>
    { p with notifications := p.notifications.onConnectionHandlerEvent peerId connectionId event }
  | .poll waker => match p.notifications.poll waker with
    | (.pending, notifications) => ⟨notifications, some (waker, notifications.woken.length)⟩
    | (.ready _, notifications) => ⟨notifications, none⟩

def pollingRuns (data : ProtocolsData) : Machine (Polling PeerId ConnectionId Waker) (BehaviourCall PeerId ConnectionId Waker) where
  start := ⟨.new data, none⟩
  next p call := some (p.call call)

/-- The wakers that were woken since the last poll, if that returned pending. -/
def Polling.wokenSince (p : Polling PeerId ConnectionId Waker) : List Waker :=
  p.pending.elim [] fun poll => p.notifications.woken.drop poll.2

end Runs

section Wakes
variable {PeerId ConnectionId Waker : Type} {b b' b'' : WakingNotifications PeerId ConnectionId Waker}

/-- Events were queued, and the waker was taken with the first of them. -/
def Propagated (b b' : WakingNotifications PeerId ConnectionId Waker) (added : List (ToSwarm PeerId ConnectionId)) :
    Prop :=
  b'.behaviour.events = b.behaviour.events ++ added ∧
    if added = [] then b'.waker = b.waker ∧ b'.woken = b.woken
    else b'.waker = none ∧ b'.woken = b.woken ++ b.waker.toList

theorem Propagated.rfl : Propagated b b [] := ⟨(List.append_nil _).symm, by rfl, by rfl⟩

theorem Propagated.next {added : List (ToSwarm PeerId ConnectionId)} (propagated : Propagated b b' added)
    (event : ToSwarm PeerId ConnectionId) : Propagated b (b'.propagateEvent event) (added ++ [event]) := by
  obtain ⟨events, wakes⟩ := propagated
  refine ⟨?_, ?_⟩
  · show b'.behaviour.events ++ [event] = _
    rw [events, List.append_assoc]
  · rw [if_neg (by simp)]
    refine ⟨by rfl, ?_⟩
    show b'.woken ++ b'.waker.toList = _
    by_cases none : added = []
    · rw [if_pos none] at wakes
      rw [wakes.1, wakes.2]
    · rw [if_neg none] at wakes
      rw [wakes.1, wakes.2]
      exact List.append_nil _

theorem notify_protocols_propagated (peerId : PeerId) (connectionId : ConnectionId) (command : Nat → FromBehavior) :
    Propagated b (b.notifyProtocols peerId connectionId command)
      [.notifyHandler peerId connectionId (command 0), .notifyHandler peerId connectionId (command 1)] :=
  (Propagated.rfl.next _).next _

variable [DecidableEq PeerId] [DecidableEq ConnectionId]

theorem on_swarm_event_propagated (event : FromSwarm PeerId ConnectionId) :
    ∃ added, Propagated b (b.onSwarmEvent event) added := by
  cases event with
  | connectionEstablished peerId connectionId => exact ⟨_, notify_protocols_propagated peerId connectionId .open⟩
  | connectionClosed peerId connectionId =>
    unfold WakingNotifications.onSwarmEvent
    dsimp only
    cases b.behaviour.peersDetails.lookup peerId with
    | none => exact ⟨_, notify_protocols_propagated peerId connectionId .close⟩
    | some details => exact ⟨_, notify_protocols_propagated peerId connectionId .close⟩
  | other => exact ⟨[], .rfl⟩

omit [DecidableEq PeerId] [DecidableEq ConnectionId] in
theorem on_handler_event_propagated (peerId : PeerId) (connectionId : ConnectionId) (event : ToBehavior PeerId) :
    ∃ added, Propagated b (b.onConnectionHandlerEvent peerId connectionId event) added := by
  cases event with
  | handshakeError index => exact ⟨[], .rfl⟩
  | close index => exact ⟨[], .rfl⟩
  | _ => exact ⟨_, Propagated.rfl.next _⟩

/-- While the task sleeps behind a poll that returned pending, nothing is queued;
once something is, the task has been woken, once. -/
def Wakeful (p : Polling PeerId ConnectionId Waker) : Prop :=
  ∀ waker woken, p.pending = some (waker, woken) →
    (p.notifications.behaviour.events = [] ∧ p.notifications.waker = some waker ∧
        p.notifications.woken.length = woken) ∨
      (p.notifications.behaviour.events ≠ [] ∧ p.notifications.waker = none ∧
        p.notifications.woken.drop woken = [waker])

omit [DecidableEq PeerId] [DecidableEq ConnectionId] in
theorem propagated_wakeful {pending : Option (Waker × Nat)} {added : List (ToSwarm PeerId ConnectionId)}
    (wakeful : Wakeful ⟨b, pending⟩) (propagated : Propagated b b' added) : Wakeful ⟨b', pending⟩ := by
  intro waker woken polled
  obtain ⟨events, wakes⟩ := propagated
  by_cases none : added = []
  · subst none
    rw [if_pos rfl] at wakes
    rw [List.append_nil] at events
    dsimp only
    rw [events, wakes.1, wakes.2]
    exact wakeful waker woken polled
  · rw [if_neg none] at wakes
    refine .inr ⟨by rw [events]; simp [none], wakes.1, ?_⟩
    dsimp only
    rw [wakes.2]
    rcases wakeful waker woken polled with ⟨_, own, counted⟩ | ⟨_, taken, once⟩
    · dsimp only at own counted
      rw [own, ← counted, List.drop_left]
      rfl
    · dsimp only at taken once
      rw [taken, Option.toList_none, List.append_nil]
      exact once

theorem call_wakeful {p : Polling PeerId ConnectionId Waker} (wakeful : Wakeful p)
    (call : BehaviourCall PeerId ConnectionId Waker) : Wakeful (p.call call) := by
  cases call with
  | swarm event =>
    obtain ⟨added, propagated⟩ := on_swarm_event_propagated (b := p.notifications) event
    exact propagated_wakeful wakeful propagated
  | handler peerId connectionId event =>
    obtain ⟨added, propagated⟩ := on_handler_event_propagated (b := p.notifications) peerId connectionId event
    exact propagated_wakeful wakeful propagated
  | poll waker =>
    unfold Polling.call WakingNotifications.poll Notifications.poll
    cases events : p.notifications.behaviour.events with
    | nil =>
      intro waker' woken polled
      cases polled
      exact .inl ⟨events, rfl, rfl⟩
    | cons event rest => exact nofun

/-- The same call of the behaviour without its waker. -/
def plainCall (b : Notifications PeerId ConnectionId) :
    BehaviourCall PeerId ConnectionId Waker → Notifications PeerId ConnectionId
  | .swarm event => b.onSwarmEvent event
  | .handler peerId connectionId event => b.onConnectionHandlerEvent peerId connectionId event
  | .poll _ => b.poll.2

theorem call_behaviour (p : Polling PeerId ConnectionId Waker) (call : BehaviourCall PeerId ConnectionId Waker) :
    (p.call call).notifications.behaviour = plainCall p.notifications.behaviour call := by
  cases call with
  | swarm event =>
    cases event with
    | connectionEstablished peerId connectionId => rfl
    | connectionClosed peerId connectionId =>
      unfold Polling.call WakingNotifications.onSwarmEvent plainCall Notifications.onSwarmEvent
      dsimp only
      cases p.notifications.behaviour.peersDetails.lookup peerId <;> rfl
    | other => rfl
  | handler peerId connectionId event => cases event <;> rfl
  | poll waker =>
    have kept : (p.notifications.poll waker).2.behaviour = p.notifications.behaviour.poll.2 := rfl
    unfold Polling.call
    dsimp only [plainCall]
    rw [← kept]
    rcases p.notifications.poll waker with ⟨_ | _, notifications⟩ <;> rfl

/-- In every run, the behaviour is the one without wakers, and no wake-up is
lost or repeated: behind a poll that returned pending, its task has been woken
once if something is queued by now, and not at all otherwise. -/
theorem no_wake_lost {data : ProtocolsData} {calls : List (BehaviourCall PeerId ConnectionId Waker)}
    {p : Polling PeerId ConnectionId Waker} (run : (pollingRuns data).replay calls = some p) :
    p.notifications.behaviour = calls.foldl plainCall (.new data) ∧
      ∀ waker woken, p.pending = some (waker, woken) →
        p.wokenSince = if p.notifications.behaviour.events = [] then [] else [waker] := by
  constructor
  · refine Machine.history_invariant
      (I := fun calls (p : Polling PeerId ConnectionId Waker) =>
        p.notifications.behaviour = calls.foldl plainCall (.new data)) ?_ rfl (Machine.meets_trivial calls) run
    intro past p call p' held _ step
    cases step
    rw [List.foldl_append, call_behaviour, held]
    rfl
  · intro waker woken polled
    have wakeful : Wakeful p := by
      refine Machine.invariant (fun p call p' held step => ?_) ?_ run
      · cases step
        exact call_wakeful held call
      · exact nofun
    unfold Polling.wokenSince
    rw [polled, Option.elim_some]
    rcases wakeful waker woken polled with ⟨nothing, _, counted⟩ | ⟨something, _, once⟩
    · rw [if_pos nothing, ← counted, List.drop_length]
    · rw [if_neg something, once]

/-- A poll finds nothing, and the connection that comes up then wakes its task. -/
theorem connection_wakes : ∃ p : Polling Nat Nat Nat,
    (pollingRuns .zero).replay [.poll 5, .swarm (.connectionEstablished 7 0)] = some p ∧ p.wokenSince = [5] := by
  refine ⟨_, rfl, ?_⟩
  exact ((@no_wake_lost Nat Nat Nat _ _ .zero [.poll 5, .swarm (.connectionEstablished 7 0)] _ rfl).2 5 0 rfl).trans rfl

end Wakes
end Subp2pExplorer.Notifications
