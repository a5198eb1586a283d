import Subp2pExplorer.Authorities.Record
import Subp2pExplorer.Types.PeerId

/-! Two ways to read the peer off an address. The core crate takes the first
P2p component wherever it stands, the explorer the last component if it is a
P2p one. They give the same peer on an address with a single peer at its end,
and this says on which others. -/
namespace Subp2pExplorer.Authorities
open Subp2pExplorer.Types

/-- The peer that a component names. -/
def p2pMultihash : Protocol → Option Multihash
  | .p2p multihash => some multihash
  | _ => none

/-- An address names no peer, or its last component names the peer that the
first P2p component does. -/
def EndsInFirstPeer (address : Multiaddr) : Prop :=
  (∀ p ∈ address.iter, p.isP2p = false) ∨
    ∃ multihash, PeerId.FirstP2p address multihash ∧ address.iter.getLast? = some (.p2p multihash)

theorem p2p_multihash_eq (p : Protocol) (multihash : Multihash) :
    p2pMultihash p = some multihash ↔ p = .p2p multihash := by
  cases p <;> simp [p2pMultihash]

theorem is_p2p_iff (p : Protocol) : p.isP2p = true ↔ ∃ multihash, p = .p2p multihash := by
  cases p <;> simp [Protocol.isP2p]

theorem try_from_multiaddr_none (address : Multiaddr) :
    PeerId.tryFromMultiaddr address = none ↔ ∀ p ∈ address.iter, p.isP2p = false := by
  constructor
  · intro absent p member
    by_contra names
    have found : (address.iter.find? Protocol.isP2p).isSome := by
      rw [List.find?_isSome]
      exact ⟨p, member, by simpa using names⟩
    obtain ⟨first, same⟩ := Option.isSome_iff_exists.mp found
    obtain ⟨multihash, rfl⟩ := (is_p2p_iff first).mp (List.find?_some same)
    rw [PeerId.tryFromMultiaddr, same] at absent
    cases absent
  · intro others
    have absent : address.iter.find? Protocol.isP2p = none := by
      rw [List.find?_eq_none]
      exact fun p member => by simp [others p member]
    rw [PeerId.tryFromMultiaddr, absent]

/-- The multihash the explorer's rule takes from a core address. -/
def lastMultihash (address : Multiaddr) : Option Multihash := address.iter.getLast?.bind p2pMultihash

theorem same_multihash_iff (address : Multiaddr) :
    (PeerId.tryFromMultiaddr address).map PeerId.multihash = lastMultihash address ↔ EndsInFirstPeer address := by
  unfold lastMultihash EndsInFirstPeer
  cases found : PeerId.tryFromMultiaddr address with
  | none =>
    have others := (try_from_multiaddr_none address).mp found
    refine iff_of_true ?_ (.inl others)
    cases last : address.iter.getLast? with
    | none => rfl
    | some p =>
      have plain := others p (List.mem_of_getLast? last)
      cases named : p2pMultihash p with
      | none => exact named.symm
      | some multihash =>
        rw [(p2p_multihash_eq p multihash).mp named] at plain
        cases plain
  | some peer =>
    have first := (PeerId.try_from_multiaddr_iff address peer).mp found
    constructor
    · intro same
      obtain ⟨p, last, named⟩ := Option.bind_eq_some_iff.mp same.symm
      rw [(p2p_multihash_eq p _).mp named] at last
      exact .inr ⟨_, first, last⟩
    · rintro (others | ⟨multihash, other, last⟩)
      · rw [(try_from_multiaddr_none address).mpr others] at found
        cases found
      · have same := (PeerId.try_from_multiaddr_iff address ⟨multihash⟩).mpr other
        rw [last]
        cases found.symm.trans same
        rfl

section LibP2p
variable {Peer : Type} (identity : PeerIdentity Peer) (random : LibP2pMultihash → Peer)

/-- The peer that a libp2p component names. -/
def namedPeer : LibP2pProtocol Peer → Option Peer
  | .p2p peer => some peer
  | _ => none

theorem get_peer_id_eq (address : LibP2pMultiaddr Peer) :
    getPeerId address = address.getLast?.bind namedPeer := by
  unfold getPeerId
  cases last : address.getLast? with
  | none => rfl
  | some component => cases component <;> rfl

/-- Sending a valid component to libp2p keeps the peer it names. -/
theorem named_peer_sent (p : Protocol) (valid : Protocol.ValidPeer identity p) :
    (namedPeer (Protocol.toLibP2p identity random p)).map identity.asMultihash =
      (p2pMultihash p).map Multihash.toLibP2p := by
  cases p with
  | p2p multihash =>
    obtain ⟨peer, accepted⟩ := Option.isSome_iff_exists.mp (valid multihash rfl)
    have kept := identity.accepted_kept _ _ accepted
    simp [Protocol.toLibP2p, namedPeer, p2pMultihash, accepted, kept]
  | _ => rfl

theorem named_peer_received (component : LibP2pProtocol Peer) :
    (namedPeer component).map identity.asMultihash =
      (p2pMultihash (Protocol.ofLibP2p identity component)).map Multihash.toLibP2p := by
  cases component <;> rfl

/-- The explorer's rule on a converted address takes its last multihash. -/
theorem get_peer_id_sent (address : Multiaddr)
    (valid : ∀ p ∈ address.iter, Protocol.ValidPeer identity p) :
    (getPeerId (address.toLibP2p identity random)).map identity.asMultihash =
      (lastMultihash address).map Multihash.toLibP2p := by
  rw [get_peer_id_eq, Multiaddr.toLibP2p, List.getLast?_map, lastMultihash]
  cases last : address.iter.getLast? with
  | none => rfl
  | some p => exact named_peer_sent identity random p (valid p (List.mem_of_getLast? last))

theorem get_peer_id_received (address : LibP2pMultiaddr Peer) :
    (getPeerId address).map identity.asMultihash =
      (lastMultihash (Multiaddr.ofLibP2p identity address)).map Multihash.toLibP2p := by
  rw [get_peer_id_eq, lastMultihash, Multiaddr.ofLibP2p, Multiaddr.iter_from_iter, List.getLast?_map]
  cases last : address.getLast? with
  | none => rfl
  | some component => exact named_peer_received identity component

/-- The peer that the core crate reads, as libp2p has it. -/
def corePeer (address : Multiaddr) : Option LibP2pMultihash :=
  (PeerId.tryFromMultiaddr address).map fun peer => peer.multihash.toLibP2p

theorem core_peer_iff (address : Multiaddr) :
    corePeer address = (lastMultihash address).map Multihash.toLibP2p ↔ EndsInFirstPeer address := by
  have faithful : Function.Injective Multihash.toLibP2p := fun a b same => by
    rw [← Multihash.of_lib_to_lib a, ← Multihash.of_lib_to_lib b, same]
  rw [← same_multihash_iff, corePeer, ← (Option.map_injective faithful).eq_iff, Option.map_map]
  rfl

/-- Both rules read the same peer, or none, exactly on the addresses that end
in their first peer; for core addresses of valid peers on their way to libp2p
and for libp2p addresses on their way in. -/
theorem extractors_agree_iff :
    (∀ address : Multiaddr, (∀ p ∈ address.iter, Protocol.ValidPeer identity p) →
      (corePeer address = (getPeerId (address.toLibP2p identity random)).map identity.asMultihash ↔
        EndsInFirstPeer address)) ∧
    (∀ address : LibP2pMultiaddr Peer,
      (corePeer (Multiaddr.ofLibP2p identity address) = (getPeerId address).map identity.asMultihash ↔
        EndsInFirstPeer (Multiaddr.ofLibP2p identity address))) := by
  constructor
  · intro address valid
    rw [get_peer_id_sent identity random address valid]
    exact core_peer_iff address
  · intro address
    rw [get_peer_id_received identity address]
    exact core_peer_iff _

end LibP2p

/-- A peer's multihash, told apart by its last byte. -/
def inlineId (n : UInt8) : Multihash := ⟨⟨0, [n], by simp⟩⟩

/-- A peer reached through a relay. -/
def relayedAddress : Multiaddr :=
  Multiaddr.fromIter [.ip4 localhost, .tcp 30333, .p2p (inlineId 1), .p2pCircuit, .p2p (inlineId 2)]

theorem inline_valid (n : UInt8) : Protocol.ValidPeer .documented (.p2p (inlineId n)) := by
  intro multihash same
  cases same
  rfl

theorem plain_valid (p : Protocol) (plain : p.isP2p = false) : Protocol.ValidPeer .documented p := by
  intro multihash same
  rw [same] at plain
  cases plain

/-- An address that ends in its only peer. -/
def directAddress : Multiaddr := Multiaddr.fromIter [.ip4 localhost, .tcp 30333, .p2p (inlineId 2)]

theorem direct_peer_agreed :
    corePeer directAddress =
      (getPeerId (directAddress.toLibP2p .documented fun _ => Multiaddr.inlinePeer)).map
        PeerIdentity.documented.asMultihash := by
  refine ((extractors_agree_iff .documented fun _ => Multiaddr.inlinePeer).1 directAddress ?_).mpr ?_
  · rw [directAddress, Multiaddr.iter_from_iter]
    simp only [List.forall_mem_cons, List.not_mem_nil, false_implies, implies_true, and_true]
    exact ⟨plain_valid _ rfl, plain_valid _ rfl, inline_valid 2⟩
  · exact .inr ⟨inlineId 2, ⟨[.ip4 localhost, .tcp 30333], [], by decide, by decide⟩, by decide⟩

/-- Of a relayed address one rule reads the relay and the other the peer. -/
theorem relayed_peers_differ :
    (∀ p ∈ relayedAddress.iter, Protocol.ValidPeer .documented p) ∧
    corePeer relayedAddress = some (inlineId 1).toLibP2p ∧
    (getPeerId (relayedAddress.toLibP2p .documented fun _ => Multiaddr.inlinePeer)).map
      PeerIdentity.documented.asMultihash = some (inlineId 2).toLibP2p ∧
    corePeer relayedAddress ≠
      (getPeerId (relayedAddress.toLibP2p .documented fun _ => Multiaddr.inlinePeer)).map
        PeerIdentity.documented.asMultihash := by
  refine ⟨?_, by decide, by decide, by decide⟩
  rw [relayedAddress, Multiaddr.iter_from_iter]
  simp only [List.forall_mem_cons, List.not_mem_nil, false_implies, implies_true, and_true]
  exact ⟨plain_valid _ rfl, plain_valid _ rfl, inline_valid 1, plain_valid _ rfl, inline_valid 2⟩

end Subp2pExplorer.Authorities
