import Mathlib.Data.List.Basic
import Subp2pExplorer.Types.Protocol

/-! Multiaddresses of the core crate and their journey through libp2p. A core
address wraps litep2p's; converting it walks its components one by one. The
round trips below say exactly which addresses survive: those without a WebRTC
component. -/
namespace Subp2pExplorer.Types

abbrev LiteP2pMultiaddr := List LiteP2pProtocol
abbrev LibP2pMultiaddr (PeerId : Type) := List (LibP2pProtocol PeerId)

/-- `Multiaddr` of the core crate, a litep2p address inside. -/
structure Multiaddr where
  multiaddr : LiteP2pMultiaddr
  deriving DecidableEq

namespace Multiaddr

def empty : Multiaddr := ⟨[]⟩

def push (address : Multiaddr) (p : Protocol) : Multiaddr := ⟨address.multiaddr ++ [p.toLiteP2p]⟩

/-- The components, each converted on the way out. -/
def iter (address : Multiaddr) : List Protocol := address.multiaddr.map Protocol.ofLiteP2p

def fromIter (components : List Protocol) : Multiaddr := ⟨components.map Protocol.toLiteP2p⟩

section LibP2p
variable {PeerId : Type} (identity : PeerIdentity PeerId) (random : LibP2pMultihash → PeerId)

def ofLibP2p (multiaddr : LibP2pMultiaddr PeerId) : Multiaddr :=
  fromIter (multiaddr.map (Protocol.ofLibP2p identity))

def toLibP2p (multiaddr : Multiaddr) : LibP2pMultiaddr PeerId :=
  multiaddr.iter.map (Protocol.toLibP2p identity random)

end LibP2p

private theorem map_fixes_iff {α : Type} (f : α → α) (l : List α) : l.map f = l ↔ ∀ a ∈ l, f a = a := by
  have pointwise : l.map f = l.map id ↔ ∀ a ∈ l, f a = id a := List.map_inj_left
  simpa using pointwise

@[simp] theorem iter_from_iter (components : List Protocol) : (fromIter components).iter = components := by
  rw [iter, fromIter, List.map_map, map_fixes_iff]
  exact fun p _ => Protocol.of_lite_to_lite p

@[simp] theorem from_iter_iter (address : Multiaddr) : fromIter address.iter = address := by
  have components : address.iter.map Protocol.toLiteP2p = address.multiaddr := by
    rw [iter, List.map_map, map_fixes_iff]
    exact fun p _ => Protocol.to_lite_of_lite p
  exact congrArg Multiaddr.mk components

@[simp] theorem iter_push (address : Multiaddr) (p : Protocol) :
    (address.push p).iter = address.iter ++ [p] := by
  simp [iter, push]

/-- Addresses agree when their components do. -/
theorem eq_from_iter_iff (address : Multiaddr) (components : List Protocol) :
    fromIter components = address ↔ components = address.iter := by
  constructor
  · intro same
    rw [← same, iter_from_iter]
  · intro same
    rw [same, from_iter_iter]

section LibP2p
variable {PeerId : Type} {identity : PeerIdentity PeerId} {random : LibP2pMultihash → PeerId}

/-- A valid address returns from libp2p unchanged unless it holds WebRTC. -/
theorem returns_iff (address : Multiaddr)
    (valid : ∀ p ∈ address.iter, Protocol.ValidPeer identity p) :
    ofLibP2p identity (address.toLibP2p identity random) = address ↔ Protocol.webRTC ∉ address.iter := by
  unfold ofLibP2p toLibP2p
  rw [eq_from_iter_iff, List.map_map, map_fixes_iff]
  constructor
  · intro fixed member
    have lost := fixed _ member
    rw [Function.comp_apply, Protocol.web_rtc_lost] at lost
    cases lost
  · intro absent p member
    have kept : p ≠ .webRTC := fun same => absent (same ▸ member)
    exact Protocol.of_lib_to_lib p (valid p member) kept

/-- A libp2p address of produced components survives the crate unless it
holds the component WebRTC is sent as. -/
theorem survives_iff (address : LibP2pMultiaddr PeerId)
    (produced : ∀ c ∈ address, Protocol.Produced identity random c) :
    (ofLibP2p identity address).toLibP2p identity random = address ↔
      LibP2pProtocol.webRTCDirect ∉ address := by
  unfold ofLibP2p toLibP2p
  rw [iter_from_iter, List.map_map, map_fixes_iff]
  constructor
  · intro fixed member
    have lost := fixed _ member
    rw [Function.comp_apply, Protocol.web_rtc_direct_lost] at lost
    cases lost
  · intro absent c member
    have kept : c ≠ .webRTCDirect := fun same => absent (same ▸ member)
    exact Protocol.to_lib_of_lib c (produced c member) kept

end LibP2p

/-- Both directions of the address conversion, with exactly the addresses
they are faithful on. -/
theorem libp2p_round_trips {PeerId : Type} (identity : PeerIdentity PeerId)
    (random : LibP2pMultihash → PeerId) :
    (∀ address : Multiaddr, (∀ p ∈ address.iter, Protocol.ValidPeer identity p) →
      (ofLibP2p identity (address.toLibP2p identity random) = address ↔
        Protocol.webRTC ∉ address.iter)) ∧
    (∀ address : LibP2pMultiaddr PeerId, (∀ c ∈ address, Protocol.Produced identity random c) →
      ((ofLibP2p identity address).toLibP2p identity random = address ↔
        LibP2pProtocol.webRTCDirect ∉ address)) :=
  ⟨returns_iff, survives_iff⟩

/-- The peer id standing in for a multihash that is none. -/
def inlinePeer : { hash : LibP2pMultihash // PeerMultihash hash } :=
  ⟨⟨0, [], by decide⟩, by decide⟩

/-- A browser address loses its transport and gains a DCCP port, both ways. -/
theorem web_rtc_address_rewritten :
    let address := fromIter [.ip4 #v[127, 0, 0, 1], .udp 9090, .webRTC]
    let converted := address.toLibP2p .documented fun _ => inlinePeer
    (∀ p ∈ address.iter, Protocol.ValidPeer .documented p) ∧
    (∀ c ∈ converted, Protocol.Produced .documented (fun _ => inlinePeer) c) ∧
    ofLibP2p .documented converted = fromIter [.ip4 #v[127, 0, 0, 1], .udp 9090, .dccp 0] ∧
    ofLibP2p .documented converted ≠ address ∧
    (ofLibP2p .documented converted).toLibP2p .documented (fun _ => inlinePeer) ≠ converted := by
  refine ⟨?_, ?_, by decide, by decide, by decide⟩
  · intro p member multihash same
    subst same
    simp [fromIter, iter, Protocol.toLiteP2p, Protocol.ofLiteP2p] at member
  · intro c member
    obtain ⟨p, _, image⟩ := List.mem_map.mp member
    exact ⟨p, image⟩

/-- A TCP address of a peer makes both round trips. -/
theorem tcp_address_round_trips :
    let address := fromIter [.ip4 #v[127, 0, 0, 1], .tcp 30333, .p2p (.ofLibP2p inlinePeer.val)]
    let converted := address.toLibP2p .documented fun _ => inlinePeer
    ofLibP2p .documented converted = address ∧
    (ofLibP2p .documented converted).toLibP2p .documented (fun _ => inlinePeer) = converted := by
  intro address converted
  have round := libp2p_round_trips .documented fun _ => inlinePeer
  refine ⟨(round.1 address ?_).mpr (by decide), (round.2 converted ?_).mpr (by decide)⟩
  · intro p member multihash same
    subst same
    simp only [address, iter_from_iter, List.mem_cons, reduceCtorEq, Protocol.p2p.injEq, List.not_mem_nil,
      or_false, false_or] at member
    subst member
    decide
  · intro c member
    obtain ⟨p, _, image⟩ := List.mem_map.mp member
    exact ⟨p, image⟩

end Multiaddr
end Subp2pExplorer.Types
