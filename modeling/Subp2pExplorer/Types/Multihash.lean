import Mathlib.Logic.Basic

/-! Multihashes and the peer identities built on them. The two third-party
multihash types hold the same data, a code and a digest of at most 64 bytes,
so moving between them is wrapping the same pair again. -/
namespace Subp2pExplorer.Types

/-- The data of a third-party multihash with room for 64 digest bytes. -/
structure RawMultihash where
  code : UInt64
  digest : List UInt8
  size_le : digest.length ≤ 64
  deriving DecidableEq

abbrev LiteP2pMultihash := RawMultihash
abbrev LibP2pMultihash := RawMultihash

/-- Wrapping refuses exactly the digests that do not fit. -/
def RawMultihash.wrap (code : UInt64) (digest : List UInt8) : Option RawMultihash :=
  if fits : digest.length ≤ 64 then some ⟨code, digest, fits⟩ else none

/-- `Multihash` of the core crate. -/
structure Multihash where
  multihash : LiteP2pMultihash
  deriving DecidableEq

namespace Multihash

def ofLiteP2p (multihash : LiteP2pMultihash) : Multihash := ⟨multihash⟩

def toLiteP2p (multihash : Multihash) : LiteP2pMultihash := multihash.multihash

def ofLibP2p (generic : LibP2pMultihash) : Multihash :=
  ⟨⟨generic.code, generic.digest, generic.size_le⟩⟩

def toLibP2p (multihash : Multihash) : LibP2pMultihash :=
  ⟨multihash.multihash.code, multihash.multihash.digest, multihash.multihash.size_le⟩

/-- Both `expect`s of the generic conversions hold: the digest always fits. -/
theorem wrap_again (generic : RawMultihash) :
    RawMultihash.wrap generic.code generic.digest = some generic := by
  simp [RawMultihash.wrap, generic.size_le]

@[simp] theorem of_lite_to_lite (multihash : Multihash) : ofLiteP2p multihash.toLiteP2p = multihash := rfl

@[simp] theorem to_lite_of_lite (multihash : LiteP2pMultihash) :
    (ofLiteP2p multihash).toLiteP2p = multihash := rfl

@[simp] theorem of_lib_to_lib (multihash : Multihash) : ofLibP2p multihash.toLibP2p = multihash := rfl

@[simp] theorem to_lib_of_lib (generic : LibP2pMultihash) : (ofLibP2p generic).toLibP2p = generic := rfl

end Multihash

/-- What libp2p promises of its peer ids: a peer id is a multihash that
`from_multihash` accepts, and nothing else. -/
structure PeerIdentity (PeerId : Type) where
  fromMultihash : LibP2pMultihash → Option PeerId
  asMultihash : PeerId → LibP2pMultihash
  accepts_own : ∀ peer, fromMultihash (asMultihash peer) = some peer
  accepted_kept : ∀ hash peer, fromMultihash hash = some peer → asMultihash peer = hash

/-- Multihash codes and size that libp2p documents for peer ids. -/
def PeerMultihash (hash : LibP2pMultihash) : Prop :=
  hash.code = 0x12 ∨ (hash.code = 0 ∧ hash.digest.length ≤ 42)

instance (hash : LibP2pMultihash) : Decidable (PeerMultihash hash) :=
  inferInstanceAs (Decidable (_ ∨ _))

/-- Peer ids as the documented subset of multihashes. -/
def PeerIdentity.documented : PeerIdentity { hash : LibP2pMultihash // PeerMultihash hash } where
  fromMultihash hash := if peer : PeerMultihash hash then some ⟨hash, peer⟩ else none
  asMultihash peer := peer.val
  accepts_own peer := by simp [peer.property]
  accepted_kept hash peer accepted := by
    split at accepted
    · cases accepted
      rfl
    · cases accepted

end Subp2pExplorer.Types
