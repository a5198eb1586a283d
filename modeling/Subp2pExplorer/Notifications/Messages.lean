import Subp2pExplorer.Lib.Scale
import Subp2pExplorer.Notifications.Upgrades

/-! The messages of the notification protocols: the handshake of the block
announces and the roles a peer declares. -/
namespace Subp2pExplorer.Notifications

/-- A block hash of 32 bytes. -/
abbrev BlockHash := Vector UInt8 32

/-- Handshake sent when a block announces substream is negotiated. -/
structure BlockAnnouncesHandshake where
  roles : UInt8
  bestNumber : UInt32
  bestHash : BlockHash
  genesisHash : BlockHash

namespace BlockAnnouncesHandshake

/-- The role bits are those of an authority; the source calls them a full node. -/
def fromGenesis (genesisHash : BlockHash) : BlockAnnouncesHandshake where
  roles := 4
  bestNumber := 0
  bestHash := genesisHash
  genesisHash := genesisHash

/-- The SCALE encoding, field after field. -/
def encode (handshake : BlockAnnouncesHandshake) : Bytes :=
  handshake.roles :: (Lib.Scale.leBytes 4 handshake.bestNumber.toNat ++
    (handshake.bestHash.toList ++ handshake.genesisHash.toList))

end BlockAnnouncesHandshake

/-- The role of the connected peer in the network. -/
inductive ProtocolRole where
  | fullNode
  | lightNode
  | authority
  deriving DecidableEq

namespace ProtocolRole

def encoded : ProtocolRole → UInt8
  | .fullNode => 1
  | .lightNode => 2
  | .authority => 4

/-- One byte is read, what follows it is not looked at. -/
def decode (input : Bytes) : Except String ProtocolRole :=
  match input with
  | [] => .error "Not enough data to fill buffer"
  | byte :: _ =>
    match byte with
    | 1 => .ok .fullNode
    | 2 => .ok .lightNode
    | 4 => .ok .authority
    | _ => .error "Invalid bytes"

theorem decode_encoded (role : ProtocolRole) (rest : Bytes) : decode (role.encoded :: rest) = .ok role := by
  cases role <;> rfl

end ProtocolRole

/-- Data needed by supported notification protocols. -/
structure ProtocolsData where
  genesisHash : BlockHash
  nodeRole : ProtocolRole

/-- The data of an authority on the chain with the zero hash. -/
def ProtocolsData.zero : ProtocolsData := ⟨.replicate 32 0, .authority⟩

/-- Two lowercase digits a byte. -/
def hexEncode (bytes : Bytes) : String :=
  .ofList (bytes.flatMap fun byte => [Nat.digitChar (byte.toNat / 16), Nat.digitChar (byte.toNat % 16)])

example : hexEncode [0xB0, 0x0A] = "b00a" := by decide

end Subp2pExplorer.Notifications
