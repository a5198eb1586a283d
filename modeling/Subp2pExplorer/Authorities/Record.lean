import Mathlib.Data.List.Dedup
import Subp2pExplorer.Types.Multiaddr

/-! Authority records of the DHT. A record is accepted after two signatures
over the same bytes, one under the authority and one under the peer, and a
check of the peer ids its addresses name. Protobuf, address parsing and the
signature schemes are a codec the decoder is run with. -/
namespace Subp2pExplorer.Authorities
open Subp2pExplorer.Types

abbrev Bytes := List UInt8

/-- `sr25519::PublicKey`. -/
structure PublicKey where
  bytes : Bytes
  size : bytes.length = 32
  deriving DecidableEq

/-- `sr25519::Signature`. -/
structure Signature where
  bytes : Bytes
  size : bytes.length = 64
  deriving DecidableEq

/-- SCALE reads a fixed array off the front and leaves what follows. -/
def Signature.decode (input : Bytes) : Option Signature :=
  if long : 64 ≤ input.length then some ⟨input.take 64, by simp [long]⟩ else none

/-- `get_peer_id`: the peer an address ends in. -/
def getPeerId {PeerId : Type} (address : LibP2pMultiaddr PeerId) : Option PeerId :=
  match address.getLast? with
  | some (.p2p key) => some key
  | _ => none

structure PeerSignature where
  signature : Bytes
  publicKey : Bytes

structure SignedAuthorityRecord where
  record : Bytes
  authSignature : Bytes
  peerSignature : Option PeerSignature

structure AuthorityRecord where
  addresses : List Bytes

/-- The libraries behind a record: protobuf decoding, address parsing, the key
of a node with its peer id, and the two signature schemes. -/
structure RecordCodec (PeerId NodeKey : Type) where
  decodeSigned : Bytes → Option SignedAuthorityRecord
  decodeRecord : Bytes → Option AuthorityRecord
  parseMultiaddr : Bytes → Option (LibP2pMultiaddr PeerId)
  verify : Signature → Bytes → PublicKey → Bool
  decodePublicKey : Bytes → Option NodeKey
  toPeerId : NodeKey → PeerId
  verifyPeer : NodeKey → Bytes → Bytes → Bool

/-- The key of the authority with this number. -/
def numberedKey (n : UInt8) : PublicKey := ⟨n :: List.replicate 31 0, rfl⟩

/-- The libraries where the one value published is the record of authority 0
with these addresses, signed by the node of peer 7. -/
def RecordCodec.onePublished (listed : List (LibP2pMultiaddr Nat)) : RecordCodec Nat Nat where
  decodeSigned value := if value = [1] then some ⟨[2], List.replicate 64 3, some ⟨[4], [5]⟩⟩ else none
  decodeRecord record :=
    if record = [2] then some ⟨(List.range listed.length).map fun n => [n.toUInt8]⟩ else none
  parseMultiaddr bytes := bytes.head?.bind fun n => listed[n.toNat]?
  verify signature record authorityId :=
    signature.bytes = List.replicate 64 3 ∧ record = [2] ∧ authorityId = numberedKey 0
  decodePublicKey bytes := if bytes = [5] then some 7 else none
  toPeerId key := key
  verifyPeer key record signature := key = 7 ∧ record = [2] ∧ signature = [4]

/-- Why a record is refused: what a library could not read, the decoder's own
text, or that text followed by the addresses. -/
inductive RecordError (PeerId : Type) where
  | unreadable (part : String)
  | refused (text : String)
  | severalPeers (text : String) (addresses : List (LibP2pMultiaddr PeerId))

section Decode
variable {PeerId NodeKey : Type}

def orError {α : Type} (error : RecordError PeerId) : Option α → Except (RecordError PeerId) α
  | some a => .ok a
  | none => .error error

def require (error : RecordError PeerId) (condition : Bool) : Except (RecordError PeerId) Unit :=
  if condition then .ok () else .error error

variable [DecidableEq PeerId] (codec : RecordCodec PeerId NodeKey)

/-- The one member of the set of peer ids found. Addresses that end in no peer
id do not enter that set. -/
def onlyPeer (addresses : List (LibP2pMultiaddr PeerId)) : Except (RecordError PeerId) PeerId :=
  match (addresses.filterMap getPeerId).dedup with
  | [peerId] => .ok peerId
  | _ => .error (.severalPeers "All addresses must point to the same peerId: " addresses)

/-- `decode_dht_record`. -/
def decodeDhtRecord (value : Bytes) (authorityId : PublicKey) :
    Except (RecordError PeerId) (PeerId × List (LibP2pMultiaddr PeerId)) := do
  let payload ← orError (.unreadable "SignedAuthorityRecord") (codec.decodeSigned value)
  let authSignature ← orError (.unreadable "Signature") (Signature.decode payload.authSignature)
  require (.refused "Cannot verify DHT payload") (codec.verify authSignature payload.record authorityId)
  let record ← orError (.unreadable "AuthorityRecord") (codec.decodeRecord payload.record)
  let addresses ← orError (.unreadable "Multiaddr") (record.addresses.mapM codec.parseMultiaddr)
  require (.refused "No addresses found in the DHT record") (!addresses.isEmpty)
  let peerId ← onlyPeer addresses
  let peerSignature ← orError (.refused "Payload is not signed") payload.peerSignature
  let publicKey ← orError (.unreadable "PublicKey") (codec.decodePublicKey peerSignature.publicKey)
  require (.refused "PeerId does not match the public key") (peerId = codec.toPeerId publicKey)
  require (.refused "Peer signature verification failed")
    (codec.verifyPeer publicKey payload.record peerSignature.signature)
  return (peerId, addresses)

/-- The addresses a value lists, where it can be read at all. -/
def listedAddresses (value : Bytes) : List (LibP2pMultiaddr PeerId) :=
  (((codec.decodeSigned value).bind fun payload =>
    (codec.decodeRecord payload.record).bind fun record =>
      record.addresses.mapM codec.parseMultiaddr)).getD []

/-- What stands behind an accepted record. -/
structure Accepted (value : Bytes) (authorityId : PublicKey) (peerId : PeerId)
    (addresses : List (LibP2pMultiaddr PeerId)) (payload : SignedAuthorityRecord)
    (authSignature : Signature) (peerSignature : PeerSignature) (publicKey : NodeKey) : Prop where
  payload_read : codec.decodeSigned value = some payload
  auth_signature_read : Signature.decode payload.authSignature = some authSignature
  verified : codec.verify authSignature payload.record authorityId = true
  listed : listedAddresses codec value = addresses
  nonempty : addresses ≠ []
  one_peer : (addresses.filterMap getPeerId).dedup = [peerId]
  peer_signed : payload.peerSignature = some peerSignature
  public_key_read : codec.decodePublicKey peerSignature.publicKey = some publicKey
  peer_bound : peerId = codec.toPeerId publicKey
  peer_verified : codec.verifyPeer publicKey payload.record peerSignature.signature = true

end Decode

section Decode
variable {PeerId NodeKey : Type}

private theorem or_error_ok {α : Type} {error : RecordError PeerId} {value : Option α} {a : α}
    (ok : orError error value = .ok a) : value = some a := by
  cases value with
  | none => cases ok
  | some b =>
    cases ok
    rfl

private theorem require_ok {error : RecordError PeerId} {condition : Bool} {u : Unit}
    (ok : require error condition = .ok u) : condition = true := by
  cases condition with
  | false => cases ok
  | true => rfl

private theorem bind_ok {α β : Type} {first : Except (RecordError PeerId) α}
    {next : α → Except (RecordError PeerId) β} {b : β} (ok : first.bind next = .ok b) :
    ∃ a, first = .ok a ∧ next a = .ok b := by
  cases first with
  | error error => cases ok
  | ok a => exact ⟨a, rfl, ok⟩

variable [DecidableEq PeerId] {codec : RecordCodec PeerId NodeKey}
  {value : Bytes} {authorityId : PublicKey} {peerId : PeerId} {addresses : List (LibP2pMultiaddr PeerId)}

private theorem only_peer_ok (ok : onlyPeer addresses = .ok peerId) :
    (addresses.filterMap getPeerId).dedup = [peerId] := by
  unfold onlyPeer at ok
  split at ok
  · rename_i found shape
    cases ok
    exact shape
  · cases ok

/-- Every check of the decoder was passed by a record it returns. -/
theorem decoded_accepted (decoded : decodeDhtRecord codec value authorityId = .ok (peerId, addresses)) :
    ∃ payload authSignature peerSignature publicKey,
      Accepted codec value authorityId peerId addresses payload authSignature peerSignature publicKey := by
  unfold decodeDhtRecord at decoded
  obtain ⟨payload, payloadRead, decoded⟩ := bind_ok decoded
  obtain ⟨authSignature, signatureRead, decoded⟩ := bind_ok decoded
  obtain ⟨_, verified, decoded⟩ := bind_ok decoded
  obtain ⟨record, recordRead, decoded⟩ := bind_ok decoded
  obtain ⟨parsed, addressesRead, decoded⟩ := bind_ok decoded
  obtain ⟨_, nonempty, decoded⟩ := bind_ok decoded
  obtain ⟨peer, onePeer, decoded⟩ := bind_ok decoded
  obtain ⟨peerSignature, signed, decoded⟩ := bind_ok decoded
  obtain ⟨publicKey, keyRead, decoded⟩ := bind_ok decoded
  obtain ⟨_, bound, decoded⟩ := bind_ok decoded
  obtain ⟨_, peerVerified, decoded⟩ := bind_ok decoded
  cases decoded
  have single := only_peer_ok onePeer
  have listed : listedAddresses codec value = addresses := by
    simp [listedAddresses, or_error_ok payloadRead, or_error_ok recordRead, or_error_ok addressesRead]
  exact ⟨payload, authSignature, peerSignature, publicKey, {
    payload_read := or_error_ok payloadRead
    auth_signature_read := or_error_ok signatureRead
    verified := require_ok verified
    listed := listed
    nonempty := by simpa using require_ok nonempty
    one_peer := single
    peer_signed := or_error_ok signed
    public_key_read := or_error_ok keyRead
    peer_bound := of_decide_eq_true (require_ok bound)
    peer_verified := require_ok peerVerified }⟩

/-- An address of an accepted record names the record's peer or none. -/
theorem accepted_peer (decoded : decodeDhtRecord codec value authorityId = .ok (peerId, addresses))
    {address : LibP2pMultiaddr PeerId} (member : address ∈ addresses) {peer : PeerId}
    (named : getPeerId address = some peer) : peer = peerId := by
  obtain ⟨_, _, _, _, accepted⟩ := decoded_accepted decoded
  have found : peer ∈ (addresses.filterMap getPeerId).dedup :=
    List.mem_dedup.mpr (List.mem_filterMap.mpr ⟨address, member, named⟩)
  rw [accepted.one_peer] at found
  exact List.mem_singleton.mp found

/-- An accepted record has addresses that all end in its peer exactly when
none of those it lists ends in something else. -/
theorem accepted_addresses_iff
    (decoded : decodeDhtRecord codec value authorityId = .ok (peerId, addresses)) :
    (addresses ≠ [] ∧ ∀ address ∈ addresses, getPeerId address = some peerId) ↔
      ∀ address ∈ listedAddresses codec value, (getPeerId address).isSome := by
  obtain ⟨_, _, _, _, accepted⟩ := decoded_accepted decoded
  rw [accepted.listed]
  constructor
  · intro ⟨_, all⟩ address member
    rw [all address member]
    rfl
  · intro named
    refine ⟨accepted.nonempty, fun address member => ?_⟩
    obtain ⟨peer, found⟩ := Option.isSome_iff_exists.mp (named address member)
    rw [found, accepted_peer decoded member found]

end Decode
end Subp2pExplorer.Authorities
