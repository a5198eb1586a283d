import Mathlib.Tactic.IntervalCases
import Subp2pExplorer.Network.Roles

/-! The text of a genesis hash in the names of protocols and in the filters by
them. It is trimmed, decoded and encoded again, or used as it is, and all of
these give one text only where it is already as it would be encoded. -/
namespace Subp2pExplorer.Network
open Lib Notifications

section Texts

/-- Take a prefix "0x" off, as often as it is there. -/
def trimStart : List Char → List Char
  | '0' :: 'x' :: rest => trimStart rest
  | text => text

/-- `trim_start_matches("0x")`. -/
def trimStartMatches (text : String) : String := .ofList (trimStart text.toList)

inductive FromHexError where
  | invalidHexCharacter (c : UInt8) (index : Nat)
  | oddLength

/-- The value of a hex digit, in upper or lower case. -/
def hexVal (c : UInt8) (index : Nat) : Except FromHexError UInt8 :=
  if 65 ≤ c ∧ c ≤ 70 then .ok (c - 65 + 10)
  else if 97 ≤ c ∧ c ≤ 102 then .ok (c - 97 + 10)
  else if 48 ≤ c ∧ c ≤ 57 then .ok (c - 48)
  else .error (.invalidHexCharacter c index)

def hexPairs (index : Nat) : Bytes → Except FromHexError Bytes
  | high :: low :: rest => do
    let high ← hexVal high index
    let low ← hexVal low (index + 1)
    let bytes ← hexPairs (index + 2) rest
    return (high <<< 4 ||| low) :: bytes
  | _ => .ok []

/-- `hex::decode`, on the bytes of the text. -/
def hexDecode (text : String) : Except FromHexError Bytes :=
  let bytes := text.toList.flatMap String.utf8EncodeChar
  if bytes.length % 2 = 0 then hexPairs 0 bytes else .error .oddLength

/-- `str::contains`. -/
def contains (text part : String) : Bool := part.toList <:+: text.toList

private theorem digit_not_x {n : Nat} (small : n < 16) : Nat.digitChar n ≠ 'x' := by
  revert n
  decide

/-- The byte of a lowercase digit. -/
private def digitByte (n : Nat) : UInt8 := (if n < 10 then 48 + n else 87 + n).toUInt8

private theorem digit_written {n : Nat} (small : n < 16) : String.utf8EncodeChar (Nat.digitChar n) = [digitByte n] := by
  revert n
  decide

private theorem digit_read {n : Nat} (small : n < 16) (index : Nat) : hexVal (digitByte n) index = .ok n.toUInt8 := by
  interval_cases n <;> rfl

private theorem digits_joined (byte : UInt8) :
    (byte.toNat / 16).toUInt8 <<< 4 ||| (byte.toNat % 16).toUInt8 = byte := by
  have all : ∀ n : Fin 256, (n.val / 16).toUInt8 <<< 4 ||| (n.val % 16).toUInt8 = n.val.toUInt8 := by
    decide +kernel
  have joined := all ⟨byte.toNat, byte.toNat_lt⟩
  simpa using joined

private theorem hex_pairs_digits (bytes : Bytes) (index : Nat) :
    hexPairs index (bytes.flatMap fun byte => [digitByte (byte.toNat / 16), digitByte (byte.toNat % 16)]) =
      .ok bytes := by
  induction bytes generalizing index with
  | nil => rfl
  | cons byte bytes ih =>
    have small : byte.toNat < 256 := byte.toNat_lt
    rw [List.flatMap_cons, List.cons_append, List.cons_append, List.nil_append, hexPairs,
      digit_read (show byte.toNat / 16 < 16 by omega), digit_read (Nat.mod_lt _ (by omega)), ih]
    show Except.ok (_ :: bytes) = _
    rw [digits_joined]

/-- What was encoded is decoded. -/
theorem hex_decode_encode (bytes : Bytes) : hexDecode (hexEncode bytes) = .ok bytes := by
  have written : (hexEncode bytes).toList.flatMap String.utf8EncodeChar =
      bytes.flatMap fun byte => [digitByte (byte.toNat / 16), digitByte (byte.toNat % 16)] := by
    rw [hexEncode, String.toList_ofList, List.flatMap_assoc]
    refine List.flatMap_congr fun byte _ => ?_
    have small : byte.toNat < 256 := byte.toNat_lt
    simp [digit_written (show byte.toNat / 16 < 16 by omega), digit_written (Nat.mod_lt byte.toNat (by omega))]
  have even : ((hexEncode bytes).toList.flatMap String.utf8EncodeChar).length % 2 = 0 := by
    rw [written]
    simp [List.length_flatMap]
  unfold hexDecode
  rw [if_pos even, written]
  exact hex_pairs_digits bytes 0

theorem trim_start_kept {text : List Char} (plain : 'x' ∉ text) : trimStart text = text := by
  unfold trimStart
  split
  · simp at plain
  · rfl

theorem hex_encode_plain (bytes : Bytes) : 'x' ∉ (hexEncode bytes).toList := by
  rw [hexEncode, String.toList_ofList, List.mem_flatMap]
  rintro ⟨byte, _, digit⟩
  have small : byte.toNat < 256 := byte.toNat_lt
  simp only [List.mem_cons, List.not_mem_nil, or_false] at digit
  rcases digit with high | low
  · exact digit_not_x (by omega) high.symm
  · exact digit_not_x (Nat.mod_lt _ (by omega)) low.symm

/-- Encoded bytes have no prefix to trim. -/
theorem trim_hex_encode (bytes : Bytes) : trimStartMatches (hexEncode bytes) = hexEncode bytes := by
  rw [trimStartMatches, trim_start_kept (hex_encode_plain bytes), String.ofList_toList]

end Texts

section Genesis

/-- What building a swarm from a genesis text comes to. -/
inductive Build (α : Type) where
  | built (value : α)
  | failed (error : FromHexError)
  /-- An `expect` got nothing, or `H256::from_slice` another number of bytes. -/
  | panicked

/-- The protocols a swarm registers, and the data its handlers are built from. -/
structure SwarmProtocols where
  kademlia : String
  data : ProtocolsData

/-- The Kademlia name of `DiscoveryBuilder::build`. -/
def kademliaProtocol (genesisHash : String) : String := "/" ++ genesisHash ++ "/kad"

/-- `build_swarm`, as far as the genesis text goes. -/
def buildSwarm (genesis : String) : Build SwarmProtocols :=
  let genesis := trimStartMatches genesis
  match hexDecode genesis with
  | .error error => .failed error
  | .ok bytes =>
    if size : bytes.length = 32 then
      .built ⟨kademliaProtocol genesis, ⟨⟨bytes.toArray, size⟩, .fullNode⟩⟩
    else .panicked

/-- The notification protocols a handler built from this data listens on. -/
def notificationNames (data : ProtocolsData) : List String :=
  (NotificationsHandler.new () (.listener [] []) data : NotificationsHandler Unit Unit).protocols.map
    ProtocolDetails.name

/-- The peers `discover_network` keeps by their protocols. -/
def supportsGenesis (genesis : String) (info : Info) : Bool :=
  info.protocols.any fun streamProto => contains streamProto genesis

/-- What `Bootnodes` holds for the check of a peer. -/
structure Bootnodes (PeerId : Type) where
  genesis : Option String
  identifyData : Map PeerId Info

/-- A peer is valid when it was identified and its protocols are derived from
the genesis hash, where one is given. -/
def Bootnodes.isPeerValid {PeerId : Type} [DecidableEq PeerId] (b : Bootnodes PeerId) (peer : PeerId) : Bool :=
  match b.identifyData.lookup peer with
  | some info => match b.genesis with
    | some genesis => info.protocols.any fun proto => contains proto genesis
    | none => true
  | none => false

/-- The Kademlia name of `Litep2pBackend::new`. -/
def litep2pKademlia (genesisHash : String) : String := "/" ++ genesisHash ++ "/kad"

/-- The Kademlia name of `Libp2pBackend::new`. -/
def libp2pKademlia (genesis : String) : String := "/" ++ trimStartMatches genesis ++ "/kad"

/-- All names and filters made of a genesis text use the one text given. -/
structure UsesText (genesis : String) (swarm : SwarmProtocols) (text : String) : Prop where
  kademlia : swarm.kademlia = "/" ++ text ++ "/kad"
  notifications : notificationNames swarm.data = ["/" ++ text ++ "/block-announces/1", "/" ++ text ++ "/transactions/1"]
  discovery : ∀ info, supportsGenesis genesis info = info.protocols.any fun name => contains name text
  bootnodes : ∀ {PeerId : Type} [DecidableEq PeerId] (identifyData : Map PeerId Info) (peer : PeerId),
    (Bootnodes.mk (some genesis) identifyData).isPeerValid peer =
      ((identifyData.lookup peer).any fun info => info.protocols.any fun name => contains name text)
  litep2p : litep2pKademlia genesis = "/" ++ text ++ "/kad"
  libp2p : libp2pKademlia genesis = "/" ++ text ++ "/kad"

/-- Two runs register the same protocols and tell the same peers apart. -/
structure SameChain (genesis genesis' : String) (swarm swarm' : SwarmProtocols) : Prop where
  kademlia : swarm.kademlia = swarm'.kademlia
  notifications : notificationNames swarm.data = notificationNames swarm'.data
  discovery : ∀ info, supportsGenesis genesis info = supportsGenesis genesis' info
  bootnodes : ∀ {PeerId : Type} [DecidableEq PeerId] (identifyData : Map PeerId Info) (peer : PeerId),
    (Bootnodes.mk (some genesis) identifyData).isPeerValid peer =
      (Bootnodes.mk (some genesis') identifyData).isPeerValid peer
  litep2p : litep2pKademlia genesis = litep2pKademlia genesis'
  libp2p : libp2pKademlia genesis = libp2pKademlia genesis'

private theorem text_between {text other suffix : String} (same : "/" ++ text ++ suffix = "/" ++ other ++ suffix) :
    text = other :=
  (String.append_right_inj "/").mp ((String.append_left_inj suffix).mp same)

theorem build_swarm_kademlia {genesis : String} {swarm : SwarmProtocols} (built : buildSwarm genesis = .built swarm) :
    swarm.kademlia = "/" ++ trimStartMatches genesis ++ "/kad" := by
  unfold buildSwarm at built
  dsimp only at built
  split at built
  · cases built
  · split at built
    · cases built
      rfl
    · cases built

/-- An encoded hash is accepted, and as the hash it encodes. -/
theorem build_swarm_encoded (hash : BlockHash) :
    buildSwarm (hexEncode hash.toList) = .built ⟨kademliaProtocol (hexEncode hash.toList), ⟨hash, .fullNode⟩⟩ := by
  unfold buildSwarm
  dsimp only
  rw [trim_hex_encode, hex_decode_encode]
  simp [Vector.toList]

/-- For every genesis text that is accepted, its names and filters use one text
exactly if it is the encoding of its bytes, and two texts of the same bytes
give the same protocols and the same verdicts exactly if they are equal. -/
theorem genesis_text_iff {genesis : String} {swarm : SwarmProtocols} (built : buildSwarm genesis = .built swarm) :
    ((∃ text, UsesText genesis swarm text) ↔ genesis = hexEncode swarm.data.genesisHash.toList) ∧
    ∀ genesis' swarm', buildSwarm genesis' = .built swarm' →
      swarm'.data.genesisHash = swarm.data.genesisHash →
      (SameChain genesis genesis' swarm swarm' ↔ genesis = genesis') := by
  refine ⟨⟨?_, fun encoded => ?_⟩, fun genesis' swarm' built' hash => ⟨fun same => ?_, ?_⟩⟩
  · rintro ⟨text, uses⟩
    have raw : genesis = text := text_between uses.litep2p
    have encoded : hexEncode swarm.data.genesisHash.toList = text :=
      text_between (List.head_eq_of_cons_eq uses.notifications)
    exact raw.trans encoded.symm
  · have trimmed : trimStartMatches genesis = genesis := by
      rw [encoded, trim_hex_encode]
    refine ⟨genesis, ?_, ?_, fun info => rfl, fun identifyData peer => ?_, rfl, ?_⟩
    · rw [build_swarm_kademlia built, trimmed]
    · conv_rhs => rw [encoded]
      rfl
    · unfold Bootnodes.isPeerValid
      dsimp only
      cases identifyData.lookup peer <;> rfl
    · unfold libp2pKademlia
      rw [trimmed]
  · exact text_between same.litep2p
  · rintro rfl
    cases built.symm.trans built'
    exact ⟨rfl, rfl, fun _ => rfl, fun _ _ => rfl, rfl, rfl⟩

/-- The genesis text of the chain with the zero hash. -/
def zeroGenesis : String := hexEncode (List.replicate 32 0)

theorem zero_genesis_one_text : (∃ text, UsesText zeroGenesis ⟨kademliaProtocol zeroGenesis, fullNodeData⟩ text) ∧
    SameChain zeroGenesis zeroGenesis ⟨kademliaProtocol zeroGenesis, fullNodeData⟩
      ⟨kademliaProtocol zeroGenesis, fullNodeData⟩ := by
  have built := build_swarm_encoded fullNodeData.genesisHash
  obtain ⟨uses, same⟩ := genesis_text_iff built
  exact ⟨uses.mpr rfl, (same _ _ built rfl).mpr rfl⟩

/-- With the prefix the same chain is joined, and its own peers look foreign. -/
theorem prefixed_genesis_foreign :
    buildSwarm ("0x" ++ zeroGenesis) = .built ⟨kademliaProtocol zeroGenesis, fullNodeData⟩ ∧
    buildSwarm zeroGenesis = .built ⟨kademliaProtocol zeroGenesis, fullNodeData⟩ ∧
    supportsGenesis zeroGenesis ⟨[kademliaProtocol zeroGenesis]⟩ = true ∧
    supportsGenesis ("0x" ++ zeroGenesis) ⟨[kademliaProtocol zeroGenesis]⟩ = false ∧
    ¬∃ text, UsesText ("0x" ++ zeroGenesis) ⟨kademliaProtocol zeroGenesis, fullNodeData⟩ text := by
  have plain : buildSwarm zeroGenesis = .built ⟨kademliaProtocol zeroGenesis, fullNodeData⟩ :=
    build_swarm_encoded fullNodeData.genesisHash
  have trimmed : trimStartMatches ("0x" ++ zeroGenesis) = trimStartMatches zeroGenesis := by
    decide +kernel
  refine ⟨?_, plain, by decide +kernel, by decide +kernel, ?_⟩
  · rw [← plain, buildSwarm, buildSwarm, trimmed]
  · rintro ⟨text, uses⟩
    have raw : "0x" ++ zeroGenesis = text := text_between uses.litep2p
    have once : trimStartMatches ("0x" ++ zeroGenesis) = text := text_between uses.libp2p
    revert once
    rw [← raw]
    decide +kernel

end Genesis
end Subp2pExplorer.Network
