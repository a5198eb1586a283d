import Subp2pExplorer.Network.Bootnodes

/-! The swarm of a command, and the texts it is built from. Bootnodes come from
the command line, from the node that is asked or from a published chain spec;
the genesis comes from the command line or from the node. None of them is
checked before it is parsed. -/
namespace Subp2pExplorer.Network
open Lib Notifications Subp2pExplorer.Types

/-- A JSON value, as far as chain specs are told apart. -/
inductive Json where
  | string (text : String)
  | array (values : List Json)
  | object (fields : List (String × Json))
  | other

namespace Json

def get (key : String) : Json → Option Json
  | object fields => fields.lookup key
  | _ => none

def asArray : Json → Option (List Json)
  | array values => some values
  | _ => none

def asStr : Json → Option String
  | string text => some text
  | _ => none

end Json

section Bootnodes

/-- The entries of a chain spec that are texts, or what is wrong with it. -/
def bootNodes (missing : String) (spec : Json) : Except String (List String) :=
  match spec.get "bootNodes" with
  | none => .error missing
  | some nodes =>
    match nodes.asArray with
    | none => .error "Invalid `bootNodes` format, expected array"
    | some nodes => .ok (nodes.filterMap Json.asStr)

/-- `fetch_bootnodes_from_rpc`, with what the node answers. -/
def fetchBootnodesFromRpc (answer : Except String Json) : Except String (List String) := do
  bootNodes "Chain spec missing `bootNodes` field" (← answer)

/-- `fetch_bootnodes_from_chainspec`, with what is downloaded. -/
def fetchBootnodesFromChainspec (download : Except String Json) : Except String (List String) := do
  bootNodes "Published chainspec missing `bootNodes` field" (← download)

/-- The parts of the RPC address that a chain is detected by. -/
structure Url where
  host : Option String
  path : String

def knownChains : List String := ["kusama", "paseo", "westend", "polkadot"]

def detectChainName (url : Url) : Option String :=
  knownChains.find? fun chain => contains (url.host.getD "") chain || contains url.path chain

/-- What is published for the chain is merged in. The merged set is walked in
an order of its own; a download that fails is only reported. -/
def mergePublished (rpcUrl : Url) (download : String → Except String Json) (order : HashSet.Order String)
    (bootnodes : List String) : List String :=
  match detectChainName rpcUrl with
  | none => bootnodes
  | some chain =>
    match fetchBootnodesFromChainspec (download chain) with
    | .ok extra => order.walk (bootnodes.toFinset ∪ extra.toFinset)
    | .error _ => bootnodes

/-- `resolve_bootnodes`, up to its printing. -/
def resolveBootnodes (rpcUrl : Url) (cliBootnodes : List String) (answer : Except String Json)
    (download : String → Except String Json) (order : HashSet.Order String) : Except String (List String) :=
  let bootnodes := if cliBootnodes.isEmpty then fetchBootnodesFromRpc answer else .ok cliBootnodes
  bootnodes.map (mergePublished rpcUrl download order)

/-- The texts that a source of bootnodes has on offer. -/
def Offers (fetched : Except String (List String)) (bootnode : String) : Prop :=
  ∃ texts, fetched = .ok texts ∧ bootnode ∈ texts

/-- The bootnodes a command may be built with: those given, or the ones of the
node where none are given, and those published for the chain. -/
def Offered (rpcUrl : Url) (cliBootnodes : List String) (answer : Except String Json)
    (download : String → Except String Json) (bootnode : String) : Prop :=
  bootnode ∈ cliBootnodes ∨
  (cliBootnodes = [] ∧ Offers (fetchBootnodesFromRpc answer) bootnode) ∨
  ∃ chain, detectChainName rpcUrl = some chain ∧ Offers (fetchBootnodesFromChainspec (download chain)) bootnode

variable {rpcUrl : Url} {cliBootnodes resolved : List String} {answer : Except String Json}
  {download : String → Except String Json} {order : HashSet.Order String}

theorem merge_published_mem (bootnodes : List String) (bootnode : String) :
    bootnode ∈ mergePublished rpcUrl download order bootnodes ↔ bootnode ∈ bootnodes ∨
      ∃ chain, detectChainName rpcUrl = some chain ∧
        Offers (fetchBootnodesFromChainspec (download chain)) bootnode := by
  unfold mergePublished
  cases detectChainName rpcUrl with
  | none => simp
  | some chain => cases fetched : fetchBootnodesFromChainspec (download chain) <;> simp [Offers, fetched]

/-- What is resolved is all that was offered. -/
theorem resolved_offered (done : resolveBootnodes rpcUrl cliBootnodes answer download order = .ok resolved)
    (bootnode : String) : bootnode ∈ resolved ↔ Offered rpcUrl cliBootnodes answer download bootnode := by
  unfold resolveBootnodes at done
  unfold Offered
  cases cliBootnodes with
  | cons cli rest =>
    cases done
    rw [merge_published_mem]
    simp
  | nil =>
    cases fetched : fetchBootnodesFromRpc answer with
    | error e =>
      rw [fetched] at done
      cases done
    | ok bootnodes =>
      rw [fetched] at done
      cases done
      rw [merge_published_mem]
      simp [Offers]

end Bootnodes

section Building
variable {PeerId : Type} (parseMultiaddr : String → Option (LibP2pMultiaddr PeerId))
  (parsePeerId : String → Option PeerId)

/-- `build_swarm`. A bootnode that cannot be parsed is a panic, before the
genesis is decoded; the addresses of the others are handed to the discovery. -/
def Swarm.build (genesis : String) (bootnodes : List String) : Build (SwarmProtocols × Swarm PeerId) :=
  match bootnodes.mapM (parseBootnode parseMultiaddr parsePeerId) with
  | none => .panicked
  | some bootnodes =>
    match buildSwarm genesis with
    | .built protocols => .built (protocols, { started := 0, known := bootnodes, dials := [] })
    | .failed error => .failed error
    | .panicked => .panicked

/-- `BlockAnnouncesHandshake::from_hex_genesis`. -/
def fromHexGenesis (genesisHash : String) : Build BlockAnnouncesHandshake :=
  match hexDecode (trimStartMatches genesisHash) with
  | .error error => .failed error
  | .ok bytes =>
    if size : bytes.length = 32 then .built (.fromGenesis ⟨bytes.toArray, size⟩) else .panicked

/-- A bootnode in which both parses find what they look for. -/
def Readable (bootnode : String) : Prop :=
  (parseMultiaddr bootnode).isSome ∧ (parsePeerId (lastPart bootnode)).isSome

/-- A text that is the hex of a hash. -/
def DenotesHash (genesis : String) : Prop :=
  ∃ bytes, hexDecode (trimStartMatches genesis) = .ok bytes ∧ bytes.length = 32

/-- Where a text is hex at all, it is that of a hash. -/
def HashOrNoHex (genesis : String) : Prop :=
  ∀ bytes, hexDecode (trimStartMatches genesis) = .ok bytes → bytes.length = 32

/-- What comes of texts that are not as they should be is an error. -/
def FailsUnless {α : Type} (proper : Prop) (outcome : Build α) : Prop :=
  ¬proper → ∃ error, outcome = .failed error

variable {parseMultiaddr parsePeerId}

theorem parse_bootnode_readable (bootnode : String) :
    (parseBootnode parseMultiaddr parsePeerId bootnode).isSome ↔ Readable parseMultiaddr parsePeerId bootnode := by
  unfold parseBootnode Readable
  cases parseMultiaddr bootnode <;> cases parsePeerId (lastPart bootnode) <;> simp

/-- A list is read where each of its texts is. -/
theorem bootnodes_readable (bootnodes : List String) :
    (bootnodes.mapM (parseBootnode parseMultiaddr parsePeerId)).isSome ↔
      ∀ bootnode ∈ bootnodes, Readable parseMultiaddr parsePeerId bootnode := by
  induction bootnodes with
  | nil => simp
  | cons bootnode bootnodes ih =>
    have head := @parse_bootnode_readable _ parseMultiaddr parsePeerId bootnode
    rw [List.mapM_cons, List.forall_mem_cons, ← head, ← ih]
    cases parseBootnode parseMultiaddr parsePeerId bootnode <;>
      cases bootnodes.mapM (parseBootnode parseMultiaddr parsePeerId) <;> simp

/-- A decoder of hashes fails for what denotes none exactly if the text has the
size of a hash or is no hex. -/
theorem hash_decoded_iff {α : Type} {outcome : Build α} (genesis : String)
    (undecoded : ∀ error, hexDecode (trimStartMatches genesis) = .error error → outcome = .failed error)
    (missized : ∀ bytes, hexDecode (trimStartMatches genesis) = .ok bytes → bytes.length ≠ 32 → outcome = .panicked) :
    FailsUnless (DenotesHash genesis) outcome ↔ HashOrNoHex genesis := by
  unfold FailsUnless DenotesHash HashOrNoHex
  cases decoded : hexDecode (trimStartMatches genesis) with
  | error error =>
    refine iff_of_true (fun _ => ⟨error, undecoded error decoded⟩) nofun
  | ok bytes =>
    by_cases size : bytes.length = 32
    · simp [size]
    · have panicked := missized bytes decoded size
      simp [size, panicked]

theorem from_hex_genesis_iff (genesis : String) :
    FailsUnless (DenotesHash genesis) (fromHexGenesis genesis) ↔ HashOrNoHex genesis := by
  apply hash_decoded_iff
  · intro error decoded
    rw [fromHexGenesis, decoded]
  · intro bytes decoded size
    rw [fromHexGenesis, decoded]
    exact dif_neg size

theorem build_swarm_fails_iff (genesis : String) :
    FailsUnless (DenotesHash genesis) (buildSwarm genesis) ↔ HashOrNoHex genesis := by
  apply hash_decoded_iff
  · intro error decoded
    simp [buildSwarm, decoded]
  · intro bytes decoded size
    simp [buildSwarm, decoded, size]

theorem swarm_build_iff (genesis : String) (bootnodes : List String) :
    FailsUnless ((∀ bootnode ∈ bootnodes, Readable parseMultiaddr parsePeerId bootnode) ∧ DenotesHash genesis)
        (Swarm.build parseMultiaddr parsePeerId genesis bootnodes) ↔
      (∀ bootnode ∈ bootnodes, Readable parseMultiaddr parsePeerId bootnode) ∧ HashOrNoHex genesis := by
  have readable := @bootnodes_readable _ parseMultiaddr parsePeerId bootnodes
  rw [← readable, ← build_swarm_fails_iff, Swarm.build]
  cases bootnodes.mapM (parseBootnode parseMultiaddr parsePeerId) with
  | none => simp [FailsUnless]
  | some bootnodes => cases buildSwarm genesis <;> simp [FailsUnless]

/-- For all texts, those a node or a chain spec has on offer among them: what
they are built into is an error wherever one of them is not as it should be
exactly if all bootnodes are readable and the genesis is no hex of another
size. The handshake fails likewise. -/
theorem texts_fail_iff {PeerId : Type} (parseMultiaddr : String → Option (LibP2pMultiaddr PeerId))
    (parsePeerId : String → Option PeerId) :
    (∀ genesis bootnodes,
      FailsUnless ((∀ bootnode ∈ bootnodes, Readable parseMultiaddr parsePeerId bootnode) ∧ DenotesHash genesis)
          (Swarm.build parseMultiaddr parsePeerId genesis bootnodes) ↔
        (∀ bootnode ∈ bootnodes, Readable parseMultiaddr parsePeerId bootnode) ∧ HashOrNoHex genesis) ∧
    (∀ rpcUrl cliBootnodes answer download order resolved genesis,
      resolveBootnodes rpcUrl cliBootnodes answer download order = .ok resolved →
      (FailsUnless ((∀ bootnode, Offered rpcUrl cliBootnodes answer download bootnode →
            Readable parseMultiaddr parsePeerId bootnode) ∧ DenotesHash genesis)
          (Swarm.build parseMultiaddr parsePeerId genesis resolved) ↔
        (∀ bootnode, Offered rpcUrl cliBootnodes answer download bootnode →
          Readable parseMultiaddr parsePeerId bootnode) ∧ HashOrNoHex genesis)) ∧
    ∀ genesis, FailsUnless (DenotesHash genesis) (fromHexGenesis genesis) ↔ HashOrNoHex genesis := by
  refine ⟨swarm_build_iff, fun rpcUrl cliBootnodes answer download order resolved genesis done => ?_,
    from_hex_genesis_iff⟩
  have offered := resolved_offered done
  simp only [← offered]
  exact swarm_build_iff genesis resolved

/-- The second address without its peer. -/
def peerless : String := "/ip4/5.6.7.8/tcp/30333"

def parsePeerless (text : String) : Option (LibP2pMultiaddr String) :=
  if text = peerless then some (secondAddress.take 2) else none

/-- Of the texts at hand, those that are peer ids. -/
def parsePeer (text : String) : Option String := [firstPeer, secondPeer].find? (· = text)

/-- A node that hands out a bootnode without a peer stops the command that
asks it, and so does a genesis of one byte. -/
theorem peerless_bootnode_panics :
    (∀ download order, resolveBootnodes ⟨some "localhost", "/"⟩ []
      (.ok (.object [("bootNodes", .array [.string peerless])])) download order = .ok [peerless]) ∧
    lastPart peerless = "30333" ∧
    Swarm.build parsePeerless parsePeer zeroGenesis [peerless] = .panicked ∧
    ¬FailsUnless ((∀ bootnode ∈ [peerless], Readable parsePeerless parsePeer bootnode) ∧ DenotesHash zeroGenesis)
      (Swarm.build parsePeerless parsePeer zeroGenesis [peerless]) ∧
    Swarm.build parsePeerless parsePeer "00" [] = .panicked ∧
    fromHexGenesis "00" = .panicked ∧ ¬FailsUnless (DenotesHash "00") (fromHexGenesis "00") := by
  have last : lastPart peerless = "30333" := by
    decide +kernel
  have unread : [peerless].mapM (parseBootnode parsePeerless parsePeer) = none := by
    decide +kernel
  have decoded : hexDecode (trimStartMatches "00") = .ok [0] := by
    rfl
  have stopped : Swarm.build parsePeerless parsePeer zeroGenesis [peerless] = .panicked := by
    rw [Swarm.build, unread]
  have short : fromHexGenesis "00" = .panicked := by
    rw [fromHexGenesis, decoded]
    rfl
  have undetected : detectChainName ⟨some "localhost", "/"⟩ = none := by
    decide +kernel
  refine ⟨fun download order => ?_, last, stopped, ?_, ?_, short, ?_⟩
  · have served : fetchBootnodesFromRpc (.ok (.object [("bootNodes", .array [.string peerless])])) =
        .ok [peerless] := by
      rfl
    unfold resolveBootnodes
    rw [served]
    simp [Except.map, mergePublished, undetected]
  · intro fails
    obtain ⟨error, failed⟩ := fails fun proper => by
      have peer := (proper.1 peerless (List.mem_singleton.mpr rfl)).2
      rw [last] at peer
      revert peer
      decide +kernel
    cases stopped.symm.trans failed
  · simp [Swarm.build, buildSwarm, decoded]
  · intro fails
    obtain ⟨error, failed⟩ := fails fun denotes => by
      obtain ⟨bytes, same, size⟩ := denotes
      cases decoded.symm.trans same
      cases size
    cases short.symm.trans failed

end Building
end Subp2pExplorer.Network
