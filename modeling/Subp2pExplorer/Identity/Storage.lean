import Subp2pExplorer.Lib.Chunks
import Subp2pExplorer.Lib.Scale
import Subp2pExplorer.Authorities.Record
import Subp2pExplorer.Network.Genesis

/-! Values of chain storage, fetched by the texts of their keys. The keys go
out in chunks and what comes back is put together in one map; that map is the
storage itself at the keys asked for, in whatever order a node answers. -/
namespace Subp2pExplorer.Identity
open Lib Lib.Scale Authorities Network
open Notifications (hexEncode)

/-! ## Keys -/

/-- The hash libraries. -/
structure Hashers where
  xxHash64 : (seed : UInt64) → Bytes → UInt64
  blake2b16 : Bytes → Vector UInt8 16

/-- An account is 32 bytes, as a key is. -/
abbrev Account := PublicKey

section Keys
variable (hashers : Hashers)

def twox128 (data : Bytes) : Bytes :=
  leBytes 8 (hashers.xxHash64 0 data).toNat ++ leBytes 8 (hashers.xxHash64 1 data).toNat

def twox64 (data : Bytes) : Bytes := leBytes 8 (hashers.xxHash64 0 data).toNat

def blake2128 (data : Bytes) : Bytes := (hashers.blake2b16 data).toList

/-- `as_bytes`. -/
def asBytes (text : String) : Bytes := text.toList.flatMap String.utf8EncodeChar

def storageKeyTwox64concat (pallet item : String) (encodedKey : Bytes) : String :=
  "0x" ++ hexEncode (twox128 hashers (asBytes pallet) ++ twox128 hashers (asBytes item) ++
    twox64 hashers encodedKey ++ encodedKey)

def storageKeyBlake2128concat (pallet item : String) (encodedKey : Bytes) : String :=
  "0x" ++ hexEncode (twox128 hashers (asBytes pallet) ++ twox128 hashers (asBytes item) ++
    blake2128 hashers encodedKey ++ encodedKey)

/-- `Session::KeyOwner((KeyTypeId("audi"), authority_key))`: the four bytes of
"audi", then the key with its length. -/
def storageKeySessionKeyOwner (authorityKey : PublicKey) : String :=
  storageKeyTwox64concat hashers "Session" "KeyOwner"
    ([97, 117, 100, 105] ++ (encodeCompact authorityKey.bytes.length ++ authorityKey.bytes))

def storageKeyIdentityOf (account : Account) : String :=
  storageKeyTwox64concat hashers "Identity" "IdentityOf" account.bytes

def storageKeySuperOf (account : Account) : String :=
  storageKeyBlake2128concat hashers "Identity" "SuperOf" account.bytes

end Keys

/-! ## Requests -/

structure StorageChangeSet where
  changes : List (String × Option String)

/-- A connected client, by what it answers to `state_queryStorageAt`. -/
abbrev Client (ε : Type) := List String → Except ε (List StorageChangeSet)

/-- The entry of one change: a value that is present and decodes. -/
def decodeChange (change : String × Option String) : Option (String × Bytes) :=
  match change.2 with
  | none => none
  | some hexVal =>
    match hexDecode (trimStartMatches hexVal) with
    | .ok bytes => some (change.1, bytes)
    | .error _ => none

section Requests
variable {ε : Type}

/-- One chunk requested, its changes recorded. -/
def requestChunk (rpc : Client ε) (resultMap : Map String Bytes) (chunk : List String) :
    Except ε (Map String Bytes) := do
  let response ← rpc chunk
  return response.foldl (fun resultMap cs => .insertEach decodeChange resultMap cs.changes) resultMap

/-- `batch_get_storage`. -/
def batchGetStorage (rpc : Client ε) (keys : List String) : Except ε (Map String Bytes) :=
  if keys.isEmpty then .ok ∅
  else (chunks 500 keys).foldlM (requestChunk rpc) ∅

/-- What is stored under the text of a key. -/
abbrev ChainStorage := String → Option Bytes

/-- The value of a key as a node writes it. -/
def ChainStorage.answer (storage : ChainStorage) (key : String) : String × Option String :=
  (key, (storage key).map fun value => "0x" ++ hexEncode value)

/-- Every request succeeds and is answered with each requested key and its
value, in some order and grouping. -/
structure Serves (rpc : Client ε) (storage : ChainStorage) : Prop where
  answers : ∀ keys, ∃ response, rpc keys = .ok response ∧
    ∀ change, change ∈ response.flatMap StorageChangeSet.changes ↔ change ∈ keys.map storage.answer

variable {rpc : Client ε} {storage : ChainStorage}

theorem trim_prefixed (bytes : Bytes) : trimStartMatches ("0x" ++ hexEncode bytes) = hexEncode bytes := by
  have start : ("0x" ++ hexEncode bytes).toList = '0' :: 'x' :: (hexEncode bytes).toList := by
    rw [String.toList_append]
    rfl
  rw [trimStartMatches, start, trimStart, ← trimStartMatches, trim_hex_encode]

theorem decode_answer (key : String) :
    decodeChange (storage.answer key) = (storage key).map fun value => (key, value) := by
  cases stored : storage key with
  | none => simp [decodeChange, ChainStorage.answer, stored]
  | some value => simp [decodeChange, ChainStorage.answer, stored, trim_prefixed, hex_decode_encode]

/-- A node that answers in the order of the keys. -/
def respond (storage : ChainStorage) : Client ε := fun keys => .ok [⟨keys.map storage.answer⟩]

theorem respond_serves (storage : ChainStorage) : Serves (respond storage : Client ε) storage :=
  ⟨fun keys => ⟨_, rfl, fun change => by rw [List.flatMap_singleton]⟩⟩

/-- What the storage holds at some keys, as a map. -/
def ReadAt (storage : ChainStorage) (keys : List String) (values : Map String Bytes) : Prop :=
  ∀ key value, values.lookup key = some value ↔ key ∈ keys ∧ storage key = some value

theorem read_nothing : ReadAt storage [] ∅ := by
  intro key value
  simp

theorem record_changes (response : List StorageChangeSet) (resultMap : Map String Bytes) :
    response.foldl (fun resultMap cs => .insertEach decodeChange resultMap cs.changes) resultMap =
      .insertEach decodeChange resultMap (response.flatMap StorageChangeSet.changes) := by
  induction response generalizing resultMap with
  | nil => rfl
  | cons cs rest ih => rw [List.foldl_cons, ih, List.flatMap_cons, Finmap.insert_each_append]

/-- A chunk adds its keys to those that are read. -/
theorem request_chunk (serves : Serves rpc storage) {keys : List String} {resultMap : Map String Bytes}
    (read : ReadAt storage keys resultMap) (chunk : List String) :
    ∃ resultMap', requestChunk rpc resultMap chunk = .ok resultMap' ∧ ReadAt storage (keys ++ chunk) resultMap' := by
  obtain ⟨response, answered, exact⟩ := serves.answers chunk
  refine ⟨.insertEach decodeChange resultMap (response.flatMap StorageChangeSet.changes), ?_, ?_⟩
  · simp only [requestChunk, answered, bind, Except.bind, pure, Except.pure, record_changes]
  · have entry_iff : ∀ change ∈ response.flatMap StorageChangeSet.changes, ∀ key value,
        decodeChange change = some (key, value) → key ∈ chunk ∧ storage key = some value := by
      intro change member key value given
      obtain ⟨asked, requested, rfl⟩ := List.mem_map.mp ((exact change).mp member)
      rw [decode_answer] at given
      obtain ⟨_, stored, same⟩ := Option.map_eq_some_iff.mp given
      cases same
      exact ⟨requested, stored⟩
    intro key value
    rw [Finmap.lookup_insert_each (f := storage) (fun key value held => ((read key value).mp held).2)
      fun change member key value given => (entry_iff change member key value given).2]
    rw [read, List.mem_append]
    constructor
    · rintro (⟨earlier, stored⟩ | ⟨change, member, given⟩)
      · exact ⟨.inl earlier, stored⟩
      · obtain ⟨requested, stored⟩ := entry_iff change member key value given
        exact ⟨.inr requested, stored⟩
    · rintro ⟨earlier | requested, stored⟩
      · exact .inl ⟨earlier, stored⟩
      · refine .inr ⟨storage.answer key, (exact _).mpr (List.mem_map_of_mem requested), ?_⟩
        rw [decode_answer, stored, Option.map_some]

theorem request_chunks (serves : Serves rpc storage) (asked : List (List String)) {keys : List String}
    {resultMap : Map String Bytes} (read : ReadAt storage keys resultMap) :
    ∃ resultMap', asked.foldlM (requestChunk rpc) resultMap = .ok resultMap' ∧
      ReadAt storage (keys ++ asked.flatten) resultMap' := by
  induction asked generalizing keys resultMap with
  | nil => exact ⟨resultMap, rfl, by simpa using read⟩
  | cons chunk rest ih =>
    obtain ⟨next, requested, more⟩ := request_chunk serves read chunk
    obtain ⟨resultMap', requests, all⟩ := ih more
    refine ⟨resultMap', ?_, by simpa using all⟩
    rw [List.foldlM_cons, requested]
    exact requests

/-- The batch reads the storage at exactly the requested keys. -/
theorem batch_get_storage (serves : Serves rpc storage) (keys : List String) :
    ∃ values, batchGetStorage rpc keys = .ok values ∧
      ∀ key ∈ keys, values.lookup key = storage key := by
  obtain ⟨values, requested, read⟩ := request_chunks serves (chunks 500 keys) read_nothing
  rw [List.nil_append, chunks_flatten (by decide)] at read
  cases keys with
  | nil => exact ⟨∅, rfl, fun key member => nomatch member⟩
  | cons first rest =>
    refine ⟨values, requested, fun key member => Option.ext fun value => ?_⟩
    rw [read]
    exact and_iff_right member

end Requests
end Subp2pExplorer.Identity
