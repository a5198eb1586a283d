import Subp2pExplorer.Lib.Radix
import Subp2pExplorer.Lib.Varint
import Subp2pExplorer.Types.Multiaddr

/-! Peer ids of the core crate. A peer id is any multihash in the type; that it
is one of the two kinds a peer may have is checked by one constructor and
relied on by every infallible conversion. The byte form of multihashes, base58
and the third-party peer ids are parameters with what they document. -/
namespace Subp2pExplorer.Types
open Lib

/-- `Error` of the multihash module. -/
inductive MultihashError where
  | invalidSize (size : Nat)
  | unsupportedCode (code : UInt64)
  | other (text : String)
  deriving DecidableEq

/-- The byte form of multihashes. -/
structure MultihashCodec where
  toBytes : RawMultihash → List UInt8
  fromBytes : List UInt8 → Except MultihashError RawMultihash
  read_back : ∀ hash, fromBytes (toBytes hash) = .ok hash

structure Base58 where
  encode : List UInt8 → String
  decode : String → Option (List UInt8)
  read_back : ∀ bytes, decode (encode bytes) = some bytes

/-- The peer ids of another crate, read from the bytes of exactly those
multihashes that a peer may have. -/
structure ForeignPeerId (codec : MultihashCodec) (Peer : Type) where
  fromBytes : List UInt8 → Option Peer
  toBytes : Peer → List UInt8
  accepts_iff : ∀ bytes, (fromBytes bytes).isSome ↔ ∃ hash, codec.fromBytes bytes = .ok hash ∧ PeerMultihash hash
  accepts_own : ∀ peer, fromBytes (toBytes peer) = some peer

/-- `Code`, with the two codes that third-party multihashes know it by. -/
inductive Code where
  | identity
  | sha256
  deriving DecidableEq

def Code.tryFrom (code : UInt64) : Option Code :=
  if code = 0 then some .identity else if code = 0x12 then some .sha256 else none

/-- `MAX_INLINE_KEY_LENGTH` -/
def maxInlineKeyLength : Nat := 42

/-- `PeerId` of the core crate. -/
structure PeerId where
  multihash : Multihash
  deriving DecidableEq

/-- `ParseError` of a peer id. -/
inductive ParseError where
  | b58
  | unsupportedCode (code : UInt64)
  | invalidMultihash (error : MultihashError)
  deriving DecidableEq

def Protocol.isP2p : Protocol → Bool
  | .p2p _ => true
  | _ => false

namespace PeerId

/-- `random`, from the bytes drawn. The `expect` on the size is `wrap`'s. -/
def random (peer : Vector UInt8 32) : Option PeerId :=
  (RawMultihash.wrap 0 peer.toList).map fun multihash => ⟨.ofLiteP2p multihash⟩

/-- `try_from_multiaddr`: the first P2p component, as it is. -/
def tryFromMultiaddr (address : Multiaddr) : Option PeerId :=
  match address.iter.find? Protocol.isP2p with
  | some (.p2p multihash) => some ⟨multihash⟩
  | _ => none

def fromMultihash (multihash : Multihash) : Except Multihash PeerId :=
  match Code.tryFrom multihash.multihash.code with
  | some .sha256 => .ok ⟨multihash⟩
  | some .identity =>
    if multihash.multihash.digest.length ≤ maxInlineKeyLength then .ok ⟨multihash⟩ else .error multihash
  | none => .error multihash

section Bytes
variable (codec : MultihashCodec)

def fromBytes (data : List UInt8) : Except MultihashError PeerId :=
  match codec.fromBytes data with
  | .error error => .error error
  | .ok multihash =>
    (fromMultihash (.ofLiteP2p multihash)).mapError fun hash => .unsupportedCode hash.multihash.code

def toBytes (peer : PeerId) : List UInt8 := codec.toBytes peer.multihash.toLiteP2p

def toBase58 (base58 : Base58) (peer : PeerId) : String := base58.encode (peer.toBytes codec)

/-- `FromStr` -/
def fromStr (base58 : Base58) (s : String) : Except ParseError PeerId :=
  match base58.decode s with
  | none => .error .b58
  | some bytes => (fromBytes codec bytes).mapError .invalidMultihash

/-- From another crate's peer id, through its bytes; nothing where the `expect`
of the conversion panics. -/
def ofForeign {Peer : Type} (foreign : ForeignPeerId codec Peer) (peer : Peer) : Option PeerId :=
  match codec.fromBytes (foreign.toBytes peer) with
  | .ok multihash => some ⟨.ofLiteP2p multihash⟩
  | .error _ => none

/-- To another crate's peer id, through its bytes; nothing where the `expect`
of the conversion panics. -/
def toForeign {Peer : Type} (foreign : ForeignPeerId codec Peer) (peer : PeerId) : Option Peer :=
  foreign.fromBytes (peer.toBytes codec)

end Bytes

section Crates
variable (codec : MultihashCodec) {LibP2pPeerId LiteP2pPeerId : Type}
  (libp2p : ForeignPeerId codec LibP2pPeerId) (litep2p : ForeignPeerId codec LiteP2pPeerId)

def ofLibP2p (peer : LibP2pPeerId) : Option PeerId := ofForeign codec libp2p peer

def toLibP2p (peer : PeerId) : Option LibP2pPeerId := toForeign codec libp2p peer

def ofLiteP2p (peer : LiteP2pPeerId) : Option PeerId := ofForeign codec litep2p peer

def toLiteP2p (peer : PeerId) : Option LiteP2pPeerId := toForeign codec litep2p peer

/-- `from_ed25519`, through libp2p's peer id of the key. -/
def fromEd25519 (keyPeer : Vector UInt8 32 → Option LibP2pPeerId) (bytes : Vector UInt8 32) : Option PeerId :=
  (keyPeer bytes).bind (ofLibP2p codec libp2p)

end Crates

/-! ## Peer ids that are sound -/

/-- The multihash is one that `from_multihash` takes. -/
def Valid (peer : PeerId) : Prop := fromMultihash peer.multihash = .ok peer

theorem from_multihash_eq (multihash : Multihash) :
    fromMultihash multihash =
      if PeerMultihash multihash.toLibP2p then .ok ⟨multihash⟩ else .error multihash := by
  unfold fromMultihash Code.tryFrom PeerMultihash Multihash.toLibP2p maxInlineKeyLength
  by_cases identity : multihash.multihash.code = 0
  · simp [identity]
  · by_cases sha : multihash.multihash.code = 0x12 <;> simp [identity, sha]

theorem valid_iff (peer : PeerId) : peer.Valid ↔ PeerMultihash peer.multihash.toLibP2p := by
  rw [Valid, from_multihash_eq]
  split
  · rename_i valid
    exact ⟨fun _ => valid, fun _ => rfl⟩
  · rename_i invalid
    exact ⟨fun same => (nomatch same), fun valid => absurd valid invalid⟩

/-- What the crate's own functions rely on a peer id for. -/
structure Sound (codec : MultihashCodec) (base58 : Base58) {LibP2pPeerId LiteP2pPeerId : Type}
    (libp2p : ForeignPeerId codec LibP2pPeerId) (litep2p : ForeignPeerId codec LiteP2pPeerId)
    (peer : PeerId) : Prop where
  valid : peer.Valid
  bytes : fromBytes codec (peer.toBytes codec) = .ok peer
  text : fromStr codec base58 (peer.toBase58 codec base58) = .ok peer
  to_libp2p : (peer.toLibP2p codec libp2p).isSome
  to_litep2p : (peer.toLiteP2p codec litep2p).isSome

section Sound
variable (codec : MultihashCodec) (base58 : Base58) {LibP2pPeerId LiteP2pPeerId : Type}
  (libp2p : ForeignPeerId codec LibP2pPeerId) (litep2p : ForeignPeerId codec LiteP2pPeerId)

theorem from_bytes_written (peer : PeerId) (valid : peer.Valid) :
    fromBytes codec (peer.toBytes codec) = .ok peer := by
  have read := codec.read_back peer.multihash.toLiteP2p
  unfold fromBytes toBytes
  rw [read]
  dsimp only
  rw [Multihash.of_lite_to_lite, valid]
  rfl

theorem to_foreign_iff {Peer : Type} (foreign : ForeignPeerId codec Peer) (peer : PeerId) :
    (toForeign codec foreign peer).isSome ↔ peer.Valid := by
  rw [toForeign, foreign.accepts_iff, valid_iff, toBytes, codec.read_back]
  constructor
  · rintro ⟨hash, same, accepted⟩
    cases same
    exact accepted
  · exact fun accepted => ⟨_, rfl, accepted⟩

/-- A peer id is sound when its multihash is valid, and not otherwise. -/
theorem sound_iff_valid (peer : PeerId) : peer.Sound codec base58 libp2p litep2p ↔ peer.Valid := by
  constructor
  · exact fun sound => sound.valid
  · intro valid
    have bytes := from_bytes_written codec peer valid
    refine ⟨valid, bytes, ?_, (to_foreign_iff codec libp2p peer).mpr valid,
      (to_foreign_iff codec litep2p peer).mpr valid⟩
    rw [fromStr, toBase58, base58.read_back]
    dsimp only
    rw [bytes]
    rfl

theorem from_multihash_valid (multihash : Multihash) (peer : PeerId)
    (built : fromMultihash multihash = .ok peer) : peer.Valid := by
  have same := built
  rw [from_multihash_eq] at same
  split at same
  · cases same
    exact built
  · cases same

theorem from_bytes_valid (data : List UInt8) (peer : PeerId) (built : fromBytes codec data = .ok peer) :
    peer.Valid := by
  unfold fromBytes at built
  split at built
  · cases built
  · rename_i multihash read
    cases accepted : fromMultihash (.ofLiteP2p multihash) with
    | error hash =>
      rw [accepted] at built
      cases built
    | ok built' =>
      rw [accepted] at built
      cases built
      exact from_multihash_valid _ _ accepted

theorem from_str_valid (s : String) (peer : PeerId) (built : fromStr codec base58 s = .ok peer) :
    peer.Valid := by
  unfold fromStr at built
  split at built
  · cases built
  · rename_i bytes read
    cases accepted : fromBytes codec bytes with
    | error error =>
      rw [accepted] at built
      cases built
    | ok parsed =>
      rw [accepted] at built
      cases built
      exact from_bytes_valid codec bytes _ accepted

theorem random_valid (bytes : Vector UInt8 32) (peer : PeerId) (built : random bytes = some peer) :
    peer.Valid := by
  have room : bytes.toList.length ≤ 64 := by simp
  rw [random, RawMultihash.wrap, dif_pos room] at built
  cases built
  rw [valid_iff]
  exact .inr ⟨rfl, by simp [Multihash.toLibP2p, Multihash.ofLiteP2p]⟩

/-- The `expect` on the bytes of another crate's peer id holds, and so does
what that crate checked. -/
theorem of_foreign_valid {Peer : Type} (foreign : ForeignPeerId codec Peer) (theirs : Peer) :
    ∃ peer, ofForeign codec foreign theirs = some peer ∧ peer.Valid := by
  have accepted := (foreign.accepts_iff (foreign.toBytes theirs)).mp (by rw [foreign.accepts_own]; rfl)
  obtain ⟨hash, read, valid⟩ := accepted
  refine ⟨⟨.ofLiteP2p hash⟩, ?_, (valid_iff _).mpr valid⟩
  unfold ofForeign
  rw [read]

/-- The first P2p component of an address. -/
def FirstP2p (address : Multiaddr) (multihash : Multihash) : Prop :=
  ∃ before after, address.iter = before ++ .p2p multihash :: after ∧ ∀ p ∈ before, p.isP2p = false

theorem try_from_multiaddr_iff (address : Multiaddr) (peer : PeerId) :
    tryFromMultiaddr address = some peer ↔ FirstP2p address peer.multihash := by
  unfold tryFromMultiaddr FirstP2p
  constructor
  · intro found
    split at found
    · rename_i multihash first
      cases found
      obtain ⟨-, before, after, split, others⟩ := List.find?_eq_some_iff_append.mp first
      exact ⟨before, after, split, fun p member => by simpa using others p member⟩
    · cases found
  · rintro ⟨before, after, split, others⟩
    have first : address.iter.find? Protocol.isP2p = some (.p2p peer.multihash) :=
      List.find?_eq_some_iff_append.mpr
        ⟨rfl, before, after, split, fun p member => by simpa using others p member⟩
    rw [first]

end Sound

end PeerId

/-- The ways to come by a peer id, with what each is given. -/
inductive Construction (LibP2pPeerId LiteP2pPeerId : Type) where
  | random (bytes : Vector UInt8 32)
  | tryFromMultiaddr (address : Multiaddr)
  | fromMultihash (multihash : Multihash)
  | fromBytes (data : List UInt8)
  | fromStr (s : String)
  | ofLibP2p (peer : LibP2pPeerId)
  | ofLiteP2p (peer : LiteP2pPeerId)
  | fromEd25519 (bytes : Vector UInt8 32)

private theorem of_to_option {ε α : Type} {result : Except ε α} {a : α} (kept : result.toOption = some a) :
    result = .ok a := by
  cases result with
  | error error => cases kept
  | ok b =>
    cases kept
    rfl

namespace Construction
variable (codec : MultihashCodec) (base58 : Base58) {LibP2pPeerId LiteP2pPeerId : Type}
  (libp2p : ForeignPeerId codec LibP2pPeerId) (litep2p : ForeignPeerId codec LiteP2pPeerId)
  (keyPeer : Vector UInt8 32 → Option LibP2pPeerId)

/-- The peer id that comes of it, if one does. -/
def result : Construction LibP2pPeerId LiteP2pPeerId → Option PeerId
  | random bytes => PeerId.random bytes
  | tryFromMultiaddr address => PeerId.tryFromMultiaddr address
  | fromMultihash multihash => (PeerId.fromMultihash multihash).toOption
  | fromBytes data => (PeerId.fromBytes codec data).toOption
  | fromStr s => (PeerId.fromStr codec base58 s).toOption
  | ofLibP2p peer => PeerId.ofLibP2p codec libp2p peer
  | ofLiteP2p peer => PeerId.ofLiteP2p codec litep2p peer
  | fromEd25519 bytes => PeerId.fromEd25519 codec libp2p keyPeer bytes

/-- Every way checks the multihash but one, which needs an address whose first
P2p component holds a peer's. -/
def Checked : Construction LibP2pPeerId LiteP2pPeerId → Prop
  | tryFromMultiaddr address => ∀ multihash, PeerId.FirstP2p address multihash → PeerMultihash multihash.toLibP2p
  | _ => True

/-- A peer id that was come by is sound exactly when its multihash was
checked, be it by an address naming a real peer first. -/
theorem sound_iff_checked (construction : Construction LibP2pPeerId LiteP2pPeerId) (peer : PeerId)
    (built : construction.result codec base58 libp2p litep2p keyPeer = some peer) :
    peer.Sound codec base58 libp2p litep2p ↔ construction.Checked := by
  rw [PeerId.sound_iff_valid]
  cases construction with
  | tryFromMultiaddr address =>
    have first := (PeerId.try_from_multiaddr_iff address peer).mp built
    rw [PeerId.valid_iff]
    constructor
    · intro valid multihash other
      have same := (PeerId.try_from_multiaddr_iff address ⟨multihash⟩).mpr other
      rw [show PeerId.tryFromMultiaddr address = some peer from built] at same
      cases same
      exact valid
    · exact fun checked => checked peer.multihash first
  | random bytes => exact iff_of_true (PeerId.random_valid bytes peer built) trivial
  | fromMultihash multihash =>
    exact iff_of_true (PeerId.from_multihash_valid multihash peer (of_to_option built)) trivial
  | fromBytes data =>
    exact iff_of_true (PeerId.from_bytes_valid codec data peer (of_to_option built)) trivial
  | fromStr s =>
    exact iff_of_true (PeerId.from_str_valid codec base58 s peer (of_to_option built)) trivial
  | ofLibP2p theirs =>
    obtain ⟨ours, converted, valid⟩ := PeerId.of_foreign_valid codec libp2p theirs
    cases converted.symm.trans built
    exact iff_of_true valid trivial
  | ofLiteP2p theirs =>
    obtain ⟨ours, converted, valid⟩ := PeerId.of_foreign_valid codec litep2p theirs
    cases converted.symm.trans built
    exact iff_of_true valid trivial
  | fromEd25519 bytes =>
    obtain ⟨theirs, -, kept⟩ := Option.bind_eq_some_iff.mp built
    obtain ⟨ours, converted, valid⟩ := PeerId.of_foreign_valid codec libp2p theirs
    cases converted.symm.trans kept
    exact iff_of_true valid trivial

end Construction

/-! ## A codec of bytes and text -/

/-- Code and size as variable-length integers, then the digest. -/
def MultihashCodec.reference : MultihashCodec where
  toBytes hash := Varint.encode 10 hash.code.toNat ++ (Varint.encode 10 hash.digest.length ++ hash.digest)
  fromBytes bytes :=
    match Varint.read 10 [bytes] with
    | none => .error (.other "code")
    | some (code, left) =>
      match Varint.read 10 left with
      | none => .error (.other "size")
      | some (size, left) =>
        if fits : left.flatten.length ≤ 64 ∧ left.flatten.length = size then
          .ok ⟨UInt64.ofNat code, left.flatten, fits.1⟩
        else .error (.invalidSize size)
  read_back hash := by
    have code : hash.code.toNat < 128 ^ 10 := Nat.lt_trans hash.code.toNat_lt (by decide)
    have short := hash.size_le
    obtain ⟨after, codeRead, sized⟩ := Varint.read_encoded 10 hash.code.toNat (by decide) code
      [Varint.encode 10 hash.code.toNat ++ (Varint.encode 10 hash.digest.length ++ hash.digest)]
      (Varint.encode 10 hash.digest.length ++ hash.digest) (by simp)
    obtain ⟨digest, sizeRead, left⟩ := Varint.read_encoded 10 hash.digest.length (by decide) (by omega) after
      hash.digest sized
    simp only [codeRead, sizeRead, left, UInt64.ofNat_toNat, short, and_self, dite_true]

/-- The digits of base58, without the letters that look like others. -/
def base58Alphabet : List Char :=
  "123456789ABCDEFGHJKLMNPQRSTUVWXYZabcdefghijkmnopqrstuvwxyz".toList

def base58Digit (c : Char) : Option Nat :=
  if base58Alphabet.idxOf c < 58 then some (base58Alphabet.idxOf c) else none

theorem base58_digit_back (d : Nat) (small : d < 58) : base58Digit (base58Alphabet.getD d '1') = some d := by
  have all : ∀ d < 58, base58Digit (base58Alphabet.getD d '1') = some d := by decide +kernel
  exact all d small

private theorem map_back {α β : Type} {write : α → β} {read : β → Option α} (items : List α)
    (back : ∀ a ∈ items, read (write a) = some a) : (items.map write).mapM read = some items := by
  induction items with
  | nil => rfl
  | cons a items ih =>
    have first := back a List.mem_cons_self
    have others := ih fun b member => back b (List.mem_cons_of_mem _ member)
    rw [List.map_cons, List.mapM_cons, first, others]
    rfl

def Base58.reference : Base58 where
  encode bytes :=
    String.ofList ((Radix.rebase 256 58 (bytes.map UInt8.toNat)).map fun d => base58Alphabet.getD d '1')
  decode s := (s.toList.mapM base58Digit).map fun digits => (Radix.rebase 58 256 digits).map UInt8.ofNat
  read_back bytes := by
    have digits : ((Radix.rebase 256 58 (bytes.map UInt8.toNat)).map fun d =>
        base58Alphabet.getD d '1').mapM base58Digit = some (Radix.rebase 256 58 (bytes.map UInt8.toNat)) :=
      map_back _ fun d member => base58_digit_back d (Radix.rebase_small 256 58 (by decide) _ d member)
    have small : ∀ d ∈ bytes.map UInt8.toNat, d < 256 := by
      intro d member
      obtain ⟨b, -, rfl⟩ := List.mem_map.mp member
      exact b.toNat_lt
    rw [String.toList_ofList, digits, Option.map_some, Radix.rebase_back 256 58 (by decide) _ small,
      List.map_map]
    simp [Function.comp_def]

/-- Another crate's peer ids as the documented subset of multihashes. -/
def ForeignPeerId.documented (codec : MultihashCodec) :
    ForeignPeerId codec { hash : RawMultihash // PeerMultihash hash } where
  fromBytes bytes :=
    match codec.fromBytes bytes with
    | .ok hash => if valid : PeerMultihash hash then some ⟨hash, valid⟩ else none
    | .error _ => none
  toBytes peer := codec.toBytes peer.val
  accepts_iff bytes := by
    cases read : codec.fromBytes bytes with
    | error error => simp
    | ok hash => by_cases valid : PeerMultihash hash <;> simp [valid]
  accepts_own peer := by simp [codec.read_back, peer.property]

def localhost : Ipv4Addr := #v[127, 0, 0, 1]

namespace Construction

/-- A multihash of SHA-1, which no peer has. -/
def sha1Multihash : Multihash := ⟨⟨0x11, List.replicate 20 7, by decide⟩⟩

/-- An address as it may be read off the network, its P2p component unchecked. -/
def sha1Address : Multiaddr := Multiaddr.fromIter [.ip4 localhost, .tcp 30333, .p2p sha1Multihash]

def inlineMultihash : Multihash := ⟨⟨0, List.replicate 36 8, by decide⟩⟩

def inlineAddress : Multiaddr := Multiaddr.fromIter [.ip4 localhost, .tcp 30333, .p2p inlineMultihash]

/-- The peer id of an ordinary address is sound. -/
theorem inline_address_sound :
    (PeerId.mk inlineMultihash).Sound .reference .reference (.documented _) (.documented _) := by
  refine (sound_iff_checked .reference .reference (.documented _) (.documented _) (fun _ => none)
    (.tryFromMultiaddr inlineAddress) ⟨inlineMultihash⟩ (by decide)).mpr ?_
  intro multihash first
  have found := (PeerId.try_from_multiaddr_iff inlineAddress ⟨multihash⟩).mpr first
  have same : PeerId.tryFromMultiaddr inlineAddress = some ⟨inlineMultihash⟩ := by decide
  cases same.symm.trans found
  decide

/-- The unchecked constructor hands out what `from_multihash` refuses: its bytes
do not read back, and both infallible conversions panic. -/
theorem sha1_peer_unsound :
    let peer : PeerId := ⟨sha1Multihash⟩
    (tryFromMultiaddr sha1Address).result .reference .reference (.documented _) (.documented _) (fun _ => none) =
        some peer ∧
      ¬ peer.Valid ∧
      PeerId.fromBytes .reference (peer.toBytes .reference) = .error (.unsupportedCode 0x11) ∧
      peer.toLibP2p .reference (.documented _) = none ∧ peer.toLiteP2p .reference (.documented _) = none := by
  refine ⟨by decide, ?_, by decide, by decide, by decide⟩
  rw [PeerId.valid_iff]
  decide

end Construction

end Subp2pExplorer.Types
