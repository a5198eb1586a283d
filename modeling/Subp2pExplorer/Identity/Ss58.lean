import Subp2pExplorer.Authorities.Record
import Subp2pExplorer.Types.PeerId

/-! Keys as they are shown: the SS58 text of a key under the format of a
chain. The text says both: which format, of its 14 bits, and which key. -/
namespace Subp2pExplorer.Identity
open Authorities

/-- The libraries behind the text: the hash and the base 58 digits. -/
structure Ss58Codec where
  blake2b512 : Bytes → Bytes
  base58 : Bytes → String

/-- `ss58hash`, over the bytes of "SS58PRE". -/
def ss58hash (codec : Ss58Codec) (data : Bytes) : Bytes :=
  codec.blake2b512 ([83, 83, 53, 56, 80, 82, 69] ++ data)

/-- The format as one byte or two, of which only 14 bits are used. -/
def ss58Prefix (version : UInt16) : Bytes :=
  let ident := version &&& 0b0011111111111111
  if ident < 64 then [ident.toUInt8]
  else
    let first := (ident &&& 0b0000000011111100).toUInt8 >>> 2
    let second := (ident >>> 8).toUInt8 ||| (ident &&& 0b0000000000000011).toUInt8 <<< 6
    [first ||| 0b01000000, second]

/-- `to_ss58`. -/
def toSs58 (codec : Ss58Codec) (key : PublicKey) (version : UInt16) : String :=
  let v := ss58Prefix version ++ key.bytes
  codec.base58 (v ++ (ss58hash codec v).take 2)

section Decoding

/-- The match over the masked format; its last arm is `unreachable!`. -/
def identPrefix (ident : UInt16) : Option Bytes :=
  if ident ≤ 63 then some [ident.toUInt8]
  else if ident ≤ 16383 then
    let first := (ident &&& 0b0000000011111100).toUInt8 >>> 2
    let second := (ident >>> 8).toUInt8 ||| (ident &&& 0b0000000000000011).toUInt8 <<< 6
    some [first ||| 0b01000000, second]
  else none

/-- The format at the front of a text, and what stands behind it. The first
byte tells which form it has. -/
def readPrefix : Bytes → Option (UInt16 × Bytes)
  | [] => none
  | first :: rest =>
    if first < 64 then some (first.toUInt16, rest)
    else match rest with
      | [] => none
      | second :: rest =>
        some (.ofNat (first.toNat % 64 * 4 + second.toNat / 64 + second.toNat % 64 * 256), rest)

/-- The format and the key of an address that ends with its checksum. -/
def readSs58 (codec : Ss58Codec) (address : Bytes) : Option (UInt16 × PublicKey) :=
  let payload := address.take (address.length - 2)
  match readPrefix payload with
  | none => none
  | some (version, key) =>
    if size : key.length = 32 then
      if address.drop (address.length - 2) = (ss58hash codec payload).take 2 then some (version, ⟨key, size⟩) else none
    else none

theorem masked_value (version : UInt16) : (version &&& 0b0011111111111111).toNat = version.toNat % 16384 := by
  rw [UInt16.toNat_and]
  exact Nat.and_two_pow_sub_one_eq_mod version.toNat 14

/-- The bits two to seven of a number. -/
theorem middle_bits (n : Nat) : (n &&& 252) / 4 = n / 4 % 64 := by
  have split : (n &&& 252) >>> 2 = n >>> 2 &&& 252 >>> 2 := Nat.shiftRight_and_distrib
  have mask : n >>> 2 &&& 252 >>> 2 = n >>> 2 % 64 := Nat.and_two_pow_sub_one_eq_mod (n >>> 2) 6
  have halved := split.trans mask
  rwa [Nat.shiftRight_eq_div_pow, Nat.shiftRight_eq_div_pow] at halved

/-- The upper six bits of the lower byte, behind the mark of the two-byte form. -/
theorem first_value (ident : UInt16) :
    ((ident &&& 0b0000000011111100).toUInt8 >>> 2 ||| 0b01000000).toNat = 64 + ident.toNat / 4 % 64 := by
  have bits : (ident.toNat % 256 &&& 252) / 4 = ident.toNat / 4 % 64 := by
    rw [middle_bits]
    omega
  have joined : 64 + ident.toNat / 4 % 64 = 64 ||| ident.toNat / 4 % 64 :=
    Nat.two_pow_add_eq_or_of_lt (i := 6) (Nat.mod_lt _ (by omega)) 1
  rw [joined, Nat.or_comm]
  simp [Nat.shiftRight_eq_div_pow, bits]

/-- The lower two bits in the high position, the upper byte in the low one. -/
theorem second_value {ident : UInt16} (narrow : ident.toNat < 16384) :
    ((ident >>> 8).toUInt8 ||| (ident &&& 0b0000000000000011).toUInt8 <<< 6).toNat =
      ident.toNat % 4 * 64 + ident.toNat / 256 := by
  have mask : ident.toNat % 256 &&& 3 = ident.toNat % 256 % 4 := Nat.and_two_pow_sub_one_eq_mod _ 2
  have joined : ident.toNat % 4 * 64 + ident.toNat / 256 = ident.toNat % 4 * 64 ||| ident.toNat / 256 := by
    have small : ident.toNat / 256 < 2 ^ 6 := by omega
    simpa [Nat.shiftLeft_eq] using Nat.shiftLeft_add_eq_or_of_lt small (ident.toNat % 4)
  have low : ident.toNat % 4 * 64 % 256 = ident.toNat % 4 * 64 := by omega
  have high : ident.toNat / 256 % 256 = ident.toNat / 256 := by omega
  rw [joined, Nat.or_comm]
  simp [Nat.shiftRight_eq_div_pow, Nat.shiftLeft_eq, mask, low, high]
theorem ident_prefix_masked (version : UInt16) :
    identPrefix (version &&& 0b0011111111111111) = some (ss58Prefix version) := by
  have narrow : (version &&& 0b0011111111111111) ≤ 16383 := by
    rw [UInt16.le_iff_toNat_le, masked_value]
    exact Nat.le_of_lt_succ (Nat.mod_lt _ (by decide))
  unfold identPrefix ss58Prefix
  rw [if_pos narrow]
  have bound : (version &&& 0b0011111111111111) ≤ 63 ↔ (version &&& 0b0011111111111111) < 64 := by
    rw [UInt16.le_iff_toNat_le, UInt16.lt_iff_toNat_lt]
    exact Nat.lt_succ_iff.symm
  by_cases short : (version &&& 0b0011111111111111) < 64
  · rw [if_pos (bound.mpr short)]
    exact (congrArg some (if_pos short)).symm
  · rw [if_neg (mt bound.mp short)]
    exact (congrArg some (if_neg short)).symm

/-- Whatever is appended to it, a format is read back with its 14 bits. -/
theorem read_prefix_written (version : UInt16) (rest : Bytes) :
    readPrefix (ss58Prefix version ++ rest) = some (version &&& 0b0011111111111111, rest) := by
  have narrow : (version &&& 0b0011111111111111).toNat < 16384 := by
    rw [masked_value]
    exact Nat.mod_lt _ (by decide)
  unfold ss58Prefix
  generalize version &&& 0b0011111111111111 = ident at narrow
  by_cases short : ident < 64
  · have byte : ident.toNat < 64 := UInt16.lt_iff_toNat_lt.mp short
    have small : ident.toUInt8 < 64 := by
      rw [UInt8.lt_iff_toNat_lt, UInt16.toNat_toUInt8]
      show ident.toNat % 256 < 64
      omega
    have back : ident.toUInt8.toUInt16 = ident := by
      apply UInt16.toNat_inj.mp
      simp
      omega
    simp [short, readPrefix, small, back]
  · have first := first_value ident
    have second := second_value narrow
    have large : ¬(ident &&& 0b0000000011111100).toUInt8 >>> 2 ||| 0b01000000 < 64 := by
      rw [UInt8.lt_iff_toNat_lt, first]
      show ¬64 + ident.toNat / 4 % 64 < 64
      omega
    have upper : ident.toNat / 4 / 64 = ident.toNat / 256 := Nat.div_div_eq_div_mul _ 4 64
    have high : ident.toNat / 256 < 64 := by omega
    have middle : (64 + ident.toNat / 4 % 64) % 64 = ident.toNat / 4 % 64 := by omega
    have low : (ident.toNat % 4 * 64 + ident.toNat / 256) / 64 = ident.toNat % 4 := by omega
    have top : (ident.toNat % 4 * 64 + ident.toNat / 256) % 64 = ident.toNat / 256 := by omega
    have value : ident.toNat / 4 % 64 * 4 + ident.toNat % 4 + ident.toNat / 256 * 256 = ident.toNat := by omega
    simp only [short, if_false, List.cons_append, List.nil_append, readPrefix, large, first, second, middle,
      low, top, value, UInt16.ofNat_toNat]

/-- Where the hash has its two bytes, an address is read back. -/
theorem read_ss58_written (codec : Ss58Codec) (sized : ∀ data, 2 ≤ (codec.blake2b512 data).length)
    (key : PublicKey) (version : UInt16) :
    readSs58 codec (ss58Prefix version ++ key.bytes ++ (ss58hash codec (ss58Prefix version ++ key.bytes)).take 2) =
      some (version &&& 0b0011111111111111, key) := by
  generalize payload : ss58Prefix version ++ key.bytes = v
  have check : ((ss58hash codec v).take 2).length = 2 := by
    have enough : 2 ≤ (ss58hash codec v).length := sized _
    rw [List.length_take, Nat.min_eq_left enough]
  have front : (v ++ (ss58hash codec v).take 2).length - 2 = v.length := by
    rw [List.length_append, check]
    exact Nat.add_sub_cancel _ _
  unfold readSs58
  rw [front, List.take_left, List.drop_left]
  have read := read_prefix_written version key.bytes
  rw [payload] at read
  simp [read, key.size]

/-- For every key and every version there is the text of one format, of 14
bits, and one key. -/
theorem ss58_decodable (codec : Ss58Codec) (injective : Function.Injective codec.base58)
    (sized : ∀ data, 2 ≤ (codec.blake2b512 data).length) :
    (∃ decode : String → Option (UInt16 × PublicKey), ∀ key version,
      decode (toSs58 codec key version) = some (version &&& 0b0011111111111111, key)) ∧
    (∀ key key' version version', toSs58 codec key version = toSs58 codec key' version' →
      key = key' ∧ version &&& 0b0011111111111111 = version' &&& 0b0011111111111111) ∧
    (∀ version version' rest rest', ss58Prefix version ++ rest = ss58Prefix version' ++ rest' →
      ss58Prefix version = ss58Prefix version' ∧ rest = rest') ∧
    ∀ version : UInt16, identPrefix (version &&& 0b0011111111111111) = some (ss58Prefix version) := by
  have decoded : ∀ key version, (Function.partialInv codec.base58 (toSs58 codec key version)).bind (readSs58 codec) =
      some (version &&& 0b0011111111111111, key) := by
    intro key version
    unfold toSs58
    rw [Function.partialInv_left injective, Option.bind_some]
    exact read_ss58_written codec sized key version
  refine ⟨⟨fun text => (Function.partialInv codec.base58 text).bind (readSs58 codec), decoded⟩,
    fun key key' version version' same => ?_, fun version version' rest rest' same => ?_, ident_prefix_masked⟩
  · have both := decoded key version
    rw [same, decoded key' version'] at both
    obtain ⟨format, keys⟩ := Prod.mk.inj (Option.some.inj both)
    exact ⟨keys.symm, format.symm⟩
  · have both := read_prefix_written version rest
    rw [same, read_prefix_written version' rest'] at both
    obtain ⟨-, rests⟩ := Prod.mk.inj (Option.some.inj both)
    subst rests
    exact ⟨List.append_cancel_right same, rfl⟩

/-- The digest of the zero key under the format 42. -/
def zeroDigest : Bytes :=
  [166, 0, 195, 203, 62, 32, 87, 0, 198, 98, 232, 95, 119, 130, 193, 225, 227, 139, 37, 175, 232, 110, 230, 92, 173,
    236, 188, 144, 71, 11, 125, 173, 112, 17, 109, 251, 173, 215, 54, 196, 125, 31, 52, 253, 92, 54, 3, 225, 129, 183,
    89, 252, 4, 109, 86, 129, 61, 40, 189, 51, 139, 66, 152, 169]

/-- The digits of base 58, and a hash that knows the digest of one address. -/
def Ss58Codec.reference : Ss58Codec where
  blake2b512 data :=
    if data = [83, 83, 53, 56, 80, 82, 69, 42] ++ List.replicate 32 0 then zeroDigest else List.replicate 64 0
  base58 := Types.Base58.reference.encode

theorem zero_key_decoded :
    toSs58 .reference (numberedKey 0) 42 = "5C4hrfjw9DjXZTzV3MwzrrAr9P1MJhSrvWGWqi1eSuyUpnhM" ∧
    ∃ decode : String → Option (UInt16 × PublicKey),
      decode (toSs58 .reference (numberedKey 0) 42) = some (42, numberedKey 0) := by
  have injective : Function.Injective Ss58Codec.reference.base58 := by
    intro bytes bytes' same
    have both := (Types.Base58.reference.read_back bytes).symm.trans
      ((congrArg _ same).trans (Types.Base58.reference.read_back bytes'))
    exact Option.some.inj both
  have sized : ∀ data, 2 ≤ (Ss58Codec.reference.blake2b512 data).length := by
    intro data
    unfold Ss58Codec.reference
    dsimp only
    split <;> simp [zeroDigest]
  obtain ⟨decode, decoded⟩ := (ss58_decodable .reference injective sized).1
  exact ⟨by decide +kernel, decode, decoded (numberedKey 0) 42⟩

end Decoding

end Subp2pExplorer.Identity
