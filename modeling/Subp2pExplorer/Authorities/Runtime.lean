import Subp2pExplorer.Authorities.Record
import Subp2pExplorer.Lib.Scale
import Subp2pExplorer.Network.Genesis

/-! The authorities of a chain, as the runtime of a node answers them: a list of
keys in SCALE, in hex digits behind "0x". Which answers are taken, and as which
list, follows from the two formats; what follows the list is not looked at. -/
namespace Subp2pExplorer.Authorities
open Lib Lib.Scale Subp2pExplorer.Network Notifications

section Digits

/-- The hex digits of bytes. -/
def digits (bytes : Bytes) : List Char :=
  bytes.flatMap fun byte => [Nat.digitChar (byte.toNat / 16), Nat.digitChar (byte.toNat % 16)]

private theorem ascii_value : ∀ n : Fin 128, ∀ value : Fin 16,
    (hexVal n.val.toUInt8 0).toOption = some value.val.toUInt8 ↔ (Char.ofNat n.val).toLower = Nat.digitChar value.val := by
  decide +kernel

private theorem value_range : ∀ n : Fin 256, ∀ value ∈ (hexVal n.val.toUInt8 0).toOption, n.val < 128 ∧ value.toNat < 16 := by
  decide +kernel

private theorem joined_digits : ∀ high low : Fin 16,
    (high.val.toUInt8 <<< 4 ||| low.val.toUInt8).toNat = 16 * high.val + low.val := by
  decide +kernel

private theorem digit_ascii : ∀ value : Fin 16, (Nat.digitChar value.val).toNat < 128 := by
  decide

/-- Only the error of a digit depends on its place. -/
theorem hex_val_ok {c value : UInt8} {index : Nat} :
    hexVal c index = .ok value ↔ (hexVal c 0).toOption = some value := by
  unfold hexVal
  split_ifs <;> simp [Except.toOption]

/-- A digit is a byte of ASCII, with a value below 16. -/
theorem hex_val_range {c value : UInt8} {index : Nat} (read : hexVal c index = .ok value) :
    c.toNat < 128 ∧ value.toNat < 16 := by
  have range := value_range ⟨c.toNat, c.toNat_lt⟩ value
  simp only [Nat.toUInt8_eq, UInt8.ofNat_toNat] at range
  exact range (hex_val_ok.mp read)

/-- A digit is read in upper and in lower case. -/
theorem hex_val_iff {c : Char} (ascii : c.toNat < 128) {index value : Nat} (small : value < 16) :
    hexVal c.toNat.toUInt8 index = .ok value.toUInt8 ↔ c.toLower = Nat.digitChar value := by
  rw [hex_val_ok, ascii_value ⟨c.toNat, ascii⟩ ⟨value, small⟩, Char.ofNat_toNat]

theorem ascii_bytes {c : Char} (ascii : c.toNat < 128) : String.utf8EncodeChar c = [c.toNat.toUInt8] :=
  if_pos (Nat.le_of_lt_succ ascii)

theorem wide_bytes {c : Char} (wide : 128 ≤ c.toNat) :
    ∃ byte ∈ String.utf8EncodeChar c, 128 ≤ byte.toNat := by
  have outside : ¬ c.val.toNat ≤ 127 := Nat.not_le.mpr wide
  unfold String.utf8EncodeChar
  dsimp only
  rw [if_neg outside]
  split_ifs
  all_goals
    refine ⟨_, List.mem_cons_self, ?_⟩
    simp only [UInt8.toNat_ofNat']
    omega

theorem hex_pairs_cons {high low : UInt8} {rest bytes : Bytes} {index : Nat} :
    hexPairs index (high :: low :: rest) = .ok bytes ↔ ∃ upper lower tail, hexVal high index = .ok upper ∧
      hexVal low (index + 1) = .ok lower ∧ hexPairs (index + 2) rest = .ok tail ∧
      bytes = (upper <<< 4 ||| lower) :: tail := by
  rw [hexPairs]
  constructor
  · intro read
    cases upper : hexVal high index with
    | error e =>
      rw [upper] at read
      cases read
    | ok upper' =>
      cases lower : hexVal low (index + 1) with
      | error e =>
        rw [upper, lower] at read
        cases read
      | ok lower' =>
        cases tail : hexPairs (index + 2) rest with
        | error e =>
          rw [upper, lower, tail] at read
          cases read
        | ok tail' =>
          rw [upper, lower, tail] at read
          exact ⟨upper', lower', tail', rfl, rfl, rfl, (Except.ok.inj read).symm⟩
  · rintro ⟨upper, lower, tail, first, second, others, rfl⟩
    rw [first, second, others]
    rfl

theorem hex_pairs_ascii : ∀ {text bytes : Bytes} {index : Nat}, text.length % 2 = 0 →
    hexPairs index text = .ok bytes → ∀ byte ∈ text, byte.toNat < 128
  | [], _, _, _, _ => by simp
  | [_], _, _, even, _ => by cases even
  | high :: low :: rest, bytes, index, even, read => by
    obtain ⟨upper, lower, tail, first, second, others, _⟩ := hex_pairs_cons.mp read
    have shorter : rest.length % 2 = 0 := by
      simp only [List.length_cons] at even
      omega
    intro byte member
    rcases List.mem_cons.mp member with rfl | member
    · exact (hex_val_range first).1
    rcases List.mem_cons.mp member with rfl | member
    · exact (hex_val_range second).1
    · exact hex_pairs_ascii shorter others byte member

/-- Digits of either case are read as the bytes that are written with them. -/
theorem hex_pairs_iff : ∀ {text : List Char} {bytes : Bytes} {index : Nat}, (∀ c ∈ text, c.toNat < 128) →
    (text.length % 2 = 0 ∧ hexPairs index (text.map fun c => c.toNat.toUInt8) = .ok bytes ↔
      text.map Char.toLower = digits bytes)
  | [], bytes, _, _ => by
    cases bytes <;> simp [hexPairs, digits]
  | [c], bytes, _, _ => by
    cases bytes <;> simp [digits]
  | high :: low :: rest, bytes, index, ascii => by
    have upperAscii : high.toNat < 128 := ascii high List.mem_cons_self
    have lowerAscii : low.toNat < 128 := ascii low (List.mem_cons_of_mem _ List.mem_cons_self)
    have restAscii : ∀ c ∈ rest, c.toNat < 128 :=
      fun c member => ascii c (List.mem_cons_of_mem _ (List.mem_cons_of_mem _ member))
    have even : (high :: low :: rest).length % 2 = 0 ↔ rest.length % 2 = 0 := by
      simp only [List.length_cons]
      omega
    rw [even, List.map_cons, List.map_cons, hex_pairs_cons]
    constructor
    · rintro ⟨shorter, upper, lower, tail, first, second, others, rfl⟩
      have upperSmall := (hex_val_range first).2
      have lowerSmall := (hex_val_range second).2
      have joined := joined_digits ⟨upper.toNat, upperSmall⟩ ⟨lower.toNat, lowerSmall⟩
      simp only [Nat.toUInt8_eq, UInt8.ofNat_toNat] at joined
      have upperRead := (hex_val_iff upperAscii upperSmall).mp (by simpa using first)
      have lowerRead := (hex_val_iff lowerAscii lowerSmall).mp (by simpa using second)
      rw [digits, List.flatMap_cons, joined, List.map_cons, List.map_cons, upperRead, lowerRead,
        show (16 * upper.toNat + lower.toNat) / 16 = upper.toNat by omega,
        show (16 * upper.toNat + lower.toNat) % 16 = lower.toNat by omega,
        (hex_pairs_iff restAscii).mp ⟨shorter, others⟩]
      rfl
    · intro written
      cases bytes with
      | nil => cases written
      | cons byte tail =>
        have bound := byte.toNat_lt
        rw [List.map_cons, List.map_cons, digits, List.flatMap_cons] at written
        obtain ⟨upperWritten, others⟩ := List.cons.inj written
        obtain ⟨lowerWritten, others⟩ := List.cons.inj others
        obtain ⟨shorter, others⟩ := (hex_pairs_iff restAscii).mpr others
        have joined := joined_digits ⟨byte.toNat / 16, by omega⟩ ⟨byte.toNat % 16, by omega⟩
        refine ⟨shorter, _, _, tail, (hex_val_iff upperAscii (by omega)).mpr upperWritten,
          (hex_val_iff lowerAscii (by omega)).mpr lowerWritten, others, ?_⟩
        rw [List.cons.injEq, and_iff_left rfl, ← UInt8.toNat_inj]
        exact (joined.trans (Nat.div_add_mod byte.toNat 16)).symm

theorem ascii_text {text : List Char} (ascii : ∀ c ∈ text, c.toNat < 128) :
    text.flatMap String.utf8EncodeChar = text.map fun c => c.toNat.toUInt8 := by
  rw [List.map_eq_flatMap]
  exact List.flatMap_congr fun c member => ascii_bytes (ascii c member)

theorem digits_ascii {bytes : Bytes} {c : Char} (member : c ∈ digits bytes) : c.toNat < 128 := by
  obtain ⟨byte, _, digit⟩ := List.mem_flatMap.mp member
  have bound := byte.toNat_lt
  rcases List.mem_cons.mp digit with rfl | digit
  · exact digit_ascii ⟨byte.toNat / 16, by omega⟩
  · rw [List.mem_singleton.mp digit]
    exact digit_ascii ⟨byte.toNat % 16, by omega⟩

theorem wide_lower {c : Char} (wide : 128 ≤ c.toNat) : c.toLower = c := by
  refine dif_neg fun upper => ?_
  have below : c.toNat ≤ 90 := upper.2
  omega

/-- Which texts are taken as hex: the digits of the bytes, each in either case. -/
theorem hex_decode_iff {text : String} {bytes : Bytes} :
    hexDecode text = .ok bytes ↔ text.toList.map Char.toLower = digits bytes := by
  have plain : (∀ c ∈ text.toList, c.toNat < 128) →
      (hexDecode text = .ok bytes ↔ text.toList.map Char.toLower = digits bytes) := by
    intro ascii
    rw [← hex_pairs_iff ascii, hexDecode, ascii_text ascii, List.length_map]
    split
    next even => rw [and_iff_right even]
    next odd => exact ⟨nofun, fun read => absurd read.1 odd⟩
  constructor
  · intro read
    refine (plain fun c member => ?_).mp read
    unfold hexDecode at read
    dsimp only at read
    split at read
    next even =>
      by_contra wide
      obtain ⟨byte, encoded, high⟩ := wide_bytes (Nat.le_of_not_lt wide)
      have low := hex_pairs_ascii even read byte (List.mem_flatMap.mpr ⟨c, member, encoded⟩)
      omega
    next => cases read
  · intro written
    refine (plain fun c member => ?_).mpr written
    have small := digits_ascii (written ▸ List.mem_map_of_mem member : c.toLower ∈ digits bytes)
    by_contra wide
    exact wide (wide_lower (Nat.le_of_not_lt wide) ▸ small)

end Digits

section Keys

theorem key_front {input : Bytes} (long : 32 ≤ input.length) : (input.take 32).length = 32 := by
  rw [List.length_take, Nat.min_eq_left long]

/-- SCALE reads a key off the front and leaves what follows. -/
def PublicKey.decode (input : Bytes) : Option (PublicKey × Bytes) :=
  if long : 32 ≤ input.length then some (⟨input.take 32, key_front long⟩, input.drop 32) else none

def decodeKeys : Nat → Bytes → Option (List PublicKey × Bytes)
  | 0, input => some ([], input)
  | count + 1, input => do
    let (key, input) ← PublicKey.decode input
    let (keys, input) ← decodeKeys count input
    return (key :: keys, input)

/-- A list of keys, as the runtime writes it. -/
def encodeKeys (keys : List PublicKey) : Bytes := encodeCompact keys.length ++ keys.flatMap PublicKey.bytes

variable (decoder : Decoder)

/-- `Vec::<sr25519::PublicKey>::decode`, of which the rest of the input is dropped. -/
def decodeAuthorities (input : Bytes) : Option (List PublicKey) := do
  let (count, input) ← decoder.compactU32 input
  let (keys, _) ← decodeKeys count input
  return keys

/-- What `runtime_api_autorities` comes to. -/
inductive RuntimeAnswer where
  | authorities (keys : List PublicKey)
  | requestFailed (error : String)
  | invalidHex (error : FromHexError)
  | undecodable
  /-- The answer does not start with "0x", an `expect` in the source. -/
  | panicked

def stripPrefix (text : String) : Option String :=
  match text.toList with
  | '0' :: 'x' :: rest => some (.ofList rest)
  | _ => none

/-- `runtime_api_autorities`, with what the node answers to the call. -/
def runtimeApiAutorities (answer : Except String String) : RuntimeAnswer :=
  match answer with
  | .error error => .requestFailed error
  | .ok raw =>
    match stripPrefix raw with
    | none => .panicked
    | some raw =>
      match hexDecode raw with
      | .error error => .invalidHex error
      | .ok bytes =>
        match decodeAuthorities decoder bytes with
        | none => .undecodable
        | some authorities => .authorities authorities

variable {decoder}

theorem key_decode_iff {input rest : Bytes} {key : PublicKey} :
    PublicKey.decode input = some (key, rest) ↔ input = key.bytes ++ rest := by
  unfold PublicKey.decode
  constructor
  · intro read
    split at read
    next long =>
      cases read
      exact (List.take_append_drop 32 input).symm
    next => cases read
  · rintro rfl
    rw [dif_pos (by simp [key.size])]
    congr
    · exact List.take_left' key.size
    · exact List.drop_left' key.size

theorem decode_keys_iff {count : Nat} {input rest : Bytes} {keys : List PublicKey} :
    decodeKeys count input = some (keys, rest) ↔ keys.length = count ∧ input = keys.flatMap PublicKey.bytes ++ rest := by
  induction count generalizing input keys with
  | zero =>
    rw [decodeKeys, List.length_eq_zero_iff, Option.some.injEq, Prod.mk.injEq]
    constructor
    · rintro ⟨rfl, rfl⟩
      exact ⟨rfl, rfl⟩
    · rintro ⟨rfl, rfl⟩
      exact ⟨rfl, rfl⟩
  | succ count ih =>
    simp only [decodeKeys, Option.bind_eq_bind, Option.bind_eq_some_iff]
    constructor
    · rintro ⟨⟨key, after⟩, first, ⟨others, last⟩, read, same⟩
      cases same
      obtain ⟨length, rfl⟩ := ih.mp read
      refine ⟨by rw [List.length_cons, length], ?_⟩
      rw [key_decode_iff.mp first, List.flatMap_cons, List.append_assoc]
    · rintro ⟨length, rfl⟩
      cases keys with
      | nil => cases length
      | cons key others =>
        refine ⟨(key, others.flatMap PublicKey.bytes ++ rest), key_decode_iff.mpr ?_, (others, rest),
          ih.mpr ⟨Nat.succ.inj length, rfl⟩, rfl⟩
        rw [List.flatMap_cons, List.append_assoc]

/-- What is written is read, whatever stands behind it. -/
theorem keys_written {keys : List PublicKey} (fits : keys.length < 2 ^ 32) (rest : Bytes) :
    decodeAuthorities decoder (encodeKeys keys ++ rest) = some keys := by
  have read : decodeKeys keys.length (keys.flatMap PublicKey.bytes ++ rest) = some (keys, rest) :=
    decode_keys_iff.mpr ⟨rfl, rfl⟩
  simp [decodeAuthorities, encodeKeys, List.append_assoc, decoder.u32_written _ fits, read]

theorem decode_authorities_iff (canonical : decoder.Canonical) {input : Bytes} {keys : List PublicKey} :
    decodeAuthorities decoder input = some keys ↔ keys.length < 2 ^ 32 ∧ encodeKeys keys <+: input := by
  constructor
  · intro read
    simp only [decodeAuthorities, Option.bind_eq_bind, Option.bind_eq_some_iff] at read
    obtain ⟨⟨count, after⟩, first, ⟨keys', rest⟩, others, same⟩ := read
    cases same
    obtain ⟨fits, rfl⟩ := canonical.u32_only _ _ _ first
    obtain ⟨rfl, rfl⟩ := decode_keys_iff.mp others
    exact ⟨fits, rest, by rw [encodeKeys, List.append_assoc]⟩
  · rintro ⟨fits, rest, rfl⟩
    exact keys_written fits rest

/-- A list that is cut short is not read as another one. -/
theorem cut_undecodable (canonical : decoder.Canonical) {keys : List PublicKey} (fits : keys.length < 2 ^ 32) {cut : Bytes}
    (front : cut <+: encodeKeys keys) (short : cut ≠ encodeKeys keys) : decodeAuthorities decoder cut = none := by
  refine Option.eq_none_iff_forall_ne_some.mpr fun other read => short ?_
  obtain ⟨otherFits, within⟩ := (decode_authorities_iff canonical).mp read
  have whole : decodeAuthorities decoder (encodeKeys keys) = some other :=
    (decode_authorities_iff canonical).mpr ⟨otherFits, within.trans front⟩
  have written : decodeAuthorities decoder (encodeKeys keys) = some keys :=
    (decode_authorities_iff canonical).mpr ⟨fits, List.prefix_rfl⟩
  have same : other = keys := Option.some.inj (whole.symm.trans written)
  exact front.eq_of_length_le (same ▸ within.length_le)

theorem strip_prefix_iff {raw hex : String} : stripPrefix raw = some hex ↔ raw = "0x" ++ hex := by
  have marked : ("0x" ++ hex).toList = '0' :: 'x' :: hex.toList := by simp
  rw [← String.toList_inj, marked]
  unfold stripPrefix
  split
  next rest shape => rw [shape, Option.some.injEq, List.cons.injEq, List.cons.injEq, and_iff_right rfl, and_iff_right rfl,
    ← String.toList_inj, String.toList_ofList]
  next other => exact ⟨nofun, fun shape => absurd shape (other _)⟩

theorem answered_hex {hex : String} {bytes : Bytes} (written : hex.toList.map Char.toLower = digits bytes) :
    runtimeApiAutorities decoder (.ok ("0x" ++ hex)) = (decodeAuthorities decoder bytes).elim .undecodable .authorities := by
  have stripped : stripPrefix ("0x" ++ hex) = some hex := strip_prefix_iff.mpr rfl
  have decoded : hexDecode hex = .ok bytes := hex_decode_iff.mpr written
  simp only [runtimeApiAutorities, stripped, decoded]
  cases decodeAuthorities decoder bytes <;> rfl

theorem answered_keys {hex : String} {keys : List PublicKey} {rest : Bytes} (fits : keys.length < 2 ^ 32)
    (written : hex.toList.map Char.toLower = digits (encodeKeys keys ++ rest)) :
    runtimeApiAutorities decoder (.ok ("0x" ++ hex)) = .authorities keys := by
  rw [answered_hex written, keys_written fits]
  rfl

theorem answered_undecodable {hex : String} {bytes : Bytes} (written : hex.toList.map Char.toLower = digits bytes)
    (unread : decodeAuthorities decoder bytes = none) :
    runtimeApiAutorities decoder (.ok ("0x" ++ hex)) = .undecodable := by
  rw [answered_hex written, unread]
  rfl

theorem answered_other {hex : String} (foreign : ∀ bytes, hex.toList.map Char.toLower ≠ digits bytes) :
    ∃ error, runtimeApiAutorities decoder (.ok ("0x" ++ hex)) = .invalidHex error := by
  have stripped : stripPrefix ("0x" ++ hex) = some hex := strip_prefix_iff.mpr rfl
  rw [runtimeApiAutorities, stripped]
  dsimp only
  cases decoded : hexDecode hex with
  | error error => exact ⟨error, rfl⟩
  | ok bytes => exact absurd (hex_decode_iff.mp decoded) (foreign bytes)

theorem answered_unmarked {raw : String} (unmarked : ∀ hex, raw ≠ "0x" ++ hex) :
    runtimeApiAutorities decoder (.ok raw) = .panicked := by
  have stripped : stripPrefix raw = none :=
    Option.eq_none_iff_forall_ne_some.mpr fun hex stripped => unmarked hex (strip_prefix_iff.mp stripped)
  rw [runtimeApiAutorities, stripped]

/-- What an answer comes to, by what stands in it. -/
theorem answer_cases (canonical : decoder.Canonical) (raw : String) :
    ((∀ hex, raw ≠ "0x" ++ hex) ∧ runtimeApiAutorities decoder (.ok raw) = .panicked) ∨
    (∃ hex error, raw = "0x" ++ hex ∧ (∀ bytes, hex.toList.map Char.toLower ≠ digits bytes) ∧
      runtimeApiAutorities decoder (.ok raw) = .invalidHex error) ∨
    (∃ hex bytes, raw = "0x" ++ hex ∧ hex.toList.map Char.toLower = digits bytes ∧
      (∀ keys : List PublicKey, keys.length < 2 ^ 32 → ¬ encodeKeys keys <+: bytes) ∧
      runtimeApiAutorities decoder (.ok raw) = .undecodable) ∨
    ∃ hex keys rest, keys.length < 2 ^ 32 ∧ raw = "0x" ++ hex ∧
      hex.toList.map Char.toLower = digits (encodeKeys keys ++ rest) ∧
      runtimeApiAutorities decoder (.ok raw) = .authorities keys := by
  by_cases marked : ∃ hex, raw = "0x" ++ hex
  · obtain ⟨hex, rfl⟩ := marked
    by_cases written : ∃ bytes, hex.toList.map Char.toLower = digits bytes
    · obtain ⟨bytes, written⟩ := written
      cases decoded : decodeAuthorities decoder bytes with
      | none =>
        have unread : ∀ keys : List PublicKey, keys.length < 2 ^ 32 → ¬ encodeKeys keys <+: bytes := by
          intro keys fits front
          cases decoded.symm.trans ((decode_authorities_iff canonical).mpr ⟨fits, front⟩)
        exact .inr (.inr (.inl ⟨hex, bytes, rfl, written, unread, answered_undecodable written decoded⟩))
      | some keys =>
        obtain ⟨fits, rest, rfl⟩ := (decode_authorities_iff canonical).mp decoded
        exact .inr (.inr (.inr ⟨hex, keys, rest, fits, rfl, written, answered_keys fits written⟩))
    · have foreign := not_exists.mp written
      obtain ⟨error, answered⟩ : ∃ error, runtimeApiAutorities decoder (.ok ("0x" ++ hex)) = .invalidHex error :=
        answered_other foreign
      exact .inr (.inl ⟨hex, error, rfl, foreign, answered⟩)
  · have unmarked := not_exists.mp marked
    exact .inl ⟨unmarked, answered_unmarked unmarked⟩

theorem hex_encode_lower (bytes : Bytes) : (hexEncode bytes).toList.map Char.toLower = digits bytes :=
  hex_decode_iff.mp (hex_decode_encode bytes)

theorem marked_iff (raw : String) : "0x".toList <+: raw.toList ↔ ∃ hex, raw = "0x" ++ hex := by
  constructor
  · rintro ⟨rest, shape⟩
    refine ⟨.ofList rest, String.toList_inj.mp ?_⟩
    rw [← shape, String.toList_append, String.toList_ofList, String.toList_ofList]
  · rintro ⟨hex, rfl⟩
    exact ⟨hex.toList, (String.toList_append ..).symm⟩

/-- Which authorities an answer is taken as, for every text that a node may
answer: exactly those whose list stands in its digits, in the one form that the
runtime writes, with anything behind it. Without "0x" in front the command
panics; what is not hex, or a list that is cut short, is an error. -/
theorem authorities_answered (canonical : decoder.Canonical) (raw : String) :
    (∀ keys, runtimeApiAutorities decoder (.ok raw) = .authorities keys ↔ keys.length < 2 ^ 32 ∧
      ∃ hex rest, raw = "0x" ++ hex ∧ hex.toList.map Char.toLower = digits (encodeKeys keys ++ rest)) ∧
    (runtimeApiAutorities decoder (.ok raw) = .panicked ↔ ¬ "0x".toList <+: raw.toList) ∧
    ((∃ error, runtimeApiAutorities decoder (.ok raw) = .invalidHex error) ↔
      ∃ hex, raw = "0x" ++ hex ∧ ∀ bytes, hex.toList.map Char.toLower ≠ digits bytes) ∧
    (runtimeApiAutorities decoder (.ok raw) = .undecodable ↔ ∃ hex bytes, raw = "0x" ++ hex ∧
      hex.toList.map Char.toLower = digits bytes ∧ ∀ keys, keys.length < 2 ^ 32 → ¬ encodeKeys keys <+: bytes) ∧
    ∀ keys, keys.length < 2 ^ 32 →
      (∀ rest, runtimeApiAutorities decoder (.ok ("0x" ++ hexEncode (encodeKeys keys ++ rest))) = .authorities keys) ∧
      ∀ cut, cut <+: encodeKeys keys → cut ≠ encodeKeys keys →
        runtimeApiAutorities decoder (.ok ("0x" ++ hexEncode cut)) = .undecodable := by
  refine ⟨fun keys => ⟨fun answered => ?_, ?_⟩, ⟨fun answered => ?_, fun unmarked => ?_⟩, ⟨?_, ?_⟩, ⟨fun answered => ?_, ?_⟩,
    fun keys fits => ⟨fun rest => answered_keys fits (hex_encode_lower _), fun cut front short => ?_⟩⟩
  · rcases answer_cases canonical raw with ⟨_, other⟩ | ⟨_, _, _, _, other⟩ | ⟨_, _, _, _, _, other⟩ |
      ⟨hex, found, rest, fits, rfl, written, found_answered⟩
    · cases other.symm.trans answered
    · cases other.symm.trans answered
    · cases other.symm.trans answered
    · cases found_answered.symm.trans answered
      exact ⟨fits, hex, rest, rfl, written⟩
  · rintro ⟨fits, hex, rest, rfl, written⟩
    exact answered_keys fits written
  · rcases answer_cases canonical raw with ⟨unmarked, _⟩ | ⟨_, _, _, _, other⟩ | ⟨_, _, _, _, _, other⟩ |
      ⟨_, _, _, _, _, _, other⟩
    · exact fun front => unmarked _ ((marked_iff raw).mp front).choose_spec
    · cases other.symm.trans answered
    · cases other.symm.trans answered
    · cases other.symm.trans answered
  · exact answered_unmarked fun hex shape => unmarked ((marked_iff raw).mpr ⟨hex, shape⟩)
  · rintro ⟨error, answered⟩
    rcases answer_cases canonical raw with ⟨_, other⟩ | ⟨hex, _, shape, foreign, _⟩ | ⟨_, _, _, _, _, other⟩ |
      ⟨_, _, _, _, _, _, other⟩
    · cases other.symm.trans answered
    · exact ⟨hex, shape, foreign⟩
    · cases other.symm.trans answered
    · cases other.symm.trans answered
  · rintro ⟨hex, rfl, foreign⟩
    exact answered_other foreign
  · rcases answer_cases canonical raw with ⟨_, other⟩ | ⟨_, _, _, _, other⟩ | ⟨hex, bytes, shape, written, unread, _⟩ |
      ⟨_, _, _, _, _, _, other⟩
    · cases other.symm.trans answered
    · cases other.symm.trans answered
    · exact ⟨hex, bytes, shape, written, unread⟩
    · cases other.symm.trans answered
  · rintro ⟨hex, bytes, rfl, written, unread⟩
    refine answered_undecodable written (Option.eq_none_iff_forall_ne_some.mpr fun keys read => ?_)
    obtain ⟨fits, front⟩ := (decode_authorities_iff canonical).mp read
    exact unread keys fits front
  · exact answered_undecodable (hex_encode_lower _) (cut_undecodable canonical fits front short)

/-- A node with one authority answers with its key. -/
theorem one_authority_answered : runtimeApiAutorities Decoder.reference
    (.ok ("0x" ++ hexEncode (encodeKeys [numberedKey 7] ++ []))) = .authorities [numberedKey 7] :=
  ((authorities_answered reference_canonical "0x").2.2.2.2 [numberedKey 7] (by decide)).1 []

end Keys
end Subp2pExplorer.Authorities
