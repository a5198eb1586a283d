import Subp2pExplorer.Lib.Scale
import Subp2pExplorer.Lib.Utf8

/-! Display names in identity registrations. The parser is the one the command
line runs on raw storage values; the registration and its two encodings are
those of the identity pallet. Both layouts are tried in turn, and the layouts
are told apart only by the first attempt failing. -/
namespace Subp2pExplorer.Identity
open Lib.Scale Lib.Utf8

/-! ## The parser -/

/-- `skip_data`: the bytes after one `Data` value. -/
def skipData : List UInt8 → Option (List UInt8)
  | [] => none
  | variant :: input =>
    if variant.toNat = 0 then some input
    else if variant.toNat ≤ 33 then
      if input.length < variant.toNat - 1 then none else some (input.drop (variant.toNat - 1))
    else if variant.toNat ≤ 37 then
      if input.length < 32 then none else some (input.drop 32)
    else none

/-- `decode_data_as_string`: the text of one `Data` value and the bytes left. -/
def decodeDataAsString : List UInt8 → Option String × List UInt8
  | [] => (none, [])
  | variant :: input =>
    if variant.toNat = 0 then (none, input)
    else if variant.toNat ≤ 33 then
      let len := variant.toNat - 1
      if input.length < len then (none, input)
      else
        let s := fromUtf8Lossy (input.take len)
        (if s = "" then none else some s, input.drop len)
    else if variant.toNat ≤ 37 then
      if input.length < 32 then (none, input) else (none, input.drop 32)
    else (none, input)

/-- The bytes after `n` values, each passed by `skip`. -/
def skipTimes (skip : List UInt8 → Option (List UInt8)) : Nat → List UInt8 → Option (List UInt8)
  | 0, input => some input
  | n + 1, input => (skip input).bind (skipTimes skip n)

section Parser
variable (decoder : Decoder)

/-- `skip_judgement`: a fee is read as a compact number. -/
def skipJudgement : List UInt8 → Option (List UInt8)
  | [] => none
  | variant :: input =>
    if variant.toNat = 0 ∨ (2 ≤ variant.toNat ∧ variant.toNat ≤ 6) then some input
    else if variant.toNat = 1 then (decoder.compactU128 input).map Prod.snd
    else none

/-- One pair of a registrar index and its judgement. -/
def skipRegistrar (input : List UInt8) : Option (List UInt8) :=
  (readLe 4 input).bind fun read => skipJudgement decoder read.2

/-- One additional pair of `Data` values. -/
def skipPair (input : List UInt8) : Option (List UInt8) := (skipData input).bind skipData

/-- The start of the display field: past judgements and deposit, and past the
additional pairs where the layout has them. -/
def skipToDisplay (hasAdditional : Bool) (raw : List UInt8) : Option (List UInt8) :=
  (decoder.compactU32 raw).bind fun len =>
  (skipTimes (skipRegistrar decoder) len.1 len.2).bind fun input =>
  (readLe 16 input).bind fun deposit =>
    if hasAdditional then
      (decoder.compactU32 deposit.2).bind fun additional =>
        if 64 < additional.1 then none else skipTimes skipPair additional.1 additional.2
    else some deposit.2

/-- `decode_registration_display`. -/
def decodeRegistrationDisplay (raw : List UInt8) (hasAdditional : Bool) : Option String :=
  (skipToDisplay decoder hasAdditional raw).bind fun input => (decodeDataAsString input).1

/-- `decode_display_name`: the simple layout first, then the legacy one. -/
def decodeDisplayName (raw : List UInt8) : Option String :=
  (decodeRegistrationDisplay decoder raw false).or (decodeRegistrationDisplay decoder raw true)

end Parser

/-! ## Registrations and their encodings -/

/-- A value of the pallet's `Data`: nothing, up to 32 raw bytes, or one of four
kinds of hash. -/
inductive Data where
  | none
  | raw (bytes : List UInt8) (fits : bytes.length ≤ 32)
  | hash (kind : Fin 4) (digest : Vector UInt8 32)

inductive Judgement where
  | unknown
  | feePaid (balance : Nat)
  | reasonable
  | knownGood
  | outOfDate
  | lowQuality
  | erroneous
  deriving DecidableEq

/-- A registration: the fields the parser passes over, the display field, and
whatever the layout puts after it. -/
structure Registration where
  judgements : List (UInt32 × Judgement)
  deposit : Nat
  additional : List (Data × Data)
  display : Data
  trailing : List UInt8
  judgements_counted : judgements.length < 2 ^ 32
  deposit_fits : deposit < 2 ^ 128

namespace Data

def encode : Data → List UInt8
  | none => [0]
  | raw bytes _ => UInt8.ofNat (bytes.length + 1) :: bytes
  | hash kind digest => UInt8.ofNat (34 + kind.val) :: digest.toList

/-- What a display field denotes. -/
def text : Data → Option String
  | none => Option.none
  | raw bytes _ => if bytes = [] then Option.none else some (fromUtf8Lossy bytes)
  | hash _ _ => Option.none

end Data

namespace Judgement

def encode : Judgement → List UInt8
  | unknown => [0]
  | feePaid balance => 1 :: leBytes 16 balance
  | reasonable => [2]
  | knownGood => [3]
  | outOfDate => [4]
  | lowQuality => [5]
  | erroneous => [6]

/-- The fee-less judgements, whose encoding is the variant byte alone. -/
def NoFee (judgement : Judgement) : Prop := ∀ balance, judgement ≠ feePaid balance

end Judgement

namespace Registration

def encodeRegistrar (registrar : UInt32 × Judgement) : List UInt8 :=
  leBytes 4 registrar.1.toNat ++ registrar.2.encode

def encodePair (pair : Data × Data) : List UInt8 := pair.1.encode ++ pair.2.encode

/-- Judgements and deposit, the common head of both layouts. -/
def encodeHead (r : Registration) : List UInt8 :=
  encodeCompact r.judgements.length ++ r.judgements.flatMap encodeRegistrar ++ leBytes 16 r.deposit

/-- What follows the length of the additional pairs in the legacy layout. -/
def body (r : Registration) : List UInt8 :=
  r.additional.flatMap encodePair ++ (r.display.encode ++ r.trailing)

def encodeLegacy (r : Registration) : List UInt8 :=
  r.encodeHead ++ (encodeCompact r.additional.length ++ r.body)

end Registration

/-! ## Each value is passed over exactly -/

theorem variant_byte (n : Nat) (small : n < 256) : (UInt8.ofNat n).toNat = n := by
  simp only [UInt8.toNat_ofNat']
  omega

theorem skip_data_encoded (data : Data) (rest : List UInt8) :
    skipData (data.encode ++ rest) = some rest := by
  cases data with
  | none => rfl
  | raw bytes fits =>
    have variant := variant_byte (bytes.length + 1) (by omega)
    have long : ¬ (bytes ++ rest).length < bytes.length := by simp
    rw [Data.encode, List.cons_append, skipData, variant, if_neg (by omega), if_pos (by omega),
      Nat.add_sub_cancel, if_neg long, List.drop_left]
  | hash kind digest =>
    have variant := variant_byte (34 + kind.val) (by omega)
    have long : ¬ (digest.toList ++ rest).length < 32 := by simp
    rw [Data.encode, List.cons_append, skipData, variant, if_neg (by omega), if_neg (by omega),
      if_pos (by omega), if_neg long, List.drop_left' (by simp)]

/-- The display field reads as what it denotes, whatever follows it. -/
theorem decode_data_encoded (data : Data) (rest : List UInt8) :
    (decodeDataAsString (data.encode ++ rest)).1 = data.text := by
  cases data with
  | none => rfl
  | raw bytes fits =>
    have variant := variant_byte (bytes.length + 1) (by omega)
    have long : ¬ (bytes ++ rest).length < bytes.length := by simp
    rw [Data.encode, List.cons_append, decodeDataAsString, variant, if_neg (by omega),
      if_pos (by omega)]
    dsimp only
    rw [Nat.add_sub_cancel, if_neg long, List.take_left, Data.text]
    simp only [lossy_empty_iff]
  | hash kind digest =>
    have variant := variant_byte (34 + kind.val) (by omega)
    have long : ¬ (digest.toList ++ rest).length < 32 := by simp
    rw [Data.encode, List.cons_append, decodeDataAsString, variant, if_neg (by omega),
      if_neg (by omega), if_pos (by omega), if_neg long, Data.text]

theorem skip_times_encoded {α : Type} {skip : List UInt8 → Option (List UInt8)} {encode : α → List UInt8}
    (items : List α) (passes : ∀ item ∈ items, ∀ rest, skip (encode item ++ rest) = some rest)
    (rest : List UInt8) : skipTimes skip items.length (items.flatMap encode ++ rest) = some rest := by
  induction items with
  | nil => rfl
  | cons item items ih =>
    have first := passes item List.mem_cons_self (items.flatMap encode ++ rest)
    have others := ih fun item member => passes item (List.mem_cons_of_mem _ member)
    rw [List.length_cons, skipTimes, List.flatMap_cons, List.append_assoc, first, Option.bind_some, others]

theorem skip_pair_encoded (pair : Data × Data) (rest : List UInt8) :
    skipPair (Registration.encodePair pair ++ rest) = some rest := by
  rw [Registration.encodePair, List.append_assoc, skipPair, skip_data_encoded, Option.bind_some,
    skip_data_encoded]

section Layouts
variable (decoder : Decoder)

theorem skip_judgement_encoded (judgement : Judgement) (free : judgement.NoFee) (rest : List UInt8) :
    skipJudgement decoder (judgement.encode ++ rest) = some rest := by
  cases judgement with
  | feePaid balance => exact absurd rfl (free balance)
  | _ => rfl

theorem skip_registrar_encoded (registrar : UInt32 × Judgement) (free : registrar.2.NoFee)
    (rest : List UInt8) :
    skipRegistrar decoder (Registration.encodeRegistrar registrar ++ rest) = some rest := by
  have index : registrar.1.toNat < 256 ^ 4 := registrar.1.toNat_lt
  rw [Registration.encodeRegistrar, List.append_assoc, skipRegistrar, read_le_written 4 _ index,
    Option.bind_some, skip_judgement_encoded decoder _ free]

/-- Where the judgements are passed, the parser is left at the first byte after
the deposit. -/
theorem judgements_passed (r : Registration) (rest : List UInt8) (hasAdditional : Bool)
    (passed : skipTimes (skipRegistrar decoder) r.judgements.length
      (r.judgements.flatMap Registration.encodeRegistrar ++ (leBytes 16 r.deposit ++ rest)) =
        some (leBytes 16 r.deposit ++ rest)) :
    skipToDisplay decoder hasAdditional (r.encodeHead ++ rest) =
      if hasAdditional then
        (decoder.compactU32 rest).bind fun additional =>
          if 64 < additional.1 then none else skipTimes skipPair additional.1 additional.2
      else some rest := by
  have deposit := read_le_written 16 r.deposit (by have := r.deposit_fits; omega) rest
  rw [Registration.encodeHead, List.append_assoc, List.append_assoc, skipToDisplay,
    decoder.u32_written _ r.judgements_counted, Option.bind_some, passed, Option.bind_some,
    deposit, Option.bind_some]

/-- Reading the head leaves the parser at the first byte after the deposit. -/
theorem head_passed (r : Registration) (free : ∀ registrar ∈ r.judgements, registrar.2.NoFee)
    (rest : List UInt8) (hasAdditional : Bool) :
    skipToDisplay decoder hasAdditional (r.encodeHead ++ rest) =
      if hasAdditional then
        (decoder.compactU32 rest).bind fun additional =>
          if 64 < additional.1 then none else skipTimes skipPair additional.1 additional.2
      else some rest := by
  apply judgements_passed
  apply skip_times_encoded
  exact fun registrar member => skip_registrar_encoded decoder registrar (free registrar member)

/-- Reading the additional pairs leaves it at the display field. -/
theorem pairs_passed (r : Registration) (few : r.additional.length ≤ 64) :
    ((decoder.compactU32 (encodeCompact r.additional.length ++ r.body)).bind fun additional =>
      if 64 < additional.1 then none else skipTimes skipPair additional.1 additional.2) =
        some (r.display.encode ++ r.trailing) := by
  rw [decoder.u32_written _ (by omega), Option.bind_some, if_neg (by omega), Registration.body]
  exact skip_times_encoded r.additional (fun pair _ => skip_pair_encoded pair) (r.display.encode ++ r.trailing)

/-- The legacy attempt reads a legacy encoding right. -/
theorem legacy_attempt (r : Registration) (free : ∀ registrar ∈ r.judgements, registrar.2.NoFee)
    (few : r.additional.length ≤ 64) :
    decodeRegistrationDisplay decoder r.encodeLegacy true = r.display.text := by
  rw [decodeRegistrationDisplay, Registration.encodeLegacy, head_passed decoder r free, if_pos rfl,
    pairs_passed decoder r few, Option.bind_some, decode_data_encoded]

/-- The simple attempt takes the length of the additional pairs for the
variant byte of a display field. -/
theorem simple_attempt_on_legacy (r : Registration)
    (free : ∀ registrar ∈ r.judgements, registrar.2.NoFee) :
    decodeRegistrationDisplay decoder r.encodeLegacy false =
      (decodeDataAsString (encodeCompact r.additional.length ++ r.body)).1 := by
  rw [decodeRegistrationDisplay, Registration.encodeLegacy, head_passed decoder r free]
  rfl

end Layouts

/-! ## Legacy registrations read in the simple layout -/

namespace Registration

/-- The number of additional pairs reads as a raw display field of
`4 * n - 1` bytes, and that many bytes are there. -/
def Misread (r : Registration) : Prop :=
  0 < r.additional.length ∧ r.additional.length ≤ 8 ∧ 4 * r.additional.length - 1 ≤ r.body.length

/-- The bytes such a field takes from the additional pairs and what follows. -/
def misreadText (r : Registration) : String :=
  fromUtf8Lossy (r.body.take (4 * r.additional.length - 1))

instance (r : Registration) : Decidable r.Misread := inferInstanceAs (Decidable (_ ∧ _ ∧ _))

/-- When the length of the additional pairs is harmless: it does not read as
a raw field, or reads as the very name the display field denotes. -/
def HarmlessLength (r : Registration) : Prop := r.Misread → r.display.text = some r.misreadText

end Registration

/-- What the simple attempt makes of the length of the additional pairs. -/
theorem length_as_variant (r : Registration) (few : r.additional.length ≤ 64) :
    (decodeDataAsString (encodeCompact r.additional.length ++ r.body)).1 =
      if r.Misread then some r.misreadText else none := by
  by_cases full : r.additional.length = 64
  · have length : encodeCompact 64 = [1, 1] := by decide
    have notRead : ¬ r.Misread := fun misread => by
      have := misread.2.1
      omega
    rw [full, length, if_neg notRead]
    rfl
  · have variant := variant_byte (4 * r.additional.length) (by omega)
    rw [compact_small _ (by omega), List.singleton_append, decodeDataAsString, variant]
    by_cases none : r.additional.length = 0
    · have notRead : ¬ r.Misread := fun misread => by
        have := misread.1
        omega
      rw [if_pos (by omega), if_neg notRead]
    · rw [if_neg (by omega)]
      by_cases raw : r.additional.length ≤ 8
      · rw [if_pos (by omega)]
        dsimp only
        by_cases short : r.body.length < 4 * r.additional.length - 1
        · have notRead : ¬ r.Misread := fun misread => by
            have := misread.2.2
            omega
          rw [if_pos short, if_neg notRead]
        · have read : r.Misread := ⟨by omega, raw, by omega⟩
          have taken : r.body.take (4 * r.additional.length - 1) ≠ [] := by
            intro empty
            have length := congrArg List.length empty
            rw [List.length_take, List.length_nil] at length
            omega
          have nonempty : r.misreadText ≠ "" := fun empty => taken ((lossy_empty_iff _).mp empty)
          rw [if_neg short, if_pos read]
          exact if_neg nonempty
      · have notRead : ¬ r.Misread := fun misread => raw misread.2.1
        rw [if_neg (by omega), if_neg notRead]
        split
        · split <;> rfl
        · rfl

section Legacy
variable (decoder : Decoder)

/-- The name decoded from a legacy encoding, in full. -/
theorem legacy_decoded (r : Registration) (free : ∀ registrar ∈ r.judgements, registrar.2.NoFee)
    (few : r.additional.length ≤ 64) :
    decodeDisplayName decoder r.encodeLegacy =
      if r.Misread then some r.misreadText else r.display.text := by
  rw [decodeDisplayName, legacy_attempt decoder r free few, simple_attempt_on_legacy decoder r free,
    length_as_variant r few]
  split <;> rfl

/-- A legacy registration decodes to its display name, and the simple attempt
finds no other, exactly when the length of its additional pairs is harmless. -/
theorem legacy_name_iff (r : Registration) (free : ∀ registrar ∈ r.judgements, registrar.2.NoFee)
    (few : r.additional.length ≤ 64) :
    (decodeDisplayName decoder r.encodeLegacy = r.display.text ∧
      ∀ name, decodeRegistrationDisplay decoder r.encodeLegacy false = some name →
        r.display.text = some name) ↔ r.HarmlessLength := by
  rw [legacy_decoded decoder r free few, simple_attempt_on_legacy decoder r free, length_as_variant r few]
  by_cases misread : r.Misread
  · simp only [misread, if_true, Option.some.injEq, forall_eq', Registration.HarmlessLength,
      true_implies]
    constructor
    · exact fun both => both.2
    · exact fun same => ⟨same.symm, same⟩
  · simp [misread, Registration.HarmlessLength]

/-- The registration of the repository's own legacy test. -/
def plainAlice : Registration where
  judgements := []
  deposit := 1
  additional := []
  display := .raw [0x41, 0x6C, 0x69, 0x63, 0x65] (by decide)
  trailing := []
  judgements_counted := by decide
  deposit_fits := by decide

/-- The same registration after one additional pair was added. -/
def aliceWithPair : Registration where
  judgements := []
  deposit := 1
  additional := [(.raw [0x77, 0x65, 0x62] (by decide), .raw [0x78] (by decide))]
  display := .raw [0x41, 0x6C, 0x69, 0x63, 0x65] (by decide)
  trailing := []
  judgements_counted := by decide
  deposit_fits := by decide

/-- Without additional pairs the test's name is decoded. -/
theorem plain_alice_named :
    decodeDisplayName .reference plainAlice.encodeLegacy = some "Alice" := by
  have harmless : plainAlice.HarmlessLength := fun misread => absurd misread (by decide)
  have named := (legacy_name_iff .reference plainAlice (by simp [plainAlice]) (by decide)).mpr harmless
  rw [named.1]
  decide

/-- One additional pair of a key and a value, and its first bytes are the name. -/
theorem alice_with_pair_misnamed :
    (∀ registrar ∈ aliceWithPair.judgements, registrar.2.NoFee) ∧ aliceWithPair.additional.length ≤ 64 ∧
      aliceWithPair.display.text = some "Alice" ∧
      decodeDisplayName .reference aliceWithPair.encodeLegacy = some "\x04we" := by
  refine ⟨by simp [aliceWithPair], by decide, by decide, by decide⟩

end Legacy
end Subp2pExplorer.Identity
