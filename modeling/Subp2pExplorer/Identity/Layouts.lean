import Subp2pExplorer.Identity.Registration

/-! The two layouts as grammars over the same bytes. What the parser accepts is
the encoding of something, so a name it returns is a name some registration
carries; whether it is the one at hand depends on the fees among the judgements
and on how a nameless display field reads to the second attempt. -/
namespace Subp2pExplorer.Identity
open Lib.Scale Lib.Utf8

/-! ## What the parser accepts -/

theorem skip_data_only (input rest : List UInt8) (skipped : skipData input = some rest) :
    ∃ data : Data, input = data.encode ++ rest := by
  cases input with
  | nil => cases skipped
  | cons variant input =>
    rw [skipData] at skipped
    split at skipped
    · rename_i zero
      cases skipped
      have byte : variant = 0 := UInt8.toNat_inj.mp zero
      exact ⟨.none, by rw [byte, Data.encode, List.singleton_append]⟩
    · split at skipped
      · rename_i some raw
        split at skipped
        · cases skipped
        · rename_i long
          cases skipped
          have length : (input.take (variant.toNat - 1)).length = variant.toNat - 1 := by
            rw [List.length_take]
            omega
          refine ⟨.raw (input.take (variant.toNat - 1)) (by omega), ?_⟩
          rw [Data.encode, length, Nat.sub_add_cancel (by omega), UInt8.ofNat_toNat, List.cons_append,
            List.take_append_drop]
      · split at skipped
        · rename_i some raw hash
          split at skipped
          · cases skipped
          · rename_i long
            cases skipped
            have length : (input.take 32).length = 32 := by
              rw [List.length_take]
              omega
            refine ⟨.hash ⟨variant.toNat - 34, by omega⟩ ⟨(input.take 32).toArray, by simpa using length⟩, ?_⟩
            rw [Data.encode, show 34 + (variant.toNat - 34) = variant.toNat by omega, UInt8.ofNat_toNat,
              List.cons_append]
            simp
        · cases skipped

/-- A text read at the cursor is the text of a value written there. -/
theorem decode_data_only (input : List UInt8) (name : String)
    (read : (decodeDataAsString input).1 = some name) :
    ∃ (data : Data) (rest : List UInt8), input = data.encode ++ rest ∧ data.text = some name := by
  have passed : ∃ rest, skipData input = some rest := by
    cases input with
    | nil => cases read
    | cons variant input =>
      rw [decodeDataAsString] at read
      rw [skipData]
      split at read
      · cases read
      · rename_i some
        rw [if_neg some]
        split at read
        · rename_i raw
          rw [if_pos raw]
          dsimp only at read
          split at read
          · cases read
          · rename_i long
            exact ⟨_, if_neg long⟩
        · split at read
          · split at read <;> cases read
          · cases read
  obtain ⟨rest, skipped⟩ := passed
  obtain ⟨data, written⟩ := skip_data_only input rest skipped
  exact ⟨data, rest, written, by rw [← decode_data_encoded data rest, ← written, read]⟩

theorem skip_pair_only (input rest : List UInt8) (skipped : skipPair input = some rest) :
    ∃ pair : Data × Data, input = Registration.encodePair pair ++ rest := by
  obtain ⟨middle, first, second⟩ := Option.bind_eq_some_iff.mp skipped
  obtain ⟨key, keyWritten⟩ := skip_data_only input middle first
  obtain ⟨value, valueWritten⟩ := skip_data_only middle rest second
  exact ⟨(key, value), by rw [Registration.encodePair, keyWritten, valueWritten, List.append_assoc]⟩

/-- A run of a skipping function passed the encodings of as many items. -/
theorem skip_times_only {α : Type} {skip : List UInt8 → Option (List UInt8)} {encode : α → List UInt8}
    (only : ∀ input rest, skip input = some rest → ∃ item, input = encode item ++ rest)
    (n : Nat) (input rest : List UInt8) (skipped : skipTimes skip n input = some rest) :
    ∃ items : List α, items.length = n ∧ input = items.flatMap encode ++ rest := by
  induction n generalizing input with
  | zero =>
    cases skipped
    exact ⟨[], rfl, rfl⟩
  | succ n ih =>
    obtain ⟨middle, first, others⟩ := Option.bind_eq_some_iff.mp skipped
    obtain ⟨item, itemWritten⟩ := only input middle first
    obtain ⟨items, count, itemsWritten⟩ := ih middle others
    refine ⟨item :: items, by rw [List.length_cons, count], ?_⟩
    rw [List.flatMap_cons, List.append_assoc, ← itemsWritten, itemWritten]

/-- The bytes after the deposit of a legacy registration with this name. -/
def NamedLegacy (name : String) (bytes : List UInt8) : Prop :=
  ∃ (pairs : List (Data × Data)) (display : Data) (rest : List UInt8),
    pairs.length ≤ 64 ∧ display.text = some name ∧
      bytes = encodeCompact pairs.length ++ (pairs.flatMap Registration.encodePair ++ (display.encode ++ rest))

section Retry
variable (decoder : Decoder)

/-- The legacy attempt finds a name exactly where a legacy registration with
that name is written. -/
theorem legacy_attempt_iff (canonical : decoder.Canonical) (r : Registration)
    (free : ∀ registrar ∈ r.judgements, registrar.2.NoFee) (bytes : List UInt8) (name : String) :
    decodeRegistrationDisplay decoder (r.encodeHead ++ bytes) true = some name ↔ NamedLegacy name bytes := by
  rw [decodeRegistrationDisplay, head_passed decoder r free, if_pos rfl]
  constructor
  · intro read
    obtain ⟨cursor, passed, text⟩ := Option.bind_eq_some_iff.mp read
    obtain ⟨⟨count, after⟩, counted, pairsPassed⟩ := Option.bind_eq_some_iff.mp passed
    obtain ⟨_, countWritten⟩ := canonical.u32_only count bytes after counted
    split at pairsPassed
    · cases pairsPassed
    · rename_i few
      obtain ⟨pairs, length, pairsWritten⟩ := skip_times_only skip_pair_only count after cursor pairsPassed
      obtain ⟨display, rest, displayWritten, denotes⟩ := decode_data_only cursor name text
      refine ⟨pairs, display, rest, by rw [length]; exact Nat.le_of_not_lt few, denotes, ?_⟩
      rw [length, ← displayWritten, ← pairsWritten, countWritten]
  · rintro ⟨pairs, display, rest, few, denotes, rfl⟩
    have passed := skip_times_encoded pairs (fun pair _ => skip_pair_encoded pair) (display.encode ++ rest)
    rw [decoder.u32_written _ (by omega), Option.bind_some, if_neg (by omega), passed, Option.bind_some,
      decode_data_encoded, denotes]

end Retry

/-! ## Simple registrations -/

namespace Registration

/-- What follows the deposit in each layout. -/
def afterDeposit (r : Registration) : Bool → List UInt8
  | true => encodeCompact r.additional.length ++ r.body
  | false => r.display.encode ++ r.trailing

/-- A registration in the layout that the parser's flag stands for. -/
def encodeAs (r : Registration) (hasAdditional : Bool) : List UInt8 :=
  r.encodeHead ++ r.afterDeposit hasAdditional

end Registration

/-- A registration of the simple layout: no additional pairs, and only further
`Data` fields after the display field. -/
structure SimpleRegistration extends Registration where
  fields : List Data
  no_pairs : additional = []
  then_fields : trailing = fields.flatMap Data.encode

/-- The first byte of a compact number tells its form. -/
theorem compact_first (n : Nat) (first : UInt8) (rest tail : List UInt8)
    (start : encodeCompact n ++ rest = first :: tail) :
    (first.toNat % 4 = 0 ∧ n = first.toNat / 4 ∧ rest = tail) ∨
      (first.toNat % 4 = 1 ∧ 64 ≤ n ∧ n % 64 = first.toNat / 4) ∨ (2 ≤ first.toNat % 4 ∧ 2 ^ 14 ≤ n) := by
  unfold encodeCompact at start
  split at start
  · obtain ⟨byte, same⟩ := List.cons.inj start
    have value := variant_byte (4 * n) (by omega)
    rw [byte] at value
    exact .inl ⟨by omega, by omega, same⟩
  · split at start
    · have byte := (List.cons.inj start).1
      have value := variant_byte ((4 * n + 1) % 256) (by omega)
      rw [byte] at value
      exact .inr (.inl ⟨by omega, by omega, by omega⟩)
    · split at start
      · have byte := (List.cons.inj start).1
        have value := variant_byte ((4 * n + 2) % 256) (by omega)
        rw [byte] at value
        exact .inr (.inr ⟨by omega, by omega⟩)
      · have byte := (List.cons.inj start).1
        have value : (UInt8.ofNat (4 * (max 4 (byteLength n) - 4) + 3)).toNat % 4 = 3 := by
          rw [UInt8.toNat_ofNat']
          omega
        rw [byte] at value
        exact .inr (.inr ⟨by omega, by omega⟩)

/-- Skipping `n` fields needs that many of them. -/
theorem skip_fields (n : Nat) (fields : List Data) :
    skipTimes skipData n (fields.flatMap Data.encode) =
      if n ≤ fields.length then some ((fields.drop n).flatMap Data.encode) else none := by
  induction n generalizing fields with
  | zero => rfl
  | succ n ih =>
    cases fields with
    | nil => rfl
    | cons field fields =>
      rw [List.flatMap_cons, skipTimes, skip_data_encoded, Option.bind_some, ih, List.length_cons,
        List.drop_succ_cons]
      simp only [Nat.succ_le_succ_iff]

theorem skip_pairs_as_data (n : Nat) (input : List UInt8) :
    skipTimes skipPair n input = skipTimes skipData (2 * n) input := by
  induction n generalizing input with
  | zero => rfl
  | succ n ih =>
    rw [show 2 * (n + 1) = 2 * n + 1 + 1 by omega, skipTimes, skipPair, skipTimes, Option.bind_assoc]
    congr 1
    funext middle
    rw [skipTimes]
    congr 1
    funext rest
    exact ih rest

/-- The text at the start of a list of fields is the first field's. -/
theorem decode_fields (fields : List Data) :
    (decodeDataAsString (fields.flatMap Data.encode)).1 = fields[0]?.bind Data.text := by
  cases fields with
  | nil => rfl
  | cons field fields =>
    rw [List.flatMap_cons, decode_data_encoded]
    rfl

/-- The nine pairs and the name that the second attempt would have to find in
the digest of a third-kind hash and the fields after it. -/
def NineThenName (name : String) (bytes : List UInt8) : Prop :=
  ∃ (pairs : List (Data × Data)) (display : Data) (rest : List UInt8),
    pairs.length = 9 ∧ display.text = some name ∧
      bytes = pairs.flatMap Registration.encodePair ++ (display.encode ++ rest)

theorem named_after_none (fields : List Data) (name : String) :
    NamedLegacy name (Data.none.encode ++ fields.flatMap Data.encode) ↔
      fields[0]?.bind Data.text = some name := by
  rw [← decode_fields]
  constructor
  · rintro ⟨pairs, display, rest, few, denotes, written⟩
    obtain ⟨-, zero, same⟩ | ⟨one, -, -⟩ | ⟨more, -⟩ := compact_first _ _ _ _ written.symm
    · have noPairs : pairs = [] := List.length_eq_zero_iff.mp zero
      rw [noPairs, List.flatMap_nil, List.nil_append] at same
      rw [← denotes, ← decode_data_encoded display rest, same]
      rfl
    · cases one
    · exact absurd more (by decide)
  · intro read
    obtain ⟨display, rest, written, denotes⟩ := decode_data_only _ name read
    exact ⟨[], display, rest, Nat.zero_le _, denotes, by rw [written]; rfl⟩

/-- The byte 1 starts the empty raw value only. -/
theorem empty_raw_first (data : Data) (rest tail : List UInt8) (start : data.encode ++ rest = 1 :: tail)
    (fits : ([] : List UInt8).length ≤ 32) : data = .raw [] fits ∧ rest = tail := by
  cases data with
  | none =>
    have byte := (List.cons.inj start).1
    exact absurd byte (by decide)
  | raw bytes short =>
    obtain ⟨byte, same⟩ := List.cons.inj start
    have value := variant_byte (bytes.length + 1) (by omega)
    rw [byte] at value
    have empty : bytes = [] := List.length_eq_zero_iff.mp (by simpa using value.symm)
    subst empty
    exact ⟨rfl, same⟩
  | hash kind digest =>
    have byte := (List.cons.inj start).1
    have value := variant_byte (34 + kind.val) (by omega)
    rw [byte] at value
    exact absurd value (by simp only [UInt8.reduceToNat]; omega)

/-- Sixty-four pairs are the length that the empty raw value twice over reads
as, so the name is a hundred and thirty fields along. -/
theorem named_after_empty (fits : ([] : List UInt8).length ≤ 32) (fields : List Data) (name : String) :
    NamedLegacy name ((Data.raw [] fits).encode ++ fields.flatMap Data.encode) ↔
      fields[0]? = some (.raw [] fits) ∧ fields[129]?.bind Data.text = some name := by
  have full : encodeCompact 64 = [1, 1] := by decide
  constructor
  · rintro ⟨pairs, display, rest, few, denotes, written⟩
    have count : pairs.length = 64 := by
      obtain ⟨zero, -, -⟩ | ⟨-, least, -⟩ | ⟨more, -⟩ := compact_first _ _ _ _ written.symm
      · exact absurd zero (by decide)
      · omega
      · exact absurd more (by decide)
    rw [count, full] at written
    have after := (List.cons.inj written).2
    cases fields with
    | nil => cases after
    | cons field fields =>
      rw [List.flatMap_cons] at after
      obtain ⟨empty, others⟩ := empty_raw_first field _ _ after fits
      refine ⟨by rw [empty]; rfl, ?_⟩
      have passed := skip_times_encoded pairs (fun pair _ => skip_pair_encoded pair) (display.encode ++ rest)
      have same : fields.flatMap Data.encode =
          pairs.flatMap Registration.encodePair ++ (display.encode ++ rest) := others
      rw [count, skip_pairs_as_data, ← same, skip_fields] at passed
      split at passed
      · have text := decode_data_encoded display rest
        rw [← Option.some.inj passed, decode_fields, denotes, List.getElem?_drop] at text
        exact text
      · cases passed
  · rintro ⟨empty, named⟩
    cases fields with
    | nil => cases empty
    | cons field fields =>
      have first : field = .raw [] fits := Option.some.inj empty
      subst first
      have enough : 128 < fields.length := by
        by_contra short
        have absent : fields[128]? = none := List.getElem?_eq_none (by omega)
        rw [List.getElem?_cons_succ, absent] at named
        cases named
      have passed := skip_fields (2 * 64) fields
      rw [if_pos (by omega), ← skip_pairs_as_data] at passed
      obtain ⟨pairs, count, pairsWritten⟩ := skip_times_only skip_pair_only 64 _ _ passed
      have read : (decodeDataAsString ((fields.drop (2 * 64)).flatMap Data.encode)).1 = some name := by
        rw [decode_fields, List.getElem?_drop]
        exact named
      obtain ⟨display, rest, displayWritten, denotes⟩ := decode_data_only _ name read
      refine ⟨pairs, display, rest, by omega, denotes, ?_⟩
      rw [count, full, ← displayWritten, ← pairsWritten]
      rfl

theorem named_after_hash (kind : Fin 4) (digest : Vector UInt8 32) (fields : List Data) (name : String) :
    NamedLegacy name ((Data.hash kind digest).encode ++ fields.flatMap Data.encode) ↔
      kind = 2 ∧ NineThenName name (digest.toList ++ fields.flatMap Data.encode) := by
  have variant := variant_byte (34 + kind.val) (by omega)
  constructor
  · rintro ⟨pairs, display, rest, few, denotes, written⟩
    obtain ⟨zero, nine, same⟩ | ⟨one, least, low⟩ | ⟨-, more⟩ := compact_first _ _ _ _ written.symm
    · have third : kind = 2 := by omega
      exact ⟨third, pairs, display, rest, by omega, denotes, same.symm⟩
    · omega
    · omega
  · rintro ⟨rfl, pairs, display, rest, nine, denotes, written⟩
    refine ⟨pairs, display, rest, by omega, denotes, ?_⟩
    rw [Data.encode, List.cons_append, written, nine]
    rfl

namespace SimpleRegistration

/-- The second attempt finds no name after a display field that has none. -/
def Nameless (r : SimpleRegistration) : Prop :=
  match r.display with
  | .none => r.fields[0]?.bind Data.text = none
  | .raw bytes fits => bytes = [] → r.fields[0]? = some (.raw bytes fits) → r.fields[129]?.bind Data.text = none
  | .hash kind digest => kind = 2 → ∀ name, ¬ NineThenName name (digest.toList ++ r.fields.flatMap Data.encode)

end SimpleRegistration

section Simple
variable (decoder : Decoder)

theorem simple_attempt (r : Registration) (free : ∀ registrar ∈ r.judgements, registrar.2.NoFee) :
    decodeRegistrationDisplay decoder (r.encodeAs false) false = r.display.text := by
  rw [decodeRegistrationDisplay, Registration.encodeAs, head_passed decoder r free]
  exact decode_data_encoded r.display r.trailing

/-- A simple registration decodes to its display name exactly when the bytes
after a nameless display field hide no legacy name. -/
theorem simple_name_iff (canonical : decoder.Canonical) (r : SimpleRegistration)
    (free : ∀ registrar ∈ r.judgements, registrar.2.NoFee) :
    decodeDisplayName decoder (r.encodeAs false) = r.display.text ↔ r.Nameless := by
  have retry := legacy_attempt_iff decoder canonical r.toRegistration free (r.display.encode ++ r.trailing)
  rw [decodeDisplayName, simple_attempt decoder r.toRegistration free]
  have nameless : r.display.text = none →
      ((r.display.text.or (decodeRegistrationDisplay decoder (r.encodeAs false) true) = r.display.text) ↔
        ∀ name, ¬ NamedLegacy name (r.display.encode ++ r.fields.flatMap Data.encode)) := by
    intro absent
    rw [absent, Option.none_or, Option.eq_none_iff_forall_ne_some, ← r.then_fields]
    exact forall_congr' fun name => not_congr (retry name)
  unfold SimpleRegistration.Nameless
  cases display : r.display with
  | none =>
    rw [display] at nameless
    rw [nameless rfl, Option.eq_none_iff_forall_ne_some]
    exact forall_congr' fun name => not_congr (named_after_none r.fields name)
  | raw bytes fits =>
    by_cases empty : bytes = []
    · subst empty
      rw [display] at nameless
      rw [nameless rfl]
      simp only [named_after_empty, not_and, true_implies, Option.eq_none_iff_forall_ne_some]
      exact ⟨fun hidden twice name => hidden name twice, fun hidden name twice => hidden twice name⟩
    · have named : (Data.raw bytes fits).text = some (fromUtf8Lossy bytes) := if_neg empty
      rw [named, Option.some_or]
      exact ⟨fun _ none => absurd none empty, fun _ => rfl⟩
  | hash kind digest =>
    rw [display] at nameless
    rw [nameless rfl]
    simp only [named_after_hash, not_and]
    exact ⟨fun hidden third name => hidden name third, fun hidden name third => hidden third name⟩

/-- The registration of the repository's own test of the simple layout. -/
def openbitlab : SimpleRegistration where
  judgements := []
  deposit := 0x77fa6aa0
  additional := []
  display := .raw [0x6f, 0x70, 0x65, 0x6e, 0x62, 0x69, 0x74, 0x6c, 0x61, 0x62] (by decide)
  trailing := List.replicate 7 0
  judgements_counted := plainAlice.judgements_counted
  deposit_fits := by decide
  fields := List.replicate 7 .none
  no_pairs := rfl
  then_fields := rfl

/-- A registration with a legal name and no display name. -/
def onlyLegal : SimpleRegistration where
  judgements := []
  deposit := 0
  additional := []
  display := .none
  trailing := [0x05, 0x43, 0x6f, 0x72, 0x70]
  judgements_counted := plainAlice.judgements_counted
  deposit_fits := by decide
  fields := [.raw [0x43, 0x6f, 0x72, 0x70] (by decide)]
  no_pairs := rfl
  then_fields := rfl

theorem openbitlab_named : decodeDisplayName .reference (openbitlab.encodeAs false) = some "openbitlab" := by
  have nameless : openbitlab.Nameless := fun empty => absurd empty (by decide)
  have named := (simple_name_iff .reference reference_canonical openbitlab (by simp [openbitlab])).mpr nameless
  rw [named]
  decide

/-- The display name is missing, so the legal name is taken for it. -/
theorem only_legal_misnamed :
    (∀ registrar ∈ onlyLegal.judgements, registrar.2.NoFee) ∧ onlyLegal.display.text = none ∧
      decodeDisplayName .reference (onlyLegal.encodeAs false) = some "Corp" := by
  refine ⟨by simp [onlyLegal], rfl, by decide⟩

end Simple

/-! ## Fees among the judgements -/

/-- Each item is passed exactly, one after the other, with the cursor at the
start of the next. -/
def PassesInTurn {α : Type} (skip : List UInt8 → Option (List UInt8)) (encode : α → List UInt8)
    (items : List α) (rest : List UInt8) : Prop :=
  ∀ n ≤ items.length, skipTimes skip n (items.flatMap encode ++ rest) =
    some ((items.drop n).flatMap encode ++ rest)

theorem skip_times_succ (skip : List UInt8 → Option (List UInt8)) (n : Nat) (input : List UInt8) :
    skipTimes skip (n + 1) input = (skipTimes skip n input).bind skip := by
  induction n generalizing input with
  | zero =>
    cases passed : skip input <;> simp [skipTimes, passed]
  | succ n ih =>
    rw [skipTimes, skipTimes, Option.bind_assoc]
    congr 1
    funext middle
    exact ih middle

theorem passes_in_turn_iff {α : Type} {skip : List UInt8 → Option (List UInt8)} {encode : α → List UInt8}
    (items : List α) (rest : List UInt8) :
    PassesInTurn skip encode items rest ↔
      ∀ before item after, items = before ++ item :: after →
        skip (encode item ++ (after.flatMap encode ++ rest)) = some (after.flatMap encode ++ rest) := by
  constructor
  · rintro passes before item after rfl
    have here := passes before.length (by rw [List.length_append]; omega)
    have next := passes (before.length + 1) (by rw [List.length_append, List.length_cons]; omega)
    have remains : (before ++ item :: after).drop (before.length + 1) = after := by
      rw [← List.drop_drop, List.drop_left, List.drop_one, List.tail_cons]
    rw [skip_times_succ, here, List.drop_left, remains, Option.bind_some, List.flatMap_cons,
      List.append_assoc] at next
    exact next
  · intro each n
    induction n with
    | zero => exact fun _ => rfl
    | succ n ih =>
      intro within
      have split : items = items.take n ++ items[n] :: items.drop (n + 1) := by
        rw [← List.drop_eq_getElem_cons (by omega), List.take_append_drop]
      have passed := each _ _ _ split
      rw [skip_times_succ, ih (by omega), Option.bind_some, List.drop_eq_getElem_cons (by omega),
        List.flatMap_cons, List.append_assoc, passed]

namespace Judgement

/-- A fee is a 128-bit balance. -/
def Fits : Judgement → Prop
  | feePaid balance => balance < 2 ^ 128
  | _ => True

/-- A fee whose sixteen bytes happen to be a compact number of that length:
the first says fifteen more bytes, and the last is not zero. -/
def ReadsWhole : Judgement → Prop
  | feePaid balance => balance % 256 = 47 ∧ 2 ^ 120 ≤ balance
  | _ => True

end Judgement

/-- The parser reads a registration right: each judgement and each additional
pair is passed exactly, the cursor ends at the display field, and its text is
returned. -/
structure Registration.ReadRight (decoder : Decoder) (hasAdditional : Bool) (r : Registration) : Prop where
  judgements : PassesInTurn (skipRegistrar decoder) Registration.encodeRegistrar r.judgements
    (leBytes 16 r.deposit ++ r.afterDeposit hasAdditional)
  pairs : hasAdditional = true →
    PassesInTurn skipPair Registration.encodePair r.additional (r.display.encode ++ r.trailing)
  position : skipToDisplay decoder hasAdditional (r.encodeAs hasAdditional) = some (r.display.encode ++ r.trailing)
  name : decodeRegistrationDisplay decoder (r.encodeAs hasAdditional) hasAdditional = r.display.text

/-- Sixteen bytes are a compact number when the first counts the other
fifteen and these are all needed. -/
theorem compact_sixteen (balance : Nat) (fits : balance < 2 ^ 128) :
    (∃ n < 2 ^ 128, encodeCompact n = leBytes 16 balance) ↔ balance % 256 = 47 ∧ 2 ^ 120 ≤ balance := by
  constructor
  · rintro ⟨n, -, written⟩
    unfold encodeCompact at written
    split at written
    · cases congrArg List.length written
    · split at written
      · cases congrArg List.length written
      · split at written
        · cases congrArg List.length written
        · have length := congrArg List.length written
          rw [List.length_cons, le_bytes_length, le_bytes_length] at length
          have log : Nat.log 256 n = 14 := by
            unfold byteLength at length
            omega
          have width : max 4 (byteLength n) = 15 := by omega
          dsimp only at written
          rw [width] at written
          obtain ⟨first, others⟩ := List.cons.inj written
          have low := variant_byte (balance % 256) (by omega)
          rw [← first] at low
          have most := of_le_bytes 15 n
          have short : n < 256 ^ 15 := by
            have := lt_byte_length n
            rwa [byteLength, log] at this
          have high : balance / 256 < 256 ^ 15 := by omega
          rw [others, of_le_bytes, Nat.mod_eq_of_lt high, Nat.mod_eq_of_lt short] at most
          have least := Nat.pow_log_le_self 256 (x := n) (by omega)
          rw [log] at least
          exact ⟨low.symm, by omega⟩
  · rintro ⟨low, least⟩
    refine ⟨balance / 256, by omega, ?_⟩
    have log : Nat.log 256 (balance / 256) = 14 := by
      rw [Nat.log_eq_iff (by omega)]
      omega
    have width : max 4 (byteLength (balance / 256)) = 15 := by
      unfold byteLength
      omega
    rw [encodeCompact, if_neg (by omega), if_neg (by omega), if_neg (by omega)]
    dsimp only
    rw [width]
    change _ = UInt8.ofNat (balance % 256) :: leBytes 15 (balance / 256)
    rw [low]

section Fees
variable (decoder : Decoder)

theorem skip_judgement_iff (canonical : decoder.Canonical) (judgement : Judgement) (fits : judgement.Fits)
    (rest : List UInt8) :
    skipJudgement decoder (judgement.encode ++ rest) = some rest ↔ judgement.ReadsWhole := by
  cases judgement with
  | feePaid balance =>
    have fee : skipJudgement decoder ((Judgement.feePaid balance).encode ++ rest) =
        (decoder.compactU128 (leBytes 16 balance ++ rest)).map Prod.snd := rfl
    rw [fee, Judgement.ReadsWhole, ← compact_sixteen balance fits]
    constructor
    · intro passed
      obtain ⟨⟨n, after⟩, read, same⟩ := Option.map_eq_some_iff.mp passed
      obtain ⟨bound, written⟩ := canonical.u128_only n _ after read
      rw [show after = rest from same] at written
      exact ⟨n, bound, (List.append_cancel_right written).symm⟩
    · rintro ⟨n, bound, written⟩
      rw [← written, decoder.u128_written n bound]
      rfl
  | _ => exact ⟨fun _ => trivial, fun _ => rfl⟩

theorem skip_registrar_iff (canonical : decoder.Canonical) (registrar : UInt32 × Judgement)
    (fits : registrar.2.Fits) (rest : List UInt8) :
    skipRegistrar decoder (Registration.encodeRegistrar registrar ++ rest) = some rest ↔
      registrar.2.ReadsWhole := by
  have index : registrar.1.toNat < 256 ^ 4 := registrar.1.toNat_lt
  rw [Registration.encodeRegistrar, List.append_assoc, skipRegistrar, read_le_written 4 _ index,
    Option.bind_some]
  exact skip_judgement_iff decoder canonical registrar.2 fits rest

/-- The display field is reached when each judgement is passed exactly. -/
theorem display_reached (r : Registration) (hasAdditional : Bool)
    (passes : PassesInTurn (skipRegistrar decoder) Registration.encodeRegistrar r.judgements
      (leBytes 16 r.deposit ++ r.afterDeposit hasAdditional))
    (few : hasAdditional = true → r.additional.length ≤ 64) :
    skipToDisplay decoder hasAdditional (r.encodeAs hasAdditional) = some (r.display.encode ++ r.trailing) := by
  have judgements := passes r.judgements.length (Nat.le_refl _)
  rw [List.drop_length, List.flatMap_nil, List.nil_append] at judgements
  rw [Registration.encodeAs, judgements_passed decoder r _ hasAdditional judgements]
  cases hasAdditional with
  | false => rfl
  | true => exact pairs_passed decoder r (few rfl)

/-- A registration is read right, in either layout, exactly when each fee among
its judgements reads as one compact number. -/
theorem fees_read_iff (canonical : decoder.Canonical) (r : Registration) (hasAdditional : Bool)
    (fits : ∀ registrar ∈ r.judgements, registrar.2.Fits)
    (few : hasAdditional = true → r.additional.length ≤ 64) :
    r.ReadRight decoder hasAdditional ↔ ∀ registrar ∈ r.judgements, registrar.2.ReadsWhole := by
  constructor
  · rintro ⟨judgements, -, -, -⟩ registrar member
    obtain ⟨before, after, split⟩ := List.append_of_mem member
    have passed := (passes_in_turn_iff _ _).mp judgements before registrar after split
    exact (skip_registrar_iff decoder canonical registrar (fits registrar member) _).mp passed
  · intro whole
    have judgements : PassesInTurn (skipRegistrar decoder) Registration.encodeRegistrar r.judgements
        (leBytes 16 r.deposit ++ r.afterDeposit hasAdditional) := by
      rw [passes_in_turn_iff]
      intro before registrar after split
      have member : registrar ∈ r.judgements := by simp [split]
      exact (skip_registrar_iff decoder canonical registrar (fits registrar member) _).mpr
        (whole registrar member)
    have position := display_reached decoder r hasAdditional judgements few
    refine ⟨judgements, fun _ => ?_, position, ?_⟩
    · rw [passes_in_turn_iff]
      exact fun before pair after _ => skip_pair_encoded pair _
    · rw [decodeRegistrationDisplay, position, Option.bind_some, decode_data_encoded]

/-- Alice, whose registrar was paid a fee and has yet to judge. -/
def aliceWithFee : Registration :=
  { plainAlice with judgements := [(0, .feePaid 10000000000)], judgements_counted := by decide }

/-- Alice again, with a fee that reads whole. -/
def aliceWithLargeFee : Registration :=
  { aliceWithPair with
    judgements := [(0, .feePaid (2 ^ 120 + 47)), (1, .reasonable)]
    judgements_counted := by decide }

theorem large_fee_read : aliceWithLargeFee.ReadRight .reference true := by
  have fits : ∀ registrar ∈ aliceWithLargeFee.judgements, registrar.2.Fits := by
    simp [aliceWithLargeFee, Judgement.Fits]
  refine (fees_read_iff .reference reference_canonical aliceWithLargeFee true fits (fun _ => by decide)).mpr ?_
  simp [aliceWithLargeFee, Judgement.ReadsWhole]

/-- The fee's first byte is taken for a whole compact number, and the display
field is looked for in the middle of the deposit. -/
theorem alice_with_fee_unnamed :
    (∀ registrar ∈ aliceWithFee.judgements, registrar.2.Fits) ∧ aliceWithFee.display.text = some "Alice" ∧
      decodeRegistrationDisplay .reference (aliceWithFee.encodeAs false) false = none ∧
      ¬ aliceWithFee.ReadRight .reference false := by
  have text : aliceWithFee.display.text = some "Alice" := by decide
  have read : decodeRegistrationDisplay .reference (aliceWithFee.encodeAs false) false = none := by decide
  refine ⟨by simp [aliceWithFee, Judgement.Fits], text, read, fun right => ?_⟩
  have name := right.name
  rw [text, read] at name
  cases name

end Fees

end Subp2pExplorer.Identity
