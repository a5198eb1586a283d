import Mathlib.Data.List.TakeWhile
import Subp2pExplorer.Lib.Text
import Subp2pExplorer.Network.Genesis

/-! Agent versions as they are grouped in the global summary. The code finds
the end of the version at byte offsets; what it keeps is described here by the
characters of the agent version alone. -/
namespace Subp2pExplorer.Check
open Lib Network

/-- `normalize_agent_version`, and nothing where one of its slices panics. -/
def normalizeAgentVersion (version : String) : Option String :=
  match Text.find version "/v" with
  | some vPos => do
    let afterV ← Text.sliceFrom version (vPos + 2)
    let stop := ((Text.find afterV "-").or (Text.find afterV " ")).getD afterV.utf8ByteSize
    let base ← Text.sliceTo version (vPos + 2 + stop)
    let backend := if contains version "(litep2p)" then " (litep2p)" else ""
    return base ++ backend
  | none => some version

/-- What is kept after "/v": all before the first hyphen, or where there is
none before the first space. -/
def stem (rest : List Char) : List Char :=
  if '-' ∈ rest then rest.takeWhile (· ≠ '-') else rest.takeWhile (· ≠ ' ')

/-- The name of an agent and its base version. -/
def baseName : List Char → List Char
  | '/' :: 'v' :: rest => '/' :: 'v' :: stem rest
  | c :: rest => c :: baseName rest
  | [] => []

/-- The backend of an agent version. -/
def marker (version : String) : String :=
  if contains version "/v" ∧ contains version "(litep2p)" then " (litep2p)" else ""

theorem contains_iff {text part : String} : contains text part = true ↔ part.toList <:+: text.toList :=
  decide_eq_true_iff

theorem base_name_plain {text : List Char} (plain : ¬['/', 'v'] <:+: text) : baseName text = text := by
  induction text using baseName.induct with
  | case1 rest => exact absurd (List.prefix_append ['/', 'v'] rest).isInfix plain
  | case2 c rest other ih =>
    rw [List.infix_cons_iff, not_or] at plain
    rw [baseName, ih plain.2]
    exact other
  | case3 => rfl

/-- The first "/v" is where the version starts. -/
theorem base_name_version {before : List Char} (plain : ¬['/', 'v'] <:+: before ++ ['/']) (rest : List Char) :
    baseName (before ++ '/' :: 'v' :: rest) = before ++ '/' :: 'v' :: stem rest := by
  induction before with
  | nil => rfl
  | cons c before ih =>
    rw [List.cons_append, List.infix_cons_iff, not_or] at plain
    rw [List.cons_append, baseName, ih plain.2, List.cons_append]
    rintro after rfl same
    cases before with
    | nil => cases same
    | cons d before =>
      cases same
      exact plain.1 (List.prefix_append ['/', 'v'] _)

/-- The end of the version in bytes is the size of the characters kept. -/
private theorem stop_stem (rest : String) :
    ((Text.find rest "-").or (Text.find rest " ")).getD rest.utf8ByteSize = Text.byteLen (stem rest.toList) := by
  have hyphen : Text.find rest "-" = _ := Text.seek_char '-' rest.toList
  have space : Text.find rest " " = _ := Text.seek_char ' ' rest.toList
  rw [hyphen, space, stem]
  by_cases hyphenated : '-' ∈ rest.toList
  · simp [hyphenated]
  · by_cases spaced : ' ' ∈ rest.toList
    · simp [hyphenated, spaced]
    · have whole : rest.toList.takeWhile (· ≠ ' ') = rest.toList := by
        rw [List.takeWhile_eq_self_iff]
        intro c member
        exact decide_eq_true fun same => spaced (same ▸ member)
      rw [if_neg hyphenated, if_neg spaced, if_neg hyphenated, whole, Text.byte_len_to_list]
      rfl

/-- What is kept after the version starts the text that is read there. -/
private theorem stem_prefix (rest : List Char) : stem rest <+: rest := by
  unfold stem
  split <;> exact List.takeWhile_prefix _

/-- No slice panics: an agent version is normalised to its base name and its
backend. -/
theorem normalize_agent_version (version : String) :
    normalizeAgentVersion version = some (.ofList (baseName version.toList) ++ marker version) := by
  unfold normalizeAgentVersion
  cases found : Text.find version "/v" with
  | none =>
    have plain : ¬['/', 'v'] <:+: version.toList := Text.find_none.mp found
    have unmarked : contains version "/v" = false := by
      rw [← Bool.not_eq_true, contains_iff]
      exact plain
    simp [base_name_plain plain, marker, unmarked]
  | some vPos =>
    obtain ⟨before, rest, whole, size, first⟩ := Text.find_some (by decide) found
    have versioned : contains version "/v" = true := by
      rw [contains_iff, whole, String.toList_append, String.toList_append]
      exact ⟨before.toList, rest.toList, List.append_assoc _ _ _⟩
    obtain ⟨dropped, split⟩ := stem_prefix rest.toList
    have head : version = (before ++ "/v") ++ rest := by rw [whole, String.append_assoc]
    have cutAt : version = (before ++ ("/v" ++ .ofList (stem rest.toList))) ++ .ofList dropped := by
      rw [← String.toList_inj, whole]
      simp only [String.toList_append, String.toList_ofList, List.append_assoc, split]
    have after : Text.sliceFrom version (vPos + 2) = some rest := by
      have offset : vPos + 2 = (before ++ "/v").utf8ByteSize := by
        rw [String.utf8ByteSize_append, size]
        rfl
      rw [offset, head]
      exact Text.slice_from_append _ _
    have base : Text.sliceTo version (vPos + 2 + Text.byteLen (stem rest.toList)) =
        some (before ++ ("/v" ++ .ofList (stem rest.toList))) := by
      have offset : vPos + 2 + Text.byteLen (stem rest.toList) =
          (before ++ ("/v" ++ .ofList (stem rest.toList))).utf8ByteSize := by
        have kept : (String.ofList (stem rest.toList)).utf8ByteSize = Text.byteLen (stem rest.toList) := by
          rw [← Text.byte_len_to_list, String.toList_ofList]
        rw [String.utf8ByteSize_append, String.utf8ByteSize_append, size, kept, Nat.add_assoc]
        rfl
      rw [offset, cutAt]
      exact Text.slice_to_append _ _
    have kept : String.ofList (baseName version.toList) = before ++ ("/v" ++ .ofList (stem rest.toList)) := by
      have name := base_name_version first rest.toList
      rw [← String.toList_inj, whole]
      simpa using name
    dsimp only
    rw [after, Option.bind_eq_bind, Option.bind_some, stop_stem, base, kept]
    simp [marker, versioned]

/-- The base version of a node with its backend, whatever its suffix is. -/
def canonical (name number suffix : String) : String :=
  name ++ "/v" ++ number ++ if contains (name ++ "/v" ++ number ++ suffix) "(litep2p)" then " (litep2p)" else ""

/-- The suffix of a version: none, or one that a hyphen or a space sets off. -/
def SetOff (suffix : String) : Prop :=
  suffix = "" ∨ suffix.toList.head? = some '-' ∨ suffix.toList.head? = some ' '

/-- A node name set off by a space, with a hyphen in it or after it. -/
def Hyphenated (suffix : String) : Prop :=
  suffix.toList.head? = some ' ' ∧ '-' ∈ suffix.toList

private theorem not_slash_v_append {before : List Char} (plain : ¬['/', 'v'] <:+: before) :
    ¬['/', 'v'] <:+: before ++ ['/'] := by
  intro inside
  rw [List.infix_concat_iff] at inside
  rcases inside with suffix | inside
  · obtain ⟨front, whole⟩ := suffix
    have last := congrArg List.getLast? whole
    simp at last
  · exact plain inside

/-- Past a number without hyphen or space the stem is the stem of the suffix. -/
private theorem stem_append {number : List Char} (solid : ∀ c ∈ number, c ≠ '-' ∧ c ≠ ' ') (suffix : List Char) :
    stem (number ++ suffix) = number ++ stem suffix := by
  have hyphens : ∀ c ∈ number, decide (c ≠ '-') = true := fun c member => decide_eq_true (solid c member).1
  have spaces : ∀ c ∈ number, decide (c ≠ ' ') = true := fun c member => decide_eq_true (solid c member).2
  have plain : '-' ∉ number := fun member => (solid _ member).1 rfl
  unfold stem
  rw [List.takeWhile_append_of_pos hyphens, List.takeWhile_append_of_pos spaces]
  by_cases later : '-' ∈ suffix
  · simp [later]
  · simp [later, plain]

/-- Of a suffix nothing is kept unless it is a hyphenated name. -/
private theorem stem_empty_iff {suffix : String} (setOff : SetOff suffix) :
    stem suffix.toList = [] ↔ ¬Hyphenated suffix := by
  unfold Hyphenated
  rcases setOff with rfl | hyphen | space
  · simp [stem]
  · obtain ⟨rest, whole⟩ := List.head?_eq_some_iff.mp hyphen
    simp [whole, stem]
  · obtain ⟨rest, whole⟩ := List.head?_eq_some_iff.mp space
    rw [whole, stem]
    by_cases later : '-' ∈ rest
    · simp [later]
    · simp [later]

section Normal
variable {name number suffix : String}

private theorem base_name_parts (plain : contains name "/v" = false)
    (solid : ∀ c ∈ number.toList, c ≠ '-' ∧ c ≠ ' ') (suffix : String) :
    String.ofList (baseName (name ++ "/v" ++ number ++ suffix).toList) =
      name ++ "/v" ++ number ++ .ofList (stem suffix.toList) := by
  have absent : ¬['/', 'v'] <:+: name.toList := by
    intro inside
    have found : contains name "/v" = true := contains_iff.mpr inside
    rw [plain] at found
    cases found
  have version := base_name_version (not_slash_v_append absent) (number.toList ++ suffix.toList)
  rw [stem_append solid] at version
  rw [← String.toList_inj]
  simpa using version

private theorem versioned (name rest : String) : contains (name ++ "/v" ++ rest) "/v" = true := by
  rw [contains_iff, String.toList_append, String.toList_append]
  exact ⟨name.toList, rest.toList, rfl⟩

theorem normalize_parts (plain : contains name "/v" = false)
    (solid : ∀ c ∈ number.toList, c ≠ '-' ∧ c ≠ ' ') (suffix : String) :
    normalizeAgentVersion (name ++ "/v" ++ number ++ suffix) =
      some (name ++ "/v" ++ number ++ .ofList (stem suffix.toList) ++
        if contains (name ++ "/v" ++ number ++ suffix) "(litep2p)" then " (litep2p)" else "") := by
  have whole : contains (name ++ "/v" ++ number ++ suffix) "/v" = true := by
    rw [String.append_assoc]
    exact versioned name (number ++ suffix)
  rw [normalize_agent_version, base_name_parts plain solid suffix, marker]
  simp [whole]

/-- A version is normalised to its base version and backend, and stays so when
it is normalised again, exactly if its suffix is no hyphenated name after a
space. Where that holds, nodes of one base version and backend share a bucket. -/
theorem normalize_canonical_iff (plain : contains name "/v" = false)
    (solid : ∀ c ∈ number.toList, c ≠ '-' ∧ c ≠ ' ') (setOff : SetOff suffix) :
    (normalizeAgentVersion (name ++ "/v" ++ number ++ suffix) = some (canonical name number suffix) ∧
        normalizeAgentVersion (canonical name number suffix) = some (canonical name number suffix) ↔
      ¬Hyphenated suffix) ∧
    ∀ other, SetOff other → ¬Hyphenated suffix → ¬Hyphenated other →
      contains (name ++ "/v" ++ number ++ suffix) "(litep2p)" =
        contains (name ++ "/v" ++ number ++ other) "(litep2p)" →
      normalizeAgentVersion (name ++ "/v" ++ number ++ suffix) =
        normalizeAgentVersion (name ++ "/v" ++ number ++ other) := by
  have normal : ∀ suffix, SetOff suffix → ¬Hyphenated suffix →
      normalizeAgentVersion (name ++ "/v" ++ number ++ suffix) = some (canonical name number suffix) := by
    intro suffix setOff named
    rw [normalize_parts plain solid, (stem_empty_iff setOff).mpr named, canonical]
    simp
  refine ⟨⟨?_, fun named => ⟨normal suffix setOff named, ?_⟩⟩, ?_⟩
  · rintro ⟨once, _⟩
    rw [normalize_parts plain solid, canonical, Option.some.injEq, ← String.toList_inj] at once
    rw [← stem_empty_iff setOff]
    simpa using once
  · rw [canonical, normalize_parts plain solid]
    by_cases backend : contains (name ++ "/v" ++ number ++ suffix) "(litep2p)" = true
    · -- The marker that was appended is itself set off by a space.
      have again : contains (name ++ "/v" ++ number ++ " (litep2p)") "(litep2p)" = true := by
        rw [contains_iff, String.toList_append]
        exact ⟨(name ++ "/v" ++ number).toList ++ [' '], [], by simp⟩
      have nothing : stem " (litep2p)".toList = [] := by decide
      rw [if_pos backend, if_pos again, nothing]
      simp
    · have still : ¬contains (name ++ "/v" ++ number ++ "") "(litep2p)" = true := by
        rw [contains_iff, String.append_empty]
        intro inside
        rw [contains_iff, String.toList_append] at backend
        exact backend (inside.trans (List.prefix_append _ _).isInfix)
      have nothing : stem "".toList = [] := by decide
      rw [if_neg backend, if_neg still, nothing]
      simp
  · intro other setOff' named named' same
    rw [normal suffix setOff named, normal other setOff' named', canonical, canonical, same]

/-- A commit hash, a node name and the backend. -/
theorem hashed_version_normal :
    normalizeAgentVersion ("Parity Polkadot" ++ "/v" ++ "1.21.1" ++ "-c6ba84fb493 (mynode) (litep2p)") =
      some "Parity Polkadot/v1.21.1 (litep2p)" ∧
    (normalizeAgentVersion ("Parity Polkadot" ++ "/v" ++ "1.21.1" ++ "-c6ba84fb493 (mynode) (litep2p)") =
        some (canonical "Parity Polkadot" "1.21.1" "-c6ba84fb493 (mynode) (litep2p)") ∧
      normalizeAgentVersion (canonical "Parity Polkadot" "1.21.1" "-c6ba84fb493 (mynode) (litep2p)") =
        some (canonical "Parity Polkadot" "1.21.1" "-c6ba84fb493 (mynode) (litep2p)")) := by
  have setOff : SetOff "-c6ba84fb493 (mynode) (litep2p)" := .inr (.inl (by decide))
  have named : ¬Hyphenated "-c6ba84fb493 (mynode) (litep2p)" := fun spaced => absurd spaced.1 (by decide)
  exact ⟨by decide +kernel, (normalize_canonical_iff (by decide) (by simp) setOff).1.mpr named⟩

/-- Without a hash a hyphen in the node name is taken for the end of the version. -/
theorem hyphenated_name_kept :
    contains "Parity Polkadot" "/v" = false ∧ (∀ c ∈ "1.21.1".toList, c ≠ '-' ∧ c ≠ ' ') ∧ SetOff " (my-node)" ∧
      canonical "Parity Polkadot" "1.21.1" " (my-node)" = "Parity Polkadot/v1.21.1" ∧
      normalizeAgentVersion ("Parity Polkadot" ++ "/v" ++ "1.21.1" ++ " (my-node)") =
        some "Parity Polkadot/v1.21.1 (my" :=
  ⟨by decide, by simp, .inr (.inr (by decide)), by decide +kernel, by decide +kernel⟩

end Normal
end Subp2pExplorer.Check
