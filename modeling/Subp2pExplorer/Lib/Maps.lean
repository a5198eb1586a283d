import Mathlib.Data.Finmap
import Mathlib.Data.Finset.Card
import Mathlib.Algebra.BigOperators.Group.Finset.Basic
import Mathlib.Algebra.GroupWithZero.Nat

/-! Hash maps and hash sets without their hashing. A map is a finite map, a set
a finite set; what is left open is the order in which one is walked, which a
list of candidates supplies. Added to the finite maps are the multiset of their
values and the update that inserts or modifies. -/
abbrev Subp2pExplorer.Lib.Map (K V : Type) := Finmap fun _ : K => V

namespace Finmap
open Subp2pExplorer.Lib

section Values
variable {K V : Type}

/-- The number of entries. -/
def size (m : Map K V) : Nat := m.keys.card

/-- The values held, each as often as keys hold it. -/
def values (m : Map K V) : Multiset V := m.entries.map Sigma.snd

theorem card_values (m : Map K V) : m.values.card = m.size := by
  simp [values, size, keys, Multiset.keys, Finset.card_mk]

end Values

variable {K V : Type} [DecidableEq K]

/-- Modify the value of a key that is present, insert one where it is not. -/
def upsert (m : Map K V) (key : K) (modify : V → V) (fresh : V) : Map K V :=
  m.insert key (match m.lookup key with
    | some value => modify value
    | none => fresh)

theorem mem_values {m : Map K V} {value : V} : value ∈ m.values ↔ ∃ key, m.lookup key = some value := by
  simp only [values, Multiset.mem_map, lookup_eq_some_iff]
  constructor
  · rintro ⟨⟨key, value⟩, member, rfl⟩
    exact ⟨key, member⟩
  · rintro ⟨key, member⟩
    exact ⟨⟨key, value⟩, member, rfl⟩

omit [DecidableEq K] in
theorem val_keys (m : Map K V) : m.keys.val = m.entries.map Sigma.fst := by
  simp [keys, Multiset.keys]

/-- A sum over the values, key by key. -/
theorem sum_values (m : Map K V) (weight : V → Nat) :
    (m.values.map weight).sum = ∑ key ∈ m.keys, (m.lookup key).elim 0 weight := by
  have entries : m.entries.map (fun entry => (m.lookup entry.1).elim 0 weight) =
      m.entries.map fun entry => weight entry.2 := by
    refine Multiset.map_congr rfl fun entry member => ?_
    rw [lookup_eq_some_iff.mpr member, Option.elim_some]
  calc (m.values.map weight).sum = (m.entries.map fun entry => weight entry.2).sum := by
        rw [values, Multiset.map_map]
        rfl
    _ = (m.keys.val.map fun key => (m.lookup key).elim 0 weight).sum := by
        rw [← entries, val_keys, Multiset.map_map]
        rfl

/-- Counting the values counts the keys that hold what is counted. -/
theorem count_values (m : Map K V) (counts : V → Bool) :
    m.values.countP (counts ·) = (m.keys.filter fun key => (m.lookup key).any counts = true).card := by
  have same : m.entries.filter (fun entry => (m.lookup entry.1).any counts = true) =
      m.entries.filter fun entry => counts entry.2 = true := by
    refine Multiset.filter_congr fun entry member => ?_
    rw [lookup_eq_some_iff.mpr member, Option.any_some]
  rw [values, Multiset.countP_map, ← same, Finset.card_def, Finset.filter_val, val_keys, Multiset.filter_map,
    Multiset.card_map]
  rfl

theorem keys_insert (m : Map K V) (key : K) (value : V) :
    (m.insert key value).keys = Insert.insert key m.keys := by
  ext other
  simp [mem_keys]

theorem values_insert_fresh {m : Map K V} {key : K} (value : V) (fresh : key ∉ m) :
    (m.insert key value).values = value ::ₘ m.values := by
  simp only [values, entries_insert_of_notMem fresh, Multiset.map_cons]

/-- An erasure takes one occurrence of the value it erases. -/
theorem values_erase {m : Map K V} {key : K} {value : V} (held : m.lookup key = some value) :
    m.values = value ::ₘ (m.erase key).values := by
  have whole : (m.erase key).insert key value = m := by
    refine ext_lookup fun k => ?_
    by_cases same : k = key
    · rw [same, lookup_insert, held]
    · rw [lookup_insert_of_ne _ same, lookup_erase_ne same]
  rw [← values_insert_fresh value (notMem_erase_self (s := m)), whole]

/-- An entry of a map into which one was inserted. -/
theorem inserted_entry {m : Map K V} {key found : K} {value other : V}
    (held : (m.insert key value).lookup found = some other) :
    found = key ∧ other = value ∨ found ≠ key ∧ m.lookup found = some other := by
  by_cases same : found = key
  · subst same
    rw [lookup_insert] at held
    exact .inl ⟨rfl, (Option.some.inj held).symm⟩
  · rw [lookup_insert_of_ne _ same] at held
    exact .inr ⟨same, held⟩

/-- An entry of a map from which one was erased. -/
theorem erased_entry {m : Map K V} {key found : K} {value : V} (held : (m.erase key).lookup found = some value) :
    found ≠ key ∧ m.lookup found = some value := by
  by_cases same : found = key
  · subst same
    rw [lookup_erase] at held
    cases held
  · rw [lookup_erase_ne same] at held
    exact ⟨same, held⟩

/-- Inserting adds at most the inserted value. -/
theorem mem_values_insert {m : Map K V} {key : K} {value other : V}
    (member : other ∈ (m.insert key value).values) : other = value ∨ other ∈ m.values := by
  obtain ⟨found, held⟩ := mem_values.mp member
  rcases inserted_entry held with ⟨-, same⟩ | ⟨-, before⟩
  · exact .inl same
  · exact .inr (mem_values.mpr ⟨found, before⟩)

theorem mem_values_erase {m : Map K V} {key : K} {value : V} (member : value ∈ (m.erase key).values) :
    value ∈ m.values := by
  obtain ⟨found, held⟩ := mem_values.mp member
  exact mem_values.mpr ⟨found, (erased_entry held).2⟩

/-- Where no value is held twice, an erasure leaves none held twice. -/
theorem values_erase_nodup {m : Map K V} {key : K} (apart : m.values.Nodup) : (m.erase key).values.Nodup := by
  induction m using Finmap.induction_on with
  | _ entries =>
    rw [erase_toFinmap]
    have fewer : (entries.erase key).entries.Sublist entries.entries := List.kerase_sublist key entries.entries
    exact (Multiset.coe_nodup.mp apart).sublist (fewer.map Sigma.snd)

/-- Counting under a key adds one to all that is counted. -/
theorem sum_upsert (m : Map K Nat) (key : K) : (m.upsert key (· + 1) 1).values.sum = m.values.sum + 1 := by
  unfold upsert
  cases held : m.lookup key with
  | none =>
    rw [values_insert_fresh _ (lookup_eq_none.mp held), Multiset.sum_cons, Nat.add_comm]
  | some count =>
    have reinserted : m.insert key (count + 1) = (m.erase key).insert key (count + 1) := by
      refine ext_lookup fun k => ?_
      by_cases same : k = key
      · rw [same, lookup_insert, lookup_insert]
      · rw [lookup_insert_of_ne _ same, lookup_insert_of_ne _ same, lookup_erase_ne same]
    dsimp only
    rw [reinserted, values_insert_fresh _ notMem_erase_self, values_erase held, Multiset.sum_cons, Multiset.sum_cons]
    omega

theorem size_insert_fresh {m : Map K V} {key : K} (value : V) (fresh : key ∉ m) :
    (m.insert key value).size = m.size + 1 := by
  rw [size, keys_insert, Finset.card_insert_of_notMem fun member => fresh (mem_keys.mp member), size]

theorem size_insert_le (m : Map K V) (key : K) (value : V) : (m.insert key value).size ≤ m.size + 1 := by
  rw [size, keys_insert]
  exact Finset.card_insert_le _ _

theorem size_erase_le (m : Map K V) (key : K) : (m.erase key).size ≤ m.size := by
  rw [size, keys_erase]
  exact Finset.card_erase_le

theorem lookup_upsert (m : Map K V) (key : K) (modify : V → V) (fresh : V) :
    (m.upsert key modify fresh).lookup key = some ((m.lookup key).elim fresh modify) := by
  rw [upsert, lookup_insert]
  cases m.lookup key <;> rfl

theorem lookup_upsert_ne (m : Map K V) {key other : K} (modify : V → V) (fresh : V) (apart : other ≠ key) :
    (m.upsert key modify fresh).lookup other = m.lookup other := by
  rw [upsert, lookup_insert_of_ne _ apart]

theorem keys_upsert (m : Map K V) (key : K) (modify : V → V) (fresh : V) :
    (m.upsert key modify fresh).keys = Insert.insert key m.keys := by
  rw [upsert, keys_insert]

/-- Two updates commute if their modifications do, and each yields from the
fresh value of the other what the other yields from its own. -/
theorem upsert_right_comm (m : Map K V) (key other : K) {modify modify' : V → V} {fresh fresh' : V}
    (modified : ∀ v, modify' (modify v) = modify (modify' v)) (inserted : modify' fresh = modify fresh') :
    (m.upsert key modify fresh).upsert other modify' fresh' =
      (m.upsert other modify' fresh').upsert key modify fresh := by
  refine ext_lookup fun k => ?_
  by_cases same : key = other
  · subst same
    by_cases here : k = key
    · subst here
      simp only [lookup_upsert]
      cases m.lookup k with
      | none => exact congrArg some inserted
      | some value => exact congrArg some (modified value)
    · simp only [lookup_upsert_ne _ _ _ here]
  · by_cases here : k = key
    · subst here
      rw [lookup_upsert_ne _ _ _ same, lookup_upsert, lookup_upsert, lookup_upsert_ne _ _ _ same]
    · rw [lookup_upsert_ne _ _ _ here]
      by_cases there : k = other
      · subst there
        rw [lookup_upsert, lookup_upsert, lookup_upsert_ne _ _ _ here]
      · rw [lookup_upsert_ne _ _ _ there, lookup_upsert_ne _ _ _ there, lookup_upsert_ne _ _ _ here]

/-- Updating a key with what a property allows keeps the property of all values. -/
theorem upsert_all {m : Map K V} {P : K → V → Prop} {key : K} {modify : V → V} {fresh : V}
    (held : ∀ k v, m.lookup k = some v → P k v) (modified : ∀ v, P key v → P key (modify v))
    (inserted : P key fresh) : ∀ k v, (m.upsert key modify fresh).lookup k = some v → P k v := by
  intro k v found
  by_cases same : k = key
  · subst same
    rw [lookup_upsert, Option.some.injEq] at found
    subst found
    cases prior : m.lookup k with
    | none => exact inserted
    | some value => exact modified value (held k value prior)
  · rw [lookup_upsert_ne m modify fresh same] at found
    exact held k v found

/-- Append to the list a key holds, an empty one where it holds none. -/
def push (m : Map K (List V)) (key : K) (value : V) : Map K (List V) :=
  m.upsert key (fun entry => entry ++ [value]) [value]

/-- Pushed one after another, each key collects its values in order. -/
theorem lookup_push_all (m : Map K (List V)) (pairs : List (K × V)) (key : K) :
    ((pairs.foldl (fun m pair => m.push pair.1 pair.2) m).lookup key).getD [] =
      (m.lookup key).getD [] ++ (pairs.filter (·.1 = key)).map Prod.snd := by
  induction pairs generalizing m with
  | nil => simp
  | cons pair rest ih =>
    rw [List.foldl_cons, ih]
    by_cases same : pair.1 = key
    · subst same
      rw [push, lookup_upsert]
      cases m.lookup pair.1 <;> simp
    · rw [push, lookup_upsert_ne _ _ _ (Ne.symm same)]
      simp [same]

/-- The entries that the elements of a list give, inserted one after another. -/
def insertEach {α : Type} (entry : α → Option (K × V)) (m : Map K V) (l : List α) : Map K V :=
  l.foldl (fun m a => match entry a with
    | some (key, value) => m.insert key value
    | none => m) m

section InsertEach
variable {α : Type} {entry : α → Option (K × V)} {m : Map K V}

theorem insert_each_append (first second : List α) :
    insertEach entry m (first ++ second) = insertEach entry (insertEach entry m first) second := List.foldl_append

theorem insert_each_congr {entry' : α → Option (K × V)} {l : List α} (same : ∀ a ∈ l, entry a = entry' a) :
    insertEach entry m l = insertEach entry' m l := by
  induction l generalizing m with
  | nil => rfl
  | cons a rest ih =>
    obtain ⟨first, others⟩ := List.forall_mem_cons.mp same
    simp only [insertEach, List.foldl_cons, first]
    exact ih others

/-- A loop within a loop is one over the pairs. -/
theorem insert_each_nested {β : Type} (inner : β → List α) (entries : β → α → Option (K × V)) (outer : List β) :
    outer.foldl (fun m b => insertEach (entries b) m (inner b)) m =
      insertEach (fun pair => entries pair.1 pair.2) m (outer.flatMap fun b => (inner b).map (b, ·)) := by
  induction outer generalizing m with
  | nil => rfl
  | cons b rest ih =>
    rw [List.foldl_cons, ih, List.flatMap_cons, insert_each_append]
    congr 1
    rw [insertEach, insertEach, List.foldl_map]

/-- What a key holds then was there, or an element gave it. -/
theorem insert_each_origin {l : List α} {key : K} {value : V}
    (held : (insertEach entry m l).lookup key = some value) :
    m.lookup key = some value ∨ ∃ a ∈ l, entry a = some (key, value) := by
  induction l using List.reverseRecOn with
  | nil => exact .inl held
  | append_singleton l a ih =>
    have kept : (insertEach entry m l).lookup key = some value →
        m.lookup key = some value ∨ ∃ a' ∈ l ++ [a], entry a' = some (key, value) := by
      intro earlier
      obtain there | ⟨a', member, given⟩ := ih earlier
      · exact .inl there
      · exact .inr ⟨a', List.mem_append_left _ member, given⟩
    rw [insert_each_append] at held
    cases given : entry a with
    | none =>
      simp only [insertEach, List.foldl_cons, List.foldl_nil, given] at held
      exact kept held
    | some pair =>
      simp only [insertEach, List.foldl_cons, List.foldl_nil, given] at held
      by_cases same : key = pair.1
      · subst same
        rw [lookup_insert, Option.some_inj] at held
        subst held
        exact .inr ⟨a, by simp, given⟩
      · rw [lookup_insert_of_ne _ same] at held
        exact kept held

theorem mem_insert_each {l : List α} {key : K} :
    key ∈ insertEach entry m l ↔ key ∈ m ∨ ∃ a ∈ l, ∃ value, entry a = some (key, value) := by
  induction l using List.reverseRecOn with
  | nil => simp [insertEach]
  | append_singleton l a ih =>
    rw [insert_each_append]
    have step : key ∈ insertEach entry (insertEach entry m l) [a] ↔
        key ∈ insertEach entry m l ∨ ∃ value, entry a = some (key, value) := by
      cases given : entry a with
      | none => simp [insertEach, given]
      | some pair =>
        simp only [insertEach, List.foldl_cons, List.foldl_nil, given, mem_insert, Option.some_inj]
        constructor
        · rintro (rfl | there)
          · exact .inr ⟨pair.2, rfl⟩
          · exact .inl there
        · rintro (there | ⟨value, rfl⟩)
          · exact .inr there
          · exact .inl rfl
    rw [step, ih]
    simp only [List.mem_append, List.mem_singleton]
    constructor
    · rintro ((there | ⟨a', member, given⟩) | given)
      · exact .inl there
      · exact .inr ⟨a', .inl member, given⟩
      · exact .inr ⟨a, .inr rfl, given⟩
    · rintro (there | ⟨a', member | rfl, given⟩)
      · exact .inl (.inl there)
      · exact .inl (.inr ⟨a', member, given⟩)
      · exact .inr given

/-- Where a function tells every value, none is lost to a later one. -/
theorem lookup_insert_each {l : List α} {f : K → Option V}
    (within : ∀ key value, m.lookup key = some value → f key = some value)
    (entries : ∀ a ∈ l, ∀ key value, entry a = some (key, value) → f key = some value) {key : K} {value : V} :
    (insertEach entry m l).lookup key = some value ↔
      m.lookup key = some value ∨ ∃ a ∈ l, entry a = some (key, value) := by
  have told : ∀ other, (m.lookup key = some other ∨ ∃ a ∈ l, entry a = some (key, other)) → f key = some other := by
    rintro other (there | ⟨a, member, given⟩)
    · exact within key other there
    · exact entries a member key other given
  refine ⟨insert_each_origin, fun given => ?_⟩
  have present : key ∈ insertEach entry m l := by
    refine mem_insert_each.mpr (given.imp (fun there => ?_) fun ⟨a, member, gives⟩ => ⟨a, member, value, gives⟩)
    exact mem_of_lookup_eq_some there
  obtain ⟨other, held⟩ := mem_iff.mp present
  have same : some other = some value := (told other (insert_each_origin held)).symm.trans (told value given)
  rw [held, same]

end InsertEach

/-- The values of a function at listed keys. -/
def tabulate (f : K → Option V) (l : List K) : Map K V :=
  insertEach (fun key => (f key).map (key, ·)) ∅ l

theorem lookup_tabulate {f : K → Option V} {l : List K} {key : K} {value : V} :
    (tabulate f l).lookup key = some value ↔ key ∈ l ∧ f key = some value := by
  rw [tabulate, lookup_insert_each (f := f)]
  · simp only [lookup_empty, reduceCtorEq, false_or, Option.map_eq_some_iff, Prod.mk.injEq]
    constructor
    · rintro ⟨_, member, _, given, rfl, rfl⟩
      exact ⟨member, given⟩
    · rintro ⟨member, given⟩
      exact ⟨key, member, value, given, rfl, rfl⟩
  · intro key value held
    rw [lookup_empty] at held
    cases held
  · intro a _ key value given
    obtain ⟨_, found, same⟩ := Option.map_eq_some_iff.mp given
    cases same
    exact found

theorem mem_of_member {m : Map K (List V)} {key : K} {value : V} (member : value ∈ (m.lookup key).getD []) :
    key ∈ m := by
  by_contra absent
  rw [lookup_eq_none.mpr absent] at member
  exact List.not_mem_nil member

/-- Every value changed in place. -/
def mapValues {W : Type} (m : Map K V) (change : V → W) : Map K W :=
  ⟨m.entries.map fun entry => ⟨entry.1, change entry.2⟩, by
    rw [← Multiset.nodup_keys]
    have keys : (m.entries.map fun entry => (⟨entry.1, change entry.2⟩ : (_ : K) × W)).keys = m.entries.keys := by
      rw [Multiset.keys, Multiset.keys, Multiset.map_map]
      rfl
    rw [keys]
    exact Multiset.nodup_keys.mpr m.nodupKeys⟩

theorem lookup_map_values {W : Type} (m : Map K V) (change : V → W) (key : K) :
    (m.mapValues change).lookup key = (m.lookup key).map change := by
  refine Option.ext fun value => ?_
  rw [Option.map_eq_some_iff, lookup_eq_some_iff]
  simp only [mapValues, Multiset.mem_map, Sigma.mk.injEq, heq_eq_eq, lookup_eq_some_iff]
  constructor
  · rintro ⟨⟨_, held⟩, member, rfl, rfl⟩
    exact ⟨held, member, rfl⟩
  · rintro ⟨held, member, rfl⟩
    exact ⟨⟨key, held⟩, member, rfl, rfl⟩

end Finmap

namespace Subp2pExplorer.Lib.HashSet
variable {α : Type} [DecidableEq α]

/-- A set walked in the order of a list that holds its elements. -/
def iterate (order : List α) (s : Finset α) : List α := order.filter (· ∈ s)

theorem mem_iterate {order : List α} {s : Finset α} {a : α} :
    a ∈ iterate order s ↔ a ∈ order ∧ a ∈ s := by
  simp [iterate]

theorem iterate_nodup {order : List α} (distinct : order.Nodup) (s : Finset α) : (iterate order s).Nodup :=
  distinct.filter _

/-- An order in which exactly the elements of a set are walked, each once. -/
structure Walks (order : List α) (s : Finset α) : Prop where
  distinct : order.Nodup
  exact : ∀ a, a ∈ order ↔ a ∈ s

theorem iterate_walk {order : List α} {s : Finset α} (walks : Walks order s) : iterate order s = order := by
  apply List.filter_eq_self.mpr
  intro a member
  exact decide_eq_true ((walks.exact a).mp member)

theorem Walks.length_eq {order : List α} {s : Finset α} (walks : Walks order s) : order.length = s.card := by
  rw [← List.toFinset_card_of_nodup walks.distinct]
  congr 1
  ext a
  rw [List.mem_toFinset, walks.exact]

/-- A walk counts what the set holds. -/
theorem walk_count {order : List α} {s : Finset α} (walks : Walks order s) (counts : α → Bool) :
    (iterate order s).countP counts = (s.filter fun a => counts a = true).card := by
  have same : (order.filter counts).toFinset = s.filter fun a => counts a = true := by
    ext a
    simp [walks.exact]
  rw [iterate_walk walks, List.countP_eq_length_filter, ← same,
    List.toFinset_card_of_nodup (walks.distinct.filter _)]

/-- A walk over the keys goes through a list group by group. -/
theorem walk_groups {β : Type} {order : List α} {s : Finset α} (walks : Walks order s) (key : β → α) {l : List β}
    (keys : ∀ b ∈ l, key b ∈ s) : (order.flatMap fun k => l.filter (key · = k)).Perm l := by
  have groups : ∀ (order : List α), order.Nodup →
      (order.flatMap fun k => l.filter (key · = k)).Perm (l.filter (key · ∈ order)) := by
    intro order
    induction order with
    | nil => simp
    | cons k order ih =>
      intro distinct
      obtain ⟨fresh, distinct⟩ := List.nodup_cons.mp distinct
      have split := List.filter_append_perm (fun b => decide (key b = k)) (l.filter (key · ∈ k :: order))
      have first : (l.filter (key · ∈ k :: order)).filter (fun b => decide (key b = k)) = l.filter (key · = k) := by
        rw [List.filter_filter]
        refine List.filter_congr fun b _ => ?_
        by_cases here : key b = k <;> simp [here]
      have others : (l.filter (key · ∈ k :: order)).filter (fun b => !decide (key b = k)) =
          l.filter (key · ∈ order) := by
        rw [List.filter_filter]
        refine List.filter_congr fun b _ => ?_
        by_cases here : key b = k <;> simp [here, fresh]
      rw [first, others] at split
      exact ((ih distinct).append_left _).trans split
  have all : l.filter (key · ∈ order) = l :=
    List.filter_eq_self.mpr fun b member => decide_eq_true ((walks.exact _).mpr (keys b member))
  have walked := groups order walks.distinct
  rwa [all] at walked

/-- Every element comes first in some order. -/
theorem exists_walk {s : Finset α} {a : α} (member : a ∈ s) : ∃ rest, Walks (a :: rest) s := by
  refine ⟨(s.erase a).toList, List.nodup_cons.mpr ⟨?_, Finset.nodup_toList _⟩, fun b => ?_⟩
  · simp
  · by_cases same : b = a
    · simp [same, member]
    · simp [same]

/-- A loop whose rounds each insert their element inserts them all. -/
theorem fold_inserts {σ : Type} {f : σ → α → σ} (get : σ → Finset α) (inserts : ∀ s a, get (f s a) = insert a (get s))
    (l : List α) (s : σ) : get (l.foldl f s) = get s ∪ l.toFinset := by
  induction l generalizing s with
  | nil => simp
  | cons a l ih =>
    rw [List.foldl_cons, ih, inserts, List.toFinset_cons, Finset.insert_union, Finset.union_insert]

/-- A way to walk every set. -/
structure Order (α : Type) [DecidableEq α] where
  walk : Finset α → List α
  walks : ∀ s, Walks (walk s) s

@[simp] theorem Order.mem_walk (order : Order α) {s : Finset α} {a : α} : a ∈ order.walk s ↔ a ∈ s :=
  (order.walks s).exact a

/-- Some order of each set. -/
noncomputable def Order.arbitrary (α : Type) [DecidableEq α] : Order α :=
  ⟨Finset.toList, fun s => ⟨Finset.nodup_toList s, fun _ => Finset.mem_toList⟩⟩

end Subp2pExplorer.Lib.HashSet

namespace Finmap
open Subp2pExplorer.Lib
variable {K V : Type} [DecidableEq K]

/-- The entries of a map in the order in which its keys are walked. -/
def iterate (order : List K) (m : Map K V) : List (K × V) :=
  order.filterMap fun key => (m.lookup key).map (key, ·)

/-- An entry for each key that is walked, where the map has all of them. -/
theorem iterate_keys {order : List K} {m : Map K V} (held : ∀ key ∈ order, key ∈ m) :
    (iterate order m).map Prod.fst = order := by
  induction order with
  | nil => rfl
  | cons key order ih =>
    obtain ⟨value, found⟩ := mem_iff.mp (held key List.mem_cons_self)
    have first : iterate (key :: order) m = (key, value) :: iterate order m := by
      simp only [iterate, List.filterMap_cons, found, Option.map_some]
    rw [first, List.map_cons, ih fun other member => held other (List.mem_cons_of_mem _ member)]

theorem mem_iterate {order : List K} {m : Map K V} {key : K} {value : V} (member : (key, value) ∈ iterate order m) :
    m.lookup key = some value := by
  obtain ⟨other, _, found⟩ := List.mem_filterMap.mp member
  obtain ⟨_, held, same⟩ := Option.map_eq_some_iff.mp found
  cases same
  exact held

/-- The map that some entries make, a later one over an earlier one. -/
def collect (entries : List (K × V)) : Map K V := entries.foldl (fun m entry => m.insert entry.1 entry.2) ∅

/-- What was collected of entries whose keys are distinct is these entries. -/
theorem lookup_collect {entries : List (K × V)} (distinct : (entries.map Prod.fst).Nodup) {key : K} {value : V} :
    (collect entries).lookup key = some value ↔ (key, value) ∈ entries := by
  unfold collect
  induction entries using List.reverseRecOn with
  | nil => simp
  | append_singleton entries entry ih =>
    rw [List.map_append, List.map_singleton, List.nodup_append] at distinct
    obtain ⟨before, -, apart⟩ := distinct
    rw [List.foldl_append, List.foldl_cons, List.foldl_nil, List.mem_append, List.mem_singleton]
    by_cases same : key = entry.1
    · subst same
      have absent : (entry.1, value) ∉ entries := fun member =>
        apart entry.1 (List.mem_map.mpr ⟨_, member, rfl⟩) entry.1 List.mem_cons_self rfl
      rw [lookup_insert, or_iff_right absent]
      exact ⟨fun found => by cases found; rfl, fun equal => congrArg some (congrArg Prod.snd equal).symm⟩
    · rw [lookup_insert_of_ne _ same, ih before]
      exact (or_iff_left fun equal => same (congrArg Prod.fst equal)).symm

theorem iterate_distinct {order : List K} (distinct : order.Nodup) (m : Map K V) :
    ((iterate order m).map Prod.fst).Nodup := by
  have kept : (iterate order m).map Prod.fst = order.filter fun key => (m.lookup key).isSome := by
    rw [iterate, List.map_filterMap, ← List.filterMap_eq_filter]
    refine List.filterMap_congr fun key _ => ?_
    cases found : m.lookup key <;> simp [found, Option.guard]
  rw [kept]
  exact distinct.filter _

theorem mem_iterate_walk {order : List K} {m : Map K V} (walks : HashSet.Walks order m.keys) {key : K} {value : V} :
    (key, value) ∈ iterate order m ↔ m.lookup key = some value := by
  refine ⟨mem_iterate, fun found => ?_⟩
  have held : key ∈ order := (walks.exact key).mpr (mem_keys.mpr (mem_iff.mpr ⟨value, found⟩))
  exact List.mem_filterMap.mpr ⟨key, held, by rw [found, Option.map_some]⟩

/-- What is counted on a walk is counted of the keys. -/
theorem count_iterate {order : List K} {m : Map K V} (walks : HashSet.Walks order m.keys) (counts : K × V → Bool) :
    (iterate order m).countP counts = (m.keys.filter fun key => (m.lookup key).any fun value => counts (key, value)).card := by
  have each : (iterate order m).countP counts = order.countP fun key => (m.lookup key).any fun value => counts (key, value) := by
    rw [iterate, List.countP_filterMap]
    refine List.countP_congr fun key _ => ?_
    cases m.lookup key <;> simp
  have whole := HashSet.walk_count walks fun key => (m.lookup key).any fun value => counts (key, value)
  rw [HashSet.iterate_walk walks] at whole
  rw [each, whole]

/-- What is added up on a walk is the sum of the values. -/
theorem sum_iterate {order : List K} {m : Map K Nat} (walks : HashSet.Walks order m.keys) :
    ((iterate order m).map Prod.snd).sum = m.values.sum := by
  have each : ((iterate order m).map Prod.snd).sum = (order.map fun key => (m.lookup key).elim 0 id).sum := by
    clear walks
    induction order with
    | nil => rfl
    | cons key order ih =>
      rw [List.map_cons, List.sum_cons, ← ih, iterate, List.filterMap_cons]
      cases m.lookup key with
      | none => exact (Nat.zero_add _).symm
      | some value => rfl
  have whole : order.toFinset = m.keys := Finset.ext fun key => List.mem_toFinset.trans (walks.exact key)
  have total := sum_values m id
  rw [Multiset.map_id] at total
  rw [each, total, ← whole, List.sum_toFinset _ walks.distinct]

/-- A map is collected from its entries, in whatever order it is walked. -/
theorem collect_iterate {order : List K} {m : Map K V} (walks : HashSet.Walks order m.keys) :
    collect (iterate order m) = m := by
  refine ext_lookup fun key => Option.ext fun value => ?_
  rw [lookup_collect (iterate_distinct walks.distinct m), mem_iterate_walk walks]

theorem keys_push_all (pairs : List (K × V)) (m : Map K (List V)) :
    (pairs.foldl (fun m pair => m.push pair.1 pair.2) m).keys = m.keys ∪ (pairs.map Prod.fst).toFinset := by
  induction pairs generalizing m with
  | nil => simp
  | cons pair rest ih =>
    rw [List.foldl_cons, ih, push, keys_upsert, List.map_cons, List.toFinset_cons, Finset.insert_union,
      Finset.union_insert]

/-- Lists that were pushed together, walked key by key. -/
theorem iterate_push_all {order : List K} {pairs : List (K × V)}
    (walks : HashSet.Walks order (pairs.map Prod.fst).toFinset) :
    iterate order (pairs.foldl (fun m pair => m.push pair.1 pair.2) ∅) =
      order.map fun key => (key, (pairs.filter (·.1 = key)).map Prod.snd) := by
  rw [iterate, ← List.filterMap_eq_map]
  refine List.filterMap_congr fun key member => ?_
  have held : key ∈ pairs.foldl (fun m pair => m.push pair.1 pair.2) (∅ : Map K (List V)) := by
    rw [← mem_keys, keys_push_all]
    exact Finset.mem_union_right _ ((walks.exact key).mp member)
  obtain ⟨values, found⟩ := mem_iff.mp held
  have collected := lookup_push_all ∅ pairs key
  rw [found, lookup_empty] at collected
  rw [found, Option.map_some, Function.comp_apply]
  exact congrArg (fun values => some (key, values)) collected

end Finmap
