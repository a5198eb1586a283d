import Subp2pExplorer.Lib.Maps
import Subp2pExplorer.Identity.Registration
import Subp2pExplorer.Identity.Storage

/-! The display names of authorities. An authority is resolved to its stash on
the relay chain, and the stash to a name on the identity chain, its own or that
of its parent. The command does it for all authorities at once, through a map
from stashes back to authorities. -/
namespace Subp2pExplorer.Identity
open Lib Lib.Scale Authorities

/-! ## The plain resolution -/

/-- The account in the first 32 bytes of a value. -/
def leadingAccount (raw : Bytes) : Option Account :=
  if long : 32 ≤ raw.length then some ⟨raw.take 32, by simpa using long⟩ else none

/-- `decode_super_of_parent`. -/
def decodeSuperOfParent (raw : Bytes) : Option Account := leadingAccount raw

/-- The two chains that are asked. -/
structure Chains where
  relay : ChainStorage
  identity : ChainStorage

section Plain
variable (hashers : Hashers) (decoder : Decoder) (chains : Chains)

/-- The stash of an authority. -/
def plainStash (authority : PublicKey) : Option Account :=
  (chains.relay (storageKeySessionKeyOwner hashers authority)).bind leadingAccount

/-- The name an account has registered. -/
def ownName (account : Account) : Option String :=
  (chains.identity (storageKeyIdentityOf hashers account)).bind (decodeDisplayName decoder)

def parentOf (account : Account) : Option Account :=
  (chains.identity (storageKeySuperOf hashers account)).bind decodeSuperOfParent

/-- The name of an account: its own, otherwise that of its parent. -/
def accountName (account : Account) : Option String :=
  (ownName hashers decoder chains account).or
    ((parentOf hashers chains account).bind (ownName hashers decoder chains))

/-- One authority resolved, without regard to the others. -/
def plainName (authority : PublicKey) : Option String :=
  (plainStash hashers chains authority).bind (accountName hashers decoder chains)

/-- No two of the authorities have a stash in common that resolves to a name. -/
def NamesUnshared (authorities : List PublicKey) : Prop :=
  ∀ a ∈ authorities, ∀ b ∈ authorities, ∀ stash,
    plainStash hashers chains a = some stash → plainStash hashers chains b = some stash →
    (accountName hashers decoder chains stash).isSome → a = b

end Plain

/-! ## The command -/

structure IdentityResult where
  names : Map PublicKey String
  stashAccounts : Map PublicKey Account

def emptyResult : IdentityResult := ⟨∅, ∅⟩

/-- The orders in which the three maps are walked. -/
structure WalkOrders where
  authorities : HashSet.Order PublicKey
  stashes : HashSet.Order Account
  parents : HashSet.Order Account

section Command
variable (hashers : Hashers) (decoder : Decoder) (orders : WalkOrders)

def keyOwnerQueries (authorities : List PublicKey) : List (PublicKey × String) :=
  authorities.map fun auth => (auth, storageKeySessionKeyOwner hashers auth)

def authToStash (keyOwnerValues : Map String Bytes) (queries : List (PublicKey × String)) : Map PublicKey Account :=
  .insertEach (fun query => ((keyOwnerValues.lookup query.2).bind leadingAccount).map (query.1, ·)) ∅ queries

/-- The inverse map. Of the authorities with one stash the last walked stays. -/
def stashToAuth (stashes : Map PublicKey Account) : Map Account PublicKey :=
  .insertEach (fun auth => (stashes.lookup auth).map (·, auth)) ∅ (orders.authorities.walk stashes.keys)

section Names
variable (owners : Map Account PublicKey)

/-- A stash with a name of its own gives it to its authority, another is
missing. -/
def nameStash (identityValues : Map String Bytes) (state : Map PublicKey String × List Account)
    (entry : Account × String) : Map PublicKey String × List Account :=
  match (identityValues.lookup entry.2).bind (decodeDisplayName decoder) with
  | some display =>
    (match owners.lookup entry.1 with
      | some auth => state.1.insert auth display
      | none => state.1, state.2)
  | none => (state.1, state.2 ++ [entry.1])

def parentToChildren (superValues : Map String Bytes) (entries : List (Account × String)) :
    Map Account (List Account) :=
  entries.foldl (fun children entry =>
    match (superValues.lookup entry.2).bind decodeSuperOfParent with
    | some parent => children.push parent entry.1
    | none => children) ∅

/-- A parent with a name gives it to the authorities of its children. -/
def nameChildren (children : Map Account (List Account)) (parentValues : Map String Bytes)
    (names : Map PublicKey String) (entry : Account × String) : Map PublicKey String :=
  match (parentValues.lookup entry.2).bind (decodeDisplayName decoder) with
  | some display =>
    .insertEach (fun child => (owners.lookup child).map (·, display)) names ((children.lookup entry.1).getD [])
  | none => names

variable {ε : Type} (rpc : Client ε)

/-- The stashes without a name of their own: a failed request leaves the names
as they are. -/
def nameMissing (missing : List Account) (names : Map PublicKey String) : Map PublicKey String :=
  if missing.isEmpty then names
  else
    let superKeys := missing.map (storageKeySuperOf hashers)
    match batchGetStorage rpc superKeys with
    | .error _ => names
    | .ok superValues =>
      let children := parentToChildren superValues (missing.zip superKeys)
      if children.keys = ∅ then names
      else
        let parentAccounts := orders.parents.walk children.keys
        let parentIdKeys := parentAccounts.map (storageKeyIdentityOf hashers)
        match batchGetStorage rpc parentIdKeys with
        | .error _ => names
        | .ok parentValues =>
          (parentAccounts.zip parentIdKeys).foldl (nameChildren decoder owners children parentValues) names

end Names

/-- `fetch_identity_names`. -/
def fetchIdentityNames {Url ε : Type} (connect : Url → Except ε (Client ε)) (relayUrl : Url) (identityUrl : Option Url)
    (authorities : List PublicKey) : IdentityResult :=
  match connect relayUrl with
  | .error _ => emptyResult
  | .ok relayClient =>
    let queries := keyOwnerQueries hashers authorities
    match batchGetStorage relayClient (queries.map Prod.snd) with
    | .error _ => emptyResult
    | .ok keyOwnerValues =>
      let stashes := authToStash keyOwnerValues queries
      if stashes.keys = ∅ then emptyResult
      else
        match connect (identityUrl.getD relayUrl) with
        | .error _ => ⟨∅, stashes⟩
        | .ok identityClient =>
          let owners := stashToAuth orders stashes
          let uniqueStashes := orders.stashes.walk owners.keys
          let identityKeys := uniqueStashes.map (storageKeyIdentityOf hashers)
          match batchGetStorage identityClient identityKeys with
          | .error _ => ⟨∅, stashes⟩
          | .ok identityValues =>
            let named := (uniqueStashes.zip identityKeys).foldl (nameStash decoder owners identityValues) (∅, [])
            ⟨nameMissing hashers decoder orders owners identityClient named.2 named.1, stashes⟩

end Command

/-! ## The inverse map -/

section Inverse
variable {orders : WalkOrders} {stashes : Map PublicKey Account}

/-- A stash leads back to an authority it was reached from. -/
theorem stash_to_auth_origin {stash : Account} {auth : PublicKey}
    (led : (stashToAuth orders stashes).lookup stash = some auth) : stashes.lookup auth = some stash := by
  obtain nothing | ⟨_, _, given⟩ := Finmap.insert_each_origin led
  · cases nothing
  · obtain ⟨_, held, same⟩ := Option.map_eq_some_iff.mp given
    cases same
    exact held

theorem mem_stash_to_auth {stash : Account} :
    stash ∈ stashToAuth orders stashes ↔ ∃ auth, stashes.lookup auth = some stash := by
  rw [stashToAuth, Finmap.mem_insert_each]
  constructor
  · rintro (nothing | ⟨auth, _, _, given⟩)
    · exact absurd nothing Finmap.notMem_empty
    · obtain ⟨_, held, same⟩ := Option.map_eq_some_iff.mp given
      cases same
      exact ⟨auth, held⟩
  · rintro ⟨auth, held⟩
    refine .inr ⟨auth, ?_, auth, by rw [held, Option.map_some]⟩
    rw [HashSet.Order.mem_walk, Finmap.mem_keys]
    exact Finmap.mem_of_lookup_eq_some held

end Inverse

/-! ## The joins -/

section Joins
variable {hashers : Hashers} {decoder : Decoder} {orders : WalkOrders} {chains : Chains}

/-- The queries joined with their values resolve every listed authority. -/
theorem auth_to_stash_plain {values : Map String Bytes} {authorities : List PublicKey}
    (read : ∀ key ∈ (keyOwnerQueries hashers authorities).map Prod.snd, values.lookup key = chains.relay key) :
    authToStash values (keyOwnerQueries hashers authorities) =
      Finmap.tabulate (plainStash hashers chains) authorities := by
  have joined : authToStash values (keyOwnerQueries hashers authorities) = .insertEach (fun auth =>
      ((values.lookup (storageKeySessionKeyOwner hashers auth)).bind leadingAccount).map (auth, ·)) ∅ authorities := by
    rw [authToStash, keyOwnerQueries, Finmap.insertEach, List.foldl_map]
    rfl
  rw [joined, Finmap.tabulate]
  refine Finmap.insert_each_congr fun auth member => ?_
  have queried : storageKeySessionKeyOwner hashers auth ∈ (keyOwnerQueries hashers authorities).map Prod.snd := by
    rw [keyOwnerQueries, List.map_map]
    exact List.mem_map_of_mem member
  rw [read _ queried, plainStash]

variable {owners : Map Account PublicKey}

/-- The stashes with a name of their own are named, the others kept apart. -/
theorem name_stashes {values : Map String Bytes} (entries : List (Account × String))
    (names : Map PublicKey String) (missing : List Account) :
    entries.foldl (nameStash decoder owners values) (names, missing) =
      (.insertEach (fun entry => ((values.lookup entry.2).bind (decodeDisplayName decoder)).bind fun display =>
        (owners.lookup entry.1).map (·, display)) names entries,
      missing ++ (entries.filter fun entry =>
        ((values.lookup entry.2).bind (decodeDisplayName decoder)).isNone).map Prod.fst) := by
  induction entries generalizing names missing with
  | nil => simp [Finmap.insertEach]
  | cons entry rest ih =>
    rw [List.foldl_cons]
    cases decoded : (values.lookup entry.2).bind (decodeDisplayName decoder) with
    | none => simp [nameStash, decoded, ih, Finmap.insertEach]
    | some display => cases led : owners.lookup entry.1 <;> simp [nameStash, decoded, led, ih, Finmap.insertEach]

/-- A parent has the children that name it. -/
theorem mem_parent_to_children {values : Map String Bytes} {entries : List (Account × String)}
    {parent child : Account} :
    child ∈ ((parentToChildren values entries).lookup parent).getD [] ↔
      ∃ key, (child, key) ∈ entries ∧ (values.lookup key).bind decodeSuperOfParent = some parent := by
  have pushed : parentToChildren values entries =
      (entries.filterMap fun entry =>
        ((values.lookup entry.2).bind decodeSuperOfParent).map (·, entry.1)).foldl
          (fun children pair => children.push pair.1 pair.2) ∅ := by
    rw [List.foldl_filterMap, parentToChildren]
    congr
    funext children entry
    cases (values.lookup entry.2).bind decodeSuperOfParent <;> rfl
  rw [pushed, Finmap.lookup_push_all]
  simp only [Finmap.lookup_empty, Option.getD_none, List.nil_append, List.mem_map, List.mem_filter,
    List.mem_filterMap, Option.map_eq_some_iff, decide_eq_true_eq]
  constructor
  · rintro ⟨_, ⟨⟨entry, member, parent, found, rfl⟩, rfl⟩, rfl⟩
    exact ⟨entry.2, member, found⟩
  · rintro ⟨key, member, found⟩
    exact ⟨(parent, child), ⟨⟨(child, key), member, parent, found, rfl⟩, rfl⟩, rfl⟩

theorem name_children {children : Map Account (List Account)} {values : Map String Bytes}
    (names : Map PublicKey String) (entry : Account × String) :
    nameChildren decoder owners children values names entry =
      .insertEach (fun child => ((values.lookup entry.2).bind (decodeDisplayName decoder)).bind fun display =>
        (owners.lookup child).map (·, display)) names ((children.lookup entry.1).getD []) := by
  rw [nameChildren]
  cases (values.lookup entry.2).bind (decodeDisplayName decoder) with
  | some display => rfl
  | none =>
    symm
    exact List.foldl_fixed' (fun _ => rfl) _

/-- Keys listed beside what they are made of. -/
theorem mem_zip_keys {accounts : List Account} {keyOf : Account → String} {account : Account} {key : String} :
    (account, key) ∈ accounts.zip (accounts.map keyOf) ↔ account ∈ accounts ∧ keyOf account = key := by
  rw [← List.map_prod_left_eq_zip, List.mem_map]
  constructor
  · rintro ⟨_, member, same⟩
    cases same
    exact ⟨member, rfl⟩
  · rintro ⟨member, rfl⟩
    exact ⟨account, member, rfl⟩

/-- The missing stashes are grouped under the parents the chain tells. -/
theorem grouped_children {superValues : Map String Bytes} {missing : List Account}
    (read : ∀ key ∈ missing.map (storageKeySuperOf hashers), superValues.lookup key = chains.identity key)
    {parent child : Account} :
    child ∈ ((parentToChildren superValues (missing.zip (missing.map (storageKeySuperOf hashers)))).lookup
        parent).getD [] ↔ child ∈ missing ∧ parentOf hashers chains child = some parent := by
  rw [mem_parent_to_children]
  constructor
  · rintro ⟨_, member, found⟩
    obtain ⟨listed, rfl⟩ := mem_zip_keys.mp member
    rw [read _ (List.mem_map_of_mem listed)] at found
    exact ⟨listed, found⟩
  · rintro ⟨listed, found⟩
    refine ⟨_, mem_zip_keys.mpr ⟨listed, rfl⟩, ?_⟩
    rw [read _ (List.mem_map_of_mem listed)]
    exact found

/-- The values beside the accounts decode to the names of the accounts. -/
theorem own_name_read {values : Map String Bytes} {accounts : List Account}
    (read : ∀ key ∈ accounts.map (storageKeyIdentityOf hashers), values.lookup key = chains.identity key)
    {account : Account} {key : String} (member : (account, key) ∈ accounts.zip (accounts.map (storageKeyIdentityOf hashers))) :
    (values.lookup key).bind (decodeDisplayName decoder) = ownName hashers decoder chains account := by
  obtain ⟨listed, rfl⟩ := mem_zip_keys.mp member
  rw [read _ (List.mem_map_of_mem listed), ownName]

theorem account_name_own {account : Account} {name : String} (own : ownName hashers decoder chains account = some name) :
    accountName hashers decoder chains account = some name := by
  rw [accountName, own, Option.some_or]

theorem account_name_missing {account : Account} (missing : ownName hashers decoder chains account = none) :
    accountName hashers decoder chains account =
      (parentOf hashers chains account).bind (ownName hashers decoder chains) := by
  rw [accountName, missing, Option.none_or]

/-- A name given to the authority of an account. -/
theorem given_name {display : Option String} {owner : Option PublicKey} {auth : PublicKey} {name : String} :
    (display.bind fun display => owner.map (·, display)) = some (auth, name) ↔
      display = some name ∧ owner = some auth := by
  cases display <;> cases owner <;> simp [and_comm]

variable {ε : Type} {rpc : Client ε} {stashes : Map PublicKey Account}

/-- The stashes whose own name goes to their authorities. -/
theorem name_own {values : Map String Bytes} {uniqueStashes : List Account}
    (read : ∀ key ∈ uniqueStashes.map (storageKeyIdentityOf hashers), values.lookup key = chains.identity key)
    {auth : PublicKey} {name : String} :
    ((uniqueStashes.zip (uniqueStashes.map (storageKeyIdentityOf hashers))).foldl
        (nameStash decoder (stashToAuth orders stashes) values) (∅, [])).1.lookup auth = some name ↔
      ∃ stash ∈ uniqueStashes, (stashToAuth orders stashes).lookup stash = some auth ∧
        ownName hashers decoder chains stash = some name := by
  have given_own : ∀ entry ∈ uniqueStashes.zip (uniqueStashes.map (storageKeyIdentityOf hashers)), ∀ auth name,
      (((values.lookup entry.2).bind (decodeDisplayName decoder)).bind fun display =>
        ((stashToAuth orders stashes).lookup entry.1).map (·, display)) = some (auth, name) ↔
      ownName hashers decoder chains entry.1 = some name ∧ (stashToAuth orders stashes).lookup entry.1 = some auth := by
    intro entry listed auth name
    rw [given_name, own_name_read read listed]
  rw [name_stashes, Finmap.lookup_insert_each (f := fun auth =>
    (stashes.lookup auth).bind (accountName hashers decoder chains))]
  · constructor
    · rintro (nothing | ⟨entry, listed, given⟩)
      · rw [Finmap.lookup_empty] at nothing
        cases nothing
      · obtain ⟨own, led⟩ := (given_own entry listed auth name).mp given
        exact ⟨entry.1, (mem_zip_keys.mp listed).1, led, own⟩
    · rintro ⟨stash, member, led, own⟩
      have listed : (stash, storageKeyIdentityOf hashers stash) ∈
          uniqueStashes.zip (uniqueStashes.map (storageKeyIdentityOf hashers)) := mem_zip_keys.mpr ⟨member, rfl⟩
      exact .inr ⟨_, listed, (given_own _ listed auth name).mpr ⟨own, led⟩⟩
  · intro auth name nothing
    rw [Finmap.lookup_empty] at nothing
    cases nothing
  · intro entry listed auth name given
    obtain ⟨own, led⟩ := (given_own entry listed auth name).mp given
    rw [stash_to_auth_origin led, Option.bind_some, account_name_own own]

theorem mem_missing {values : Map String Bytes} {uniqueStashes : List Account}
    (read : ∀ key ∈ uniqueStashes.map (storageKeyIdentityOf hashers), values.lookup key = chains.identity key)
    {owners : Map Account PublicKey} {stash : Account} :
    stash ∈ ((uniqueStashes.zip (uniqueStashes.map (storageKeyIdentityOf hashers))).foldl
        (nameStash decoder owners values) (∅, [])).2 ↔
      stash ∈ uniqueStashes ∧ ownName hashers decoder chains stash = none := by
  simp only [name_stashes, List.nil_append, List.mem_map, List.mem_filter, Option.isNone_iff_eq_none]
  constructor
  · rintro ⟨⟨_, key⟩, ⟨listed, unnamed⟩, rfl⟩
    rw [own_name_read read listed] at unnamed
    exact ⟨(mem_zip_keys.mp listed).1, unnamed⟩
  · rintro ⟨member, unnamed⟩
    have listed : (stash, storageKeyIdentityOf hashers stash) ∈
        uniqueStashes.zip (uniqueStashes.map (storageKeyIdentityOf hashers)) := mem_zip_keys.mpr ⟨member, rfl⟩
    exact ⟨_, ⟨listed, (own_name_read read listed).trans unnamed⟩, rfl⟩

/-- The parents that have a name give it to their children. -/
theorem name_by_parents {children : Map Account (List Account)} {parentValues : Map String Bytes}
    {names : Map PublicKey String} {missing parents : List Account}
    (unnamed : ∀ child ∈ missing, ownName hashers decoder chains child = none)
    (grouped : ∀ parent child, child ∈ (children.lookup parent).getD [] ↔
      child ∈ missing ∧ parentOf hashers chains child = some parent)
    (walked : ∀ parent, parent ∈ parents ↔ parent ∈ children)
    (read : ∀ key ∈ parents.map (storageKeyIdentityOf hashers), parentValues.lookup key = chains.identity key)
    (within : ∀ auth name, names.lookup auth = some name →
      (stashes.lookup auth).bind (accountName hashers decoder chains) = some name) {auth : PublicKey} {name : String} :
    ((parents.zip (parents.map (storageKeyIdentityOf hashers))).foldl
        (nameChildren decoder (stashToAuth orders stashes) children parentValues) names).lookup auth = some name ↔
      names.lookup auth = some name ∨ ∃ child ∈ missing, (stashToAuth orders stashes).lookup child = some auth ∧
        accountName hashers decoder chains child = some name := by
  have step : nameChildren decoder (stashToAuth orders stashes) children parentValues = fun names entry =>
      .insertEach (fun child => ((parentValues.lookup entry.2).bind (decodeDisplayName decoder)).bind fun display =>
        ((stashToAuth orders stashes).lookup child).map (·, display)) names ((children.lookup entry.1).getD []) := by
    funext names entry
    exact name_children names entry
  rw [step, Finmap.insert_each_nested]
  -- What a pair of a parent and its child gives is the name of the child.
  have given_child : ∀ pair ∈ (parents.zip (parents.map (storageKeyIdentityOf hashers))).flatMap
        (fun entry => ((children.lookup entry.1).getD []).map (entry, ·)), ∀ auth name,
      (((parentValues.lookup pair.1.2).bind (decodeDisplayName decoder)).bind fun display =>
        ((stashToAuth orders stashes).lookup pair.2).map (·, display)) = some (auth, name) →
      pair.2 ∈ missing ∧ (stashToAuth orders stashes).lookup pair.2 = some auth ∧
        accountName hashers decoder chains pair.2 = some name := by
    intro pair member auth name given
    obtain ⟨⟨parent, key⟩, listed, inner⟩ := List.mem_flatMap.mp member
    obtain ⟨child, belongs, rfl⟩ := List.mem_map.mp inner
    obtain ⟨display, led⟩ := given_name.mp given
    rw [own_name_read read listed] at display
    obtain ⟨listed, found⟩ := (grouped parent child).mp belongs
    refine ⟨listed, led, ?_⟩
    rw [account_name_missing (unnamed child listed), found, Option.bind_some, display]
  rw [Finmap.lookup_insert_each within]
  · refine or_congr_right ⟨?_, ?_⟩
    · rintro ⟨pair, member, given⟩
      exact ⟨pair.2, given_child pair member auth name given⟩
    · rintro ⟨child, listed, led, named⟩
      rw [account_name_missing (unnamed child listed)] at named
      obtain ⟨parent, found, own⟩ := Option.bind_eq_some_iff.mp named
      have belongs := (grouped parent child).mpr ⟨listed, found⟩
      have entry : (parent, storageKeyIdentityOf hashers parent) ∈
          parents.zip (parents.map (storageKeyIdentityOf hashers)) :=
        mem_zip_keys.mpr ⟨(walked parent).mpr (Finmap.mem_of_member belongs), rfl⟩
      refine ⟨((parent, storageKeyIdentityOf hashers parent), child),
        List.mem_flatMap.mpr ⟨_, entry, List.mem_map_of_mem belongs⟩, given_name.mpr ⟨?_, led⟩⟩
      rw [own_name_read read entry, own]
  · intro pair member auth name given
    obtain ⟨_, led, named⟩ := given_child pair member auth name given
    rw [stash_to_auth_origin led, Option.bind_some, named]

/-- The names that the missing stashes add are those of their parents. -/
theorem name_missing (serves : Serves rpc chains.identity) {missing : List Account} {names : Map PublicKey String}
    (unnamed : ∀ child ∈ missing, ownName hashers decoder chains child = none)
    (within : ∀ auth name, names.lookup auth = some name →
      (stashes.lookup auth).bind (accountName hashers decoder chains) = some name) {auth : PublicKey} {name : String} :
    (nameMissing hashers decoder orders (stashToAuth orders stashes) rpc missing names).lookup auth = some name ↔
      names.lookup auth = some name ∨ ∃ child ∈ missing, (stashToAuth orders stashes).lookup child = some auth ∧
        accountName hashers decoder chains child = some name := by
  unfold nameMissing
  by_cases done : missing.isEmpty
  · rw [if_pos done, List.isEmpty_iff.mp done]
    simp
  obtain ⟨superValues, supers, superRead⟩ := batch_get_storage serves (missing.map (storageKeySuperOf hashers))
  rw [if_neg done]
  simp only [supers]
  have grouped : ∀ parent child, child ∈ ((parentToChildren superValues
      (missing.zip (missing.map (storageKeySuperOf hashers)))).lookup parent).getD [] ↔
        child ∈ missing ∧ parentOf hashers chains child = some parent := fun _ _ => grouped_children superRead
  generalize parentToChildren superValues (missing.zip (missing.map (storageKeySuperOf hashers))) = children at grouped
  by_cases childless : children.keys = ∅
  · rw [if_pos childless]
    refine (or_iff_left ?_).symm
    rintro ⟨child, listed, _, named⟩
    rw [account_name_missing (unnamed child listed)] at named
    obtain ⟨parent, found, _⟩ := Option.bind_eq_some_iff.mp named
    have key := Finmap.mem_keys.mpr (Finmap.mem_of_member ((grouped parent child).mpr ⟨listed, found⟩))
    rw [childless] at key
    exact Finset.notMem_empty parent key
  · obtain ⟨parentValues, answered, parentRead⟩ := batch_get_storage serves
      ((orders.parents.walk children.keys).map (storageKeyIdentityOf hashers))
    rw [if_neg childless]
    simp only [answered]
    refine name_by_parents unnamed grouped (fun parent => ?_) parentRead within
    rw [HashSet.Order.mem_walk, Finmap.mem_keys]

end Joins

/-! ## The command against the plain resolution -/

section Fetched
variable (hashers : Hashers) (decoder : Decoder) (orders : WalkOrders) {chains : Chains} {Url ε : Type}
  {connect : Url → Except ε (Client ε)} {relayUrl : Url} {identityUrl : Option Url} {relay identity : Client ε}

/-- A name goes to the authority that the inverse map keeps for its stash, and
to no other. -/
theorem fetched_names (authorities : List PublicKey)
    (relayed : connect relayUrl = .ok relay) (relayServes : Serves relay chains.relay)
    (identified : connect (identityUrl.getD relayUrl) = .ok identity)
    (identityServes : Serves identity chains.identity) :
    (fetchIdentityNames hashers decoder orders connect relayUrl identityUrl authorities).stashAccounts =
      Finmap.tabulate (plainStash hashers chains) authorities ∧
    ∀ auth name, (fetchIdentityNames hashers decoder orders connect relayUrl identityUrl authorities).names.lookup
        auth = some name ↔
      ∃ stash, (stashToAuth orders (Finmap.tabulate (plainStash hashers chains) authorities)).lookup stash =
        some auth ∧ accountName hashers decoder chains stash = some name := by
  obtain ⟨keyOwnerValues, answered, read⟩ := batch_get_storage relayServes
    ((keyOwnerQueries hashers authorities).map Prod.snd)
  unfold fetchIdentityNames
  simp only [relayed, answered, auth_to_stash_plain read]
  generalize Finmap.tabulate (plainStash hashers chains) authorities = stashes
  by_cases unowned : stashes.keys = ∅
  · rw [if_pos unowned]
    have nothing : stashes = ∅ := by
      refine Finmap.ext_lookup fun auth => ?_
      rw [Finmap.lookup_empty, Finmap.lookup_eq_none, ← Finmap.mem_keys, unowned]
      exact Finset.notMem_empty auth
    refine ⟨nothing.symm, fun auth name => iff_of_false (by simp [emptyResult]) ?_⟩
    rintro ⟨stash, led, _⟩
    have held := stash_to_auth_origin led
    rw [nothing, Finmap.lookup_empty] at held
    cases held
  rw [if_neg unowned]
  simp only [identified]
  obtain ⟨identityValues, fetched, identityRead⟩ := batch_get_storage identityServes
    ((orders.stashes.walk (stashToAuth orders stashes).keys).map (storageKeyIdentityOf hashers))
  simp only [fetched]
  refine ⟨trivial, fun auth name => ?_⟩
  have walked : ∀ stash auth, (stashToAuth orders stashes).lookup stash = some auth →
      stash ∈ orders.stashes.walk (stashToAuth orders stashes).keys := by
    intro stash auth led
    rw [HashSet.Order.mem_walk, Finmap.mem_keys]
    exact Finmap.mem_of_lookup_eq_some led
  rw [name_missing identityServes fun child missing => ((mem_missing identityRead).mp missing).2]
  · rw [name_own identityRead]
    constructor
    · rintro (⟨stash, _, led, own⟩ | ⟨child, _, led, named⟩)
      · exact ⟨stash, led, account_name_own own⟩
      · exact ⟨child, led, named⟩
    · rintro ⟨stash, led, named⟩
      cases own : ownName hashers decoder chains stash with
      | none => exact .inr ⟨stash, (mem_missing identityRead).mpr ⟨walked stash auth led, own⟩, led, named⟩
      | some display =>
        rw [account_name_own own] at named
        exact .inl ⟨stash, walked stash auth led, led, own.trans named⟩
  · intro auth name held
    obtain ⟨stash, _, led, own⟩ := (name_own identityRead).mp held
    rw [stash_to_auth_origin led, Option.bind_some, account_name_own own]

/-- The inverse map keeps one authority of each stash. -/
theorem names_plain_iff (authorities : List PublicKey)
    (relayed : connect relayUrl = .ok relay) (relayServes : Serves relay chains.relay)
    (identified : connect (identityUrl.getD relayUrl) = .ok identity)
    (identityServes : Serves identity chains.identity) :
    (fetchIdentityNames hashers decoder orders connect relayUrl identityUrl authorities).names =
      Finmap.tabulate (plainName hashers decoder chains) authorities ↔
        NamesUnshared hashers decoder chains authorities := by
  obtain ⟨_, named⟩ :=
    fetched_names hashers decoder orders authorities relayed relayServes identified identityServes
  refine ⟨fun same a listedA b listedB stash ownsA ownsB hasName => ?_, fun unshared => ?_⟩
  · obtain ⟨name, name_eq⟩ := Option.isSome_iff_exists.mp hasName
    have kept : ∀ auth ∈ authorities, plainStash hashers chains auth = some stash →
        (stashToAuth orders (Finmap.tabulate (plainStash hashers chains) authorities)).lookup stash = some auth := by
      intro auth listed owns
      have plain : plainName hashers decoder chains auth = some name := by
        rw [plainName, owns, Option.bind_some, name_eq]
      obtain ⟨stash', led, _⟩ := (named auth name).mp (by rw [same, Finmap.lookup_tabulate]; exact ⟨listed, plain⟩)
      have held := (Finmap.lookup_tabulate.mp (stash_to_auth_origin led)).2
      rw [owns, Option.some_inj] at held
      rw [held, led]
    exact Option.some.inj ((kept a listedA ownsA).symm.trans (kept b listedB ownsB))
  · refine Finmap.ext_lookup fun auth => Option.ext fun name => ?_
    rw [named, Finmap.lookup_tabulate]
    constructor
    · rintro ⟨stash, led, name_eq⟩
      obtain ⟨listed, owns⟩ := Finmap.lookup_tabulate.mp (stash_to_auth_origin led)
      exact ⟨listed, Option.bind_eq_some_iff.mpr ⟨stash, owns, name_eq⟩⟩
    · rintro ⟨listed, plain⟩
      obtain ⟨stash, owns, name_eq⟩ := Option.bind_eq_some_iff.mp plain
      have reached : stash ∈ stashToAuth orders (Finmap.tabulate (plainStash hashers chains) authorities) :=
        mem_stash_to_auth.mpr ⟨auth, Finmap.lookup_tabulate.mpr ⟨listed, owns⟩⟩
      obtain ⟨other, led⟩ := Finmap.mem_iff.mp reached
      obtain ⟨listed', owns'⟩ := Finmap.lookup_tabulate.mp (stash_to_auth_origin led)
      rw [unshared auth listed other listed' stash owns owns' (Option.isSome_of_eq_some name_eq)]
      exact ⟨stash, led, name_eq⟩

/-- The stashes are those of the plain resolution, and so are the names exactly
if no two authorities have a named stash in common. -/
theorem names_resolved_iff (authorities : List PublicKey)
    (relayed : connect relayUrl = .ok relay) (relayServes : Serves relay chains.relay)
    (identified : connect (identityUrl.getD relayUrl) = .ok identity)
    (identityServes : Serves identity chains.identity) :
    (fetchIdentityNames hashers decoder orders connect relayUrl identityUrl authorities).stashAccounts =
      Finmap.tabulate (plainStash hashers chains) authorities ∧
    ((fetchIdentityNames hashers decoder orders connect relayUrl identityUrl authorities).names =
      Finmap.tabulate (plainName hashers decoder chains) authorities ↔
        NamesUnshared hashers decoder chains authorities) :=
  ⟨(fetched_names hashers decoder orders authorities relayed relayServes identified identityServes).1,
    names_plain_iff hashers decoder orders authorities relayed relayServes identified identityServes⟩

end Fetched

/-- Hashes of which nothing is known; keys end in what they are made of. -/
def flatHashes : Hashers := ⟨fun _ _ => 0, fun _ => .replicate 16 0⟩

noncomputable def anyWalks : WalkOrders := ⟨.arbitrary _, .arbitrary _, .arbitrary _⟩

/-- The nodes of the two chains, at different addresses. -/
def chainNodes (chains : Chains) (identity : Bool) : Except Unit (Client Unit) :=
  .ok (respond (if identity then chains.identity else chains.relay))

/-- What the command fetches for the authorities 0 and 1. -/
noncomputable def fetchedFrom (chains : Chains) : IdentityResult :=
  fetchIdentityNames flatHashes .reference anyWalks (chainNodes chains) false (some true) [numberedKey 0, numberedKey 1]

/-- Two authorities with a stash each: the first stash has a name, and is the
parent of the second. -/
def parentAndChild : Chains where
  relay key :=
    if key = storageKeySessionKeyOwner flatHashes (numberedKey 0) then some (numberedKey 10).bytes
    else if key = storageKeySessionKeyOwner flatHashes (numberedKey 1) then some (numberedKey 11).bytes
    else none
  identity key :=
    if key = storageKeyIdentityOf flatHashes (numberedKey 10) then some plainAlice.encodeLegacy
    else if key = storageKeySuperOf flatHashes (numberedKey 11) then some ((numberedKey 10).bytes ++ [0])
    else none

/-- Both are named, the second by its parent. -/
theorem parent_and_child_named :
    plainName flatHashes .reference parentAndChild (numberedKey 1) = some "Alice" ∧
    (fetchedFrom parentAndChild).stashAccounts =
      Finmap.tabulate (plainStash flatHashes parentAndChild) [numberedKey 0, numberedKey 1] ∧
    (fetchedFrom parentAndChild).names =
      Finmap.tabulate (plainName flatHashes .reference parentAndChild) [numberedKey 0, numberedKey 1] := by
  have owned : plainStash flatHashes parentAndChild (numberedKey 0) = some (numberedKey 10) := by decide +kernel
  have owned' : plainStash flatHashes parentAndChild (numberedKey 1) = some (numberedKey 11) := by decide +kernel
  have named : accountName flatHashes .reference parentAndChild (numberedKey 11) = some "Alice" := by decide +kernel
  have unshared : NamesUnshared flatHashes .reference parentAndChild [numberedKey 0, numberedKey 1] := by
    have apart : numberedKey 10 ≠ numberedKey 11 := by decide
    intro a listedA b listedB stash ownsA ownsB _
    simp only [List.mem_cons, List.not_mem_nil, or_false] at listedA listedB
    rcases listedA with rfl | rfl <;> rcases listedB with rfl | rfl
    · rfl
    · exact absurd (Option.some_inj.mp (owned.symm.trans (ownsA.trans (ownsB.symm.trans owned')))) apart
    · exact absurd (Option.some_inj.mp (owned.symm.trans (ownsB.trans (ownsA.symm.trans owned')))) apart
    · rfl
  have relayed : chainNodes parentAndChild false = .ok (respond parentAndChild.relay) := rfl
  have identified : chainNodes parentAndChild ((some true).getD false) = .ok (respond parentAndChild.identity) := rfl
  obtain ⟨accounts, names⟩ := names_resolved_iff flatHashes .reference anyWalks [numberedKey 0, numberedKey 1]
    relayed (respond_serves _) identified (respond_serves _)
  exact ⟨Option.bind_eq_some_iff.mpr ⟨_, owned', named⟩, accounts, names.mpr unshared⟩

/-- Two authorities with one stash, which has a name. -/
def sharedStash : Chains where
  relay key :=
    if key = storageKeySessionKeyOwner flatHashes (numberedKey 0) then some (numberedKey 10).bytes
    else if key = storageKeySessionKeyOwner flatHashes (numberedKey 1) then some (numberedKey 10).bytes
    else none
  identity key :=
    if key = storageKeyIdentityOf flatHashes (numberedKey 10) then some plainAlice.encodeLegacy else none

/-- Both resolve to the name, and one of them is left without it. -/
theorem shared_stash_unnamed :
    plainName flatHashes .reference sharedStash (numberedKey 0) = some "Alice" ∧
    plainName flatHashes .reference sharedStash (numberedKey 1) = some "Alice" ∧
    (fetchedFrom sharedStash).names ≠
      Finmap.tabulate (plainName flatHashes .reference sharedStash) [numberedKey 0, numberedKey 1] := by
  have relayed : chainNodes sharedStash false = .ok (respond sharedStash.relay) := rfl
  have identified : chainNodes sharedStash ((some true).getD false) = .ok (respond sharedStash.identity) := rfl
  have owned : plainStash flatHashes sharedStash (numberedKey 0) = some (numberedKey 10) := by decide +kernel
  have owned' : plainStash flatHashes sharedStash (numberedKey 1) = some (numberedKey 10) := by decide +kernel
  have named : accountName flatHashes .reference sharedStash (numberedKey 10) = some "Alice" := by decide +kernel
  refine ⟨Option.bind_eq_some_iff.mpr ⟨_, owned, named⟩, Option.bind_eq_some_iff.mpr ⟨_, owned', named⟩,
    fun same => ?_⟩
  have unshared := (names_plain_iff flatHashes .reference anyWalks [numberedKey 0, numberedKey 1]
    relayed (respond_serves _) identified (respond_serves _)).mp same
  have merged : numberedKey 0 = numberedKey 1 :=
    unshared _ (by simp) _ (by simp) (numberedKey 10) owned owned' (by rw [named]; rfl)
  exact absurd merged (by decide)

end Subp2pExplorer.Identity
