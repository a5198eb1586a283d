import Subp2pExplorer.Authorities.Queries

/-! The slots of the discovery: how many queries are tracked, which authorities
they are for, and how the tracked queries relate to those the network still
works on. -/
namespace Subp2pExplorer.Authorities
open Lib Subp2pExplorer.Types
/-- The query was for a missing authority without a tracked query. -/
def Issue.Needed (issue : Issue) : Prop :=
  issue.authority ∈ issue.remaining ∧ issue.authority ∉ issue.tracked

namespace AuthorityDiscovery

section Refills
variable {PeerId NodeKey QueryId : Type} {net : Network PeerId NodeKey QueryId}
  {s : AuthorityDiscovery PeerId QueryId} {authorities : List PublicKey}

/-- Every tracked query was started before. -/
def Named (net : Network PeerId NodeKey QueryId) (s : AuthorityDiscovery PeerId QueryId) : Prop :=
  ∀ id ∈ s.queries, ∃ n < s.swarm.started, net.queryId n = id

theorem named_fresh (named : Named net s) : net.queryId s.swarm.started ∉ s.queries := by
  intro tracked
  obtain ⟨n, before, same⟩ := named _ tracked
  exact Nat.ne_of_lt before (net.fresh same)

theorem same_named {s s' : AuthorityDiscovery PeerId QueryId} (same : SameQueries s s')
    (named : Named net s) : Named net s' := by
  intro id tracked
  rw [same.queries] at tracked
  rw [same.started]
  exact named id tracked

/-- What is missing was listed. -/
def Listed (authorities : List PublicKey) (s : AuthorityDiscovery PeerId QueryId) : Prop :=
  s.authorities = authorities ∧ ∀ a ∈ s.remainingAuthorities, a ∈ authorities

private theorem same_listed {s s' : AuthorityDiscovery PeerId QueryId} (same : SameRecords s s')
    (listed : Listed authorities s) : Listed authorities s' :=
  ⟨same.authorities.trans listed.1, fun a missing => listed.2 a (same.remaining ▸ missing)⟩

variable [DecidableEq QueryId]

theorem named_issue (named : Named net s) (a : PublicKey) : Named net (queryDhtRecord net s a) := by
  intro id tracked
  rcases Finmap.mem_insert.mp tracked with same | before
  · exact ⟨s.swarm.started, Nat.lt_succ_self _, same.symm⟩
  · obtain ⟨n, earlier, same⟩ := named id before
    exact ⟨n, Nat.lt_succ_of_lt earlier, same⟩

theorem named_closest (named : Named net s) : Named net (getClosestPeers net s) := by
  intro id tracked
  obtain ⟨n, earlier, same⟩ := named id tracked
  exact ⟨n, Nat.lt_succ_of_lt earlier, same⟩

/-- Fresh ids: each issue adds its authority to the tracked ones. -/
theorem query_records_values (named : Named net s) (todo : List PublicKey) :
    (queryDhtRecords net s todo).queries.values = ↑todo + s.queries.values := by
  induction todo generalizing s with
  | nil => exact (zero_add _).symm
  | cons a rest ih =>
    have later := ih (named_issue named a)
    have first : (queryDhtRecord net s a).queries.values = a ::ₘ s.queries.values :=
      Finmap.values_insert_fresh a (named_fresh named)
    rw [first] at later
    rw [queryDhtRecords, List.foldl_cons, ← queryDhtRecords, later, Multiset.add_cons,
      ← Multiset.cons_coe, Multiset.cons_add]

theorem query_records_size (named : Named net s) (todo : List PublicKey) :
    (queryDhtRecords net s todo).queries.size = todo.length + s.queries.size := by
  rw [← Finmap.card_values, query_records_values named, Multiset.card_add, Finmap.card_values]
  rfl

theorem query_records_keep (todo : List PublicKey) {n : Nat} (before : n < s.swarm.started) :
    (queryDhtRecords net s todo).queries.lookup (net.queryId n) = s.queries.lookup (net.queryId n) := by
  induction todo generalizing s with
  | nil => rfl
  | cons a rest ih =>
    have later := ih (s := queryDhtRecord net s a) (Nat.lt_succ_of_lt before)
    have apart : net.queryId n ≠ net.queryId s.swarm.started := fun same => Nat.ne_of_lt before (net.fresh same)
    exact later.trans (Finmap.lookup_insert_of_ne _ apart)

/-- Issues are numbered in order, from the next number on. -/
theorem query_records_lookup {todo : List PublicKey} {i : Nat} {a : PublicKey} (picked : todo[i]? = some a) :
    (queryDhtRecords net s todo).queries.lookup (net.queryId (s.swarm.started + i)) = some a := by
  induction todo generalizing s i with
  | nil => cases picked
  | cons head rest ih =>
    cases i with
    | zero =>
      cases picked
      exact (query_records_keep rest (Nat.lt_succ_self _)).trans (Finmap.lookup_insert _)
    | succ i =>
      have later := ih (s := queryDhtRecord net s head) picked
      have next : (queryDhtRecord net s head).swarm.started + i = s.swarm.started + (i + 1) :=
        Nat.succ_add_eq_add_succ _ i
      rwa [next] at later

theorem query_records_named (named : Named net s) (todo : List PublicKey) :
    Named net (queryDhtRecords net s todo) := by
  induction todo generalizing s with
  | nil => exact named
  | cons a rest ih => exact ih (named_issue named a)

theorem query_records_same (todo : List PublicKey) : SameRecords s (queryDhtRecords net s todo) := by
  induction todo generalizing s with
  | nil => exact .rfl
  | cons a rest ih =>
    have first : SameRecords s (queryDhtRecord net s a) := ⟨rfl, rfl, rfl, rfl⟩
    exact first.trans ih

/-- The tracked queries are within the limit, and at it while a missing
authority has none. -/
structure Filled (net : Network PeerId NodeKey QueryId) (s : AuthorityDiscovery PeerId QueryId) : Prop where
  named : Named net s
  bound : s.queries.size ≤ maxQueries
  full : s.queries.size = maxQueries ∨ ∀ a ∈ s.remainingAuthorities, a ∈ s.queries.values

/-- Issuing as many of the wanted authorities as there are slots fills them. -/
theorem issue_filled {wanted : List PublicKey} (named : Named net s) (bound : s.queries.size ≤ maxQueries)
    (covers : ∀ a ∈ s.remainingAuthorities, a ∈ wanted ∨ a ∈ s.queries.values) :
    Filled net (queryDhtRecords net s (wanted.take (maxQueries - s.queries.size))) := by
  have size := query_records_size named (wanted.take (maxQueries - s.queries.size))
  have values := query_records_values named (wanted.take (maxQueries - s.queries.size))
  have length := List.length_take (i := maxQueries - s.queries.size) (l := wanted)
  refine ⟨query_records_named named _, by omega, ?_⟩
  by_cases all : wanted.length ≤ maxQueries - s.queries.size
  · refine .inr fun a missing => ?_
    rw [(query_records_same _).remaining] at missing
    rw [values, List.take_of_length_le all]
    rcases covers a missing with picked | tracked
    · exact Multiset.mem_add.mpr (.inl picked)
    · exact Multiset.mem_add.mpr (.inr tracked)
  · exact .inl (by omega)

theorem closest_filled (filled : Filled net s) : Filled net (getClosestPeers net s) :=
  ⟨named_closest filled.named, filled.bound, filled.full⟩

/-- An advance fills the slots, whatever it finds. -/
theorem advance_filled (order : Arrangement authorities) (named : Named net s)
    (bound : s.queries.size ≤ maxQueries) (listed : ∀ a ∈ s.remainingAuthorities, a ∈ authorities) :
    Filled net (advanceDhtQueries net order.order s) := by
  have passed : Named net (queryInitial net (s.authorities.drop s.queryIndex) s) ∧
      (queryInitial net (s.authorities.drop s.queryIndex) s).queries.size ≤ maxQueries ∧
      ∀ a ∈ (queryInitial net (s.authorities.drop s.queryIndex) s).remainingAuthorities,
        a ∈ authorities := by
    refine query_initial_rule (P := fun s => Named net s ∧ s.queries.size ≤ maxQueries ∧
      ∀ a ∈ s.remainingAuthorities, a ∈ authorities) ?_ ⟨named, bound, listed⟩
    intro s a held _ room
    refine ⟨named_issue held.1 a, ?_, held.2.2⟩
    exact (Finmap.size_insert_le _ _ _).trans room
  have ends := query_initial_ends net s
  unfold advanceDhtQueries
  refine query_peer_info_rule (fun _ => closest_filled) ?_
  generalize queryInitial net (s.authorities.drop s.queryIndex) s = s at passed ends ⊢
  obtain ⟨named, bound, listed⟩ := passed
  unfold queryBackfill
  split
  · refine issue_filled named bound fun a missing => ?_
    by_cases tracked : a ∈ s.queries.values
    · exact .inr tracked
    · refine .inl (List.mem_filter.mpr ⟨?_, decide_eq_true tracked⟩)
      exact HashSet.mem_iterate.mpr ⟨order.complete a (listed a missing), missing⟩
  · rename_i closed
    refine ⟨named, bound, .inl ?_⟩
    have ends : maxQueries ≤ s.queries.size ∨ s.authorities.length ≤ s.queryIndex := ends
    omega

/-- A resubmit fills the slots. -/
theorem resubmit_filled (shuffle : Arrangement authorities)
    (listed : ∀ a ∈ s.remainingAuthorities, a ∈ authorities) :
    Filled net (resubmitRemainingDhtQueries net shuffle.order s) := by
  have issued : Filled net (queryDhtRecords net { s with queries := ∅ }
      ((HashSet.iterate shuffle.order s.remainingAuthorities).take maxQueries)) := by
    refine issue_filled (s := { s with queries := ∅ }) (fun id tracked => ?_) (Nat.zero_le _) fun a missing => ?_
    · exact absurd tracked (Finmap.notMem_empty)
    · exact .inl (HashSet.mem_iterate.mpr ⟨shuffle.complete a (listed a missing), missing⟩)
  unfold resubmitRemainingDhtQueries
  dsimp only
  split
  · exact query_peer_info_rule (fun _ => closest_filled) issued
  · exact issued

/-- With enough missing authorities a resubmit is the issues alone. -/
theorem resubmit_many {shuffle : List PublicKey} (walks : HashSet.Walks shuffle s.remainingAuthorities)
    (many : maxQueries ≤ shuffle.length) :
    resubmitRemainingDhtQueries net shuffle s =
      queryDhtRecords net { s with queries := ∅ } (shuffle.take maxQueries) := by
  unfold resubmitRemainingDhtQueries
  rw [HashSet.iterate_walk walks, if_neg (Nat.not_lt.mpr many)]

/-- The discovery tracks a single query, and the network works on this many. -/
structure Overrun (net : Network PeerId NodeKey QueryId) (missing : Finset PublicKey) (active : Nat)
    (s : AuthorityDiscovery PeerId QueryId) : Prop where
  missing : s.remainingAuthorities = missing
  tracked : s.queries.size = 1
  begun : ∀ id ∈ s.swarm.active, ∃ n < s.swarm.started, net.queryId n = id
  active : s.swarm.active.card = active

theorem overrun_closest {missing : Finset PublicKey} {active : Nat} (overrun : Overrun net missing active s) :
    Overrun net missing active (getClosestPeers net s) :=
  { overrun with
    begun := fun id active => by
      obtain ⟨n, before, same⟩ := overrun.begun id active
      exact ⟨n, Nat.lt_succ_of_lt before, same⟩ }

/-- A resubmit for a single missing authority forgets its running query and
starts another. -/
theorem resubmit_overrun {a : PublicKey} {active : Nat} (overrun : Overrun net {a} active s) :
    Overrun net {a} (active + 1) (resubmitRemainingDhtQueries net [a] s) := by
  have fresh : net.queryId s.swarm.started ∉ s.swarm.active := by
    intro running
    obtain ⟨n, before, same⟩ := overrun.begun _ running
    exact Nat.ne_of_lt before (net.fresh same)
  have walks : HashSet.Walks [a] s.remainingAuthorities := by
    refine ⟨List.nodup_singleton a, fun b => ?_⟩
    rw [overrun.missing, Finset.mem_singleton, List.mem_singleton]
  have issued : Overrun net {a} (active + 1) (queryDhtRecords net { s with queries := ∅ } [a]) := {
    missing := overrun.missing
    tracked := query_records_size (fun id tracked => absurd tracked Finmap.notMem_empty) [a]
    begun := fun id running => by
      rcases Finset.mem_insert.mp running with same | before
      · exact ⟨s.swarm.started, Nat.lt_succ_self _, same.symm⟩
      · obtain ⟨n, earlier, same⟩ := overrun.begun id before
        exact ⟨n, Nat.lt_succ_of_lt earlier, same⟩
    active := by rw [← overrun.active]; exact Finset.card_insert_of_notMem fresh }
  unfold resubmitRemainingDhtQueries
  rw [HashSet.iterate_walk walks]
  exact query_peer_info_rule (fun _ => overrun_closest) issued

/-- The first pass asks for the next authority, whether its query runs or not. -/
theorem advance_repeats {a : PublicKey} {order : List PublicKey} (distinct : order.Nodup)
    (next : s.authorities[s.queryIndex]? = some a) (room : s.queries.size < maxQueries)
    (tracked : a ∈ s.queries.values) :
    ∃ issue ∈ (advanceDhtQueries net order s).issued, issue.authority = a ∧ issue.authority ∈ issue.tracked := by
  obtain ⟨below, found⟩ := List.getElem?_eq_some_iff.mp next
  have passed : advanceDhtQueries net order s =
      advanceDhtQueries net order { queryDhtRecord net s a with queryIndex := s.queryIndex + 1 } := by
    unfold advanceDhtQueries
    rw [List.drop_eq_getElem_cons below, found, queryInitial, if_pos room]
    rfl
  refine ⟨⟨a, s.remainingAuthorities, s.queries.values⟩, ?_, rfl, tracked⟩
  rw [passed]
  let Asked (s' : AuthorityDiscovery PeerId QueryId) : Prop :=
    ⟨a, s.remainingAuthorities, s.queries.values⟩ ∈ s'.issued
  refine advance_rule (P := Asked) distinct (fun _ _ held _ _ => List.mem_append_left _ held)
    (fun _ _ held _ _ _ => List.mem_append_left _ held) (fun _ held => held) ?_
  exact List.mem_append_right _ List.mem_cons_self

/-- The tracked queries are a view of all active ones. -/
def Shadowed (s : AuthorityDiscovery PeerId QueryId) : Prop := ∀ id ∈ s.swarm.active, id ∈ s.queries

private theorem shadowed_issue (shadowed : Shadowed s) (a : PublicKey) :
    Shadowed (queryDhtRecord net s a) := by
  intro id active
  rcases Finset.mem_insert.mp active with same | before
  · exact Finmap.mem_insert.mpr (.inl same)
  · exact Finmap.mem_insert.mpr (.inr (shadowed id before))

private theorem advance_shadowed (order : Arrangement authorities) (shadowed : Shadowed s) :
    Shadowed (advanceDhtQueries net order.order s) :=
  advance_rule order.distinct (fun _ a held _ _ => shadowed_issue held a)
    (fun _ a held _ _ _ => shadowed_issue held a) (fun _ held => held) shadowed

/-- The first pass is ahead of all the discovery knows of. -/
structure Ahead (net : Network PeerId NodeKey QueryId) (authorities : List PublicKey)
    (s : AuthorityDiscovery PeerId QueryId) : Prop where
  named : Named net s
  listed : Listed authorities s
  tracked : ∀ a ∈ s.queries.values, a ∈ authorities.take s.queryIndex
  asked : ∀ a ∈ s.recordsKeys.values, a ∈ authorities.take s.queryIndex
  found : ∀ a ∈ authorities, a ∉ s.remainingAuthorities → a ∈ authorities.take s.queryIndex
  apart : s.queries.values.Nodup
  needed : ∀ issue ∈ s.issued, issue.Needed

private theorem ahead_issue {a : PublicKey} (ahead : Ahead net authorities s)
    (missing : a ∈ s.remainingAuthorities) (untracked : a ∉ s.queries.values)
    (reached : a ∈ authorities.take s.queryIndex) : Ahead net authorities (queryDhtRecord net s a) where
  named := named_issue ahead.named a
  listed := ahead.listed
  tracked := fun b member => by
    rcases Finmap.mem_values_insert member with same | before
    · exact same ▸ reached
    · exact ahead.tracked b before
  asked := fun b member => by
    rcases Finmap.mem_values_insert member with same | before
    · exact same ▸ reached
    · exact ahead.asked b before
  found := ahead.found
  apart := by
    have values : (queryDhtRecord net s a).queries.values = a ::ₘ s.queries.values :=
      Finmap.values_insert_fresh a (named_fresh ahead.named)
    rw [values]
    exact Multiset.nodup_cons.mpr ⟨untracked, ahead.apart⟩
  needed := fun issue member => by
    rcases List.mem_append.mp member with before | last
    · exact ahead.needed issue before
    · cases List.mem_singleton.mp last
      exact ⟨missing, untracked⟩

private theorem next_unreached {a : PublicKey} {index : Nat} (distinct : authorities.Nodup)
    (next : authorities[index]? = some a) : a ∉ authorities.take index := by
  intro reached
  have later : a ∈ authorities.drop index := by
    apply List.mem_of_mem_head?
    rw [List.head?_drop]
    exact next
  exact List.disjoint_take_drop distinct (Nat.le_refl index) reached later

private theorem ahead_initial {a : PublicKey} (distinct : authorities.Nodup) (ahead : Ahead net authorities s)
    (next : s.authorities[s.queryIndex]? = some a) :
    Ahead net authorities { queryDhtRecord net s a with queryIndex := s.queryIndex + 1 } := by
  rw [ahead.listed.1] at next
  have unreached := next_unreached distinct next
  have further : authorities.take s.queryIndex ⊆ authorities.take (s.queryIndex + 1) :=
    (List.take_sublist_take_left (Nat.le_succ _)).subset
  have reached : a ∈ authorities.take (s.queryIndex + 1) := by
    rw [List.take_add_one, next]
    exact List.mem_append_right _ List.mem_cons_self
  have moved : Ahead net authorities { s with queryIndex := s.queryIndex + 1 } := {
    ahead with
    tracked := fun b member => further (ahead.tracked b member)
    asked := fun b member => further (ahead.asked b member)
    found := fun b member gone => further (ahead.found b member gone) }
  refine ahead_issue moved ?_ ?_ reached
  · by_contra gone
    exact unreached (ahead.found a (List.mem_of_getElem? next) gone)
  · exact fun tracked => unreached (ahead.tracked a tracked)

private theorem ahead_closest (ahead : Ahead net authorities s) :
    Ahead net authorities (getClosestPeers net s) :=
  { ahead with named := named_closest ahead.named }

private theorem advance_ahead (distinct : authorities.Nodup) (order : Arrangement authorities)
    (ahead : Ahead net authorities s) : Ahead net authorities (advanceDhtQueries net order.order s) := by
  refine advance_rule order.distinct (fun _ _ held next _ => ahead_initial distinct held next) ?_
    (fun _ => ahead_closest) ahead
  intro s a held passed missing untracked
  apply ahead_issue held missing untracked
  rw [List.take_of_length_le (held.listed.1 ▸ passed)]
  exact held.listed.2 a missing

end Refills

section Runs
variable {PeerId NodeKey QueryId : Type} [DecidableEq PeerId] [DecidableEq QueryId]
  {net : Network PeerId NodeKey QueryId} {s t : AuthorityDiscovery PeerId QueryId}
  {authorities : List PublicKey} {first : Arrangement authorities}
  {turns : List (Turn PeerId QueryId authorities)}

theorem answered_named (named : Named net s) (dial : LibP2pMultiaddr PeerId → Option ErrorText)
    (id : QueryId) (last : Bool) (result : GetRecordResult) :
    Named net (answered net dial id last result s) := by
  apply same_named (answered_queries net s dial id last result)
  intro other tracked
  exact named other (Finmap.mem_erase.mp tracked).2

theorem answered_listed (listed : Listed authorities s) (dial : LibP2pMultiaddr PeerId → Option ErrorText)
    (id : QueryId) (last : Bool) (result : GetRecordResult) :
    Listed authorities (answered net dial id last result s) := by
  rcases answered_cases net s dial id last result with
    ⟨_, _, authority, _, _, _, _, stored⟩ | ⟨_, same⟩
  · refine ⟨stored.authorities.trans listed.1, fun a missing => listed.2 a ?_⟩
    rw [stored.remaining] at missing
    exact Finset.mem_of_mem_erase missing
  · exact same_listed same listed

theorem turn_listed (listed : Listed authorities s) (l : Turn PeerId QueryId authorities) :
    Listed authorities (s.turn net l) := by
  refine turn_rule (P := Listed authorities) (fun _ same _ => same_listed same listed) ?_ ?_ ?_
  · exact fun _ held => held
  · intro id last result order dial _
    exact same_listed (advance_same order.distinct) (answered_listed listed dial id last result)
  · exact fun shuffle _ => same_listed (resubmit_same shuffle.distinct) listed

theorem turn_filled (filled : Filled net s) (listed : Listed authorities s)
    (l : Turn PeerId QueryId authorities) : Filled net (s.turn net l) := by
  refine turn_rule (P := Filled net) ?_ (fun _ => closest_filled) ?_ ?_
  · intro s' records queries
    refine ⟨same_named queries filled.named, ?_, ?_⟩
    · rw [queries.queries]
      exact filled.bound
    · rw [queries.queries, records.remaining]
      exact filled.full
  · intro id last result order dial _
    apply advance_filled order (answered_named filled.named dial id last result)
    · rw [(answered_queries net s dial id last result).queries]
      exact (Finmap.size_erase_le _ _).trans filled.bound
    · exact (answered_listed listed dial id last result).2
  · exact fun shuffle _ => resubmit_filled shuffle listed.2

private theorem start_listed : Listed authorities (discovery net authorities first).start := by
  apply same_listed start_same
  exact ⟨rfl, fun a missing => List.mem_toFinset.mp missing⟩

private theorem start_filled : Filled net (discovery net authorities first).start := by
  refine advance_filled first (fun id tracked => ?_) (Nat.zero_le _) fun a missing => ?_
  · exact absurd tracked Finmap.notMem_empty
  · exact List.mem_toFinset.mp missing

theorem run_filled (run : (discovery net authorities first).replay turns = some t) : Filled net t := by
  have both : Filled net t ∧ Listed authorities t := by
    apply run_rule (P := fun s => Filled net s ∧ Listed authorities s) ?_ ⟨start_filled, start_listed⟩
      (Machine.meets_trivial turns) run
    intro s l held _
    exact ⟨turn_filled held.1 held.2 l, turn_listed held.2 l⟩
  exact both.1

/-- At every boundary between handled events the tracked queries use all slots
or every missing authority has one. -/
theorem slots_never_idle (run : (discovery net authorities first).replay turns = some t) :
    t.queries.size ≤ maxQueries ∧
      (t.queries.size = maxQueries ∨ ∀ a ∈ t.remainingAuthorities, a ∈ t.queries.values) :=
  ⟨(run_filled run).bound, (run_filled run).full⟩

private theorem one_distinct : (numberedKeys 1).Nodup := numbered_keys_distinct (by decide)

/-- A single authority whose first query fails. -/
def failedOnce : List (Turn Nat Nat (numberedKeys 1)) :=
  [.swarm (.getRecord 0 true .failed) (.listed one_distinct) fun _ => none]

theorem failed_authority_tracked : ∃ t,
    (discovery (.counting (.onePublished [])) (numberedKeys 1) (.listed one_distinct)).replay
      failedOnce = some t ∧
    t.queries.size ≤ maxQueries ∧
      (t.queries.size = maxQueries ∨ ∀ a ∈ t.remainingAuthorities, a ∈ t.queries.values) := by
  obtain ⟨t, run⟩ := discovery_runs (.counting (.onePublished [])) (numberedKeys 1)
    (.listed one_distinct) failedOnce
  exact ⟨t, run, slots_never_idle run⟩

/-- A turn forgets no query the network still works on: an answer that is not
the last of its query takes no active query off the tracked ones, and no
resubmit finds a tracked query active. -/
def ForgetsNoQuery (s : AuthorityDiscovery PeerId QueryId) : Turn PeerId QueryId authorities → Prop
  | .swarm (.getRecord id false _) _ _ => id ∈ s.queries → id ∉ s.swarm.active
  | .resubmit _ => ∀ id ∈ s.queries, id ∉ s.swarm.active
  | _ => True

theorem turn_shadowed {l : Turn PeerId QueryId authorities} (shadowed : Shadowed s)
    (kept : ForgetsNoQuery s l) : Shadowed (s.turn net l) := by
  refine turn_rule (P := Shadowed) ?_ (fun _ held => held) ?_ ?_
  · intro s' _ queries id active
    rw [queries.queries]
    exact shadowed id (queries.active ▸ active)
  · intro id last result order dial same
    subst same
    refine advance_shadowed order fun other active => ?_
    have queries := answered_queries net s dial id last result
    rw [queries.active] at active
    rw [queries.queries, Finmap.mem_erase]
    cases last with
    | true =>
      obtain ⟨apart, before⟩ := Finset.mem_erase.mp active
      exact ⟨apart, shadowed other before⟩
    | false =>
      refine ⟨fun same => ?_, shadowed other active⟩
      subst same
      exact kept (shadowed other active) active
  · intro shuffle same
    subst same
    refine resubmit_rule shuffle.distinct (fun _ a _ held _ _ => shadowed_issue held a)
      (fun _ held => held) fun id active => ?_
    exact absurd active (kept id (shadowed id active))

/-- While no turn forgets an active query, the network works on no more
queries than the limit. -/
theorem active_queries_bounded (meets : (discovery net authorities first).Meets ForgetsNoQuery turns)
    (run : (discovery net authorities first).replay turns = some t) :
    t.swarm.active.card ≤ maxQueries := by
  have shadowed : Shadowed t := by
    apply run_rule (fun s l held kept => turn_shadowed held kept) ?_ meets run
    exact advance_shadowed first fun id active => absurd active (Finset.notMem_empty id)
  have within : t.swarm.active ⊆ t.queries.keys :=
    fun id active => Finmap.mem_keys.mpr (shadowed id active)
  exact (Finset.card_le_card within).trans (run_filled run).bound

theorem failed_query_replaced : ∃ t,
    (discovery (.counting (.onePublished [])) (numberedKeys 1) (.listed one_distinct)).replay
      failedOnce = some t ∧ t.swarm.active.card ≤ maxQueries := by
  obtain ⟨t, run⟩ := discovery_runs (.counting (.onePublished [])) (numberedKeys 1)
    (.listed one_distinct) failedOnce
  have kept : (discovery (.counting (.onePublished [])) (numberedKeys 1) (.listed one_distinct)).Meets
      ForgetsNoQuery failedOnce :=
    ⟨trivial, fun _ _ => trivial⟩
  exact ⟨t, run, active_queries_bounded kept run⟩

theorem resubmits_overrun {a : PublicKey} {active : Nat} (shuffle : Arrangement authorities)
    (single : shuffle.order = [a]) (n : Nat) (overrun : Overrun net {a} active s) :
    ∃ t, (discovery net authorities first).replayFrom s (List.replicate n (.resubmit shuffle)) = some t ∧
      Overrun net {a} (active + n) t := by
  induction n generalizing s active with
  | zero => exact ⟨s, rfl, overrun⟩
  | succ n ih =>
    have once : Overrun net {a} (active + 1) (resubmitRemainingDhtQueries net shuffle.order s) := by
      rw [single]
      exact resubmit_overrun overrun
    obtain ⟨t, run, more⟩ := ih once
    refine ⟨t, run, ?_⟩
    rwa [Nat.succ_add_eq_add_succ] at more

/-- Each resubmit forgets the running query for a single missing authority and
starts another. -/
theorem resubmits_exceed_limit :
    ((discovery (.counting (.onePublished [])) (numberedKeys 1) (.listed one_distinct)).replay
      (List.replicate 128 (.resubmit (.listed one_distinct)))).map
        (fun t => (t.queries.size, t.swarm.active.card)) = some (1, 129) := by
  have start : Overrun (.counting (.onePublished [])) {numberedKey 0} 1
      (discovery (.counting (.onePublished [])) (numberedKeys 1) (.listed one_distinct)).start :=
    ⟨by decide, by decide, by decide, by decide⟩
  obtain ⟨t, run, overrun⟩ := resubmits_overrun (.listed one_distinct) rfl 128 start
  rw [Machine.replay, run, Option.map_some, overrun.tracked, overrun.active]

/-- Every authority a resubmit draws was reached by the first pass before. -/
def DrawsReached (s : AuthorityDiscovery PeerId QueryId) : Turn PeerId QueryId authorities → Prop
  | .resubmit shuffle => ∀ a ∈ (HashSet.iterate shuffle.order s.remainingAuthorities).take maxQueries,
      a ∈ s.authorities.take s.queryIndex
  | _ => True

theorem turn_ahead {l : Turn PeerId QueryId authorities} (distinct : authorities.Nodup)
    (ahead : Ahead net authorities s) (drawn : DrawsReached s l) : Ahead net authorities (s.turn net l) := by
  refine turn_rule (P := Ahead net authorities) ?_ (fun _ => ahead_closest) ?_ ?_
  · intro s' records queries
    exact {
      named := same_named queries ahead.named
      listed := same_listed records ahead.listed
      tracked := by rw [queries.queries, queries.index]; exact ahead.tracked
      asked := by rw [queries.keys, queries.index]; exact ahead.asked
      found := by rw [records.remaining, queries.index]; exact ahead.found
      apart := by rw [queries.queries]; exact ahead.apart
      needed := by rw [queries.issued]; exact ahead.needed }
  · intro id last result order dial same
    apply advance_ahead distinct order
    have queries := answered_queries net s dial id last result
    exact {
      named := answered_named ahead.named dial id last result
      listed := answered_listed ahead.listed dial id last result
      tracked := by
        rw [queries.queries, queries.index]
        exact fun a member => ahead.tracked a (Finmap.mem_values_erase member)
      asked := by rw [queries.keys, queries.index]; exact ahead.asked
      found := by
        rw [queries.index]
        intro a member gone
        rcases answered_cases net s dial id last result with
          ⟨key, _, authority, _, _, _, stores, stored⟩ | ⟨_, same⟩
        · rw [stored.remaining, Finset.mem_erase, not_and_or, not_not] at gone
          rcases gone with same | gone
          · exact ahead.asked a (Finmap.mem_values.mpr ⟨key, same ▸ stores.1⟩)
          · exact ahead.found a member gone
        · exact ahead.found a member (same.remaining ▸ gone)
      apart := by
        rw [queries.queries]
        exact Finmap.values_erase_nodup ahead.apart
      needed := by rw [queries.issued]; exact ahead.needed }
  · intro shuffle same
    subst same
    refine resubmit_rule (P := fun s' => Ahead net authorities s' ∧ s'.queryIndex = s.queryIndex)
      shuffle.distinct ?_ (fun _ held => ⟨ahead_closest held.1, held.2⟩) ?_ |>.1
    · intro s' a picked held missing untracked
      refine ⟨ahead_issue held.1 missing untracked ?_, held.2⟩
      rw [held.2, ← ahead.listed.1]
      exact drawn a picked
    · exact ⟨{ ahead with
        named := fun id tracked => absurd tracked Finmap.notMem_empty
        tracked := fun a member => absurd member (Multiset.notMem_zero a)
        apart := Multiset.nodup_zero }, rfl⟩

/-- While every resubmit draws among the authorities the first pass reached,
each query is for a missing authority without a tracked query, and no two
tracked queries are for the same authority. -/
theorem issues_needed (distinct : authorities.Nodup)
    (meets : (discovery net authorities first).Meets DrawsReached turns)
    (run : (discovery net authorities first).replay turns = some t) :
    (∀ issue ∈ t.issued, issue.Needed) ∧ t.queries.values.Nodup := by
  have ahead : Ahead net authorities t := by
    apply run_rule (fun s l held drawn => turn_ahead distinct held drawn) ?_ meets run
    exact advance_ahead distinct first {
      named := fun id tracked => absurd tracked Finmap.notMem_empty
      listed := ⟨rfl, fun a missing => List.mem_toFinset.mp missing⟩
      tracked := fun a member => absurd member (Multiset.notMem_zero a)
      asked := fun a member => absurd member (Multiset.notMem_zero a)
      found := fun a member gone => absurd (List.mem_toFinset.mpr member) gone
      apart := Multiset.nodup_zero
      needed := fun issue member => absurd member List.not_mem_nil }
  exact ⟨ahead.needed, ahead.apart⟩

private theorem many_distinct : (numberedKeys 129).Nodup := numbered_keys_distinct (by decide)

theorem resubmitted_queries_needed : ∃ t,
    (discovery (.counting (.onePublished [])) (numberedKeys 1) (.listed one_distinct)).replay
      [.resubmit (.listed one_distinct)] = some t ∧
    (∀ issue ∈ t.issued, issue.Needed) ∧ t.queries.values.Nodup := by
  obtain ⟨t, run⟩ := discovery_runs (.counting (.onePublished [])) (numberedKeys 1)
    (.listed one_distinct) [.resubmit (.listed one_distinct)]
  have reached : ∀ a ∈ numberedKeys 1, a ∈ (numberedKeys 1).take 1 := by decide
  have drawn : (discovery (.counting (.onePublished [])) (numberedKeys 1) (.listed one_distinct)).Meets
      DrawsReached [.resubmit (.listed one_distinct)] :=
    ⟨fun a picked => reached a (List.mem_filter.mp (List.mem_of_mem_take picked)).1, fun _ _ => trivial⟩
  exact ⟨t, run, issues_needed one_distinct drawn run⟩

/-- A resubmit draws the authority the first pass is to ask for next. When a slot
gets free, the first pass asks for it again. -/
theorem resubmit_repeats {shuffle order : Arrangement authorities} {a : PublicKey} {i j : Nat}
    (walks : HashSet.Walks shuffle.order s.remainingAuthorities) (many : maxQueries ≤ shuffle.order.length)
    (next : s.authorities[s.queryIndex]? = some a) (drawn : (shuffle.order.take maxQueries)[i]? = some a)
    (freed : j < maxQueries) (apart : i ≠ j) :
    ∃ issue ∈ (advanceDhtQueries net order.order (answered net (fun _ => none) (net.queryId (s.swarm.started + j))
        true .failed (resubmitRemainingDhtQueries net shuffle.order s))).issued,
      issue.authority = a ∧ issue.authority ∈ issue.tracked := by
  let issued := queryDhtRecords net { s with queries := ∅ } (shuffle.order.take maxQueries)
  have resubmits : resubmitRemainingDhtQueries net shuffle.order s = issued := resubmit_many walks many
  have length : (shuffle.order.take maxQueries).length = maxQueries := List.length_take_of_le many
  have size : issued.queries.size = maxQueries := by
    rw [query_records_size (fun id tracked => absurd tracked Finmap.notMem_empty), length]
    rfl
  have index : issued.queryIndex = s.queryIndex := by
    rw [← resubmits]
    exact resubmit_rule (P := fun s' => s'.queryIndex = s.queryIndex) shuffle.distinct
      (fun _ _ _ held _ _ => held) (fun _ held => held) rfl
  have running : issued.queries.lookup (net.queryId (s.swarm.started + i)) = some a := query_records_lookup drawn
  have ended : net.queryId (s.swarm.started + j) ∈ issued.queries.keys := by
    rw [← length] at freed
    exact Finmap.mem_keys.mpr (Finmap.mem_of_lookup_eq_some (query_records_lookup (List.getElem?_eq_getElem freed)))
  have others : net.queryId (s.swarm.started + i) ≠ net.queryId (s.swarm.started + j) :=
    fun same => apart (Nat.add_left_cancel (net.fresh same))
  rw [resubmits]
  have queries := (answered_queries net issued (fun _ => none) (net.queryId (s.swarm.started + j)) true .failed).queries
  apply advance_repeats order.distinct
  · show issued.authorities[issued.queryIndex]? = some a
    rw [index, (query_records_same _).authorities]
    exact next
  · rw [queries, Finmap.size, Finmap.keys_erase, Finset.card_erase_of_mem ended, ← Finmap.size, size]
    decide
  · rw [queries]
    exact Finmap.mem_values.mpr ⟨_, (Finmap.lookup_erase_ne others).trans running⟩

/-- With an authority more than slots, a resubmit in the first pass draws the
one not reached, and the first pass then asks for it while its query runs. -/
theorem first_pass_repeats_query : ∃ t issue,
    (discovery (.counting (.onePublished [])) (numberedKeys 129) (.listed many_distinct)).replay
      [.resubmit (.reversed many_distinct),
        .swarm (.getRecord 200 true .failed) (.listed many_distinct) fun _ => none] = some t ∧
    issue ∈ t.issued ∧ issue.authority = numberedKey 128 ∧ issue.authority ∈ issue.tracked := by
  let start := (discovery (.counting (.onePublished [])) (numberedKeys 129) (.listed many_distinct)).start
  have passed : start.authorities[start.queryIndex]? = some (numberedKey 128) ∧ start.swarm.started = 160 := by
    decide +kernel
  have walks : HashSet.Walks (numberedKeys 129).reverse start.remainingAuthorities := by
    refine ⟨List.nodup_reverse.mpr many_distinct, fun a => ?_⟩
    rw [start_same.remaining]
    exact List.mem_reverse.trans List.mem_toFinset.symm
  have many : maxQueries ≤ (numberedKeys 129).reverse.length := by simp [numberedKeys, maxQueries]
  -- the resubmit draws all authorities but the first, the last one first
  have drawn : ((numberedKeys 129).reverse.take maxQueries)[0]? = some (numberedKey 128) := by decide +kernel
  obtain ⟨issue, asked, repeats⟩ := @resubmit_repeats _ _ _ _ _ (.counting (.onePublished [])) start _
    (.reversed many_distinct) (.listed many_distinct) (numberedKey 128) 0 40 walks many passed.1 drawn
    (by decide) (by decide)
  rw [passed.2] at asked
  exact ⟨_, issue, rfl, asked, repeats⟩

end Runs

end AuthorityDiscovery
end Subp2pExplorer.Authorities
