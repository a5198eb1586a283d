import Subp2pExplorer.Authorities.Discovery

/-! What the three refill mechanisms of the discovery keep: the first pass over
the list, the backfill of freed slots and the periodic resubmit. Each is a
sequence of single issues, so a property of runs is one of an issue. -/
namespace Subp2pExplorer.Authorities
open Lib Subp2pExplorer.Types
namespace AuthorityDiscovery

section Rules
variable {PeerId NodeKey QueryId : Type} [DecidableEq QueryId] {net : Network PeerId NodeKey QueryId}
  {s : AuthorityDiscovery PeerId QueryId} {P : AuthorityDiscovery PeerId QueryId → Prop}

theorem query_peer_info_rule (closest : ∀ s, P s → P (getClosestPeers net s)) (held : P s) :
    P (queryPeerInfo net s) := by
  have repeated : ∀ n, P ((getClosestPeers net)^[n] s) := by
    intro n
    induction n with
    | zero => exact held
    | succ n ih =>
      rw [Function.iterate_succ_apply']
      exact closest _ ih
  unfold queryPeerInfo
  split
  · exact repeated _
  · exact held

/-- Issuing queries for distinct wanted authorities that are not tracked: none
of them is tracked when its turn comes. -/
theorem query_records_rule {todo : List PublicKey} (distinct : todo.Nodup)
    (wanted : ∀ a ∈ todo, a ∈ s.remainingAuthorities) (untracked : ∀ a ∈ todo, a ∉ s.queries.values)
    (issue : ∀ s, ∀ a ∈ todo, P s → a ∈ s.remainingAuthorities → a ∉ s.queries.values →
      P (queryDhtRecord net s a)) (held : P s) : P (queryDhtRecords net s todo) := by
  induction todo generalizing s with
  | nil => exact held
  | cons a rest ih =>
    obtain ⟨apart, distinctRest⟩ := List.nodup_cons.mp distinct
    have first := issue s a List.mem_cons_self held (wanted a List.mem_cons_self)
      (untracked a List.mem_cons_self)
    refine ih distinctRest (fun b member => wanted b (List.mem_cons_of_mem a member)) ?_
      (fun s b member => issue s b (List.mem_cons_of_mem a member)) first
    intro b member tracked
    rcases Finmap.mem_values_insert tracked with same | before
    · exact apart (same ▸ member)
    · exact untracked b (List.mem_cons_of_mem a member) before

/-- The first pass issues a query for the authority at the index, one after
another while there is room. -/
theorem query_initial_rule
    (initial : ∀ s a, P s → s.authorities[s.queryIndex]? = some a → s.queries.size < maxQueries →
      P { queryDhtRecord net s a with queryIndex := s.queryIndex + 1 })
    (held : P s) : P (queryInitial net (s.authorities.drop s.queryIndex) s) := by
  generalize rest : s.authorities.drop s.queryIndex = todo
  induction todo generalizing s with
  | nil => exact held
  | cons a todo ih =>
    unfold queryInitial
    split
    · rename_i room
      have found : s.authorities[s.queryIndex]? = some a := by
        rw [← List.head?_drop, rest]
        rfl
      have later : s.authorities.drop (s.queryIndex + 1) = todo := by
        rw [← List.tail_drop, rest]
        rfl
      exact ih (initial s a held found room) later
    · exact held

variable (net s) in
/-- The first pass ends with no room left or at the end of the list. -/
theorem query_initial_ends :
    let s' := queryInitial net (s.authorities.drop s.queryIndex) s
    maxQueries ≤ s'.queries.size ∨ s'.authorities.length ≤ s'.queryIndex := by
  generalize rest : s.authorities.drop s.queryIndex = todo
  induction todo generalizing s with
  | nil => exact .inr (List.drop_eq_nil_iff.mp rest)
  | cons a todo ih =>
    unfold queryInitial
    split
    · have later : s.authorities.drop (s.queryIndex + 1) = todo := by
        rw [← List.tail_drop, rest]
        rfl
      exact ih _ later
    · rename_i full
      exact .inl (Nat.le_of_not_lt full)

/-- What a single issue of each kind keeps, an advance keeps. -/
theorem advance_rule {order : List PublicKey} (distinct : order.Nodup)
    (initial : ∀ s a, P s → s.authorities[s.queryIndex]? = some a → s.queries.size < maxQueries →
      P { queryDhtRecord net s a with queryIndex := s.queryIndex + 1 })
    (backfill : ∀ s a, P s → s.authorities.length ≤ s.queryIndex → a ∈ s.remainingAuthorities →
      a ∉ s.queries.values → P (queryDhtRecord net s a))
    (closest : ∀ s, P s → P (getClosestPeers net s)) (held : P s) :
    P (advanceDhtQueries net order s) := by
  have passed := query_initial_rule initial held
  unfold advanceDhtQueries
  apply query_peer_info_rule closest
  generalize queryInitial net (s.authorities.drop s.queryIndex) s = s at passed ⊢
  unfold queryBackfill
  split
  · rename_i room
    have both : P s ∧ s.authorities.length ≤ s.queryIndex := ⟨passed, room.1⟩
    have picked : ∀ a ∈ ((HashSet.iterate order s.remainingAuthorities).filter
        (· ∉ s.queries.values)).take (maxQueries - s.queries.size),
        a ∈ s.remainingAuthorities ∧ a ∉ s.queries.values := by
      intro a member
      have kept := List.mem_filter.mp (List.mem_of_mem_take member)
      exact ⟨(HashSet.mem_iterate.mp kept.1).2, of_decide_eq_true kept.2⟩
    refine (query_records_rule (P := fun s => P s ∧ s.authorities.length ≤ s.queryIndex) ?_
      (fun a member => (picked a member).1) (fun a member => (picked a member).2) ?_ both).1
    · exact ((HashSet.iterate_nodup distinct _).filter _).take
    · intro s a _ held wanted untracked
      exact ⟨backfill s a held.1 held.2 wanted untracked, held.2⟩
  · exact passed

/-- What forgetting the queries and an issue for each authority drawn keep, a
resubmit keeps. -/
theorem resubmit_rule {shuffle : List PublicKey} (distinct : shuffle.Nodup)
    (issue : ∀ s', ∀ a ∈ (HashSet.iterate shuffle s.remainingAuthorities).take maxQueries,
      P s' → a ∈ s'.remainingAuthorities → a ∉ s'.queries.values → P (queryDhtRecord net s' a))
    (closest : ∀ s, P s → P (getClosestPeers net s)) (cleared : P { s with queries := ∅ }) :
    P (resubmitRemainingDhtQueries net shuffle s) := by
  have issued : P (queryDhtRecords net { s with queries := ∅ }
      ((HashSet.iterate shuffle s.remainingAuthorities).take maxQueries)) := by
    refine query_records_rule (HashSet.iterate_nodup distinct _).take ?_ ?_ issue cleared
    · exact fun a member => (HashSet.mem_iterate.mp (List.mem_of_mem_take member)).2
    · exact fun a _ tracked => Multiset.notMem_zero a tracked
  unfold resubmitRemainingDhtQueries
  dsimp only
  split
  · exact query_peer_info_rule closest issued
  · exact issued

/-- Refilling the queries changes no record and no missing authority. -/
theorem advance_same {order : List PublicKey} (distinct : order.Nodup) :
    SameRecords s (advanceDhtQueries net order s) :=
  advance_rule (P := SameRecords s) distinct (fun _ _ held _ _ => held.trans ⟨rfl, rfl, rfl, rfl⟩)
    (fun _ _ held _ _ _ => held.trans ⟨rfl, rfl, rfl, rfl⟩)
    (fun _ held => held.trans ⟨rfl, rfl, rfl, rfl⟩) .rfl

theorem resubmit_same {shuffle : List PublicKey} (distinct : shuffle.Nodup) :
    SameRecords s (resubmitRemainingDhtQueries net shuffle s) :=
  resubmit_rule (P := SameRecords s) distinct (fun _ _ _ held _ _ => held.trans ⟨rfl, rfl, rfl, rfl⟩)
    (fun _ held => held.trans ⟨rfl, rfl, rfl, rfl⟩) ⟨rfl, rfl, rfl, rfl⟩

end Rules

section Turns
variable {PeerId NodeKey QueryId : Type} [DecidableEq PeerId] [DecidableEq QueryId]
  {net : Network PeerId NodeKey QueryId} {s : AuthorityDiscovery PeerId QueryId}
  {authorities : List PublicKey}

/-- The state in which an answered query lets the queries advance. -/
def answered (net : Network PeerId NodeKey QueryId) (dial : LibP2pMultiaddr PeerId → Option ErrorText)
    (id : QueryId) (last : Bool) (result : GetRecordResult) (s : AuthorityDiscovery PeerId QueryId) :
    AuthorityDiscovery PeerId QueryId :=
  let delivered := deliver (.getRecord id last result) s
  let freed := { delivered with queries := delivered.queries.erase id }
  match result with
  | .foundRecord key value => handleRecord net dial key value freed
  | _ => freed

/-- A turn that is neither an answer nor a resubmit keeps what asking for
closest peers keeps, unless it is about more than queries and records. -/
theorem turn_rule {P : AuthorityDiscovery PeerId QueryId → Prop} {l : Turn PeerId QueryId authorities}
    (same : ∀ s', SameRecords s s' → SameQueries s s' → P s')
    (closest : ∀ s, P s → P (getClosestPeers net s))
    (answer : ∀ id last result order dial, l = .swarm (.getRecord id last result) order dial →
      P (advanceDhtQueries net order.order (answered net dial id last result s)))
    (resubmitted : ∀ shuffle, l = .resubmit shuffle → P (resubmitRemainingDhtQueries net shuffle.order s)) :
    P (s.turn net l) := by
  have held : P s := same s .rfl .rfl
  cases l with
  | resubmit shuffle => exact resubmitted shuffle rfl
  | swarm event order dial =>
    cases event with
    | getRecord id last result =>
      have step := answer id last result order dial rfl
      cases result with
      | foundRecord key value => exact step
      | finished => exact step
      | failed => exact step
    | getClosestPeers id =>
      have removed : P { s with queriesDiscovery := s.queriesDiscovery.erase id } :=
        same _ ⟨rfl, rfl, rfl, rfl⟩ ⟨rfl, rfl, rfl, rfl, rfl, rfl, rfl⟩
      exact query_peer_info_rule closest removed
    | identified peerId info => exact same _ ⟨rfl, rfl, rfl, rfl⟩ ⟨rfl, rfl, rfl, rfl, rfl, rfl, rfl⟩
    | connectionEstablished endpoint =>
      cases endpoint with
      | dialer address =>
        have kept := record_outcome_same (s := s) address .success
        exact same _ kept.1 kept.2
      | listener => exact held
    | outgoingConnectionError error =>
      have kept := dial_error_same (s := s) net error
      exact same _ kept.1 kept.2
    | other => exact held

variable (net s) in
/-- What an answer does before the queries advance, as far as they go. -/
theorem answered_queries (dial : LibP2pMultiaddr PeerId → Option ErrorText) (id : QueryId) (last : Bool)
    (result : GetRecordResult) :
    SameQueries { s with
      queries := s.queries.erase id
      swarm := { s.swarm with active := if last then s.swarm.active.erase id else s.swarm.active } }
      (answered net dial id last result s) := by
  cases last with
  | false =>
    cases result with
    | foundRecord key value => exact handle_record_queries key value
    | finished => exact .rfl
    | failed => exact .rfl
  | true =>
    cases result with
    | foundRecord key value => exact handle_record_queries key value
    | finished => exact .rfl
    | failed => exact .rfl

variable (net s) in
/-- An answer stores the record it found or changes no record. -/
theorem answered_cases (dial : LibP2pMultiaddr PeerId → Option ErrorText) (id : QueryId) (last : Bool)
    (result : GetRecordResult) :
    (∃ key value authority peerId addresses, result = .foundRecord key value ∧
        Stores net s key value authority peerId addresses ∧
        Stored authority peerId addresses s (answered net dial id last result s)) ∨
      (∀ key value authority peerId addresses, result = .foundRecord key value →
        ¬Stores net s key value authority peerId addresses) ∧
        SameRecords s (answered net dial id last result s) := by
  let freed := { deliver (.getRecord id last result) s with
    queries := (deliver (.getRecord id last result) s).queries.erase id }
  have unchanged : SameRecords s freed ∧ freed.recordsKeys = s.recordsKeys := by
    cases last with
    | false => exact ⟨⟨rfl, rfl, rfl, rfl⟩, rfl⟩
    | true => exact ⟨⟨rfl, rfl, rfl, rfl⟩, rfl⟩
  obtain ⟨same, keys⟩ := unchanged
  cases result with
  | finished =>
    refine .inr ⟨fun _ _ _ _ _ other => ?_, same⟩
    cases other
  | failed =>
    refine .inr ⟨fun _ _ _ _ _ other => ?_, same⟩
    cases other
  | foundRecord key value =>
    have lookups : ∀ authority peerId addresses, Stores net freed key value authority peerId addresses ↔
        Stores net s key value authority peerId addresses := by
      intro authority peerId addresses
      unfold Stores
      rw [keys]
    rcases handle_record_cases (s := freed) net dial key value with
      ⟨authority, peerId, addresses, stores, stored⟩ | ⟨refused, kept⟩
    · refine .inl ⟨key, value, authority, peerId, addresses, rfl, (lookups _ _ _).mp stores, ?_⟩
      exact {
        authorities := stored.authorities.trans same.authorities
        remaining := by rw [← same.remaining]; exact stored.remaining
        details := by rw [← same.details]; exact stored.details
        peers := by rw [← same.peers]; exact stored.peers }
    · refine .inr ⟨?_, same.trans kept⟩
      intro key' value' authority peerId addresses found stores
      cases found
      exact refused authority peerId addresses ((lookups _ _ _).mpr stores)

variable {t : AuthorityDiscovery PeerId QueryId} {first : Arrangement authorities}
  {turns : List (Turn PeerId QueryId authorities)}

/-- A run starts with the records of a new discovery. -/
theorem start_same : SameRecords (.new authorities) (discovery net authorities first).start :=
  advance_same first.distinct

/-- What the start has and every turn keeps that meets the condition, the end
of a run has. -/
theorem run_rule {P : AuthorityDiscovery PeerId QueryId → Prop}
    {condition : AuthorityDiscovery PeerId QueryId → Turn PeerId QueryId authorities → Prop}
    (keep : ∀ s l, P s → condition s l → P (s.turn net l))
    (base : P (discovery net authorities first).start)
    (meets : (discovery net authorities first).Meets condition turns)
    (run : (discovery net authorities first).replay turns = some t) : P t := by
  have step : ∀ s l s', P s → condition s l → (discovery net authorities first).next s l = some s' → P s' := by
    intro s l s' held met taken
    cases taken
    exact keep s l held met
  exact Machine.invariant_under step base meets run

end Turns

end AuthorityDiscovery
end Subp2pExplorer.Authorities
