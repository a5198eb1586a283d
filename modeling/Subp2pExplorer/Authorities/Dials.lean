import Subp2pExplorer.Authorities.Records

/-! The dials of the discovery and their outcomes. An address is dialed when a
record first lists it; an outcome is written where the dial fails at once, and
by connection events about an address that was dialed. -/
namespace Subp2pExplorer.Authorities
open Lib Subp2pExplorer.Types

/-- The addresses a failed dial is reported for, and what is recorded of each. -/
def DialError.failures {PeerId NodeKey QueryId : Type} (net : Network PeerId NodeKey QueryId) :
    DialError PeerId → List (LibP2pMultiaddr PeerId × String)
  | .transport attempts => attempts.map fun attempt => (attempt.1, "transport: " ++ attempt.2.message)
  | .wrongPeerId obtained address => [(address, "wrong peer ID: " ++ net.showPeer obtained)]
  | .localPeerId address => [(address, "dialed local peer ID")]
  | .denied => []
  | .other => []

namespace AuthorityDiscovery

section Frames
variable {PeerId QueryId : Type}

/-- Where a state has the dials and the outcomes of another. -/
structure SameDials (s s' : AuthorityDiscovery PeerId QueryId) : Prop where
  dials : s'.swarm.dials = s.swarm.dials
  dialed : s'.dialedAddresses = s.dialedAddresses
  outcomes : s'.dialOutcomes = s.dialOutcomes

theorem SameDials.rfl {s : AuthorityDiscovery PeerId QueryId} : SameDials s s :=
  ⟨Eq.refl _, Eq.refl _, Eq.refl _⟩

theorem SameDials.trans {s t u : AuthorityDiscovery PeerId QueryId} (first : SameDials s t)
    (second : SameDials t u) : SameDials s u where
  dials := second.dials.trans first.dials
  dialed := second.dialed.trans first.dialed
  outcomes := second.outcomes.trans first.outcomes

variable [DecidableEq QueryId] {NodeKey : Type} {net : Network PeerId NodeKey QueryId}
  {s : AuthorityDiscovery PeerId QueryId}

theorem advance_same_dials {order : List PublicKey} (distinct : order.Nodup) :
    SameDials s (advanceDhtQueries net order s) :=
  advance_rule (P := SameDials s) distinct (fun _ _ held _ _ => held.trans ⟨rfl, rfl, rfl⟩)
    (fun _ _ held _ _ _ => held.trans ⟨rfl, rfl, rfl⟩) (fun _ held => held.trans ⟨rfl, rfl, rfl⟩) .rfl

theorem resubmit_same_dials {shuffle : List PublicKey} (distinct : shuffle.Nodup) :
    SameDials s (resubmitRemainingDhtQueries net shuffle s) :=
  resubmit_rule (P := SameDials s) distinct (fun _ _ _ held _ _ => held.trans ⟨rfl, rfl, rfl⟩)
    (fun _ held => held.trans ⟨rfl, rfl, rfl⟩) ⟨rfl, rfl, rfl⟩

end Frames

section Dials
variable {PeerId NodeKey QueryId : Type} [DecidableEq PeerId] {net : Network PeerId NodeKey QueryId}
  {s s' : AuthorityDiscovery PeerId QueryId} {dial : LibP2pMultiaddr PeerId → Option ErrorText}

/-- Each address dialed was dialed once, and outcomes are of dialed addresses. -/
structure DialedOnce (s : AuthorityDiscovery PeerId QueryId) : Prop where
  distinct : s.swarm.dials.Nodup
  dialed : ∀ a, a ∈ s.swarm.dials ↔ a ∈ s.dialedAddresses
  recorded : ∀ a ∈ s.dialOutcomes, a ∈ s.dialedAddresses

omit [DecidableEq PeerId] in
theorem same_dialed_once (same : SameDials s s') (once : DialedOnce s) : DialedOnce s' where
  distinct := same.dials ▸ once.distinct
  dialed := by rw [same.dials, same.dialed]; exact once.dialed
  recorded := by rw [same.outcomes, same.dialed]; exact once.recorded

/-- What is not dialed has no outcome. -/
theorem undialed_outcome (once : DialedOnce s) {a : LibP2pMultiaddr PeerId} (apart : a ∉ s.dialedAddresses) :
    s.dialOutcomes.lookup a = none :=
  Finmap.lookup_eq_none.mpr fun member => apart (once.recorded a member)

/-- Dialing reads nothing of a state but its dials. -/
theorem dial_addresses_congr (addresses : List (LibP2pMultiaddr PeerId)) (same : SameDials s s') :
    SameDials (addresses.foldl (dialAddress dial) s) (addresses.foldl (dialAddress dial) s') := by
  induction addresses generalizing s s' with
  | nil => exact same
  | cons a rest ih =>
    refine ih ?_
    unfold dialAddress
    rw [same.dialed]
    split
    · exact same
    · refine ⟨?_, rfl, ?_⟩
      · rw [same.dials]
      · rw [same.outcomes]

theorem dial_addresses_dialed (addresses : List (LibP2pMultiaddr PeerId)) :
    (addresses.foldl (dialAddress dial) s).dialedAddresses = s.dialedAddresses ∪ addresses.toFinset := by
  have inserts : ∀ (s : AuthorityDiscovery PeerId QueryId) a,
      (dialAddress dial s a).dialedAddresses = insert a s.dialedAddresses := by
    intro s a
    unfold dialAddress
    split
    · rename_i known
      exact (Finset.insert_eq_of_mem known).symm
    · rfl
  exact HashSet.fold_inserts dialedAddresses inserts addresses s

theorem dial_address_once (a : LibP2pMultiaddr PeerId) (once : DialedOnce s) :
    DialedOnce (dialAddress dial s a) := by
  unfold dialAddress
  split
  · exact once
  · rename_i fresh
    have undialed : a ∉ s.swarm.dials := fun member => fresh ((once.dialed a).mp member)
    refine ⟨?_, fun b => ?_, fun b member => ?_⟩
    · exact List.nodup_append.mpr ⟨once.distinct, List.nodup_singleton a, by
        intro x member y same
        rw [List.mem_singleton.mp same]
        exact fun equal => undialed (equal ▸ member)⟩
    · rw [List.mem_append, List.mem_singleton, once.dialed, Finset.mem_insert, or_comm]
    · rw [Finset.mem_insert]
      dsimp only at member
      cases failure : dial a with
      | none =>
        rw [failure] at member
        exact .inr (once.recorded b member)
      | some error =>
        rw [failure] at member
        exact (Finmap.mem_insert.mp member).imp_right (once.recorded b)

theorem dial_addresses_once (addresses : List (LibP2pMultiaddr PeerId)) (once : DialedOnce s) :
    DialedOnce (addresses.foldl (dialAddress dial) s) := by
  induction addresses generalizing s with
  | nil => exact once
  | cons a rest ih => exact ih (dial_address_once a once)

/-- The outcome of an address dialed before is not touched. -/
theorem dial_addresses_outcome (addresses : List (LibP2pMultiaddr PeerId)) {a : LibP2pMultiaddr PeerId} :
    (addresses.foldl (dialAddress dial) s).dialOutcomes.lookup a = s.dialOutcomes.lookup a ∨
      a ∉ s.dialedAddresses ∧
        ∃ reason, (addresses.foldl (dialAddress dial) s).dialOutcomes.lookup a = some (.failed reason) := by
  induction addresses generalizing s with
  | nil => exact .inl rfl
  | cons b rest ih =>
    have first : (dialAddress dial s b).dialOutcomes.lookup a = s.dialOutcomes.lookup a ∨
        a ∉ s.dialedAddresses ∧
          ∃ reason, (dialAddress dial s b).dialOutcomes.lookup a = some (.failed reason) := by
      unfold dialAddress
      split
      · exact .inl rfl
      · rename_i fresh
        dsimp only
        cases dial b with
        | none => exact .inl rfl
        | some error =>
          dsimp only
          by_cases same : a = b
          · subst same
            exact .inr ⟨fresh, error.message, Finmap.lookup_insert _⟩
          · exact .inl (Finmap.lookup_insert_of_ne _ same)
    have grown : a ∈ s.dialedAddresses → a ∈ (dialAddress dial s b).dialedAddresses := by
      unfold dialAddress
      split
      · exact id
      · exact Finset.mem_insert_of_mem
    rw [List.foldl_cons]
    rcases ih (s := dialAddress dial s b) with kept | ⟨fresh, failed⟩
    · rw [kept]
      exact first
    · exact .inr ⟨fun member => fresh (grown member), failed⟩

theorem store_record_dials (authority : PublicKey) (peerId : PeerId)
    (addresses : List (LibP2pMultiaddr PeerId)) :
    SameDials (addresses.foldl (dialAddress dial) s) (storeRecord dial authority peerId addresses s) := by
  unfold storeRecord
  extract_lets merged dialed
  have same : SameDials (addresses.foldl (dialAddress dial) s) dialed :=
    dial_addresses_congr addresses ⟨rfl, rfl, rfl⟩
  exact same.trans ⟨rfl, rfl, rfl⟩

theorem record_outcome_once (a : LibP2pMultiaddr PeerId) (outcome : DialOutcome) (once : DialedOnce s) :
    DialedOnce (recordOutcome a outcome s) := by
  unfold recordOutcome
  split
  · rename_i dialed
    refine ⟨once.distinct, once.dialed, fun b member => ?_⟩
    rcases Finmap.mem_insert.mp member with same | before
    · exact same ▸ dialed
    · exact once.recorded b before
  · exact once

theorem record_outcome_dialed (a : LibP2pMultiaddr PeerId) (outcome : DialOutcome) :
    (recordOutcome a outcome s).dialedAddresses = s.dialedAddresses := by
  unfold recordOutcome
  split <;> rfl

theorem record_outcome_lookup {a : LibP2pMultiaddr PeerId} (outcome : DialOutcome)
    (dialed : a ∈ s.dialedAddresses) :
    (recordOutcome a outcome s).dialOutcomes.lookup a = some outcome := by
  unfold recordOutcome
  rw [if_pos dialed]
  exact Finmap.lookup_insert _

theorem record_outcome_lookup_ne {a b : LibP2pMultiaddr PeerId} (outcome : DialOutcome) (apart : a ≠ b) :
    (recordOutcome b outcome s).dialOutcomes.lookup a = s.dialOutcomes.lookup a := by
  unfold recordOutcome
  split
  · exact Finmap.lookup_insert_of_ne _ apart
  · rfl

theorem dial_error_failures (error : DialError PeerId) :
    handleDialError net error s =
      (error.failures net).foldl (fun s failure => recordOutcome failure.1 (.failed failure.2) s) s := by
  cases error with
  | transport attempts =>
    rw [DialError.failures, List.foldl_map]
    rfl
  | wrongPeerId obtained address => rfl
  | localPeerId address => rfl
  | denied => rfl
  | other => rfl

theorem dial_error_once (error : DialError PeerId) (once : DialedOnce s) :
    DialedOnce (handleDialError net error s) := by
  rw [dial_error_failures]
  generalize error.failures net = failures
  induction failures generalizing s with
  | nil => exact once
  | cons failure rest ih => exact ih (record_outcome_once _ _ once)

variable (net) in
theorem dial_error_dialed (error : DialError PeerId) :
    (handleDialError net error s).dialedAddresses = s.dialedAddresses := by
  rw [dial_error_failures]
  exact fold_keeps dialedAddresses (fun s failure => record_outcome_dialed _ _) (error.failures net) s

variable (net) in
/-- A failed dial is recorded of the dialed addresses it names. -/
theorem dial_error_outcome (error : DialError PeerId) {a : LibP2pMultiaddr PeerId}
    (dialed : a ∈ s.dialedAddresses) :
    (a ∈ (error.failures net).map Prod.fst ∧
        ∃ reason, (handleDialError net error s).dialOutcomes.lookup a = some (.failed reason)) ∨
      a ∉ (error.failures net).map Prod.fst ∧
        (handleDialError net error s).dialOutcomes.lookup a = s.dialOutcomes.lookup a := by
  rw [dial_error_failures]
  generalize error.failures net = failures
  induction failures generalizing s with
  | nil => exact .inr ⟨List.not_mem_nil, rfl⟩
  | cons failure rest ih =>
    have still : a ∈ (recordOutcome failure.1 (.failed failure.2) s).dialedAddresses := by
      rw [record_outcome_dialed]
      exact dialed
    rw [List.foldl_cons, List.map_cons, List.mem_cons]
    rcases ih still with ⟨named, failed⟩ | ⟨unnamed, kept⟩
    · exact .inl ⟨.inr named, failed⟩
    · by_cases same : a = failure.1
      · refine .inl ⟨.inl same, failure.2, ?_⟩
        rw [kept, ← same, record_outcome_lookup _ dialed]
      · refine .inr ⟨not_or.mpr ⟨same, unnamed⟩, ?_⟩
        rw [kept, record_outcome_lookup_ne _ same]

/-- A found record dials the addresses it is stored with, and only then. -/
theorem handle_record_dials (key : KademliaKey) (value : Bytes) :
    (∀ authority peerId addresses, Stores net s key value authority peerId addresses →
        SameDials (addresses.foldl (dialAddress dial) s) (handleRecord net dial key value s)) ∧
      ((∀ authority peerId addresses, ¬Stores net s key value authority peerId addresses) →
        SameDials s (handleRecord net dial key value s)) := by
  unfold handleRecord Stores
  cases s.recordsKeys.lookup key with
  | none =>
    refine ⟨?_, fun _ => .rfl⟩
    rintro authority peerId addresses ⟨missing, _⟩
    cases missing
  | some owner =>
    dsimp only
    cases decoded : decodeDhtRecord net.codec value owner with
    | error reason =>
      refine ⟨?_, fun _ => ⟨rfl, rfl, rfl⟩⟩
      rintro authority peerId addresses ⟨same, accepted⟩
      cases Option.some.inj same
      rw [decoded] at accepted
      cases accepted
    | ok found =>
      obtain ⟨peer, listed⟩ := found
      refine ⟨?_, fun refused => absurd ⟨rfl, decoded⟩ (refused owner peer listed)⟩
      rintro authority peerId addresses ⟨same, accepted⟩
      cases Option.some.inj same
      rw [decoded] at accepted
      cases accepted
      exact store_record_dials owner peer listed

end Dials

section Turns
variable {PeerId NodeKey QueryId : Type} [DecidableEq PeerId] [DecidableEq QueryId]
  {net : Network PeerId NodeKey QueryId} {s : AuthorityDiscovery PeerId QueryId}
  {authorities : List PublicKey}

/-- This turn reports a connection that was dialed at the address. -/
def Establishes (a : LibP2pMultiaddr PeerId) (l : Turn PeerId QueryId authorities) : Prop :=
  ∃ order dial, l = .swarm (.connectionEstablished (.dialer a)) order dial

/-- This turn reports a failed dial that names the address. -/
def Fails (net : Network PeerId NodeKey QueryId) (a : LibP2pMultiaddr PeerId)
    (l : Turn PeerId QueryId authorities) : Prop :=
  ∃ error order dial, l = .swarm (.outgoingConnectionError error) order dial ∧
    a ∈ (error.failures net).map Prod.fst

variable (net s) in
/-- An answer dials the addresses of the record it stores, or changes neither
dials nor records. -/
theorem answered_dials (dial : LibP2pMultiaddr PeerId → Option ErrorText) (id : QueryId) (last : Bool)
    (result : GetRecordResult) :
    (∃ authority peerId addresses, Stored authority peerId addresses s (answered net dial id last result s) ∧
        SameDials (addresses.foldl (dialAddress dial) s) (answered net dial id last result s)) ∨
      SameRecords s (answered net dial id last result s) ∧
        SameDials s (answered net dial id last result s) := by
  let freed := { deliver (.getRecord id last result) s with
    queries := (deliver (.getRecord id last result) s).queries.erase id }
  have unchanged : freed.recordsKeys = s.recordsKeys ∧ SameDials s freed := by
    cases last with
    | false => exact ⟨rfl, ⟨rfl, rfl, rfl⟩⟩
    | true => exact ⟨rfl, ⟨rfl, rfl, rfl⟩⟩
  have lookups : ∀ key value authority peerId addresses, Stores net s key value authority peerId addresses →
      Stores net freed key value authority peerId addresses := by
    rintro key value authority peerId addresses ⟨asked, decoded⟩
    exact ⟨unchanged.1.symm ▸ asked, decoded⟩
  rcases answered_cases net s dial id last result with
    ⟨key, value, authority, peerId, addresses, found, stores, stored⟩ | ⟨refused, same⟩
  · subst found
    have dialed : SameDials (addresses.foldl (dialAddress dial) freed) (handleRecord net dial key value freed) :=
      (handle_record_dials key value).1 authority peerId addresses (lookups _ _ _ _ _ stores)
    exact .inl ⟨authority, peerId, addresses, stored, (dial_addresses_congr addresses unchanged.2).trans dialed⟩
  · refine .inr ⟨same, ?_⟩
    cases result with
    | finished => exact unchanged.2
    | failed => exact unchanged.2
    | foundRecord key value =>
      refine unchanged.2.trans ((handle_record_dials (s := freed) key value).2 fun authority peerId addresses stores => ?_)
      exact refused key value authority peerId addresses rfl ⟨unchanged.1 ▸ stores.1, stores.2⟩

variable (net s) in
/-- What a turn does to the dials: it dials the addresses of a record it
stores, records a connection or a failed dial, or leaves them alone. -/
theorem turn_dial_cases (l : Turn PeerId QueryId authorities) :
    (∃ authority peerId addresses dial, Stored authority peerId addresses s (s.turn net l) ∧
        SameDials (addresses.foldl (dialAddress dial) s) (s.turn net l) ∧
        (∀ a, ¬Establishes a l) ∧ ∀ a, ¬Fails net a l) ∨
      (∃ b order dial, l = .swarm (.connectionEstablished (.dialer b)) order dial ∧
        s.turn net l = recordOutcome b .success s) ∨
      (∃ error order dial, l = .swarm (.outgoingConnectionError error) order dial ∧
        s.turn net l = handleDialError net error s) ∨
      SameRecords s (s.turn net l) ∧ SameDials s (s.turn net l) ∧
        (∀ a, ¬Establishes a l) ∧ ∀ a, ¬Fails net a l := by
  cases l with
  | resubmit shuffle =>
    exact .inr (.inr (.inr ⟨resubmit_same shuffle.distinct, resubmit_same_dials shuffle.distinct,
      by simp [Establishes], by simp [Fails]⟩))
  | swarm event order dial =>
    cases event with
    | connectionEstablished endpoint =>
      cases endpoint with
      | dialer b => exact .inr (.inl ⟨b, order, dial, rfl, rfl⟩)
      | listener => exact .inr (.inr (.inr ⟨.rfl, .rfl, by simp [Establishes], by simp [Fails]⟩))
    | outgoingConnectionError error => exact .inr (.inr (.inl ⟨error, order, dial, rfl, rfl⟩))
    | getRecord id last result =>
      have silent : (∀ a, ¬Establishes a (.swarm (.getRecord id last result) order dial :
          Turn PeerId QueryId authorities)) ∧
          ∀ a, ¬Fails net a (.swarm (.getRecord id last result) order dial) :=
        ⟨by simp [Establishes], by simp [Fails]⟩
      have advanced : SameRecords (answered net dial id last result s)
            (s.turn net (.swarm (.getRecord id last result) order dial)) ∧
          SameDials (answered net dial id last result s)
            (s.turn net (.swarm (.getRecord id last result) order dial)) := by
        cases result <;> exact ⟨advance_same order.distinct, advance_same_dials order.distinct⟩
      rcases answered_dials net s dial id last result with
        ⟨authority, peerId, addresses, stored, dialed⟩ | ⟨records, dials⟩
      · refine .inl ⟨authority, peerId, addresses, dial, ?_, dialed.trans advanced.2, silent⟩
        exact {
          authorities := advanced.1.authorities.trans stored.authorities
          remaining := advanced.1.remaining.trans stored.remaining
          details := advanced.1.details.trans stored.details
          peers := advanced.1.peers.trans stored.peers }
      · exact .inr (.inr (.inr ⟨records.trans advanced.1, dials.trans advanced.2, silent⟩))
    | getClosestPeers id =>
      have closest : ∀ s' : AuthorityDiscovery PeerId QueryId, SameRecords s s' ∧ SameDials s s' →
          SameRecords s (getClosestPeers net s') ∧ SameDials s (getClosestPeers net s') :=
        fun _ same => ⟨same.1.trans ⟨rfl, rfl, rfl, rfl⟩, same.2.trans ⟨rfl, rfl, rfl⟩⟩
      have same := query_peer_info_rule (P := fun s' => SameRecords s s' ∧ SameDials s s') closest
        (s := { s with queriesDiscovery := s.queriesDiscovery.erase id }) ⟨⟨rfl, rfl, rfl, rfl⟩, ⟨rfl, rfl, rfl⟩⟩
      exact .inr (.inr (.inr ⟨same.1, same.2, by simp [Establishes], by simp [Fails]⟩))
    | identified peerId info =>
      exact .inr (.inr (.inr ⟨⟨rfl, rfl, rfl, rfl⟩, ⟨rfl, rfl, rfl⟩, by simp [Establishes], by simp [Fails]⟩))
    | other => exact .inr (.inr (.inr ⟨.rfl, .rfl, by simp [Establishes], by simp [Fails]⟩))

/-- The addresses of all authorities found. -/
def allAddresses (s : AuthorityDiscovery PeerId QueryId) : Finset (LibP2pMultiaddr PeerId) :=
  s.authorityToDetails.keys.biUnion fun authority => (s.authorityToDetails.lookup authority).getD ∅

omit [DecidableEq QueryId] in
theorem mem_all_addresses {a : LibP2pMultiaddr PeerId} :
    a ∈ s.allAddresses ↔ ∃ authority entry, s.authorityToDetails.lookup authority = some entry ∧ a ∈ entry := by
  simp only [allAddresses, Finset.mem_biUnion, Finmap.mem_keys]
  constructor
  · rintro ⟨authority, found, member⟩
    obtain ⟨entry, held⟩ := Finmap.mem_iff.mp found
    rw [held] at member
    exact ⟨authority, entry, held, member⟩
  · rintro ⟨authority, entry, held, member⟩
    refine ⟨authority, Finmap.mem_of_lookup_eq_some held, ?_⟩
    rw [held]
    exact member

omit [DecidableEq QueryId] in
/-- A record adds its addresses to those of all authorities. -/
theorem stored_all_addresses {authority : PublicKey} {peerId : PeerId}
    {addresses : List (LibP2pMultiaddr PeerId)} {s' : AuthorityDiscovery PeerId QueryId}
    (stored : Stored authority peerId addresses s s') :
    s'.allAddresses = s.allAddresses ∪ addresses.toFinset := by
  ext a
  rw [Finset.mem_union, mem_all_addresses, mem_all_addresses, stored.details]
  constructor
  · rintro ⟨owner, entry, held, member⟩
    by_cases same : owner = authority
    · subst same
      rw [Finmap.lookup_upsert, Option.some.injEq] at held
      subst held
      cases prior : s.authorityToDetails.lookup owner with
      | none =>
        rw [prior] at member
        exact .inr member
      | some before =>
        rw [prior] at member
        exact (Finset.mem_union.mp member).imp_left fun old => ⟨owner, before, prior, old⟩
    · rw [Finmap.lookup_upsert_ne _ _ _ same] at held
      exact .inl ⟨owner, entry, held, member⟩
  · have grown : ∀ entry, s.authorityToDetails.lookup authority = some entry →
        (s.authorityToDetails.upsert authority (fun entry => entry ∪ addresses.toFinset)
          addresses.toFinset).lookup authority = some (entry ∪ addresses.toFinset) := by
      intro entry held
      rw [Finmap.lookup_upsert, held]
      rfl
    rintro (⟨owner, entry, held, member⟩ | fresh)
    · by_cases same : owner = authority
      · subst same
        exact ⟨owner, _, grown entry held, Finset.mem_union_left _ member⟩
      · exact ⟨owner, entry, by rw [Finmap.lookup_upsert_ne _ _ _ same, held], member⟩
    · refine ⟨authority, _, Finmap.lookup_upsert _ _ _ _, ?_⟩
      cases s.authorityToDetails.lookup authority with
      | none => exact fresh
      | some before => exact Finset.mem_union_right _ fresh

/-- What was dialed is what the records list. -/
structure DialsTracked (s : AuthorityDiscovery PeerId QueryId) : Prop where
  once : DialedOnce s
  stored : s.dialedAddresses = s.allAddresses

omit [DecidableEq QueryId] in
private theorem same_tracked {s' : AuthorityDiscovery PeerId QueryId} (records : SameRecords s s')
    (once : DialedOnce s') (dialed : s'.dialedAddresses = s.dialedAddresses) (tracked : DialsTracked s) :
    DialsTracked s' where
  once := once
  stored := by rw [dialed, tracked.stored, allAddresses, allAddresses, records.details]

theorem turn_tracked (tracked : DialsTracked s) (l : Turn PeerId QueryId authorities) :
    DialsTracked (s.turn net l) := by
  rcases turn_dial_cases net s l with ⟨authority, peerId, addresses, dial, stored, same, _⟩ |
    ⟨b, _, _, _, step⟩ | ⟨error, _, _, _, step⟩ | ⟨records, same, _⟩
  · exact {
      once := same_dialed_once same (dial_addresses_once addresses tracked.once)
      stored := by
        rw [same.dialed, dial_addresses_dialed, tracked.stored, stored_all_addresses stored] }
  · rw [step]
    exact same_tracked (record_outcome_same b .success).1 (record_outcome_once b .success tracked.once)
      (record_outcome_dialed b .success) tracked
  · rw [step]
    exact same_tracked (dial_error_same net error).1 (dial_error_once error tracked.once)
      (dial_error_dialed net error) tracked
  · exact same_tracked records (same_dialed_once same tracked.once) same.dialed tracked

/-- In every state a run reaches, what was dialed is what the records list. -/
theorem run_tracked {t : AuthorityDiscovery PeerId QueryId} {first : Arrangement authorities}
    {turns : List (Turn PeerId QueryId authorities)}
    (run : (discovery net authorities first).replay turns = some t) : DialsTracked t := by
  apply run_rule (fun s l held _ => turn_tracked held l) ?_ (Machine.meets_trivial turns) run
  have fresh : DialsTracked (.new authorities : AuthorityDiscovery PeerId QueryId) := {
    once := {
      distinct := List.nodup_nil
      dialed := fun a => by simp [new]
      recorded := fun a member => absurd member (Finmap.notMem_empty) }
    stored := rfl }
  have dials : SameDials (.new authorities) (discovery net authorities first).start :=
    advance_same_dials first.distinct
  exact same_tracked start_same (same_dialed_once dials fresh.once) dials.dialed fresh

omit [DecidableEq QueryId] in
theorem connected_success_iff (a b : LibP2pMultiaddr PeerId) :
    (recordOutcome b .success s).dialOutcomes.lookup a = some .success ↔
      a = b ∧ a ∈ s.dialedAddresses ∨ s.dialOutcomes.lookup a = some .success := by
  by_cases same : a = b
  · subst same
    by_cases dialed : a ∈ s.dialedAddresses
    · simp [record_outcome_lookup _ dialed, dialed]
    · simp [recordOutcome, dialed]
  · simp [record_outcome_lookup_ne _ same, same]

omit [DecidableEq QueryId] in
theorem dial_error_success_iff (once : DialedOnce s) (error : DialError PeerId) {a : LibP2pMultiaddr PeerId} :
    (handleDialError net error s).dialOutcomes.lookup a = some .success ↔
      s.dialOutcomes.lookup a = some .success ∧ a ∉ (error.failures net).map Prod.fst := by
  by_cases dialed : a ∈ s.dialedAddresses
  · rcases dial_error_outcome net error dialed with ⟨named, reason, failed⟩ | ⟨unnamed, kept⟩
    · simp [failed, named]
    · simp only [kept, unnamed, not_false_eq_true, and_true]
  · have undialed : a ∉ (handleDialError net error s).dialedAddresses := by
      rw [dial_error_dialed]
      exact dialed
    rw [undialed_outcome once dialed, undialed_outcome (dial_error_once error once) undialed]
    simp

/-- After a turn an address is reachable when the turn connected it, or when
it was before and the turn reports no failure of it. -/
theorem turn_success_iff (once : DialedOnce s) (l : Turn PeerId QueryId authorities)
    {a : LibP2pMultiaddr PeerId} :
    (s.turn net l).dialOutcomes.lookup a = some .success ↔
      Establishes a l ∧ a ∈ s.dialedAddresses ∨ s.dialOutcomes.lookup a = some .success ∧ ¬Fails net a l := by
  rcases turn_dial_cases net s l with ⟨_, _, addresses, dial, _, same, connects, fails⟩ |
    ⟨b, order, dial, shape, step⟩ | ⟨error, order, dial, shape, step⟩ | ⟨_, same, connects, fails⟩
  · simp only [connects a, fails a, false_and, false_or, not_false_eq_true, and_true]
    rw [same.outcomes]
    have outcome : (addresses.foldl (dialAddress dial) s).dialOutcomes.lookup a = s.dialOutcomes.lookup a ∨
        a ∉ s.dialedAddresses ∧
          ∃ reason, (addresses.foldl (dialAddress dial) s).dialOutcomes.lookup a = some (.failed reason) :=
      dial_addresses_outcome addresses
    rcases outcome with kept | ⟨fresh, reason, failed⟩
    · rw [kept]
    · rw [failed, undialed_outcome once fresh]
      simp
  · subst shape
    have connects : Establishes a (.swarm (.connectionEstablished (.dialer b)) order dial :
        Turn PeerId QueryId authorities) ↔ a = b := by
      simp [Establishes, eq_comm]
    have fails : ¬Fails net a (.swarm (.connectionEstablished (.dialer b)) order dial :
        Turn PeerId QueryId authorities) := by
      simp [Fails]
    rw [step, connects, connected_success_iff]
    simp only [fails, not_false_eq_true, and_true]
  · subst shape
    have connects : ¬Establishes a (.swarm (.outgoingConnectionError error) order dial :
        Turn PeerId QueryId authorities) := by
      simp [Establishes]
    have fails : Fails net a (.swarm (.outgoingConnectionError error) order dial :
        Turn PeerId QueryId authorities) ↔ a ∈ (error.failures net).map Prod.fst := by
      simp [Fails]
    rw [step, fails, dial_error_success_iff once]
    simp only [connects, false_and, false_or]
  · rw [same.outcomes]
    simp [connects a, fails a]

variable {t : AuthorityDiscovery PeerId QueryId} {first : Arrangement authorities}
  {turns : List (Turn PeerId QueryId authorities)}

/-- An address was connected after it was dialed, and no failed dial of it has
been reported since. -/
def LastConnected (net : Network PeerId NodeKey QueryId) (first : Arrangement authorities)
    (turns : List (Turn PeerId QueryId authorities)) (a : LibP2pMultiaddr PeerId) : Prop :=
  ∃ earlier l later s, turns = earlier ++ l :: later ∧
    (discovery net authorities first).replay earlier = some s ∧ Establishes a l ∧
    a ∈ s.dialedAddresses ∧ ∀ l' ∈ later, ¬Fails net a l'

theorem last_connected_snoc (run : (discovery net authorities first).replay turns = some s)
    (l : Turn PeerId QueryId authorities) {a : LibP2pMultiaddr PeerId} :
    LastConnected net first (turns ++ [l]) a ↔
      Establishes a l ∧ a ∈ s.dialedAddresses ∨ LastConnected net first turns a ∧ ¬Fails net a l := by
  constructor
  · rintro ⟨earlier, l', later, s', split, run', connects, dialed, quiet⟩
    cases later using List.reverseRecOn with
    | nil =>
      obtain ⟨same, last⟩ := List.append_inj' split rfl
      cases last
      subst same
      cases run.symm.trans run'
      exact .inl ⟨connects, dialed⟩
    | append_singleton later l'' =>
      rw [← List.cons_append, ← List.append_assoc] at split
      obtain ⟨same, last⟩ := List.append_inj' split rfl
      cases last
      refine .inr ⟨⟨earlier, l', later, s', same, run', connects, dialed, fun x member => ?_⟩, ?_⟩
      · exact quiet x (List.mem_append_left _ member)
      · exact quiet l (List.mem_append_right _ List.mem_cons_self)
  · rintro (⟨connects, dialed⟩ | ⟨⟨earlier, l', later, s', split, run', connects, dialed, quiet⟩, calm⟩)
    · exact ⟨turns, l, [], s, rfl, run, connects, dialed, fun _ member => absurd member List.not_mem_nil⟩
    · refine ⟨earlier, l', later ++ [l], s', by rw [split]; simp, run', connects, dialed, ?_⟩
      intro x member
      rcases List.mem_append.mp member with old | new
      · exact quiet x old
      · rw [List.mem_singleton.mp new]
        exact calm

/-- The outcome kept for an address is a success exactly if the last word on
it was. -/
theorem success_iff (run : (discovery net authorities first).replay turns = some t)
    (a : LibP2pMultiaddr PeerId) :
    t.dialOutcomes.lookup a = some .success ↔ LastConnected net first turns a := by
  let I : List (Turn PeerId QueryId authorities) → AuthorityDiscovery PeerId QueryId → Prop :=
    fun past s => (discovery net authorities first).replay past = some s ∧
      (s.dialOutcomes.lookup a = some .success ↔ LastConnected net first past a)
  have kept : I turns t := by
    refine Machine.history_invariant (I := I) ?_ ⟨rfl, ?_⟩ (Machine.meets_trivial turns) run
    · rintro past s l s' ⟨reached, known⟩ _ step
      have onward : (discovery net authorities first).replay (past ++ [l]) = some s' := by
        rw [Machine.replay_append reached]
        exact Machine.replay_from_cons.mpr ⟨s', step, rfl⟩
      cases step
      refine ⟨onward, ?_⟩
      rw [turn_success_iff (run_tracked reached).once, last_connected_snoc reached, known]
    · have none : (discovery net authorities first).start.dialOutcomes =
          (∅ : Map (LibP2pMultiaddr PeerId) DialOutcome) :=
        (advance_same_dials first.distinct).outcomes
      rw [none]
      refine ⟨fun found => ?_, ?_⟩
      · rw [Finmap.lookup_empty] at found
        cases found
      · rintro ⟨earlier, l, later, _, split, _⟩
        exact absurd split.symm (by simp)
  exact kept.2

/-- A dialed address for which a connection was reported ends as a success
exactly if one was reported after the dial and no failure of it after that. -/
theorem established_ends_success_iff (run : (discovery net authorities first).replay turns = some t)
    (a : LibP2pMultiaddr PeerId) :
    a ∈ t.dialedAddresses → (∃ l ∈ turns, Establishes a l) →
      (t.dialOutcomes.lookup a = some .success ↔ LastConnected net first turns a) := by
  intro _ _
  exact success_iff run a

private theorem two_authorities : (numberedKeys 2).Nodup := numbered_keys_distinct (by decide)

/-- The dial of the published address fails. -/
def refusedDial : Turn Nat Nat (numberedKeys 2) :=
  .swarm (.outgoingConnectionError (.transport [(namedAddress, ⟨"refused", "Refused"⟩)])) (.listed two_authorities)
    fun _ => none

def connectedDial : Turn Nat Nat (numberedKeys 2) :=
  .swarm (.connectionEstablished (.dialer namedAddress)) (.listed two_authorities) fun _ => none

/-- A first dial fails, a second one connects. -/
theorem late_connection_counts : ∃ t,
    (discovery (.counting (.onePublished [namedAddress])) (numberedKeys 2) (.listed two_authorities)).replay
      (publishedAnswer ++ [refusedDial, connectedDial]) = some t ∧
    t.dialOutcomes.lookup namedAddress = some .success := by
  obtain ⟨s, reached⟩ := discovery_runs (.counting (.onePublished [namedAddress])) (numberedKeys 2)
    (.listed two_authorities) (publishedAnswer ++ [refusedDial])
  obtain ⟨t, run⟩ := discovery_runs (.counting (.onePublished [namedAddress])) (numberedKeys 2)
    (.listed two_authorities) (publishedAnswer ++ [refusedDial, connectedDial])
  have dialed : ∀ labels ∈ [publishedAnswer ++ [refusedDial], publishedAnswer ++ [refusedDial, connectedDial]],
      ((discovery (.counting (.onePublished [namedAddress])) (numberedKeys 2)
        (.listed two_authorities)).replay labels).map (fun s => decide (namedAddress ∈ s.dialedAddresses)) =
          some true := by
    decide +kernel
  have before := dialed _ List.mem_cons_self
  have after := dialed _ (List.mem_cons_of_mem _ List.mem_cons_self)
  rw [reached, Option.map_some, Option.some.injEq, decide_eq_true_eq] at before
  rw [run, Option.map_some, Option.some.injEq, decide_eq_true_eq] at after
  have connects : Establishes namedAddress connectedDial := ⟨_, _, rfl⟩
  refine ⟨t, run, (established_ends_success_iff run namedAddress after ⟨connectedDial, by simp, connects⟩).mpr ?_⟩
  exact ⟨_, connectedDial, [], s, rfl, reached, connects, before, fun _ member => absurd member List.not_mem_nil⟩

/-- The published address is connected, and a further dial of it fails: what
is reported is the failure. -/
theorem redial_erases_success : ∃ t,
    (discovery (.counting (.onePublished [namedAddress])) (numberedKeys 2) (.listed two_authorities)).replay
      (publishedAnswer ++ [connectedDial, refusedDial]) = some t ∧
    namedAddress ∈ t.dialedAddresses ∧
    (∃ l ∈ publishedAnswer ++ [connectedDial, refusedDial], Establishes namedAddress l) ∧
    t.dialOutcomes.lookup namedAddress ≠ some .success := by
  have ends : ((discovery (.counting (.onePublished [namedAddress])) (numberedKeys 2)
      (.listed two_authorities)).replay (publishedAnswer ++ [connectedDial, refusedDial])).map
        (fun t => (decide (namedAddress ∈ t.dialedAddresses),
          (t.dialOutcomes.lookup namedAddress).map DialOutcome.isSuccess)) = some (true, some false) := by
    decide +kernel
  obtain ⟨t, run, shown⟩ := Option.map_eq_some_iff.mp ends
  obtain ⟨dialed, failed⟩ := Prod.mk.inj shown
  refine ⟨t, run, of_decide_eq_true dialed, ⟨connectedDial, by simp, _, _, rfl⟩, fun success => ?_⟩
  rw [success] at failed
  cases failed

end Turns

end AuthorityDiscovery
end Subp2pExplorer.Authorities
