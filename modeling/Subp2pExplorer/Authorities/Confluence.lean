import Mathlib.Data.List.Perm.Basic
import Subp2pExplorer.Authorities.Dials
import Subp2pExplorer.Authorities.Representatives

/-! The order in which found records are handled does not matter. What they
leave behind is a view of the state on which the records of any two queried
keys commute; the queries in between do not touch it, and a key once queried
stays with its authority as long as the hash keeps the authorities apart. -/
namespace Subp2pExplorer.Authorities
open Lib Subp2pExplorer.Types
namespace AuthorityDiscovery

section Keys
variable {PeerId NodeKey QueryId : Type} [DecidableEq PeerId] [DecidableEq QueryId]
  {net : Network PeerId NodeKey QueryId} {s : AuthorityDiscovery PeerId QueryId}
  {authorities : List PublicKey} {asked : Map KademliaKey PublicKey}

/-- No two listed authorities have their records under one key. -/
def HashedApart (net : Network PeerId NodeKey QueryId) (authorities : List PublicKey) : Prop :=
  ∀ a ∈ authorities, ∀ b ∈ authorities, net.sha256 a.bytes = net.sha256 b.bytes → a = b

/-- Queries are for listed authorities, under their keys, and the keys asked
for earlier are with the authorities they were with. -/
structure Keyed (net : Network PeerId NodeKey QueryId) (authorities : List PublicKey)
    (asked : Map KademliaKey PublicKey) (s : AuthorityDiscovery PeerId QueryId) : Prop where
  listed : s.authorities = authorities
  missing : ∀ a ∈ s.remainingAuthorities, a ∈ authorities
  hashed : ∀ key a, s.recordsKeys.lookup key = some a → a ∈ authorities ∧ key = hashAuthorityId net a
  kept : ∀ key a, asked.lookup key = some a → s.recordsKeys.lookup key = some a

omit [DecidableEq PeerId] in
private theorem keyed_issue (apart : HashedApart net authorities) (keyed : Keyed net authorities asked s)
    {a : PublicKey} (member : a ∈ authorities) : Keyed net authorities asked (queryDhtRecord net s a) where
  listed := keyed.listed
  missing := keyed.missing
  hashed := fun key b found => by
    rcases Finmap.inserted_entry found with ⟨same, rfl⟩ | ⟨-, before⟩
    · exact ⟨member, same⟩
    · exact keyed.hashed key b before
  kept := fun key b held => by
    have before := keyed.kept key b held
    by_cases same : key = hashAuthorityId net a
    · obtain ⟨listed, own⟩ := keyed.hashed key b before
      have collide : net.sha256 a.bytes = net.sha256 b.bytes :=
        congrArg KademliaKey.bytes (same.symm.trans own)
      rw [queryDhtRecord, same, Finmap.lookup_insert, apart a member b listed collide]
    · rw [queryDhtRecord, Finmap.lookup_insert_of_ne _ same]
      exact before

omit [DecidableEq PeerId] in
private theorem keyed_advance (apart : HashedApart net authorities) (order : Arrangement authorities)
    (keyed : Keyed net authorities asked s) : Keyed net authorities asked (advanceDhtQueries net order.order s) := by
  refine advance_rule order.distinct ?_ ?_ (fun _ held => ⟨held.1, held.2, held.3, held.4⟩) keyed
  · intro s a held next _
    have member : a ∈ authorities := held.listed ▸ List.mem_of_getElem? next
    have issued := keyed_issue apart held member
    exact ⟨issued.1, issued.2, issued.3, issued.4⟩
  · exact fun s a held _ missing _ => keyed_issue apart held (held.missing a missing)

theorem turn_keyed (apart : HashedApart net authorities) (keyed : Keyed net authorities asked s)
    (l : Turn PeerId QueryId authorities) : Keyed net authorities asked (s.turn net l) := by
  refine turn_rule (P := Keyed net authorities asked) ?_ (fun _ held => ⟨held.1, held.2, held.3, held.4⟩) ?_ ?_
  · intro s' records queries
    exact {
      listed := records.authorities.trans keyed.listed
      missing := records.remaining ▸ keyed.missing
      hashed := queries.keys ▸ keyed.hashed
      kept := queries.keys ▸ keyed.kept }
  · intro id last result order dial _
    apply keyed_advance apart order
    have queries := answered_queries net s dial id last result
    have fewer : (answered net dial id last result s).remainingAuthorities ⊆ s.remainingAuthorities := by
      rcases answered_cases net s dial id last result with ⟨_, _, _, _, _, _, _, stored⟩ | ⟨_, same⟩
      · rw [stored.remaining]
        exact Finset.erase_subset _ _
      · rw [same.remaining]
    exact {
      listed := queries.authorities.trans keyed.listed
      missing := fun a member => keyed.missing a (fewer member)
      hashed := queries.keys ▸ keyed.hashed
      kept := queries.keys ▸ keyed.kept }
  · intro shuffle _
    exact resubmit_rule shuffle.distinct
      (fun s' a _ held missing _ => keyed_issue apart held (held.missing a missing))
      (fun _ held => ⟨held.1, held.2, held.3, held.4⟩) ⟨keyed.1, keyed.2, keyed.3, keyed.4⟩

/-- In a state a run reaches, the keys asked for stay with their authorities. -/
theorem run_keyed (apart : HashedApart net authorities) {first : Arrangement authorities}
    {turns : List (Turn PeerId QueryId authorities)}
    (run : (discovery net authorities first).replay turns = some s) :
    Keyed net authorities s.recordsKeys s := by
  have start : Keyed net authorities ∅ (.new authorities) := {
    listed := rfl
    missing := fun a member => List.mem_toFinset.mp member
    hashed := fun key a found => by cases found
    kept := fun key a held => held }
  have keyed : Keyed net authorities ∅ s :=
    run_rule (fun s l held _ => turn_keyed apart held l) (keyed_advance apart first start)
      (Machine.meets_trivial turns) run
  exact ⟨keyed.listed, keyed.missing, keyed.hashed, fun _ _ held => held⟩

end Keys

section Findings
variable {PeerId NodeKey QueryId : Type} [DecidableEq PeerId] {net : Network PeerId NodeKey QueryId}
  {s : AuthorityDiscovery PeerId QueryId}

/-- What found records leave behind. -/
@[ext] structure Findings (PeerId : Type) where
  details : Map PublicKey (Finset (LibP2pMultiaddr PeerId))
  remaining : Finset PublicKey
  dialed : Finset (LibP2pMultiaddr PeerId)
  dhtErrors : Nat
  peerAddresses : PeerId → Option (Finset (LibP2pMultiaddr PeerId))

def findings (s : AuthorityDiscovery PeerId QueryId) : Findings PeerId where
  details := s.authorityToDetails
  remaining := s.remainingAuthorities
  dialed := s.dialedAddresses
  dhtErrors := s.dhtErrors
  peerAddresses := fun peer => (s.peerDetails.lookup peer).map PeerDetails.addresses

/-- What a record is to the discovery: nothing it asked for, an error, or
addresses of an authority and its peer. -/
inductive Verdict (PeerId : Type) where
  | unasked
  | refused
  | accepted (authority : PublicKey) (peerId : PeerId) (addresses : Finset (LibP2pMultiaddr PeerId))

def verdict (codec : RecordCodec PeerId NodeKey) (asked : Map KademliaKey PublicKey)
    (record : KademliaKey × Bytes) : Verdict PeerId :=
  match asked.lookup record.1 with
  | none => .unasked
  | some authority =>
    match decodeDhtRecord codec record.2 authority with
    | .error _ => .refused
    | .ok (peerId, addresses) => .accepted authority peerId addresses.toFinset

def Findings.add (found : Findings PeerId) : Verdict PeerId → Findings PeerId
  | .unasked => found
  | .refused => { found with dhtErrors := found.dhtErrors + 1 }
  | .accepted authority peerId addresses =>
    { found with
      details := found.details.upsert authority (· ∪ addresses) addresses
      remaining := found.remaining.erase authority
      dialed := found.dialed ∪ addresses
      peerAddresses := Function.update found.peerAddresses peerId
        (some ((found.peerAddresses peerId).elim addresses (· ∪ addresses))) }

/-- Two sets of addresses added to what a peer may already have. -/
private theorem addresses_right_comm (held : Option (Finset (LibP2pMultiaddr PeerId)))
    (a b : Finset (LibP2pMultiaddr PeerId)) :
    held.elim a (· ∪ a) ∪ b = held.elim b (· ∪ b) ∪ a := by
  cases held with
  | none => exact Finset.union_comm a b
  | some held => exact Finset.union_right_comm held a b

/-- Findings commute, also those of one authority or of one peer. -/
theorem add_right_comm (found : Findings PeerId) (left right : Verdict PeerId) :
    (found.add left).add right = (found.add right).add left := by
  cases left with
  | unasked => rfl
  | refused => cases right <;> rfl
  | accepted authority peer addresses =>
    cases right with
    | unasked => rfl
    | refused => rfl
    | accepted authority' peer' addresses' =>
      ext1
      · exact Finmap.upsert_right_comm _ _ _ (fun held => Finset.union_right_comm held _ _)
          (Finset.union_comm _ _)
      · exact Finset.erase_right_comm
      · exact Finset.union_right_comm _ _ _
      · rfl
      · by_cases same : peer = peer'
        · subst same
          simp only [Findings.add, Function.update_self, Function.update_idem, Option.elim_some,
            addresses_right_comm]
        · simp only [Findings.add, Function.update_of_ne (Ne.symm same), Function.update_of_ne same]
          exact Function.update_comm same _ _ _

/-- Dialing counts no errors. -/
private theorem dial_addresses_errors (dial : LibP2pMultiaddr PeerId → Option ErrorText)
    (addresses : List (LibP2pMultiaddr PeerId)) :
    (addresses.foldl (dialAddress dial) s).dhtErrors = s.dhtErrors := by
  apply fold_keeps dhtErrors
  intro s a
  unfold dialAddress
  split <;> rfl

/-- Handling a found record adds its verdict to the findings. -/
theorem handle_record_findings (dial : LibP2pMultiaddr PeerId → Option ErrorText) (key : KademliaKey)
    (value : Bytes) :
    findings (handleRecord net dial key value s) =
      (findings s).add (verdict net.codec s.recordsKeys (key, value)) := by
  unfold handleRecord verdict
  dsimp only
  cases s.recordsKeys.lookup key with
  | none => rfl
  | some authority =>
    dsimp only
    cases decodeDhtRecord net.codec value authority with
    | error _ => rfl
    | ok accepted =>
      obtain ⟨peer, addresses⟩ := accepted
      have stored : Stored authority peer addresses s (storeRecord dial authority peer addresses s) :=
        store_record_stored authority peer addresses
      have dialed : SameDials (addresses.foldl (dialAddress dial) s)
          (storeRecord dial authority peer addresses s) :=
        store_record_dials authority peer addresses
      have added : ∀ other, (findings (storeRecord dial authority peer addresses s)).peerAddresses other =
          ((findings s).add (.accepted authority peer addresses.toFinset)).peerAddresses other := by
        intro other
        simp only [findings, Findings.add, stored.peers]
        by_cases same : other = peer
        · subst same
          rw [Finmap.lookup_upsert, Function.update_self]
          cases s.peerDetails.lookup other <;> rfl
        · rw [Finmap.lookup_upsert_ne _ _ _ same, Function.update_of_ne same]
      ext1
      · exact stored.details
      · exact stored.remaining
      · exact dialed.dialed.trans (dial_addresses_dialed addresses)
      · exact dial_addresses_errors dial addresses
      · exact funext added

end Findings

section Orders
variable {PeerId NodeKey QueryId : Type} [DecidableEq PeerId] [DecidableEq QueryId]
  {net : Network PeerId NodeKey QueryId} {s t t' : AuthorityDiscovery PeerId QueryId}
  {authorities : List PublicKey} {asked : Map KademliaKey PublicKey}

private theorem advance_findings {order : List PublicKey} (distinct : order.Nodup) :
    findings (advanceDhtQueries net order s) = findings s :=
  advance_rule (P := fun s' => findings s' = findings s) distinct (fun _ _ held _ _ => held)
    (fun _ _ held _ _ _ => held) (fun _ held => held) rfl

/-- A turn that brings a record under a key asked for adds the verdict it had
when the key was asked for. -/
theorem turn_findings (keyed : Keyed net authorities asked s) {key : KademliaKey} {value : Bytes}
    (known : key ∈ asked) {l : Turn PeerId QueryId authorities} (received : Receives key value l) :
    findings (s.turn net l) = (findings s).add (verdict net.codec asked (key, value)) := by
  obtain ⟨id, last, order, dial, rfl⟩ := received
  obtain ⟨authority, found⟩ := Finmap.mem_iff.mp known
  let freed := { deliver (.getRecord id last (.foundRecord key value)) s with
    queries := (deliver (.getRecord id last (.foundRecord key value)) s).queries.erase id }
  have before : findings freed = findings s ∧ freed.recordsKeys = s.recordsKeys := by
    cases last <;> exact ⟨rfl, rfl⟩
  have lookups : verdict net.codec freed.recordsKeys (key, value) = verdict net.codec asked (key, value) := by
    unfold verdict
    rw [before.2, keyed.kept key authority found, found]
  calc findings (s.turn net (.swarm (.getRecord id last (.foundRecord key value)) order dial))
      = findings (handleRecord net dial key value freed) := advance_findings order.distinct
    _ = (findings freed).add (verdict net.codec freed.recordsKeys (key, value)) :=
        handle_record_findings dial key value
    _ = (findings s).add (verdict net.codec asked (key, value)) := by rw [before.1, lookups]

/-- The event a turn handles. -/
def Turn.event : Turn PeerId QueryId authorities → Option (SwarmEvent PeerId QueryId)
  | .swarm event _ _ => some event
  | .resubmit _ => none

/-- What a handled event adds to the findings, where it is a found record. -/
def eventVerdict (codec : RecordCodec PeerId NodeKey) (asked : Map KademliaKey PublicKey) :
    Option (SwarmEvent PeerId QueryId) → Verdict PeerId
  | some (.getRecord _ _ (.foundRecord key value)) => verdict codec asked (key, value)
  | _ => .unasked

variable {first : Arrangement authorities}

/-- The findings after handling found records are those before with their
verdicts added one by one. -/
theorem found_records_findings (apart : HashedApart net authorities) (keyed : Keyed net authorities asked s)
    {turns : List (Turn PeerId QueryId authorities)}
    (known : ∀ l ∈ turns, ∃ key value, Receives key value l ∧ key ∈ asked)
    (run : (discovery net authorities first).replayFrom s turns = some t) :
    findings t = (turns.map Turn.event).foldl (fun found event => found.add (eventVerdict net.codec asked event))
      (findings s) := by
  induction turns generalizing s with
  | nil =>
    cases run
    rfl
  | cons l rest ih =>
    obtain ⟨s', step, run⟩ := Machine.replay_from_cons.mp run
    cases step
    obtain ⟨key, value, received, member⟩ := known l List.mem_cons_self
    have added := turn_findings keyed member received
    have same : eventVerdict net.codec asked (Turn.event l) = verdict net.codec asked (key, value) := by
      obtain ⟨_, _, _, _, rfl⟩ := received
      rfl
    rw [List.map_cons, List.foldl_cons, same, ← added]
    exact ih (turn_keyed apart keyed l) (fun l' later => known l' (List.mem_cons_of_mem l later)) run

/-- From any state a run reaches, the same found records for keys already asked
for leave the same findings in whatever order, schedule and with whatever dial
failures they are handled. -/
theorem found_records_commute (apart : HashedApart net authorities)
    {past left right : List (Turn PeerId QueryId authorities)}
    (run : (discovery net authorities first).replay past = some s)
    (known : ∀ l ∈ left, ∃ key value, Receives key value l ∧ key ∈ s.recordsKeys)
    (same : (left.map Turn.event).Perm (right.map Turn.event))
    (ends : (discovery net authorities first).replayFrom s left = some t)
    (ends' : (discovery net authorities first).replayFrom s right = some t') :
    t.authorityToDetails = t'.authorityToDetails ∧ t.remainingAuthorities = t'.remainingAuthorities ∧
      t.dialedAddresses = t'.dialedAddresses ∧ t.dhtErrors = t'.dhtErrors ∧
      ∀ peer, (t.peerDetails.lookup peer).map PeerDetails.addresses =
        (t'.peerDetails.lookup peer).map PeerDetails.addresses := by
  have keyed := run_keyed apart run
  have known' : ∀ l ∈ right, ∃ key value, Receives key value l ∧ key ∈ s.recordsKeys := by
    intro l member
    obtain ⟨l', member', event⟩ := List.mem_map.mp (same.mem_iff.mpr (List.mem_map_of_mem member))
    obtain ⟨key, value, ⟨id, last, _, _, rfl⟩, asked⟩ := known l' member'
    cases l with
    | resubmit shuffle => cases event
    | swarm event' order dial =>
      cases event
      exact ⟨key, value, ⟨id, last, order, dial, rfl⟩, asked⟩
  have agree : findings t = findings t' := by
    rw [found_records_findings apart keyed known ends, found_records_findings apart keyed known' ends']
    exact same.foldl_eq' (fun _ _ _ _ found => add_right_comm found _ _) _
  exact ⟨congrArg Findings.details agree, congrArg Findings.remaining agree, congrArg Findings.dialed agree,
    congrArg Findings.dhtErrors agree, fun peer => congrFun (congrArg Findings.peerAddresses agree) peer⟩

/-- Both records of an authority that moved, in either order. -/
theorem moved_records_commute : ∃ s t t',
    (discovery (.counting movingCodec) (numberedKeys 1) (.listed (by decide))).replay [] = some s ∧
    (discovery (.counting movingCodec) (numberedKeys 1) (.listed (by decide))).replayFrom s movedAnswers = some t ∧
    (discovery (.counting movingCodec) (numberedKeys 1) (.listed (by decide))).replayFrom s
      movedAnswers.reverse = some t' ∧
    t.authorityToDetails.lookup (numberedKey 0) = some {nodeAddress 7, nodeAddress 8} ∧
    t.authorityToDetails = t'.authorityToDetails ∧ t.remainingAuthorities = t'.remainingAuthorities ∧
      t.dialedAddresses = t'.dialedAddresses ∧ t.dhtErrors = t'.dhtErrors ∧
      ∀ peer, (t.peerDetails.lookup peer).map PeerDetails.addresses =
        (t'.peerDetails.lookup peer).map PeerDetails.addresses := by
  obtain ⟨t, run⟩ := discovery_runs (.counting movingCodec) (numberedKeys 1) (.listed (by decide)) movedAnswers
  obtain ⟨t', run'⟩ := discovery_runs (.counting movingCodec) (numberedKeys 1) (.listed (by decide))
    movedAnswers.reverse
  have found : ((discovery (.counting movingCodec) (numberedKeys 1) (.listed (by decide))).replay
      movedAnswers).map (fun t => t.authorityToDetails.lookup (numberedKey 0)) =
        some (some {nodeAddress 7, nodeAddress 8}) := by
    decide +kernel
  rw [run, Option.map_some, Option.some.injEq] at found
  have apart : HashedApart (.counting movingCodec) (numberedKeys 1) := by
    rintro ⟨bytes, size⟩ _ ⟨bytes', size'⟩ _ same
    cases (same : bytes = bytes')
    rfl
  have asked : (⟨(numberedKey 0).bytes⟩ : KademliaKey) ∈
      (discovery (.counting movingCodec) (numberedKeys 1) (.listed (by decide))).start.recordsKeys := by
    decide +kernel
  have reached : (discovery (.counting movingCodec) (numberedKeys 1) (.listed (by decide))).replay [] =
      some (discovery (.counting movingCodec) (numberedKeys 1) (.listed (by decide))).start := rfl
  refine ⟨_, t, t', reached, run, run', found,
    found_records_commute apart reached (fun l member => ?_) ((List.reverse_perm movedAnswers).symm.map Turn.event)
      run run'⟩
  simp only [movedAnswers, List.mem_cons, List.not_mem_nil, or_false] at member
  rcases member with rfl | rfl
  · exact ⟨_, [7], ⟨_, _, _, _, rfl⟩, asked⟩
  · exact ⟨_, [8], ⟨_, _, _, _, rfl⟩, asked⟩

end Orders

end AuthorityDiscovery
end Subp2pExplorer.Authorities
