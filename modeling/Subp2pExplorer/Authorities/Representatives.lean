import Subp2pExplorer.Authorities.Records

/-! The peer that is reported for an authority. Both reports take it from the
set of addresses stored, whose order is open: they agree with themselves in
every order exactly where all of these addresses name one peer, which each
accepted record is checked for and the union of several is not. -/
namespace Subp2pExplorer.Authorities
open Lib Subp2pExplorer.Types

/-- What `check_authorities` tells of the peer of an authority. -/
structure AuthorityResult (PeerId : Type) where
  peerId : Option PeerId
  agentVersion : Option String
  hasDhtRecord : Bool
  deriving DecidableEq

/-- The peer a report is about. -/
def Report.peer {PeerId : Type} : Report PeerId → Option PeerId
  | .reached peerId _ => some peerId
  | .unreached peerId => some peerId
  | _ => none

namespace AuthorityDiscovery

section Reports
variable {PeerId NodeKey QueryId : Type} [DecidableEq PeerId]

/-- One round of the loop of `check_authorities`, on the first address with a
peer id in the order the set is walked in. -/
def checkResult (order : List (LibP2pMultiaddr PeerId)) (s : AuthorityDiscovery PeerId QueryId)
    (authority : PublicKey) : AuthorityResult PeerId :=
  match s.authorityToDetails.lookup authority with
  | none => ⟨none, none, false⟩
  | some addrs =>
    let peerId := (HashSet.iterate order addrs).findSome? getPeerId
    let agentVersion := (peerId.bind fun pid => s.peerInfo.lookup pid).map Info.agentVersion
    ⟨peerId, agentVersion, true⟩

/-- Both reports of an authority with stored addresses are the same whatever
order its addresses are walked in. -/
def ReportsAgree (s : AuthorityDiscovery PeerId QueryId) : Prop :=
  ∀ a entry, s.authorityToDetails.lookup a = some entry → ∀ order order', HashSet.Walks order entry →
    HashSet.Walks order' entry →
      checkResult order s a = checkResult order' s a ∧ report order s a = report order' s a

variable {s : AuthorityDiscovery PeerId QueryId} {a : PublicKey} {entry : Finset (LibP2pMultiaddr PeerId)}

private theorem report_first {address : LibP2pMultiaddr PeerId} {rest : List (LibP2pMultiaddr PeerId)}
    (found : s.authorityToDetails.lookup a = some entry) (walks : HashSet.Walks (address :: rest) entry) :
    report (address :: rest) s a = match getPeerId address with
      | none => .panicked
      | some peerId => match s.peerInfo.lookup peerId with
        | some info => .reached peerId info
        | none => .unreached peerId := by
  unfold report
  rw [found]
  dsimp only
  rw [HashSet.iterate_walk walks]
  rfl

/-- The report of `discover_authorities` is about the peer of the first address. -/
private theorem report_first_peer {address : LibP2pMultiaddr PeerId} {rest : List (LibP2pMultiaddr PeerId)}
    (found : s.authorityToDetails.lookup a = some entry) (walks : HashSet.Walks (address :: rest) entry) :
    (report (address :: rest) s a).peer = getPeerId address := by
  rw [report_first found walks]
  cases getPeerId address with
  | none => rfl
  | some peerId =>
    dsimp only
    cases s.peerInfo.lookup peerId <;> rfl

/-- Addresses that can come first, so that the report is the same, name the
same peer. -/
theorem agree_same_peer (agree : ReportsAgree s) (found : s.authorityToDetails.lookup a = some entry)
    {address other : LibP2pMultiaddr PeerId} (member : address ∈ entry) (member' : other ∈ entry) :
    getPeerId address = getPeerId other := by
  obtain ⟨rest, walks⟩ := HashSet.exists_walk member
  obtain ⟨rest', walks'⟩ := HashSet.exists_walk member'
  rw [← report_first_peer found walks, ← report_first_peer found walks',
    (agree a entry found _ _ walks walks').2]

/-- All addresses stored for an authority name one peer. -/
def OnePeer (s : AuthorityDiscovery PeerId QueryId) : Prop :=
  ∀ a entry, s.authorityToDetails.lookup a = some entry →
    ∃ peerId, ∀ address ∈ entry, getPeerId address = some peerId

omit [DecidableEq PeerId] in
/-- Where all addresses name one peer, every walk of them finds it first. -/
private theorem first_named {peerId : PeerId} (named : ∀ address ∈ entry, getPeerId address = some peerId)
    {address : LibP2pMultiaddr PeerId} {rest : List (LibP2pMultiaddr PeerId)}
    (walks : HashSet.Walks (address :: rest) entry) : getPeerId address = some peerId :=
  named address ((walks.exact address).mp List.mem_cons_self)

theorem one_peer_agrees (named : OnePeer s) : ReportsAgree s := by
  intro a entry found order order' walks walks'
  obtain ⟨peerId, all⟩ := named a entry found
  have apart : ∀ {address rest}, HashSet.Walks ([] : List (LibP2pMultiaddr PeerId)) entry →
      ¬HashSet.Walks (address :: rest) entry := by
    intro address rest none some
    exact List.not_mem_nil ((none.exact address).mpr ((some.exact address).mp List.mem_cons_self))
  cases order with
  | nil =>
    cases order' with
    | nil => exact ⟨rfl, rfl⟩
    | cons address rest => exact absurd walks' (apart walks)
  | cons address rest =>
    cases order' with
    | nil => exact absurd walks (apart walks')
    | cons address' rest' =>
      constructor
      · unfold checkResult
        rw [found]
        dsimp only
        rw [HashSet.iterate_walk walks, HashSet.iterate_walk walks', List.findSome?_cons_of_isSome,
          List.findSome?_cons_of_isSome, first_named all walks, first_named all walks']
        · rw [first_named all walks']
          rfl
        · rw [first_named all walks]
          rfl
      · rw [report_first found walks, report_first found walks', first_named all walks,
          first_named all walks']

end Reports

section Runs
variable {PeerId NodeKey QueryId : Type} [DecidableEq PeerId] [DecidableEq QueryId]
  {net : Network PeerId NodeKey QueryId} {s : AuthorityDiscovery PeerId QueryId} {authorities : List PublicKey}

/-- A record this turn stores lists addresses that end in its peer only, and
so do those stored for its authority before. -/
def StoresOnePeer (net : Network PeerId NodeKey QueryId) (s : AuthorityDiscovery PeerId QueryId)
    (l : Turn PeerId QueryId authorities) : Prop :=
  ∀ key value a peerId addresses, Receives key value l → Stores net s key value a peerId addresses →
    (∀ address ∈ listedAddresses net.codec value, getPeerId address = some peerId) ∧
    ∀ entry, s.authorityToDetails.lookup a = some entry → ∀ address ∈ entry, getPeerId address = some peerId

theorem turn_one_peer {l : Turn PeerId QueryId authorities} (named : OnePeer s)
    (stores : StoresOnePeer net s l) : OnePeer (s.turn net l) := by
  unfold OnePeer
  rcases turn_cases net s l with
    ⟨key, value, authority, peerId, addresses, received, decoded, stored⟩ | ⟨_, same⟩
  · obtain ⟨listed, before⟩ := stores key value authority peerId addresses received decoded
    obtain ⟨_, _, _, _, accepted⟩ := decoded_accepted decoded.2
    rw [accepted.listed] at listed
    intro a entry found
    by_cases own : a = authority
    · subst own
      rw [stored.details, Finmap.lookup_upsert, Option.some.injEq] at found
      subst found
      refine ⟨peerId, fun address member => ?_⟩
      cases prior : s.authorityToDetails.lookup a with
      | none =>
        rw [prior] at member
        exact listed address (List.mem_toFinset.mp member)
      | some entry =>
        rw [prior] at member
        rcases Finset.mem_union.mp member with old | new
        · exact before entry prior address old
        · exact listed address (List.mem_toFinset.mp new)
    · rw [stored.details, Finmap.lookup_upsert_ne _ _ _ own] at found
      exact named a entry found
  · rw [same.details]
    exact named

/-- Where the reports agree after a turn, what it stored names one peer. -/
theorem agree_stores {l : Turn PeerId QueryId authorities} (agree : ReportsAgree (s.turn net l)) :
    StoresOnePeer net s l := by
  intro key value a peerId addresses received decoded
  rcases turn_cases net s l with
    ⟨key', value', authority, peerId', addresses', received', decoded', stored⟩ | ⟨refused, _⟩
  · obtain ⟨_, _, _, _, rfl⟩ := received
    obtain ⟨_, _, _, _, same⟩ := received'
    cases same
    cases Option.some.inj (decoded.1.symm.trans decoded'.1)
    cases Except.ok.inj (decoded.2.symm.trans decoded'.2)
    obtain ⟨_, _, _, _, accepted⟩ := decoded_accepted decoded.2
    have entry := Finmap.lookup_upsert s.authorityToDetails a (fun entry => entry ∪ addresses.toFinset)
      addresses.toFinset
    rw [← stored.details] at entry
    obtain ⟨witness, listed, named⟩ : ∃ address ∈ addresses, getPeerId address = some peerId := by
      have member : peerId ∈ (addresses.filterMap getPeerId).dedup := by
        rw [accepted.one_peer]
        exact List.mem_cons_self
      exact List.mem_filterMap.mp (List.mem_dedup.mp member)
    have held : ∀ address, address ∈ addresses ∨
        (∃ entry, s.authorityToDetails.lookup a = some entry ∧ address ∈ entry) →
        address ∈ (s.authorityToDetails.lookup a).elim addresses.toFinset
          fun entry => entry ∪ addresses.toFinset := by
      intro address member
      cases prior : s.authorityToDetails.lookup a with
      | none => simpa [prior] using member
      | some entry => simpa [prior, or_comm] using member
    have all : ∀ address, address ∈ addresses ∨
        (∃ entry, s.authorityToDetails.lookup a = some entry ∧ address ∈ entry) →
        getPeerId address = some peerId := by
      intro address member
      rw [agree_same_peer agree entry (held address member) (held witness (.inl listed)), named]
    refine ⟨fun address member => ?_, fun entry found address member => ?_⟩
    · rw [accepted.listed] at member
      exact all address (.inl member)
    · exact all address (.inr ⟨entry, found, member⟩)
  · exact absurd decoded (refused key value a peerId addresses received)

/-- In every state of a run both reports of every authority are the same in any
order of its addresses, exactly if each record stored for an authority lists
addresses of one peer only, that of all addresses stored for it before. -/
theorem reports_agree_iff (net : Network PeerId NodeKey QueryId) (authorities : List PublicKey)
    (first : Arrangement authorities) (turns : List (Turn PeerId QueryId authorities)) :
    (∀ earlier later s, turns = earlier ++ later →
      (discovery net authorities first).replay earlier = some s → ReportsAgree s) ↔
      (discovery net authorities first).Meets (StoresOnePeer net) turns := by
  rw [Machine.meets_iff]
  constructor
  · intro agree earlier l later s split run
    apply agree_stores
    apply agree (earlier ++ [l]) later
    · rw [split, List.append_assoc]
      rfl
    · rw [Machine.replay_append run]
      rfl
  · rintro stores earlier later s rfl run
    apply one_peer_agrees
    have start : OnePeer (discovery net authorities first).start := by
      unfold OnePeer
      rw [(start_same : SameRecords (.new authorities) (discovery net authorities first).start).details]
      intro a entry found
      cases found
    refine run_rule (fun s l held stores => turn_one_peer held stores) start (Machine.meets_iff.mpr ?_) run
    rintro before l after s rfl reached
    apply stores before l (after ++ later) s ?_ reached
    rw [List.append_assoc, List.cons_append]

/-- The libraries where value [n] is a record of authority 0 for peer n. -/
def movingCodec : RecordCodec Nat Nat where
  decodeSigned value := some ⟨value, List.replicate 64 3, some ⟨value, value⟩⟩
  decodeRecord record := some ⟨[record]⟩
  parseMultiaddr bytes := bytes.head?.map fun n => [.dns "validator", .tcp 30333, .p2p n.toNat]
  verify signature _ authorityId := signature.bytes = List.replicate 64 3 ∧ authorityId = numberedKey 0
  decodePublicKey bytes := bytes.head?.map UInt8.toNat
  toPeerId key := key
  verifyPeer key record signature := record = signature ∧ record = [key.toUInt8]

/-- The authority moves to another node: one query returns both its records. -/
def movedAnswers : List (Turn Nat Nat (numberedKeys 1)) :=
  [.swarm (.getRecord 0 false (.foundRecord ⟨(numberedKey 0).bytes⟩ [7])) (.listed (by decide)) fun _ => none,
    .swarm (.getRecord 0 true (.foundRecord ⟨(numberedKey 0).bytes⟩ [8])) (.listed (by decide)) fun _ => none]

def nodeAddress (peer : Nat) : LibP2pMultiaddr Nat := [.dns "validator", .tcp 30333, .p2p peer]

/-- The two orders of what is stored. -/
def movedOrders : List (List (LibP2pMultiaddr Nat)) :=
  [[nodeAddress 7, nodeAddress 8], [nodeAddress 8, nodeAddress 7]]

/-- Each record is accepted, and each order reports the peer it meets first. -/
theorem moved_authority_disagrees : ∃ t entry,
    (discovery (.counting movingCodec) (numberedKeys 1) (.listed (by decide))).replay movedAnswers = some t ∧
    t.authorityToDetails.lookup (numberedKey 0) = some entry ∧
    (∀ order ∈ movedOrders, HashSet.Walks order entry) ∧
    (movedOrders.map fun order => (checkResult order t (numberedKey 0)).peerId) = [some 7, some 8] ∧
    (movedOrders.map fun order => report order t (numberedKey 0)) = [.unreached 7, .unreached 8] ∧
    ¬ReportsAgree t := by
  obtain ⟨t, run⟩ := discovery_runs (.counting movingCodec) (numberedKeys 1) (.listed (by decide)) movedAnswers
  have found : ((discovery (.counting movingCodec) (numberedKeys 1) (.listed (by decide))).replay
      movedAnswers).map (fun t => t.authorityToDetails.lookup (numberedKey 0)) =
        some (some {nodeAddress 7, nodeAddress 8}) := by
    decide +kernel
  have checked : ((discovery (.counting movingCodec) (numberedKeys 1) (.listed (by decide))).replay
      movedAnswers).map (fun t => movedOrders.map fun order => (checkResult order t (numberedKey 0)).peerId) =
        some [some 7, some 8] := by
    decide +kernel
  have reported : ((discovery (.counting movingCodec) (numberedKeys 1) (.listed (by decide))).replay
      movedAnswers).map (fun t => movedOrders.map fun order => report order t (numberedKey 0)) =
        some [.unreached 7, .unreached 8] := by
    decide +kernel
  rw [run, Option.map_some, Option.some.injEq] at found checked reported
  have walks : ∀ order ∈ movedOrders, HashSet.Walks order {nodeAddress 7, nodeAddress 8} := by
    intro order member
    simp only [movedOrders, List.mem_cons, List.not_mem_nil, or_false] at member
    rcases member with rfl | rfl
    · exact ⟨by decide, by simp⟩
    · exact ⟨by decide, by simp [or_comm]⟩
  refine ⟨t, _, run, found, walks, checked, reported, fun agree => ?_⟩
  have same := (agree _ _ found _ _ (walks _ List.mem_cons_self)
    (walks _ (List.mem_cons_of_mem _ List.mem_cons_self))).2
  simp only [movedOrders, List.map_cons, List.map_nil, List.cons.injEq] at reported
  rw [reported.1, reported.2.1] at same
  cases same

end Runs
end AuthorityDiscovery
end Subp2pExplorer.Authorities
