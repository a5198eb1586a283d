import Subp2pExplorer.Check.Connectivity
import Subp2pExplorer.Lib.Ranking
import Subp2pExplorer.Network.Genesis

/-! What a discovery of the network ends with: the peers of the chain, public
and private, the peers that announced their roles, and the cities they are in.
All of it is printed from maps, walked in whatever order, and a peer counts for
one city however many addresses it listens at. -/
namespace Subp2pExplorer.Network
open Lib Lib.Ranking Notifications Subp2pExplorer.Types

variable {PeerId : Type}

/-- What is printed of an identified peer. -/
structure IdentifiedInfo (PeerId : Type) extends Info where
  agentVersion : String
  listenAddrs : List (LibP2pMultiaddr PeerId)

abbrev IpAddr : Type := Ipv4Addr ⊕ Ipv6Addr

structure Location where
  city : String
  deriving DecidableEq

/-- Where addresses are, and what names resolve to. A name may resolve to
something else each time it is asked for, at an address of a peer. -/
structure Atlas (PeerId : Type) where
  locate : IpAddr → Option Location
  lookupIp : PeerId → Nat → String → Option (List IpAddr)

section Report
variable (atlas : Atlas PeerId)

/-- The location of one listen address. -/
def locateAddress (peer : PeerId) (index : Nat) : LibP2pMultiaddr PeerId → Option Location
  | .ip4 ip :: _ => atlas.locate (.inl ip)
  | .ip6 ip :: _ => atlas.locate (.inr ip)
  | .dns dns :: _ => (atlas.lookupIp peer index dns).bind (·.findSome? atlas.locate)
  | .dns4 dns :: _ => (atlas.lookupIp peer index dns).bind (·.findSome? atlas.locate)
  | .dns6 dns :: _ => (atlas.lookupIp peer index dns).bind (·.findSome? atlas.locate)
  | _ => none

/-- The first listen address that has a location decides. -/
def locatePeer (peer : PeerId) (info : IdentifiedInfo PeerId) : Option Location :=
  info.listenAddrs.zipIdx.findSome? fun entry => locateAddress atlas peer entry.2 entry.1

variable [DecidableEq PeerId]

structure Geography (PeerId : Type) where
  cities : Map String Nat
  geolocatedPeers : Map PeerId Location

/-- The round of the loop for one peer. -/
def Geography.add (g : Geography PeerId) (entry : PeerId × IdentifiedInfo PeerId) : Geography PeerId :=
  match locatePeer atlas entry.1 entry.2 with
  | none => g
  | some located =>
    { cities := g.cities.upsert located.city (· + 1) 1
      geolocatedPeers := g.geolocatedPeers.insert entry.1 located }

def geolocate (infos : List (PeerId × IdentifiedInfo PeerId)) : Geography PeerId :=
  infos.foldl (Geography.add atlas) ⟨∅, ∅⟩

/-- The orders in which the maps of a report are walked: the details, the roles,
the filtered copy of the details twice, and the cities. -/
structure ReportOrders (PeerId : Type) [DecidableEq PeerId] where
  details : HashSet.Order PeerId
  roles : HashSet.Order PeerId
  publicPeers : HashSet.Order PeerId
  infos : HashSet.Order PeerId
  cities : HashSet.Order String

/-- The map that is collected from a filtered one. -/
def collectWhere (order : HashSet.Order PeerId) (keep : IdentifiedInfo PeerId → Bool)
    (m : Map PeerId (IdentifiedInfo PeerId)) : Map PeerId (IdentifiedInfo PeerId) :=
  Finmap.collect ((m.iterate (order.walk m.keys)).filter fun entry => keep entry.2)

/-- What `discover_network` prints of its peers and their cities. -/
structure NetworkReport (PeerId : Type) where
  supporting : Nat
  withPublic : Nat
  withPrivate : Nat
  authorities : List (PeerId × Option String)
  identified : List (PeerId × String × Option ProtocolRole)
  cities : List (String × Nat)
  geolocatedPeers : Map PeerId Location

variable (orders : ReportOrders PeerId) (genesis : String) (peerDetails : Map PeerId (IdentifiedInfo PeerId))
  (peerRole : Map PeerId ProtocolRole)

/-- The lines of the peers that announced to be authorities. -/
def authorityLines : List (PeerId × Option String) :=
  ((peerRole.iterate (orders.roles.walk peerRole.keys)).filter fun entry => entry.2 = .authority).map
    fun entry => (entry.1, (peerDetails.lookup entry.1).map IdentifiedInfo.agentVersion)

/-- The lines of the peers that were identified. -/
def identifiedLines : List (PeerId × String × Option ProtocolRole) :=
  (peerDetails.iterate (orders.details.walk peerDetails.keys)).map
    fun entry => (entry.1, entry.2.agentVersion, peerRole.lookup entry.1)

/-- The peers that support the genesis hash. -/
def infos : Map PeerId (IdentifiedInfo PeerId) :=
  collectWhere orders.details (fun info => supportsGenesis genesis info.toInfo) peerDetails

def peersWithPublicAddr (probe : Check.Probe PeerId) : Map PeerId (IdentifiedInfo PeerId) :=
  collectWhere orders.publicPeers (fun info => info.listenAddrs.any (Check.isPublicAddress probe))
    (infos orders genesis peerDetails)

def geography : Geography PeerId :=
  geolocate atlas ((infos orders genesis peerDetails).iterate (orders.infos.walk (infos orders genesis peerDetails).keys))

/-- The cities that are counted, in the order in which their map is walked. -/
def citiesWalked : List (String × Nat) :=
  let cities := (geography atlas orders genesis peerDetails).cities
  cities.iterate (orders.cities.walk cities.keys)

def networkReport (probe : Check.Probe PeerId) (numCities : Option Nat) : NetworkReport PeerId where
  supporting := (infos orders genesis peerDetails).size
  withPublic := (peersWithPublicAddr orders genesis peerDetails probe).size
  withPrivate := (infos orders genesis peerDetails).size - (peersWithPublicAddr orders genesis peerDetails probe).size
  authorities := authorityLines orders peerDetails peerRole
  identified := identifiedLines orders peerDetails peerRole
  cities := top Prod.snd (numCities.getD 10) (citiesWalked atlas orders genesis peerDetails)
  geolocatedPeers := (geography atlas orders genesis peerDetails).geolocatedPeers

end Report

section Lemmas
variable [DecidableEq PeerId] {atlas : Atlas PeerId}

/-- A filtered copy has the entries that are kept, however the map was walked. -/
theorem lookup_collect_where (order : HashSet.Order PeerId) (keep : IdentifiedInfo PeerId → Bool)
    (m : Map PeerId (IdentifiedInfo PeerId)) (peer : PeerId) :
    (collectWhere order keep m).lookup peer = (m.lookup peer).filter keep := by
  have walks := order.walks m.keys
  have distinct : (((m.iterate (order.walk m.keys)).filter fun entry => keep entry.2).map Prod.fst).Nodup :=
    (Finmap.iterate_distinct walks.distinct m).sublist (List.filter_sublist.map Prod.fst)
  refine Option.ext fun info => ?_
  rw [collectWhere, Finmap.lookup_collect distinct, List.mem_filter, Finmap.mem_iterate_walk walks,
    Option.filter_eq_some_iff]

/-- A peer is in a city. -/
def inCity (atlas : Atlas PeerId) (city : String) (entry : PeerId × IdentifiedInfo PeerId) : Bool :=
  (locatePeer atlas entry.1 entry.2).any fun located => located.city = city

/-- What the loop over the peers has counted. -/
structure Counted (atlas : Atlas PeerId) (past : List (PeerId × IdentifiedInfo PeerId)) (g : Geography PeerId) : Prop where
  cities : ∀ city, g.cities.lookup city =
    if past.countP (inCity atlas city) = 0 then none else some (past.countP (inCity atlas city))
  located : ∀ peer location, g.geolocatedPeers.lookup peer = some location ↔
    ∃ info, (peer, info) ∈ past ∧ locatePeer atlas peer info = some location
  total : g.cities.values.sum = g.geolocatedPeers.size

theorem add_counted {past : List (PeerId × IdentifiedInfo PeerId)} {g : Geography PeerId} (counted : Counted atlas past g)
    {entry : PeerId × IdentifiedInfo PeerId} (fresh : entry.1 ∉ past.map Prod.fst) :
    Counted atlas (past ++ [entry]) (g.add atlas entry) := by
  obtain ⟨cities, located, total⟩ := counted
  have unlocated : entry.1 ∉ g.geolocatedPeers := by
    intro held
    obtain ⟨location, found⟩ := Finmap.mem_iff.mp held
    obtain ⟨info, member, _⟩ := (located _ _).mp found
    exact fresh (List.mem_map.mpr ⟨_, member, rfl⟩)
  unfold Geography.add
  cases home : locatePeer atlas entry.1 entry.2 with
  | none =>
    refine ⟨fun city => ?_, fun peer location => ?_, total⟩
    · have elsewhere : inCity atlas city entry = false := by rw [inCity, home]; rfl
      rw [List.countP_append, List.countP_singleton, elsewhere]
      exact cities city
    · rw [located]
      refine exists_congr fun info => and_congr_left fun found => ?_
      rw [List.mem_append, List.mem_singleton]
      refine (or_iff_left fun same => ?_).symm
      subst same
      rw [home] at found
      cases found
  | some here =>
    refine ⟨fun city => ?_, fun peer location => ?_, ?_⟩
    · rw [List.countP_append, List.countP_singleton]
      by_cases same : city = here.city
      · have counts : inCity atlas city entry = true := by simp [inCity, home, same]
        rw [counts, if_pos rfl, if_neg (Nat.succ_ne_zero _), same, Finmap.lookup_upsert, cities]
        split
        next zero => rw [zero]; rfl
        next => rfl
      · have elsewhere : inCity atlas city entry = false := by simp [inCity, home, Ne.symm same]
        rw [elsewhere, Finmap.lookup_upsert_ne _ _ _ same]
        exact cities city
    · by_cases same : peer = entry.1
      · subst same
        rw [Finmap.lookup_insert]
        constructor
        · intro found
          cases found
          exact ⟨entry.2, List.mem_append_right _ List.mem_cons_self, home⟩
        · rintro ⟨info, member, found⟩
          rcases List.mem_append.mp member with before | own
          · exact absurd (List.mem_map.mpr ⟨_, before, rfl⟩) fresh
          · have same : info = entry.2 := congrArg Prod.snd (List.mem_singleton.mp own)
            rw [← home, ← found, same]
      · rw [Finmap.lookup_insert_of_ne _ same, located]
        refine exists_congr fun info => and_congr_left fun _ => ?_
        rw [List.mem_append, List.mem_singleton]
        exact (or_iff_left fun equal => same (congrArg Prod.fst equal)).symm
    · rw [Finmap.sum_upsert, Finmap.size_insert_fresh _ unlocated, total]

theorem geolocate_counted {infos : List (PeerId × IdentifiedInfo PeerId)} (distinct : (infos.map Prod.fst).Nodup) :
    Counted atlas infos (geolocate atlas infos) := by
  induction infos using List.reverseRecOn with
  | nil => exact ⟨fun _ => rfl, fun _ _ => by simp [geolocate], rfl⟩
  | append_singleton past entry ih =>
    rw [List.map_append, List.map_singleton, List.nodup_append] at distinct
    obtain ⟨before, -, apart⟩ := distinct
    rw [geolocate, List.foldl_append]
    exact add_counted (ih before) fun member => apart _ member _ List.mem_cons_self rfl

/-- Where a peer is that supports the chain and can be located. -/
def home (atlas : Atlas PeerId) (genesis : String) (peerDetails : Map PeerId (IdentifiedInfo PeerId)) (peer : PeerId) :
    Option Location :=
  ((peerDetails.lookup peer).filter fun info => supportsGenesis genesis info.toInfo).bind (locatePeer atlas peer)

/-- The peers of a city. -/
def peersIn (atlas : Atlas PeerId) (genesis : String) (peerDetails : Map PeerId (IdentifiedInfo PeerId)) (city : String) :
    Finset PeerId :=
  peerDetails.keys.filter fun peer => (home atlas genesis peerDetails peer).any fun located => located.city = city

/-- The cities of the network with all their peers, however the maps are walked. -/
structure CitiesExact (atlas : Atlas PeerId) (genesis : String) (peerDetails : Map PeerId (IdentifiedInfo PeerId))
    (cities : List (String × Nat)) (geolocatedPeers : Map PeerId Location) : Prop where
  distinct : (cities.map Prod.fst).Nodup
  counts : ∀ city count, (city, count) ∈ cities ↔ 0 < count ∧ count = (peersIn atlas genesis peerDetails city).card
  located : ∀ peer, geolocatedPeers.lookup peer = home atlas genesis peerDetails peer
  total : (cities.map Prod.snd).sum = geolocatedPeers.size

variable {genesis : String} {peerDetails : Map PeerId (IdentifiedInfo PeerId)} {orders orders' : ReportOrders PeerId}

theorem lookup_infos (peer : PeerId) : (infos orders genesis peerDetails).lookup peer =
    (peerDetails.lookup peer).filter fun info => supportsGenesis genesis info.toInfo :=
  lookup_collect_where ..

theorem geography_counted : Counted atlas
    ((infos orders genesis peerDetails).iterate (orders.infos.walk (infos orders genesis peerDetails).keys))
    (geography atlas orders genesis peerDetails) :=
  geolocate_counted (Finmap.iterate_distinct (orders.infos.walks _).distinct _)

/-- The peers counted for a city. -/
theorem counted_peers (city : String) :
    ((infos orders genesis peerDetails).iterate (orders.infos.walk (infos orders genesis peerDetails).keys)).countP
      (inCity atlas city) = (peersIn atlas genesis peerDetails city).card := by
  rw [Finmap.count_iterate (orders.infos.walks _)]
  congr 1
  ext peer
  rw [peersIn, Finset.mem_filter, Finset.mem_filter, Finmap.mem_keys, Finmap.mem_keys, home, ← lookup_infos]
  cases found : (infos orders genesis peerDetails).lookup peer with
  | none => simp
  | some info =>
    have held : peer ∈ infos orders genesis peerDetails := Finmap.mem_iff.mpr ⟨info, found⟩
    rw [lookup_infos, Option.filter_eq_some_iff] at found
    have before : peer ∈ peerDetails := Finmap.mem_iff.mpr ⟨info, found.1⟩
    simp [held, before, inCity]

theorem cities_exact : CitiesExact atlas genesis peerDetails (citiesWalked atlas orders genesis peerDetails)
    (geography atlas orders genesis peerDetails).geolocatedPeers := by
  have counted : Counted atlas _ (geography atlas orders genesis peerDetails) := geography_counted
  obtain ⟨cities, located, total⟩ := counted
  have walks := orders.cities.walks (geography atlas orders genesis peerDetails).cities.keys
  constructor
  case distinct => exact Finmap.iterate_distinct walks.distinct _
  case counts =>
    intro city count
    rw [citiesWalked, Finmap.mem_iterate_walk walks, cities, counted_peers]
    split
    next zero =>
      rw [zero]
      exact ⟨nofun, fun counted => by omega⟩
    next some =>
      rw [Option.some.injEq]
      exact ⟨fun same => ⟨same ▸ Nat.pos_of_ne_zero some, same.symm⟩, fun same => same.2.symm⟩
  case located =>
    intro peer
    have held : (infos orders genesis peerDetails).lookup peer = _ := lookup_infos peer
    refine Option.ext fun location => ?_
    rw [located, home, ← held, Option.bind_eq_some_iff]
    exact exists_congr fun info => and_congr_left fun _ => Finmap.mem_iterate_walk (orders.infos.walks _)
  case total => exact (Finmap.sum_iterate walks).trans total

theorem mem_cities {city : String} {count : Nat} : (city, count) ∈ citiesWalked atlas orders genesis peerDetails ↔
    0 < count ∧ count = (peersIn atlas genesis peerDetails city).card :=
  cities_exact.counts city count

/-- Walks of the cities differ in their order only. -/
theorem cities_perm :
    (citiesWalked atlas orders genesis peerDetails).Perm (citiesWalked atlas orders' genesis peerDetails) := by
  refine (List.perm_ext_iff_of_nodup cities_exact.distinct.of_map cities_exact.distinct.of_map).mpr ?_
  exact fun _ => mem_cities.trans mem_cities.symm

/-- Where the peers are does not depend on the walks. -/
theorem located_order : (geography atlas orders genesis peerDetails).geolocatedPeers =
    (geography atlas orders' genesis peerDetails).geolocatedPeers :=
  Finmap.ext_lookup fun peer => by rw [cities_exact.located, cities_exact.located]

/-- The peers whose details pass a test. -/
def peersWhere (peerDetails : Map PeerId (IdentifiedInfo PeerId)) (keep : IdentifiedInfo PeerId → Bool) : Finset PeerId :=
  peerDetails.keys.filter fun peer => (peerDetails.lookup peer).any keep = true

theorem size_where (order : HashSet.Order PeerId) (keep : IdentifiedInfo PeerId → Bool)
    (m : Map PeerId (IdentifiedInfo PeerId)) :
    (collectWhere order keep m).size = (peersWhere m keep).card := by
  rw [Finmap.size, peersWhere]
  congr 1
  ext peer
  rw [Finset.mem_filter, Finmap.mem_keys, Finmap.mem_keys, Finmap.mem_iff, lookup_collect_where]
  cases found : m.lookup peer with
  | none => simp
  | some info =>
    have held : peer ∈ m := Finmap.mem_iff.mpr ⟨info, found⟩
    simp [held, Option.filter_eq_some_iff]

theorem located_supporting :
    (geography atlas orders genesis peerDetails).geolocatedPeers.size ≤ (infos orders genesis peerDetails).size := by
  refine Finset.card_le_card fun peer member => ?_
  obtain ⟨location, found⟩ := Finmap.mem_iff.mp (Finmap.mem_keys.mp member)
  have same : (infos orders genesis peerDetails).lookup peer = _ := lookup_infos peer
  rw [cities_exact.located, home, ← same] at found
  obtain ⟨info, held, _⟩ := Option.bind_eq_some_iff.mp found
  exact Finmap.mem_keys.mpr (Finmap.mem_iff.mpr ⟨info, held⟩)

/-- A copy of a copy, filtered twice. -/
theorem where_where (order : HashSet.Order PeerId) (keep keep' : IdentifiedInfo PeerId → Bool)
    (m : Map PeerId (IdentifiedInfo PeerId)) :
    peersWhere (collectWhere order keep m) keep' = peersWhere m fun info => keep info && keep' info := by
  ext peer
  rw [peersWhere, peersWhere, Finset.mem_filter, Finset.mem_filter, Finmap.mem_keys, Finmap.mem_keys, Finmap.mem_iff,
    Finmap.mem_iff, lookup_collect_where]
  cases m.lookup peer with
  | none => simp
  | some info => cases kept : keep info <;> simp [Option.filter, kept]

/-- What a report tells of the peers that were identified and the roles that were
announced. A city that is left out has no more peers than one that is printed. -/
structure Reports (atlas : Atlas PeerId) (genesis : String) (probe : Check.Probe PeerId) (numCities : Option Nat)
    (peerDetails : Map PeerId (IdentifiedInfo PeerId)) (peerRole : Map PeerId ProtocolRole)
    (report : NetworkReport PeerId) : Prop where
  supporting : report.supporting = (peersWhere peerDetails fun info => supportsGenesis genesis info.toInfo).card
  withPublic : report.withPublic = (peersWhere peerDetails fun info =>
    supportsGenesis genesis info.toInfo && info.listenAddrs.any (Check.isPublicAddress probe)).card
  split : report.withPublic + report.withPrivate = report.supporting
  authorities : (report.authorities.map Prod.fst).Nodup ∧ ∀ peer version, (peer, version) ∈ report.authorities ↔
    peerRole.lookup peer = some .authority ∧ version = (peerDetails.lookup peer).map IdentifiedInfo.agentVersion
  identified : (report.identified.map Prod.fst).Nodup ∧ ∀ peer version role, (peer, version, role) ∈ report.identified ↔
    (peerDetails.lookup peer).map IdentifiedInfo.agentVersion = some version ∧ role = peerRole.lookup peer
  located : ∀ peer, report.geolocatedPeers.lookup peer = home atlas genesis peerDetails peer
  sizes : (report.cities.map Prod.snd).sum ≤ report.geolocatedPeers.size ∧ report.geolocatedPeers.size ≤ report.supporting
  places : report.cities.length ≤ numCities.getD 10 ∧ (report.cities.map Prod.fst).Nodup
  ranked : report.cities.Pairwise fun larger smaller => smaller.2 ≤ larger.2
  counts : ∀ entry ∈ report.cities, 0 < entry.2 ∧ entry.2 = (peersIn atlas genesis peerDetails entry.1).card
  hidden : ∀ city ∉ report.cities.map Prod.fst, 0 < (peersIn atlas genesis peerDetails city).card →
    report.cities.length = numCities.getD 10 ∧
    ∀ entry ∈ report.cities, (peersIn atlas genesis peerDetails city).card ≤ entry.2

variable {peerRole : Map PeerId ProtocolRole} {probe : Check.Probe PeerId}

theorem authority_lines : ((authorityLines orders peerDetails peerRole).map Prod.fst).Nodup ∧
    ∀ peer version, (peer, version) ∈ authorityLines orders peerDetails peerRole ↔
      peerRole.lookup peer = some .authority ∧ version = (peerDetails.lookup peer).map IdentifiedInfo.agentVersion := by
  have walks := orders.roles.walks peerRole.keys
  constructor
  · rw [authorityLines, List.map_map]
    exact (Finmap.iterate_distinct walks.distinct peerRole).sublist (List.filter_sublist.map Prod.fst)
  · intro peer version
    rw [authorityLines, List.mem_map]
    constructor
    · rintro ⟨entry, kept, line⟩
      obtain ⟨member, authority⟩ := List.mem_filter.mp kept
      cases line
      exact ⟨of_decide_eq_true authority ▸ (Finmap.mem_iterate_walk walks).mp member, rfl⟩
    · rintro ⟨role, rfl⟩
      exact ⟨(peer, .authority), List.mem_filter.mpr ⟨(Finmap.mem_iterate_walk walks).mpr role, rfl⟩, rfl⟩

theorem identified_lines : ((identifiedLines orders peerDetails peerRole).map Prod.fst).Nodup ∧
    ∀ peer version role, (peer, version, role) ∈ identifiedLines orders peerDetails peerRole ↔
      (peerDetails.lookup peer).map IdentifiedInfo.agentVersion = some version ∧ role = peerRole.lookup peer := by
  have walks := orders.details.walks peerDetails.keys
  constructor
  · rw [identifiedLines, List.map_map]
    exact Finmap.iterate_distinct walks.distinct peerDetails
  · intro peer version role
    rw [identifiedLines, List.mem_map, Option.map_eq_some_iff]
    constructor
    · rintro ⟨entry, member, line⟩
      cases line
      exact ⟨⟨entry.2, (Finmap.mem_iterate_walk walks).mp member, rfl⟩, rfl⟩
    · rintro ⟨⟨info, found, rfl⟩, rfl⟩
      exact ⟨(peer, info), (Finmap.mem_iterate_walk walks).mpr found, rfl⟩

theorem infos_size : (infos orders genesis peerDetails).size =
    (peersWhere peerDetails fun info => supportsGenesis genesis info.toInfo).card :=
  size_where ..

theorem public_size : (peersWithPublicAddr orders genesis peerDetails probe).size = (peersWhere peerDetails fun info =>
    supportsGenesis genesis info.toInfo && info.listenAddrs.any (Check.isPublicAddress probe)).card :=
  (size_where orders.publicPeers _ _).trans (congrArg Finset.card (where_where orders.details _ _ _))

theorem public_fewer :
    (peersWithPublicAddr orders genesis peerDetails probe).size ≤ (infos orders genesis peerDetails).size := by
  rw [public_size, infos_size]
  refine Finset.card_le_card fun peer member => ?_
  obtain ⟨held, both⟩ := Finset.mem_filter.mp member
  obtain ⟨info, found, passes⟩ := (Option.any_eq_true _ _).mp both
  exact Finset.mem_filter.mpr ⟨held, (Option.any_eq_true _ _).mpr ⟨info, found, (Bool.and_eq_true_iff.mp passes).1⟩⟩

theorem reports (numCities : Option Nat) : Reports atlas genesis probe numCities peerDetails peerRole
    (networkReport atlas orders genesis peerDetails peerRole probe numCities) := by
  have exact : CitiesExact atlas genesis peerDetails (citiesWalked atlas orders genesis peerDetails)
      (geography atlas orders genesis peerDetails).geolocatedPeers := cities_exact
  constructor
  case supporting => exact infos_size
  case withPublic => exact public_size
  case split => exact Nat.add_sub_of_le public_fewer
  case authorities => exact authority_lines
  case identified => exact identified_lines
  case located => exact exact.located
  case sizes => exact ⟨(top_sum_le _ _).trans_eq exact.total, located_supporting⟩
  case places => exact ⟨(top_length _ _).trans_le (Nat.min_le_left _ _), top_distinct exact.distinct _⟩
  case ranked => exact top_pairwise _ _
  case counts => exact fun entry shown => (exact.counts _ _).mp (mem_of_top shown)
  case hidden =>
    intro city hidden inhabited
    have member : (city, (peersIn atlas genesis peerDetails city).card) ∈ citiesWalked atlas orders genesis peerDetails :=
      mem_cities.mpr ⟨inhabited, rfl⟩
    have absent : (city, (peersIn atlas genesis peerDetails city).card) ∉
        top Prod.snd (numCities.getD 10) (citiesWalked atlas orders genesis peerDetails) :=
      fun shown => hidden (List.mem_map.mpr ⟨_, shown, rfl⟩)
    exact ⟨top_full member absent, fun entry shown => top_dominates shown member absent⟩

/-- What is printed of the network is true of its peers, in whatever orders the
maps are walked: the peers of the chain are public or private, a peer is in the
city of its first address that can be located and counts there once, and the
cities printed are the largest. Between two runs over the same peers only ties
at the last place differ: the numbers printed are the same, and a city larger
than another that is printed is printed too. -/
theorem network_reported (probe : Check.Probe PeerId) (numCities : Option Nat) :
    let report := networkReport atlas orders genesis peerDetails peerRole probe numCities
    Reports atlas genesis probe numCities peerDetails peerRole report ∧
      ∀ orders' : ReportOrders PeerId,
        let report' := networkReport atlas orders' genesis peerDetails peerRole probe numCities
        report'.supporting = report.supporting ∧ report'.withPublic = report.withPublic ∧
          report'.geolocatedPeers = report.geolocatedPeers ∧
          report'.cities.map Prod.snd = report.cities.map Prod.snd ∧
          ∀ entry ∈ report.cities, ∀ smaller ∈ report.cities, smaller.2 < entry.2 → entry ∈ report'.cities := by
  intro report
  refine ⟨reports numCities, fun orders' => ⟨?_, ?_, located_order, top_scores cities_perm, ?_⟩⟩
  · exact infos_size.trans infos_size.symm
  · exact public_size.trans public_size.symm
  · intro entry shown smaller below above
    exact top_certain cities_perm (mem_of_top shown) below above

end Lemmas
end Subp2pExplorer.Network
