import LoopGuard.Feed.LinkFeed
import LoopGuard.Proofs.Keyspace.Glob
import LoopGuard.Proofs.Keyspace.Session
import LoopGuard.Proofs.Topology.StoreKey

/-!
# The links that a topology publishes

A feed asks for the keys that begin with the prefix of its topology, whatever
characters the id of the topology has, and reads the entry under each of them. As
long as the server is well and these entries are hashes, it finds one link for each
entry that names both ends in full, under the id that the key ends with, in whatever
order the keys come (`reading_of_hashOrAbsent`). One entry that is no hash makes the
poll fail, which leaves the feed as it was. Topologies whose ids are free of bars
share no key (`linkPrefix_append_inj`).
-/

namespace LoopGuard

namespace Fields

variable {fields : Fields} {name value id : String} {link : Link}

/-- The field has this value, and the value is not empty. -/
def Fills (fields : Fields) (name value : String) : Prop :=
  fields[name]? = some value ∧ value ≠ ""

/-- The fields name both ends of the link in full. -/
structure Describes (fields : Fields) (link : Link) : Prop where
  source_node : fields.Fills "source_node" link.source.node.text
  source_port : fields.Fills "source_port" link.source.port.text
  dest_node : fields.Fills "dest_node" link.destination.node.text
  dest_port : fields.Fills "dest_port" link.destination.port.text

theorem filled?_eq_some_iff : fields.filled? name = some value ↔ fields.Fills name value := by
  simp [filled?, Fills, Option.filter_eq_some_iff]

/-- The link of an entry is the one that its fields describe, under the given id. -/
theorem link?_eq_some_iff :
    fields.link? id = some link ↔ link.id = ⟨id⟩ ∧ fields.Describes link := by
  simp only [link?, bind, Option.bind_eq_some_iff, filled?_eq_some_iff, pure, Option.some.injEq]
  constructor
  · intro ⟨sourceNode, a, sourcePort, b, destNode, c, destPort, d, described⟩
    subst described
    exact ⟨rfl, a, b, c, d⟩
  · intro ⟨same, a, b, c, d⟩
    refine ⟨_, a, _, b, _, c, _, d, ?_⟩
    rw [← same]
    rfl

end Fields

namespace Keyspace

/-- No key begins with the prefixes of two topologies whose ids are free of bars. -/
theorem linkPrefix_append_inj {topology other id otherId : String}
    (free : '|' ∉ topology.toList) (otherFree : '|' ∉ other.toList)
    (same : linkPrefix topology ++ id = linkPrefix other ++ otherId) :
    topology = other ∧ id = otherId := by
  have texts : topology.toList ++ '|' :: id.toList = other.toList ++ '|' :: otherId.toList := by
    have lists := congrArg String.toList same
    simpa [linkPrefix, String.toList_append] using lists
  have cut : Text.cutAt? '|' (topology.toList ++ '|' :: id.toList) =
      some (topology.toList, id.toList) :=
    Text.cutAt?_eq_some_iff.2 ⟨rfl, free⟩
  have otherCut : Text.cutAt? '|' (topology.toList ++ '|' :: id.toList) =
      some (other.toList, otherId.toList) :=
    Text.cutAt?_eq_some_iff.2 ⟨texts, otherFree⟩
  have parts := Prod.mk.inj (Option.some.inj (cut.symm.trans otherCut))
  exact ⟨String.toList_inj.1 parts.1, String.toList_inj.1 parts.2⟩

end Keyspace

namespace LinkFeed

open Keyspace

variable {feed : LinkFeed} {server : Server} {keyspace : Keyspace} {table : LinkTable}
  {key : String} {listed : List String}

/-- The entries under the listed keys, read one after the other. -/
def reading (feed : LinkFeed) (listed : List String) : Session LinkTable :=
  listed.foldlM feed.readEntry ∅

/-- The link whose entry stands under a key, with its id. -/
def linkUnder? (feed : LinkFeed) (keyspace : Keyspace) (key : String) : Option (LinkId × Link) :=
  (Text.withoutPrefix? feed.beginning key).bind fun id =>
    ((keyspace.fieldsAt key).link? id).map fun link => (link.id, link)

/-- Links found so far, with those whose entries stand under some keys. -/
def gather (feed : LinkFeed) (keyspace : Keyspace) (table : LinkTable) (listed : List String) :
    LinkTable :=
  table.insertMany (listed.filterMap (feed.linkUnder? keyspace))

/-- The link that is published under this id. -/
def published? (feed : LinkFeed) (keyspace : Keyspace) (id : LinkId) : Option Link :=
  (keyspace.fieldsAt (feed.beginning ++ id.text)).link? id.text

theorem linkUnder?_eq_some_iff {id : LinkId} {link : Link} :
    feed.linkUnder? keyspace key = some (id, link) ↔
      key = feed.beginning ++ id.text ∧ feed.published? keyspace id = some link := by
  simp only [linkUnder?, Option.bind_eq_some_iff, Option.map_eq_some_iff, published?,
    Text.withoutPrefix?_eq_some_iff]
  constructor
  · intro ⟨text, begins, other, described, same⟩
    obtain ⟨rfl, rfl⟩ := Prod.mk.inj same
    have own : other.id = ⟨text⟩ := (Fields.link?_eq_some_iff.1 described).1
    rw [own]
    subst begins
    exact ⟨rfl, described⟩
  · intro ⟨begins, described⟩
    subst begins
    have own : link.id = id := (Fields.link?_eq_some_iff.1 described).1
    exact ⟨id.text, rfl, link, described, by rw [own]⟩

/-! ## Reading entries -/

theorem readEntry_of_hashOrAbsent (well : server.faults = [])
    (accepted : (server.keyspace feed.number).HashOrAbsent key) :
    feed.readEntry table key server =
      (.ok (feed.gather (server.keyspace feed.number) table [key]), server) := by
  have read : Session.fields feed.number key server =
      (.ok ((server.keyspace feed.number).fieldsAt key), server) :=
    Session.fields_of_hashOrAbsent well accepted
  unfold readEntry gather linkUnder?
  cases named : Text.withoutPrefix? feed.beginning key with
  | none =>
    simp only [List.filterMap, named, Option.bind_none, Std.ExtTreeMap.insertMany_nil]
    rfl
  | some id =>
    simp only [List.filterMap, named, Option.bind_some]
    rw [Session.bind_of_ok read]
    cases ((server.keyspace feed.number).fieldsAt key).link? id with
    | none => rfl
    | some link => rfl

theorem readEntry_of_not_hashOrAbsent (well : server.faults = [])
    (refused : ¬ (server.keyspace feed.number).HashOrAbsent key)
    (begins : ∃ id, key = feed.beginning ++ id) :
    feed.readEntry table key server = (.error (.ofLine Server.wrongTypeLine), server) := by
  rcases begins with ⟨id, begins⟩
  have named : Text.withoutPrefix? feed.beginning key = some id :=
    Text.withoutPrefix?_eq_some_iff.2 begins
  have failed : Session.fields feed.number key server =
      (.error (.ofLine Server.wrongTypeLine), server) :=
    Session.fields_of_not_hashOrAbsent well refused
  unfold readEntry
  simp only [named]
  exact Session.bind_of_error failed

/-! ## Reading all entries of a topology -/

section Listing

variable (listing : listed.Perm (keyspace.keysMatching (patternOfPrefix feed.beginning)))

include listing

/-- The keys that are listed are those that begin with the prefix. -/
theorem mem_listed_iff : key ∈ listed ↔ key ∈ keyspace ∧ ∃ id, key = feed.beginning ++ id := by
  rw [listing.mem_iff, keysMatching, List.mem_filter, isMatch_patternOfPrefix,
    Std.ExtTreeMap.mem_keys]

/-- What is gathered under the listed keys is what the topology publishes. -/
theorem getElem?_gather {id : LinkId} :
    (feed.gather keyspace ∅ listed)[id]? = feed.published? keyspace id := by
  have each : ∀ entry ∈ listed.filterMap (feed.linkUnder? keyspace),
      feed.published? keyspace entry.1 = some entry.2 := by
    intro entry inside
    rcases List.mem_filterMap.1 inside with ⟨key, _, found⟩
    exact (linkUnder?_eq_some_iff.1 found).2
  rw [gather, getElem?_insertMany_of_forall each, Std.ExtTreeMap.getElem?_empty]
  split
  next => rfl
  next absent =>
    refine (Option.eq_none_iff_forall_not_mem.2 fun link described => absent ?_).symm
    have held : feed.beginning ++ id.text ∈ keyspace := by
      have full := (Fields.link?_eq_some_iff.1 described).2.source_node.1
      exact mem_of_held? full
    have among : feed.beginning ++ id.text ∈ listed :=
      (mem_listed_iff listing).2 ⟨held, id.text, rfl⟩
    exact List.mem_map.2 ⟨(id, link), List.mem_filterMap.2
      ⟨feed.beginning ++ id.text, among, linkUnder?_eq_some_iff.2 ⟨rfl, described⟩⟩, rfl⟩

/-- In whatever order the keys come, the same table is read. -/
theorem gather_of_perm :
    feed.gather keyspace ∅ listed =
      feed.gather keyspace ∅ (keyspace.keysMatching (patternOfPrefix feed.beginning)) := by
  refine Std.ExtTreeMap.ext_getElem? fun id => ?_
  rw [getElem?_gather listing, getElem?_gather (List.Perm.refl _)]

end Listing

theorem reading_of_hashOrAbsent (well : server.faults = [])
    (listing : listed.Perm
      ((server.keyspace feed.number).keysMatching (patternOfPrefix feed.beginning)))
    (accepted : ∀ rest, (server.keyspace feed.number).HashOrAbsent (feed.beginning ++ rest)) :
    feed.reading listed server =
      (.ok (feed.gather (server.keyspace feed.number) ∅
        ((server.keyspace feed.number).keysMatching (patternOfPrefix feed.beginning))), server) := by
  rw [← gather_of_perm listing, gather, insertMany_filterMap]
  refine Session.foldlM_of_ok fun table key inside => ?_
  rcases ((mem_listed_iff listing).1 inside).2 with ⟨rest, begins⟩
  rw [begins]
  exact readEntry_of_hashOrAbsent well (accepted rest)

theorem reading_of_not_hashOrAbsent (well : server.faults = [])
    (listing : listed.Perm
      ((server.keyspace feed.number).keysMatching (patternOfPrefix feed.beginning)))
    (refused : ¬ ∀ rest, (server.keyspace feed.number).HashOrAbsent (feed.beginning ++ rest)) :
    feed.reading listed server = (.error (.ofLine Server.wrongTypeLine), server) := by
  obtain ⟨rest, refused⟩ := not_forall.1 refused
  have held : feed.beginning ++ rest ∈ server.keyspace feed.number :=
    mem_of_not_hashOrAbsent refused
  refine Session.foldlM_of_error
    (fun _ _ _ accepted => ⟨_, readEntry_of_hashOrAbsent well accepted⟩)
    (fun _ key inside refused => ?_)
    ⟨feed.beginning ++ rest, (mem_listed_iff listing).2 ⟨held, rest, rfl⟩, refused⟩
  exact readEntry_of_not_hashOrAbsent well refused ((mem_listed_iff listing).1 inside).2

theorem fetch_eq (well : server.faults = []) :
    feed.fetch server =
      feed.reading ((server.keyspace feed.number).keysMatching (patternOfPrefix feed.beginning))
        server := by
  unfold fetch
  rw [Session.bind_of_ok (Session.keys_eq well)]
  rfl

theorem poll_of_fetch_ok {found : LinkTable} (ok : feed.fetch server = (.ok found, server)) :
    feed.poll server = (.ok (feed.last.changes found), { feed with last := found }, server) := by
  simp only [poll, Session.toStore, ok, Except.mapError, advance]

theorem poll_of_fetch_error {failure : Failure}
    (failed : feed.fetch server = (.error failure, server)) :
    feed.poll server = (.error failure.toStoreError, feed, server) := by
  simp only [poll, Session.toStore, failed, Except.mapError]

/-! ## What a feed finds -/

/-- The link stands in the table of a topology: the entry under its id is a hash that
names both of its ends in full. -/
def Publishes (keyspace : Keyspace) (topology : String) (link : Link) : Prop :=
  ∃ fields, keyspace[linkPrefix topology ++ link.id.text]? = some (.hash fields) ∧
    fields.Describes link

theorem published?_eq_some_iff {topology : String} {id : LinkId} {link : Link}
    (begins : feed.beginning = linkPrefix topology) :
    feed.published? keyspace id = some link ↔ link.id = id ∧ Publishes keyspace topology link := by
  rw [published?, begins, Fields.link?_eq_some_iff]
  refine and_congr_right fun own => ?_
  unfold Publishes fieldsAt
  rw [own]
  constructor
  · intro described
    split at described
    next fields held => exact ⟨fields, held, described⟩
    next => exact absurd described.source_node.1 (by simp)
  · intro ⟨fields, held, described⟩
    rw [held]
    exact described

/-- What the feed of a topology finds on a server. -/
structure Follows (feed : LinkFeed) (topology : String) (server : Server) : Prop where
  /-- The server is asked for the keys with the prefix of the topology and no others. -/
  asks (key : String) : Glob.isMatch (patternOfPrefix feed.beginning) key = true ↔
    ∃ rest, key = linkPrefix topology ++ rest
  /-- Where all entries are hashes the published links are found, each under its id, in
  whatever order the keys are listed. -/
  finds : (∀ rest, (server.keyspace feed.number).HashOrAbsent (linkPrefix topology ++ rest)) →
    ∃ found : LinkTable,
      (∀ (id : LinkId) (link : Link), found[id]? = some link ↔
        link.id = id ∧ Publishes (server.keyspace feed.number) topology link) ∧
      (∀ listed : List String, listed.Perm
          ((server.keyspace feed.number).keysMatching (patternOfPrefix feed.beginning)) →
        feed.reading listed server = (.ok found, server)) ∧
      feed.poll server = (.ok (feed.last.changes found), { feed with last := found }, server)
  /-- One entry that is no hash, and the poll fails and the feed stays as it was. -/
  fails : (¬ ∀ rest, (server.keyspace feed.number).HashOrAbsent (linkPrefix topology ++ rest)) →
    (∀ listed : List String, listed.Perm
        ((server.keyspace feed.number).keysMatching (patternOfPrefix feed.beginning)) →
      feed.reading listed server = (.error (.ofLine Server.wrongTypeLine), server)) ∧
    feed.poll server =
      (.error (Failure.ofLine Server.wrongTypeLine).toStoreError, feed, server)
  /-- The server lists the keys in one of these orders. -/
  fetches : feed.fetch server = feed.reading
    ((server.keyspace feed.number).keysMatching (patternOfPrefix feed.beginning)) server
  /-- The feed of another topology is never answered with a key of this one. -/
  keeps_apart (other key : String) : '|' ∉ topology.toList → '|' ∉ other.toList →
    topology ≠ other → Glob.isMatch (patternOfPrefix feed.beginning) key = true →
    Glob.isMatch (patternOfPrefix (linkPrefix other)) key = false

/-- The feed of a topology reads exactly the links of this topology, whatever characters
its id has. -/
theorem reads_its_topology_alone (feed : LinkFeed) (topology : String)
    (begins : feed.beginning = linkPrefix topology) (server : Server)
    (well : server.faults = []) : Follows feed topology server := by
  constructor
  case asks =>
    intro key
    rw [← begins]
    exact isMatch_patternOfPrefix
  case finds =>
    intro accepted
    rw [← begins] at accepted
    refine ⟨feed.gather (server.keyspace feed.number) ∅
      ((server.keyspace feed.number).keysMatching (patternOfPrefix feed.beginning)), ?_, ?_, ?_⟩
    · intro id link
      rw [getElem?_gather (List.Perm.refl _)]
      exact published?_eq_some_iff begins
    · intro listed listing
      exact reading_of_hashOrAbsent well listing accepted
    · refine poll_of_fetch_ok ((fetch_eq well).trans ?_)
      exact reading_of_hashOrAbsent well (List.Perm.refl _) accepted
  case fails =>
    intro refused
    rw [← begins] at refused
    constructor
    · intro listed listing
      exact reading_of_not_hashOrAbsent well listing refused
    · refine poll_of_fetch_error ((fetch_eq well).trans ?_)
      exact reading_of_not_hashOrAbsent well (List.Perm.refl _) refused
  case fetches => exact fetch_eq well
  case keeps_apart =>
    intro other key free otherFree apart asked
    rw [Bool.eq_false_iff]
    intro askedByOther
    rcases isMatch_patternOfPrefix.1 asked with ⟨rest, own⟩
    rcases isMatch_patternOfPrefix.1 askedByOther with ⟨otherRest, others⟩
    rw [begins] at own
    exact apart (linkPrefix_append_inj free otherFree (own.symm.trans others)).1

/-- A complete and an incomplete entry of a topology whose id is a pattern, an entry of a
topology that this pattern matches, and a key that is no entry. -/
def patterned : Server where
  keyspaces := Std.ExtTreeMap.ofList [((0 : Int), Std.ExtTreeMap.ofList
    [("TOPOLOGY_LINK_TABLE:f*[1]|ab", Entry.hash (Std.ExtTreeMap.ofList
        [("source_node", "A"), ("source_port", "A:1"), ("dest_node", "B"), ("dest_port", "B:1")])),
      ("TOPOLOGY_LINK_TABLE:f*[1]|cd", .hash (Std.ExtTreeMap.ofList
        [("source_node", "C"), ("source_port", "C:1"), ("dest_node", "D"), ("dest_port", "")])),
      ("TOPOLOGY_LINK_TABLE:flow1|ef", .hash (Std.ExtTreeMap.ofList
        [("source_node", "E"), ("source_port", "E:1"), ("dest_node", "F"), ("dest_port", "F:1")])),
      ("TOPOLOGY_LINK_TABLE:f*[1]", .text "no entry")])]

/-- The same with an entry that is no hash. -/
def spoilt : Server :=
  patterned.setKeyspace 0
    ((patterned.keyspace 0).insert "TOPOLOGY_LINK_TABLE:f*[1]|gh" (.text "no hash"))

theorem patterned_topology_has_one_link :
    let feed := ofTopology 0 "f*[1]"
    let ab : Link := ⟨⟨"ab"⟩, .of "A" "A:1", .of "B" "B:1"⟩
    feed.beginning = linkPrefix "f*[1]" ∧ patterned.faults = [] ∧ spoilt.faults = [] ∧
      Glob.isMatch (linkPrefix "f*[1]" ++ "*") "TOPOLOGY_LINK_TABLE:flow1|ef" = true ∧
      (∃ found : LinkTable, found[ab.id]? = some ab ∧ found[(⟨"cd"⟩ : LinkId)]? = none ∧
        found[(⟨"ef"⟩ : LinkId)]? = none ∧
        feed.poll patterned = (.ok (feed.last.changes found), { feed with last := found },
          patterned)) ∧
      feed.poll spoilt =
        (.error (Failure.ofLine Server.wrongTypeLine).toStoreError, feed, spoilt) := by
  intro feed ab
  have begins : feed.beginning = linkPrefix "f*[1]" := rfl
  have well : patterned.faults = [] := rfl
  have spoiltWell : spoilt.faults = [] := rfl
  have unescaped :
      Glob.isMatch (linkPrefix "f*[1]" ++ "*") "TOPOLOGY_LINK_TABLE:flow1|ef" = true := by
    decide +kernel
  have follows : Follows feed "f*[1]" patterned :=
    reads_its_topology_alone feed "f*[1]" begins patterned well
  have spoiltFollows : Follows feed "f*[1]" spoilt :=
    reads_its_topology_alone feed "f*[1]" begins spoilt spoiltWell
  refine ⟨begins, well, spoiltWell, unescaped, ?_, ?_⟩
  · have hashes : ∀ key ∈ (patterned.keyspace 0).keys,
        (Text.withoutPrefix? (linkPrefix "f*[1]") key).isSome →
          (patterned.keyspace 0).HashOrAbsent key := by decide +kernel
    have accepted : ∀ rest, (patterned.keyspace 0).HashOrAbsent (linkPrefix "f*[1]" ++ rest) := by
      intro rest text held
      have inside : linkPrefix "f*[1]" ++ rest ∈ (patterned.keyspace 0).keys :=
        Std.ExtTreeMap.mem_keys.2 (Std.ExtTreeMap.isSome_getElem?_iff_mem.1 (by rw [held]; rfl))
      have named : Text.withoutPrefix? (linkPrefix "f*[1]") (linkPrefix "f*[1]" ++ rest) =
          some rest := Text.withoutPrefix?_eq_some_iff.2 rfl
      exact hashes _ inside (by rw [named]; rfl) text held
    obtain ⟨found, finds, _, poll⟩ := follows.finds accepted
    have table (id : LinkId) : found[id]? = feed.published? (patterned.keyspace 0) id :=
      Option.ext fun link => (finds id link).trans (published?_eq_some_iff begins).symm
    refine ⟨found, ?_, ?_, ?_, poll⟩
    · rw [table]
      decide +kernel
    · rw [table]
      decide +kernel
    · rw [table]
      decide +kernel
  · have text : ¬ (spoilt.keyspace 0).HashOrAbsent (linkPrefix "f*[1]" ++ "gh") := by
      decide +kernel
    exact (spoiltFollows.fails fun accepted => text (accepted "gh")).2

end LinkFeed

end LoopGuard
