import LoopGuard.Feed.Entry
import LoopGuard.Keyspace.Server
import LoopGuard.Topology.LinkTable

/-!
# The topology feed

A `LinkFeed` follows the link table of one topology. Each poll reads the table
and gives the changes since the last poll that succeeded; a poll that fails
keeps what was seen last, so no change is lost.
-/

namespace LoopGuard

/-- A reader of the links of one topology. -/
structure LinkFeed where
  /-- The number of the keyspace with the link table. -/
  number : Int
  /-- The beginning of the keys of the topology. -/
  beginning : String
  /-- The links seen last. -/
  last : LinkTable := ∅

namespace LinkFeed

open Keyspace

def ofTopology (number : Int) (topology : String) : LinkFeed :=
  { number, beginning := linkPrefix topology }

/-- Reads the entry under one key into a table. Incomplete entries are passed
over. -/
def readEntry (feed : LinkFeed) (table : LinkTable) (key : String) : Session LinkTable :=
  match Text.withoutPrefix? feed.beginning key with
  | none => return table
  | some id => do
    match (← Session.fields feed.number key).link? id with
    | none => return table
    | some link => return table.insert link.id link

def fetch (feed : LinkFeed) : Session LinkTable := do
  (← Session.keys feed.number (patternOfPrefix feed.beginning)).foldlM feed.readEntry ∅

/-- Notes a table that was read, and gives the changes since the last one. -/
def advance (feed : LinkFeed) (current : LinkTable) : LinkEvent × LinkFeed :=
  (feed.last.changes current, { feed with last := current })

def poll (feed : LinkFeed) (server : Server) :
    Except StoreError LinkEvent × LinkFeed × Server :=
  match feed.fetch.toStore server with
  | (.error error, server) => (.error error, feed, server)
  | (.ok current, server) =>
    let (event, feed) := feed.advance current
    (.ok event, feed, server)

end LinkFeed

end LoopGuard
