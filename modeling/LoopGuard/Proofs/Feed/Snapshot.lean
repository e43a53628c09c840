import LoopGuard.Feed.LinkFeed
import LoopGuard.Proofs.Keyspace.Session
import LoopGuard.Proofs.Topology.Table

/-!
# What a poll reads

Whatever the server answers, a table that is fetched files each link under its
own id. A poll that succeeds notes the table, one that fails leaves the feed as
it was.
-/

namespace LoopGuard.LinkFeed

open Keyspace

variable {feed : LinkFeed} {table found : LinkTable} {server after : Server}

theorem keyed_of_readEntry {key : String} (keyed : table.Keyed)
    (ok : feed.readEntry table key server = (.ok found, after)) : found.Keyed := by
  cases named : Text.withoutPrefix? feed.beginning key with
  | none =>
    simp only [readEntry, named] at ok
    cases ok
    exact keyed
  | some id =>
    simp only [readEntry, named] at ok
    obtain ⟨fields, between, _, ok⟩ := Session.bind_eq_ok ok
    cases entry : fields.link? id with
    | none =>
      simp only [entry] at ok
      cases ok
      exact keyed
    | some link =>
      simp only [entry] at ok
      cases ok
      exact keyed.insert

theorem keyed_of_foldlM_readEntry {keys : List String} (keyed : table.Keyed)
    (ok : keys.foldlM feed.readEntry table server = (.ok found, after)) : found.Keyed := by
  induction keys generalizing table server with
  | nil =>
    cases ok
    exact keyed
  | cons key keys ih =>
    rw [List.foldlM_cons] at ok
    obtain ⟨read, between, first, ok⟩ := Session.bind_eq_ok ok
    exact ih (keyed_of_readEntry keyed first) ok

theorem keyed_of_fetch (ok : feed.fetch server = (.ok found, after)) : found.Keyed := by
  obtain ⟨keys, between, _, ok⟩ := Session.bind_eq_ok ok
  exact keyed_of_foldlM_readEntry LinkTable.keyed_empty ok

/-- Every poll that succeeds has come to a keyed table. -/
theorem keyed_of_toStore_fetch (ok : (feed.fetch.toStore server).1 = .ok table) : table.Keyed := by
  rw [Session.toStore] at ok
  cases fetched : feed.fetch server with
  | mk result after =>
    rw [fetched] at ok
    cases result with
    | error => cases ok
    | ok found =>
      cases ok
      exact keyed_of_fetch fetched

end LoopGuard.LinkFeed
