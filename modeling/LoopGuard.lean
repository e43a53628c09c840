import LoopGuard.Config.Basic
import LoopGuard.Config.Given
import LoopGuard.Config.Read
import LoopGuard.Config.Validate
import LoopGuard.Config.Write
import LoopGuard.Daemon.LogFilter
import LoopGuard.Daemon.Options
import LoopGuard.Daemon.Run
import LoopGuard.Engine.Basic
import LoopGuard.Engine.Clock
import LoopGuard.Engine.Pending
import LoopGuard.Engine.Worker
import LoopGuard.Error
import LoopGuard.Feed.Entry
import LoopGuard.Feed.Follow
import LoopGuard.Feed.LinkFeed
import LoopGuard.Forest.Basic
import LoopGuard.Forest.DisjointSet
import LoopGuard.Forest.Verify
import LoopGuard.Json.Value
import LoopGuard.Keyspace.Basic
import LoopGuard.Keyspace.Failure
import LoopGuard.Keyspace.Glob
import LoopGuard.Keyspace.Names
import LoopGuard.Keyspace.RecordStore
import LoopGuard.Keyspace.Reply
import LoopGuard.Keyspace.Server
import LoopGuard.Main
import LoopGuard.Status.Basic
import LoopGuard.Status.Resolve
import LoopGuard.Store.Basic
import LoopGuard.Store.Error
import LoopGuard.Store.Memory
import LoopGuard.Store.Writer
import LoopGuard.Text.Blank
import LoopGuard.Text.Cut
import LoopGuard.Text.Decimal
import LoopGuard.Text.Similarity
import LoopGuard.Toml.Document
import LoopGuard.Toml.Layout
import LoopGuard.Toml.Number
import LoopGuard.Toml.Quoted
import LoopGuard.Toml.Text
import LoopGuard.Toml.Value
import LoopGuard.Topology.Event
import LoopGuard.Topology.Graph
import LoopGuard.Topology.Identifier
import LoopGuard.Topology.Interchange
import LoopGuard.Topology.Link
import LoopGuard.Topology.LinkTable
import LoopGuard.Topology.Port
import LoopGuard.Proofs.Forest.Partition
import LoopGuard.Proofs.Forest.Walk
import LoopGuard.Proofs.Forest.Choice
import LoopGuard.Proofs.Status.Records
import LoopGuard.Proofs.Status.LoopFree
import LoopGuard.Proofs.Topology.Replay
import LoopGuard.Proofs.Topology.Graph
import LoopGuard.Proofs.Engine.World
import LoopGuard.Proofs.Store.Lawful
import LoopGuard.Proofs.Engine.Step
import LoopGuard.Proofs.Engine.Queue
import LoopGuard.Proofs.Engine.Ledger
import LoopGuard.Proofs.Engine.LoopFree
import LoopGuard.Proofs.Engine.Stale
import LoopGuard.Proofs.Engine.Rest
import LoopGuard.Proofs.Engine.Schedule
import LoopGuard.Proofs.Forest.Circuit
import LoopGuard.Proofs.Forest.Tree
import LoopGuard.Proofs.Forest.Spanning
import LoopGuard.Proofs.Forest.Greedy
import LoopGuard.Proofs.Forest.Exchange
import LoopGuard.Proofs.Forest.Verdict
import LoopGuard.Proofs.Forest.UnionByRank
import LoopGuard.Proofs.Status.Verified
import LoopGuard.Proofs.Status.Meaning
import LoopGuard.Proofs.Status.Flooding
import LoopGuard.Proofs.Keyspace.Glob
import LoopGuard.Proofs.Keyspace.Hashes
import LoopGuard.Proofs.Keyspace.Session
import LoopGuard.Proofs.Topology.StoreKey
import LoopGuard.Proofs.Keyspace.Records
import LoopGuard.Proofs.Keyspace.Refinement
import LoopGuard.Proofs.Engine.Calls
import LoopGuard.Proofs.Feed.Snapshot
import LoopGuard.Proofs.Feed.Published
import LoopGuard.Proofs.Topology.Patch
import LoopGuard.Proofs.Topology.Update
import LoopGuard.Proofs.Topology.Requests
import LoopGuard.Proofs.Feed.Convergence
import LoopGuard.Proofs.Engine.Idle
import LoopGuard.Proofs.Engine.Frame
import LoopGuard.Proofs.Store.Commit
import LoopGuard.Proofs.Store.Retry
import LoopGuard.Proofs.Engine.Statistics
import LoopGuard.Proofs.Engine.Pass
import LoopGuard.Proofs.Engine.Shutdown
import LoopGuard.Proofs.Engine.Debounce
import LoopGuard.Proofs.Engine.Repeat
import LoopGuard.Proofs.Toml.Numerals
import LoopGuard.Proofs.Toml.Strings
import LoopGuard.Proofs.Toml.Document
import LoopGuard.Proofs.Config.Settings
import LoopGuard.Proofs.Config.RoundTrip
import LoopGuard.Proofs.Engine.Clock
import LoopGuard.Proofs.Keyspace.Honest
import LoopGuard.Proofs.Engine.Keyspace
