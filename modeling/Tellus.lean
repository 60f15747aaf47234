import Tellus.Lib.Program
import Tellus.Lib.Tasks
import Tellus.Lib.Runs
import Tellus.Lib.Descent
import Tellus.Lib.Linear
import Tellus.Lib.Refinement
import Tellus.Lib.Simulation
import Tellus.Lib.Typestate
import Tellus.Lib.History
import Tellus.Lib.Traces
import Tellus.Lib.Unwind
import Tellus.Lib.Duration
import Tellus.Lib.Ledger
import Tellus.Actor.Incoming
import Tellus.Actor.System
import Tellus.Actor.Steps
import Tellus.Actor.Watching
import Tellus.Actor.Registrations
import Tellus.Actor.Conversation
import Tellus.Actor.Tree
import Tellus.Actor.Winding
import Tellus.Actor.Channels
import Tellus.Actor.Wiring
import Tellus.Actor.Loop
import Tellus.Actor.Supervision
import Tellus.Actor.Restarts
import Tellus.Actor.Stopping
import Tellus.Actor.Destructors
import Tellus.Actor.Late
import Tellus.Actor.Hub
import Tellus.Actor.Simulation
import Tellus.Actor.Following
import Tellus.Actor.Quota
import Tellus.Actor.Accounting
import Tellus.Actor.Ask
import Tellus.Actor.ReplyTo
import Tellus.Actor.Replies
import Tellus.Persistence.PersistenceId
import Tellus.Persistence.Store
import Tellus.Persistence.EventSourced
import Tellus.Persistence.Spawn
import Tellus.Persistence.Calls
import Tellus.Persistence.Settlement
import Tellus.Persistence.Loop
import Tellus.Persistence.Destructors
import Tellus.Persistence.Following
import Tellus.Persistence.Running
import Tellus.Persistence.Log
import Tellus.Persistence.Paging
import Tellus.Persistence.Replay
import Tellus.Persistence.Recovery
import Tellus.Persistence.Writers
import Tellus.Persistence.Fencing
import Tellus.Persistence.Incarnations
import Tellus.Persistence.Polled
import Tellus.Persistence.Durable
import Tellus.Persistence.Evolution
import Tellus.Host.Host
import Tellus.Host.World
import Tellus.Host.Routing
import Tellus.Host.Passivation
import Tellus.Host.Fencing
import Tellus.Host.Entries
import Tellus.Host.Ledger
import Tellus.Postgres.Append
import Tellus.Postgres.Fencing
import Tellus.Postgres.Store
import Tellus.Postgres.Agreement
import Tellus.Postgres.Concurrent
import Tellus.Postgres.Linearizable
import Tellus.Postgres.Actors
import Tellus.Postgres.Refinement
