import CodexRemote.Library.Runs
import CodexRemote.Library.Numbering
import CodexRemote.Protocol
import CodexRemote.Persistence
import CodexRemote.Activity
import CodexRemote.History
import CodexRemote.Registry
import CodexRemote.Replay
import CodexRemote.LiveDelivery
import CodexRemote.EventNumbers
import CodexRemote.Dispatcher
import CodexRemote.Deduplication
import CodexRemote.Completion
import CodexRemote.Library.Utf8
import CodexRemote.Budget
import CodexRemote.Workspace
import CodexRemote.Views
import CodexRemote.Manager
import CodexRemote.Turns
import CodexRemote.Library.FileTree
import CodexRemote.Mutations
import CodexRemote.Quiescence
import CodexRemote.Installs
import CodexRemote.AppServer
import CodexRemote.Deadlock
import CodexRemote.Lifecycle
import CodexRemote.Leases
import CodexRemote.Operations
import CodexRemote.Announcements
import CodexRemote.LeaseRules
import CodexRemote.Warnings
import CodexRemote.Mirrors
import CodexRemote.TurnStarts
import CodexRemote.Encoding
import CodexRemote.Translation
import CodexRemote.AccessStates
import CodexRemote.Effects
import CodexRemote.Generations
import CodexRemote.Forwarding
import CodexRemote.Collab
import CodexRemote.HistoryPages
import CodexRemote.Calls
import CodexRemote.Answers
import CodexRemote.Closing
import CodexRemote.Cancellation
import CodexRemote.Rollback
import CodexRemote.Identities
import CodexRemote.Seats
import CodexRemote.Lineage
import CodexRemote.Lookup
import CodexRemote.Clipping
import CodexRemote.Truncation
import CodexRemote.Renames
import CodexRemote.Statuses
import CodexRemote.Deltas
import CodexRemote.ActiveTurns
import CodexRemote.Labels
import CodexRemote.Capability
import CodexRemote.PrivatePaths
import CodexRemote.Paths
import CodexRemote.UserInput
import CodexRemote.Audit
import CodexRemote.StoredViews
