import HerdrBoard.Lib.Admission
import HerdrBoard.Lib.Arrangement
import HerdrBoard.Lib.Dialog
import HerdrBoard.Lib.Fairness
import HerdrBoard.Lib.Ledger
import HerdrBoard.Lib.OrderedMap
import HerdrBoard.Lib.Outcome
import HerdrBoard.Lib.Paired
import HerdrBoard.Lib.Partition
import HerdrBoard.Lib.Reference
import HerdrBoard.Lib.Retention
import HerdrBoard.Lib.Runs
import HerdrBoard.Lib.Slots
import HerdrBoard.Lib.Sorting
import HerdrBoard.Lib.Table
import HerdrBoard.Lib.Timer
import HerdrBoard.Lib.Transition
import HerdrBoard.Lib.Utf8
import HerdrBoard.Core.AgyCatalog
import HerdrBoard.Core.Capability
import HerdrBoard.Core.Harness
import HerdrBoard.Core.Json
import HerdrBoard.Core.Model
import HerdrBoard.Core.Operations
import HerdrBoard.Core.Prompt
import HerdrBoard.Core.Protocol
import HerdrBoard.Core.Schema
import HerdrBoard.Core.Store
import HerdrBoard.Core.Text
import HerdrBoard.Core.Db.BoardsColumns
import HerdrBoard.Core.Db.CardsComments
import HerdrBoard.Core.Db.Projects
import HerdrBoard.Core.Db.Runs
import HerdrBoard.Core.Engine.Archive
import HerdrBoard.Core.Engine.Lifecycle
import HerdrBoard.Core.Engine.Signals
import HerdrBoard.Core.Engine.Transitions
import HerdrBoard.Core.Engine.Validation
import HerdrBoard.Core.Lemmas.Bystanders
import HerdrBoard.Core.Lemmas.Frames
import HerdrBoard.Core.Lemmas.Reads
import HerdrBoard.Core.Lemmas.Sites
import HerdrBoard.Core.Lemmas.Standing
import HerdrBoard.Core.Lemmas.Success
import HerdrBoard.Daemon.Creations
import HerdrBoard.Daemon.Dispatch
import HerdrBoard.Daemon.Emissions
import HerdrBoard.Daemon.Launch
import HerdrBoard.Daemon.Ops
import HerdrBoard.Daemon.Projects
import HerdrBoard.Daemon.Reconcile
import HerdrBoard.Daemon.State
import HerdrBoard.Daemon.System
import HerdrBoard.Daemon.Watchers
import HerdrBoard.Lifecycle.Accepting
import HerdrBoard.Lifecycle.Basic
import HerdrBoard.Lifecycle.Conversations
import HerdrBoard.Lifecycle.Creating
import HerdrBoard.Lifecycle.Evolution
import HerdrBoard.Lifecycle.Finalization
import HerdrBoard.Lifecycle.Hopping
import HerdrBoard.Lifecycle.Invariant
import HerdrBoard.Lifecycle.Launches
import HerdrBoard.Lifecycle.Requests
import HerdrBoard.Lifecycle.Runs
import HerdrBoard.Lifecycle.Shelter
import HerdrBoard.Lifecycle.Sheltered
import HerdrBoard.Lifecycle.Sheltering
import HerdrBoard.Lifecycle.Store
import HerdrBoard.Lifecycle.Theorems
import HerdrBoard.Lifecycle.Threads
import HerdrBoard.Lifecycle.Timeouts
import HerdrBoard.Lifecycle.Units
import HerdrBoard.Lifecycle.Watches
import HerdrBoard.Comments.History
import HerdrBoard.Comments.Quiet
import HerdrBoard.Comments.Timeline
import HerdrBoard.Projects.Archiving
import HerdrBoard.Projects.Context
import HerdrBoard.Projects.Hidden
import HerdrBoard.Projects.Naming
import HerdrBoard.Projects.Picker
import HerdrBoard.Projects.Requests
import HerdrBoard.Projects.Selecting
import HerdrBoard.Projects.Selection
import HerdrBoard.Scheduling.Claims
import HerdrBoard.Scheduling.Entering
import HerdrBoard.Scheduling.HopLimit
import HerdrBoard.Scheduling.Hops
import HerdrBoard.Scheduling.Launching
import HerdrBoard.Scheduling.Slots
import HerdrBoard.Reconcile.Gone
import HerdrBoard.Reconcile.Sightings
import HerdrBoard.Reconcile.Stale
import HerdrBoard.Reconcile.Watched
import HerdrBoard.Timeouts.Agreeing
import HerdrBoard.Timeouts.Budget
import HerdrBoard.Timeouts.Clocks
import HerdrBoard.Timeouts.Steps
import HerdrBoard.Editing.Arranging
import HerdrBoard.Editing.Boundaries
import HerdrBoard.Editing.Deleting
import HerdrBoard.Editing.Dense
import HerdrBoard.Editing.Integrity
import HerdrBoard.Editing.Merging
import HerdrBoard.Editing.Ordering
import HerdrBoard.Editing.Seated
import HerdrBoard.Editing.Territory
import HerdrBoard.Harness.Accepted
import HerdrBoard.Harness.Carried
import HerdrBoard.Harness.Forking
import HerdrBoard.Harness.Resuming
import HerdrBoard.Harness.Sessions
import HerdrBoard.Spawner.Evidence
import HerdrBoard.Spawner.Geometry
import HerdrBoard.Spawner.Herdr
import HerdrBoard.Spawner.Leftovers
import HerdrBoard.Spawner.Managed
import HerdrBoard.Spawner.MintPrompt
import HerdrBoard.Spawner.Ownership
import HerdrBoard.Spawner.PaneNames
import HerdrBoard.Spawner.Placement
import HerdrBoard.Spawner.Prompting
import HerdrBoard.Spawner.Spawn
import HerdrBoard.Spawner.Splitting
import HerdrBoard.Spawner.Touching
import HerdrBoard.Server.Buffer
import HerdrBoard.Server.Deadlock
import HerdrBoard.Server.Delivery
import HerdrBoard.Server.Outbox
import HerdrBoard.Server.Refresh
import HerdrBoard.Linear.Cache
import HerdrBoard.Linear.Debouncer
import HerdrBoard.Linear.Debouncing
import HerdrBoard.Linear.Native
import HerdrBoard.Linear.Serving
import HerdrBoard.Events.Lossless
import HerdrBoard.Events.Stream
import HerdrBoard.Grouping.Configured
import HerdrBoard.Grouping.Engine
import HerdrBoard.Grouping.Fallback
import HerdrBoard.LocalState.Activity
import HerdrBoard.LocalState.Grouping
import HerdrBoard.LocalState.GroupingText
import HerdrBoard.LocalState.Import
import HerdrBoard.LocalState.ImportPreview
import HerdrBoard.LocalState.ImportRows
import HerdrBoard.LocalState.ImportRuns
import HerdrBoard.LocalState.ImportTwice
import HerdrBoard.LocalState.Importing
import HerdrBoard.LocalState.Linking
import HerdrBoard.LocalState.Marks
import HerdrBoard.LocalState.Ordered
import HerdrBoard.LocalState.Overrides
import HerdrBoard.LocalState.Owning
import HerdrBoard.LocalState.Regrouping
import HerdrBoard.LocalState.ShowSteps
import HerdrBoard.LocalState.Showing
import HerdrBoard.LocalState.Store
import HerdrBoard.LocalState.TextKept
import HerdrBoard.LocalState.Validation
import HerdrBoard.LocalState.Writes
