import Notebortt.Lib.Transition
import Notebortt.Lib.Table
import Notebortt.Lib.Call
import Notebortt.Lib.InsertionMap
import Notebortt.Lib.Worklist
import Notebortt.BoardState.RowIsolation
import Notebortt.BoardState.Eviction
import Notebortt.Mutations.BatchEquivalence
import Notebortt.Mutations.BulkUpdates
import Notebortt.Routes.MutationRoutes
import Notebortt.Routes.ElementPatches
import Notebortt.Routes.CascadeDeletes
import Notebortt.Concurrency.LocalQueue
import Notebortt.Concurrency.MutationLock
import Notebortt.BoardState.RowsMatch
import Notebortt.Concurrency.PersistRace
import Notebortt.Concurrency.FlushCrashes
import Notebortt.Concurrency.Cleanup
import Notebortt.BoardState.CompleteBoard
import Notebortt.Realtime.SocketBatches
import Notebortt.Realtime.LoneBatches
import Notebortt.Concurrency.BoardCommands
import Notebortt.BoardState.ChangeLog
import Notebortt.Concurrency.SnapshotReads
import Notebortt.Concurrency.SequenceNumbers
import Notebortt.Concurrency.DirtyIndex
import Notebortt.Concurrency.LoadedBoardSteps
import Notebortt.Concurrency.SeenMarkers
import Notebortt.Mutations.Retry
import Notebortt.Realtime.MutationBatchHandler
import Notebortt.Realtime.BatchHandlers
import Notebortt.Realtime.BroadcastOrder
import Notebortt.Realtime.ArrivalOrder
import Notebortt.Realtime.PresenceCleanup
import Notebortt.Realtime.ParticipantsStore
import Notebortt.Realtime.QueuedMoves
import Notebortt.Realtime.RosterEviction
import Notebortt.Mutations.LockedPositions
import Notebortt.Auth.RefreshTokens
import Notebortt.Invitations.PendingInvitations
import Notebortt.Invitations.CreatedInvitations
import Notebortt.Invitations.AcceptRaces
import Notebortt.Billing.Stripe
import Notebortt.Billing.SubscriptionOrder
import Notebortt.Billing.CustomerLinks
import Notebortt.Billing.MirroredPlans
import Notebortt.Mutations.PersistableElements
import Notebortt.Mutations.NamedElements
import Notebortt.Mutations.ReconciledMetas
import Notebortt.BoardState.TrackedRows
import Notebortt.BoardState.PersistModes
import Notebortt.Mutations.ReloadedBoards
import Notebortt.Boards.DuplicatedElements
import Notebortt.Boards.DuplicateBoard
import Notebortt.BoardState.RedisCleanup
import Notebortt.BoardState.DirtyBoards
import Notebortt.Realtime.FlushedMoves
import Notebortt.Realtime.RealtimeTicks
import Notebortt.Access.AccessMonotone
import Notebortt.Auth.SocketIdentity
import Notebortt.BoardState.RefusedWrites
import Notebortt.Lib.Js
import Notebortt.Lib.ExactNumber
import Notebortt.Previews.BoardPreview
import Notebortt.Previews.MarkupSafety
import Notebortt.Lib.FitToPage
import Notebortt.Previews.PreviewPage
import Notebortt.BoardState.PresenceDomain
import Notebortt.Realtime.Admissions
import Notebortt.Realtime.PayloadBytes
import Notebortt.Realtime.FlushTimers
import Notebortt.Events.DomainEvents
import Notebortt.Lib.TokenBucket
import Notebortt.Realtime.EventTokens
import Notebortt.Concurrency.PromiseLocks
import Notebortt.Lib.Fairness
import Notebortt.Concurrency.PromiseLockSteps
import Notebortt.Concurrency.PromiseQueues
import Notebortt.Concurrency.PromiseLockRuns
import Notebortt.Concurrency.LockMapEntries
import Notebortt.Lib.Interleaving
import Notebortt.Requests.Tables
import Notebortt.Requests.Handlers
import Notebortt.Requests.Writes
import Notebortt.Requests.ValidTables
import Notebortt.Requests.Stability
import Notebortt.Requests.Guards
import Notebortt.Requests.Owners
import Notebortt.Requests.Confinement
import Notebortt.Requests.LinkTokens
import Notebortt.Requests.Logins
import Notebortt.Requests.ErrorAnswers
import Notebortt.Lib.RandomSource
import Notebortt.Auth.GoogleLogin
import Notebortt.Realtime.WirePayloads
import Notebortt.Realtime.SocketServer
import Notebortt.Realtime.SocketGrants
import Notebortt.Realtime.SocketRuns
import Notebortt.Realtime.SocketConfinement
