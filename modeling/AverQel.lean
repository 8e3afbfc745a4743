import AverQel.Auth.BackupCodes
import AverQel.Auth.Lockouts
import AverQel.Auth.RoleRevocation
import AverQel.Auth.TokenFamilies
import AverQel.DeepSpace.AnsweredCalls
import AverQel.DeepSpace.Cancellation
import AverQel.DeepSpace.ClosedStreams
import AverQel.DeepSpace.CurrentFacts
import AverQel.DeepSpace.DispatchOrder
import AverQel.DeepSpace.FanoutFailure
import AverQel.DeepSpace.FrameSequences
import AverQel.DeepSpace.Grace
import AverQel.DeepSpace.HistoryCache
import AverQel.DeepSpace.Leases
import AverQel.DeepSpace.OneContinuation
import AverQel.DeepSpace.OneTurn
import AverQel.DeepSpace.PromptRuns
import AverQel.DeepSpace.ReplayStream
import AverQel.DeepSpace.Retries
import AverQel.DeepSpace.ScheduleFirings
import AverQel.DeepSpace.StickyCancellation
import AverQel.DeepSpace.StreamReports
import AverQel.DeepSpace.TaskGraph
import AverQel.DeepSpace.TaskProgress
import AverQel.DeepSpace.TimelineRedaction
import AverQel.DeepSpace.UserPause
import AverQel.DeepSpace.VersionRuns
import AverQel.DeepSpace.Workers
import AverQel.Documents.ConnectedMembers
import AverQel.Documents.ConnectionRuns
import AverQel.Documents.EventReplay
import AverQel.Documents.MembershipLimits
import AverQel.Documents.PurgeRuns
import AverQel.Documents.SharedMedia
import AverQel.Documents.SpacePaging
import AverQel.Frontend.FinishedVersions
import AverQel.Frontend.RefreshInvariant
import AverQel.Frontend.SettledStreams
import AverQel.Ingestion.ChunkOffsets
import AverQel.Ingestion.CrashRecovery
import AverQel.Ingestion.IndexedDocuments
import AverQel.Ingestion.UploadRuns
import AverQel.Library.ChunkedUploads
import AverQel.Library.FolderDeletion
import AverQel.Library.LostUpdates
import AverQel.Library.OrphanedObjects
import AverQel.Library.UploadEnds
import AverQel.Providers.ResponsesAgreement
import AverQel.Query.IndexFreshness
import AverQel.SealedChat.OneEffect
import AverQel.SealedChat.Receipts
import AverQel.SealedChat.SealedEvents
import AverQel.System.OpenWork
import AverQel.System.ReservedCapacity
import AverQel.System.RetentionMarks
import AverQel.System.ScanLeases
import AverQel.DeepSpace.NoteInjection
import AverQel.DeepSpace.NoteWrites
import AverQel.DeepSpace.AtomicConsolidation
import AverQel.DeepSpace.DuplicateMemories
import AverQel.DeepSpace.CandidatePatterns
import AverQel.Query.HitClusters
import AverQel.Query.FusedRankings
import AverQel.Library.FolderExport
import AverQel.Library.CsvPages
import AverQel.Providers.ReasoningChunks
import AverQel.DeepSpace.ToolSearch
import AverQel.DeepSpace.ConversationRows
import AverQel.DeepSpace.ToolCallFragments
import AverQel.Library.FailedUpdates
