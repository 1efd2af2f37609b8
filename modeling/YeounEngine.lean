import YeounEngine.Lib.Transition
import YeounEngine.Lib.Auxiliary
import YeounEngine.Lib.Unwinding
import YeounEngine.Lib.Relational
import YeounEngine.Lib.Machine
import YeounEngine.Lib.Coop
import YeounEngine.Lib.Sync
import YeounEngine.Lib.Paths
import YeounEngine.Lib.FileTree
import YeounEngine.Lib.CodePoints
import YeounEngine.Text
import YeounEngine.Safety
import YeounEngine.Storage
import YeounEngine.Repository
import YeounEngine.PersonaCreation
import YeounEngine.RunPhases
import YeounEngine.Personas
import YeounEngine.SingleFlight
import YeounEngine.Recovery
import YeounEngine.Deletion
import YeounEngine.Creation
import YeounEngine.VoiceRef
import YeounEngine.NewestUploads
import YeounEngine.ClipTable
import YeounEngine.ReadyUsable
import YeounEngine.UploadsWhileProcessing
import YeounEngine.StatusPolls
import YeounEngine.Conversation
import YeounEngine.OutputGuard
import YeounEngine.Streaming
import YeounEngine.Sessions
import YeounEngine.GpuExclusion
import YeounEngine.RenderExclusion
import YeounEngine.MessageSlots
import YeounEngine.SessionChanges
import YeounEngine.SessionEnd
import YeounEngine.FinishedUploads
import YeounEngine.Expiry
import YeounEngine.ExpiredMedia
import YeounEngine.ConversationDeletion
import YeounEngine.Mounts
import YeounEngine.MessageFailures
import YeounEngine.RunFailures
import YeounEngine.PathLeaks
import YeounEngine.RepositoryBranches
import YeounEngine.WhitespaceVariants
import YeounEngine.Numerals
import YeounEngine.MediaRanges
import YeounEngine.UploadAcceptance
import YeounEngine.RunAgreement
import YeounEngine.VoiceRefCall
import YeounEngine.FinalEvents
import YeounEngine.MessageEffects
import YeounEngine.StrayMedia
import YeounEngine.TrimmedHistory
import YeounEngine.Exchanges
import YeounEngine.RangeGrammar
import YeounEngine.SafePaths
import YeounEngine.UploadPaths
import YeounEngine.IdleListing
import YeounEngine.FailedUploads
import YeounEngine.AssetRows
import YeounEngine.Termination
import YeounEngine.Progress
import YeounEngine.Lifecycle
import YeounEngine.SessionMedia
import YeounEngine.Rendering
import YeounEngine.Isolation
import YeounEngine.SystemPrompt
import YeounEngine.SseData
import YeounEngine.Sweeper
import YeounEngine.Repair
import YeounEngine.Resumption
