import AudioBook.Ingestion.Conservation
import AudioBook.Ingestion.Reingestion
import AudioBook.Ingestion.SpineRanges
import AudioBook.Ingestion.Structure
import AudioBook.Jobs.Listing
import AudioBook.Director.Validation
import AudioBook.Director.QuotedSegments
import AudioBook.Director.SentenceCuts
import AudioBook.Director.SpeakerOrder
import AudioBook.Director.SpeakerEvidence
import AudioBook.Director.SceneVoices
import AudioBook.Director.PronunciationHints
import AudioBook.Director.DeterministicProvider
import AudioBook.Workers.Health
import AudioBook.Workers.Runtime
import AudioBook.Workers.Shutdown
import AudioBook.Relational.OpenTransactions
import AudioBook.Events.Inbox
import AudioBook.Concurrent.Lasting
import AudioBook.Concurrent.Alongside
import AudioBook.Auth.TrackedFamilies
import AudioBook.Auth.TokenReuse
import AudioBook.Semantic.Scenes
import AudioBook.Assembly.LeadTrailTrim
import AudioBook.StoryBible.Relationships
import AudioBook.Tts.Capability
import AudioBook.Assembly.Pauses
import AudioBook.Assembly.ChapterTimes
import AudioBook.Tts.WaveAudio
import AudioBook.Assembly.AccessUrls
import AudioBook.Director.RevisionRequests
import AudioBook.Ingestion.NormalForm
import AudioBook.Ingestion.EpubArchive
import AudioBook.Ingestion.EpubBlocks
import AudioBook.Ingestion.LineBreaks
import AudioBook.Ingestion.PageBreaks
import AudioBook.Ingestion.PdfLines
import AudioBook.Ingestion.NoiseLines
import AudioBook.Supersede.CurrentRows
import AudioBook.Supersede.ForeignKeys
import AudioBook.Jobs.Replay
import AudioBook.Jobs.TerminalStates
import AudioBook.Assembly.Publication
import AudioBook.Assembly.PublishedVersion
import AudioBook.Assembly.FollowUp
import AudioBook.Director.Plan
import AudioBook.Director.Finalize
import AudioBook.Director.Service
import AudioBook.Director.Runs
import AudioBook.Director.ScriptPlans
import AudioBook.Director.CompleteScripts
import AudioBook.Analysis.Reanalysis
import AudioBook.Workers.Chain
import AudioBook.Workers.TerminalRows
import AudioBook.Tts.Keys
import AudioBook.Books.RestoredBooks
import AudioBook.Books.AvailableObjects
import AudioBook.Semantic.ShortForms
import AudioBook.Jobs.CancellationGates
import AudioBook.Idempotency.AtMostOnce
import AudioBook.Auth.Service
import AudioBook.Auth.Families
import AudioBook.Auth.PasswordReset
import AudioBook.Auth.Lockout
import AudioBook.Tts.Service
import AudioBook.Analysis.AliasConflicts
import AudioBook.Analysis.Merges
import AudioBook.Pagination.Listings
import AudioBook.Editing.IfMatch
import AudioBook.Outbox.Order
import AudioBook.Events.Delivery
import AudioBook.Pipeline.Chains
import AudioBook.Pipeline.DeletedBooks
import AudioBook.Quotas.Exactness
import AudioBook.Artifacts.StoredBytes
import AudioBook.StoryBible.Coverage
import AudioBook.Assembly.VoiceConsistency
import AudioBook.Assembly.Manifests
import AudioBook.Assembly.EncodeFailure
import AudioBook.Assembly.PackagingRetry
import AudioBook.Voice.Resolution
import AudioBook.Voice.Lifecycle
import AudioBook.Books.Uploads
import AudioBook.Books.Quota
import AudioBook.Director.RevisionInputs
import AudioBook.Director.SceneContext
import AudioBook.Progress.Stages
import AudioBook.Progress.Writers
import AudioBook.Progress.Runs
import AudioBook.Editing.FrozenChunks
import AudioBook.Editing.DirectorOriginal
import AudioBook.Editing.EditReferences
import AudioBook.Assembly.StripPng
import AudioBook.Assembly.ImageDimensions
import AudioBook.Books.RouteBuckets
import AudioBook.Logging.Redaction
import AudioBook.Storage.StorageKeys
import AudioBook.Tts.SilenceSpans
import AudioBook.Quotas.GpuMinutes
import AudioBook.Web.Proxy
import AudioBook.Tts.VoiceCache
import AudioBook.Auth.Cookies
import AudioBook.Idempotency.StableStringify
import AudioBook.Quotas.RateLimiter
import AudioBook.Web.Cast
