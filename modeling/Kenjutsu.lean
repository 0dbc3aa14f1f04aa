import Kenjutsu.Server.Debounce
import Kenjutsu.Pipeline.Queue
import Kenjutsu.Pipeline.Supersession
import Kenjutsu.Foundations.Coroutines
import Kenjutsu.Foundations.Pools
import Kenjutsu.Http
import Kenjutsu.Pipeline.ShaGuard
import Kenjutsu.Foundations.Replay
import Kenjutsu.Models.Findings
import Kenjutsu.Pipeline.Types
import Kenjutsu.Pipeline.Steps
import Kenjutsu.Db.Models
import Kenjutsu.Foundations.Postings
import Kenjutsu.Foundations.Serving
import Kenjutsu.Pipeline.Publisher
import Kenjutsu.Foundations.Judgements
import Kenjutsu.Pipeline.PublisherStages
import Kenjutsu.Pipeline.PublisherGitHub
import Kenjutsu.Pipeline.PublisherRuns
import Kenjutsu.Diff.Models
import Kenjutsu.Diff.Parser
import Kenjutsu.Diff.Rendering
import Kenjutsu.Diff.Lines
import Kenjutsu.Foundations.Projections
import Kenjutsu.Server.DebounceRuns
import Kenjutsu.Pipeline.ShaCache
import Kenjutsu.Pipeline.ShaRace
import Kenjutsu.Foundations.Transcripts
import Kenjutsu.Pipeline.StatusPaths
import Kenjutsu.Foundations.Durability
import Kenjutsu.Pipeline.Resumption
import Kenjutsu.Pipeline.PublisherHead
import Kenjutsu.Foundations.TwoRuns
import Kenjutsu.Pipeline.PublisherWire
import Kenjutsu.Pipeline.PublisherSecrecy
import Kenjutsu.Pipeline.PublisherTenants
import Kenjutsu.Pipeline.PublisherRetry
import Kenjutsu.Db.Deliveries
import Kenjutsu.Foundations.Services
import Kenjutsu.Server.Webhook
import Kenjutsu.Server.WebhookDeliveries
import Kenjutsu.Server.WebhookDuplicates
import Kenjutsu.Foundations.Windows
import Kenjutsu.Pipeline.RateLimiter
import Kenjutsu.Foundations.Sorting
import Kenjutsu.Publisher.PendingReview
import Kenjutsu.Publisher.PendingReviewSecrecy
import Kenjutsu.Foundations.Statistics
import Kenjutsu.Evaluation.Runner
import Kenjutsu.Evaluation.Metrics
import Kenjutsu.Diff.Sections
import Kenjutsu.Diff.Numbering
import Kenjutsu.Diff.Reparsing
import Kenjutsu.Diff.GitEntries
import Kenjutsu.Diff.GitPaths
import Kenjutsu.Diff.GitKinds
import Kenjutsu.Foundations.FileSystems
import Kenjutsu.Mirror.Lifecycle
import Kenjutsu.Mirror.Completeness
import Kenjutsu.Mirror.Independence
import Kenjutsu.Foundations.Matchings
import Kenjutsu.Evaluation.Matching
import Kenjutsu.Foundations.Trees
import Kenjutsu.Foundations.Bytes
import Kenjutsu.Diff.AstContext
import Kenjutsu.Diff.Scopes
import Kenjutsu.Diff.ScopeNames
import Kenjutsu.Diff.Signatures
import Kenjutsu.Diff.ScopedDiffs
import Kenjutsu.Pipeline.ShaFailures
import Kenjutsu.Pipeline.ShaRequests
import Kenjutsu.Foundations.Reliance
import Kenjutsu.Pipeline.ShaStaleness
import Kenjutsu.Foundations.Backtracking
import Kenjutsu.Server.Commands
import Kenjutsu.Server.CommandLineEnds
import Kenjutsu.Pipeline.CostTracker
import Kenjutsu.Pipeline.SupersessionHistory
import Kenjutsu.Server.WebhookSignature
import Kenjutsu.Server.WebhookAnswers
import Kenjutsu.Foundations.Fields
import Kenjutsu.Models.Fingerprints
import Kenjutsu.Foundations.Records
import Kenjutsu.Mirror.Log
import Kenjutsu.Foundations.Fences
import Kenjutsu.Publisher.PendingReviewSuggestions
import Kenjutsu.Mirror.Fetching
import Kenjutsu.Pipeline.PublisherRecovery
import Kenjutsu.Pipeline.PublisherContents
import Kenjutsu.Foundations.Semaphores
import Kenjutsu.Pipeline.ConcurrencyQueues
import Kenjutsu.Server.DebounceProgress
import Kenjutsu.Server.Routing
import Kenjutsu.Server.Application
import Kenjutsu.Mirror.FetchProgress
import Kenjutsu.Mirror.GitFetch
import Kenjutsu.Mirror.MirrorRuns
import Kenjutsu.Mirror.Freshness
