import DreamWeaver.Admission.FixedWindows
import DreamWeaver.Admission.RetryAfter
import DreamWeaver.Admission.SharedBucket
import DreamWeaver.Admission.TwoDoors
import DreamWeaver.Admission.WebSocketAdmission
import DreamWeaver.Audit.SupabaseToolAuditLog
import DreamWeaver.Audit.Tracing
import DreamWeaver.Cache.Agreement
import DreamWeaver.Cache.CachePort
import DreamWeaver.Cache.InMemoryCache
import DreamWeaver.Cache.RedisCache
import DreamWeaver.Cache.Register
import DreamWeaver.Client.ApiStoryRepository
import DreamWeaver.Client.GeminiLiveHook
import DreamWeaver.Client.MediaVault
import DreamWeaver.Client.MessageDelivery
import DreamWeaver.Client.MicProcessor
import DreamWeaver.Client.MicUplink
import DreamWeaver.Client.Microphone
import DreamWeaver.Client.PcmProcessor
import DreamWeaver.Client.Speaker
import DreamWeaver.Client.StoryDetail
import DreamWeaver.Client.StoryStream
import DreamWeaver.Client.Wav
import DreamWeaver.Companions.CheckUnlock
import DreamWeaver.Companions.UnlockRuns
import DreamWeaver.Conductor.ActiveGoal
import DreamWeaver.Conductor.AgentOperations
import DreamWeaver.Conductor.AmbientContextService
import DreamWeaver.Conductor.AmbientPlaces
import DreamWeaver.Conductor.ArbitratedSteps
import DreamWeaver.Conductor.AtomOfThoughtEngine
import DreamWeaver.Conductor.BeatDelivery
import DreamWeaver.Conductor.BedtimeConductorAgent
import DreamWeaver.Conductor.Concludes
import DreamWeaver.Conductor.ConductStorySession
import DreamWeaver.Conductor.GoalStack
import DreamWeaver.Conductor.InteractionCounters
import DreamWeaver.Conductor.Isolation
import DreamWeaver.Conductor.LateAdventures
import DreamWeaver.Conductor.LostUpdate
import DreamWeaver.Conductor.NoLostUpdate
import DreamWeaver.Conductor.Operations
import DreamWeaver.Conductor.PreferencePairs
import DreamWeaver.Conductor.Replay
import DreamWeaver.Conductor.SessionRoutes
import DreamWeaver.Conductor.SessionState
import DreamWeaver.Conductor.SharedSessionState
import DreamWeaver.Conductor.SleepPhase
import DreamWeaver.Conductor.StoryBeats
import DreamWeaver.Conductor.SuggestionStages
import DreamWeaver.Conductor.ToolCalls
import DreamWeaver.Conductor.Undo
import DreamWeaver.Digest.Composition
import DreamWeaver.Digest.Coverage
import DreamWeaver.Digest.SendWeeklyDigest
import DreamWeaver.Digest.WeeklyCron
import DreamWeaver.Events.EventSockets
import DreamWeaver.Events.HandledOnce
import DreamWeaver.Events.Persistence
import DreamWeaver.Events.Subscribers
import DreamWeaver.Events.Subscriptions
import DreamWeaver.Events.SupabaseEventBus
import DreamWeaver.Families.FamilyLookup
import DreamWeaver.Foundations.Base64
import DreamWeaver.Foundations.Batches
import DreamWeaver.Foundations.Binary64
import DreamWeaver.Foundations.BitReversal
import DreamWeaver.Foundations.Cjson
import DreamWeaver.Foundations.Decimal
import DreamWeaver.Foundations.Embedding
import DreamWeaver.Foundations.FourierTransform
import DreamWeaver.Foundations.Interleaving
import DreamWeaver.Foundations.IsoDate
import DreamWeaver.Foundations.JsArithmetic
import DreamWeaver.Foundations.JsData
import DreamWeaver.Foundations.JsString
import DreamWeaver.Foundations.JsText
import DreamWeaver.Foundations.JsValue
import DreamWeaver.Foundations.JsonEquality
import DreamWeaver.Foundations.JsonSchema
import DreamWeaver.Foundations.JsonText
import DreamWeaver.Foundations.JsonWriter
import DreamWeaver.Foundations.KeyedTable
import DreamWeaver.Foundations.Loops
import DreamWeaver.Foundations.MarkedLines
import DreamWeaver.Foundations.Marks
import DreamWeaver.Foundations.Process
import DreamWeaver.Foundations.Queues
import DreamWeaver.Foundations.Ranking
import DreamWeaver.Foundations.Regex
import DreamWeaver.Foundations.Sequence
import DreamWeaver.Foundations.ShortDecimal
import DreamWeaver.Foundations.Slots
import DreamWeaver.Foundations.TextStream
import DreamWeaver.Foundations.Traced
import DreamWeaver.Foundations.Transitions
import DreamWeaver.Foundations.TypedArray
import DreamWeaver.Foundations.UndoStack
import DreamWeaver.Foundations.Utf8
import DreamWeaver.Gateway.Account
import DreamWeaver.Gateway.Budget
import DreamWeaver.Gateway.CircuitBreaker
import DreamWeaver.Gateway.GeminiAIGateway
import DreamWeaver.Gateway.Outage
import DreamWeaver.Gateway.Recording
import DreamWeaver.Gateway.ResponseSchemas
import DreamWeaver.Gateway.StoryCache
import DreamWeaver.Gateway.World
import DreamWeaver.Live.AudioDelivery
import DreamWeaver.Live.BreathingCadence
import DreamWeaver.Live.BreathingWindow
import DreamWeaver.Live.BridgeDelivery
import DreamWeaver.Live.FourierMagnitudes
import DreamWeaver.Live.FrameContents
import DreamWeaver.Live.FrameDispatch
import DreamWeaver.Live.LiveSessionFactory
import DreamWeaver.Live.SentinelAudience
import DreamWeaver.Live.SentinelConfidence
import DreamWeaver.Live.SentinelCooldown
import DreamWeaver.Live.SentinelIsolation
import DreamWeaver.Live.SessionOwnership
import DreamWeaver.Live.SleepSentinelAgent
import DreamWeaver.Live.ToolAudit
import DreamWeaver.Live.ToolExecutionRouter
import DreamWeaver.Memory.FileKept
import DreamWeaver.Memory.MemorySummarizationService
import DreamWeaver.Memory.OutcomeScores
import DreamWeaver.Memory.RetrieveContract
import DreamWeaver.Memory.SessionSearch
import DreamWeaver.Memory.Transcripts
import DreamWeaver.Moderation.BlockedContent
import DreamWeaver.Moderation.FeedbackRoutes
import DreamWeaver.Moments.AnalyzeSession
import DreamWeaver.Moments.SessionAnalysis
import DreamWeaver.Prompts.PromptRegistry
import DreamWeaver.Resilience.ResilienceEngine
import DreamWeaver.Resilience.WithRetry
import DreamWeaver.Safety.CheckContent
import DreamWeaver.Safety.SafetyGuardian
import DreamWeaver.Safety.Sanitization
import DreamWeaver.Sessions.Agreement
import DreamWeaver.Sessions.Deletion
import DreamWeaver.Sessions.Expiry
import DreamWeaver.Sessions.RedisSessionState
import DreamWeaver.Sessions.RoundTrip
import DreamWeaver.Sessions.SessionKeys
import DreamWeaver.Sessions.SessionState
import DreamWeaver.Sessions.UndoHistory
import DreamWeaver.Sharing.Quota
import DreamWeaver.Sharing.Secrecy
import DreamWeaver.Stories.GenerateStory
import DreamWeaver.Stories.Paragraphs
import DreamWeaver.Stories.Release
import DreamWeaver.Stories.StoryDetail
import DreamWeaver.Stories.StoryEntity
import DreamWeaver.Stories.StoryHistory
import DreamWeaver.Stories.StoryResolves
import DreamWeaver.Stories.SupabaseStoryRepository
import DreamWeaver.Tickets.SingleUse
import DreamWeaver.Voice.ClonedVoices
import DreamWeaver.Voice.TextToSpeech
import DreamWeaver.Voice.VoiceTable
import DreamWeaver.Worker.Closing
import DreamWeaver.Worker.Envelope
import DreamWeaver.Worker.FrontDoor
import DreamWeaver.Worker.LiveWebSocket
import DreamWeaver.Worker.Messages
import DreamWeaver.Worker.Ordering
import DreamWeaver.Worker.RateLimit
import DreamWeaver.Worker.SizeLimits
import DreamWeaver.Worker.Transparency
