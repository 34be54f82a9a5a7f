import HarborBeacon.AnswerCitations
import HarborBeacon.ApprovalDecision
import HarborBeacon.AuditRedaction
import HarborBeacon.CameraReplacement
import HarborBeacon.CatActivity
import HarborBeacon.ChunkCoverage
import HarborBeacon.CollapsedHits
import HarborBeacon.ConversationHandles
import HarborBeacon.DetectionEvidence
import HarborBeacon.EmbeddedJson
import HarborBeacon.EmbeddingRecovery
import HarborBeacon.EndpointEdits
import HarborBeacon.EntitySync
import HarborBeacon.EvidenceLeaks
import HarborBeacon.FamilyMemoryViews
import HarborBeacon.FeedbackWindow
import HarborBeacon.FolderRefresh
import HarborBeacon.GuardianKeys
import HarborBeacon.GuardianTexts
import HarborBeacon.HarborPreview
import HarborBeacon.Idempotency
import HarborBeacon.IndexPlacement
import HarborBeacon.LocalPaths
import HarborBeacon.LostUpdate
import HarborBeacon.ModalityQuotas
import HarborBeacon.NetworkScans
import HarborBeacon.PendingFlows
import HarborBeacon.PlanRuntime
import HarborBeacon.RagPromptBudget
import HarborBeacon.RepeatedBinding
import HarborBeacon.RerankScores
import HarborBeacon.ReviewRetention
import HarborBeacon.SchedulerFairness
import HarborBeacon.SearchSnippets
import HarborBeacon.SectionPaths
import HarborBeacon.SensitiveTexts
import HarborBeacon.SessionDeletion
import HarborBeacon.SessionState
import HarborBeacon.ShareLinks
import HarborBeacon.StoreRotation
import HarborBeacon.TaskIsolation
import HarborBeacon.VectorSearchAgreement
import HarborBeacon.VisionStoreStats
import HarborBeacon.VlmLocality
import HarborBeacon.WorkflowReports
