import SkillLayer.Admin.RebuildProgress
import SkillLayer.GraphBuilder.Announcements
import SkillLayer.GraphBuilder.CommunityOrder
import SkillLayer.GraphBuilder.Freshness
import SkillLayer.GraphBuilder.LostChanges
import SkillLayer.GraphBuilder.RebuildScope
import SkillLayer.Infrastructure.ClaudeCode
import SkillLayer.Infrastructure.GlobalScope
import SkillLayer.Infrastructure.MigrationOrder
import SkillLayer.Infrastructure.OutboxRecovery
import SkillLayer.Infrastructure.PromptContract
import SkillLayer.Infrastructure.QdrantScroll
import SkillLayer.Infrastructure.RebuildLock
import SkillLayer.Maintenance.LifecycleAudit
import SkillLayer.Maintenance.MergeCandidates
import SkillLayer.Maintenance.MergeContent
import SkillLayer.Maintenance.MoreUse
import SkillLayer.Maintenance.PersistedSkills
import SkillLayer.Maintenance.ProjectLocal
import SkillLayer.Maintenance.PromotionFreshness
import SkillLayer.Maintenance.RejectionPeriod
import SkillLayer.Maintenance.Tombstones
import SkillLayer.Maintenance.TranscriptRecovery
import SkillLayer.Maintenance.UsageAggregation
import SkillLayer.McpServer.BucketLabels
import SkillLayer.McpServer.CacheTransparency
import SkillLayer.McpServer.ClearFinality
import SkillLayer.McpServer.GraphLoad
import SkillLayer.McpServer.IngestReplies
import SkillLayer.McpServer.MapMirror
import SkillLayer.McpServer.RefreshReplay
import SkillLayer.McpServer.Reload
import SkillLayer.McpServer.SessionIndependence
import SkillLayer.McpServer.SuppressionSoundness
import SkillLayer.McpServer.ToolContracts
import SkillLayer.McpServer.UsageWriter
import SkillLayer.Retrieval.CircuitBreaker
import SkillLayer.Retrieval.FusionOrder
import SkillLayer.Retrieval.RetrievalContract
import SkillLayer.SessionExtractor.FailureText
import SkillLayer.SessionExtractor.FlatView
import SkillLayer.SessionExtractor.Normalization
import SkillLayer.SessionExtractor.ParserAccount
import SkillLayer.SessionExtractor.PreferenceNames
import SkillLayer.SessionExtractor.PreferenceSignals
import SkillLayer.SessionExtractor.ReduceOrder
import SkillLayer.SessionExtractor.SalienceLaw
import SkillLayer.SessionExtractor.SkeletonLaw
import SkillLayer.SessionExtractor.WindowLaw
import SkillLayer.SessionExtractor.WindowMap
import SkillLayer.SessionExtractor.WorkerPoolLaw
import SkillLayer.SessionExtractor.WriteBoundary
import SkillLayer.SessionExtractor.WriterAtomicity
