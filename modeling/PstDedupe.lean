import PstDedupe.DedupEngine.IndexRefinement
import PstDedupe.DedupEngine.IdentityLevels
import PstDedupe.DedupEngine.DecidedBy
import PstDedupe.DedupEngine.HashIdentity
import PstDedupe.RoundTrip.NodeData
import PstDedupe.MatterCore.AuditChain
import PstDedupe.PstWriter.IdentifierRuns
import PstDedupe.PstDedupCli.PostProbe
import PstDedupe.PstReader.TableContext
import PstDedupe.PstWriter.BccOmission
import PstDedupe.PstWriter.FolderRouting
import PstDedupe.DedupEngine.EmlWritten
import PstDedupe.MatterCore.RedactedArtifactRuns
import PstDedupe.MatterCore.SealedBlobs
import PstDedupe.MatterCore.CasRuns
import PstDedupe.MatterCore.SessionRuns
import PstDedupe.MatterCore.SessionProcesses
import PstDedupe.MatterCore.FamilyGraph
import PstDedupe.MatterCore.CodingRuns
import PstDedupe.MatterCore.GuardCoverage
import PstDedupe.MatterCore.VersionRuns
import PstDedupe.MatterCore.LockRuns
import PstDedupe.MatterCore.ConversationPaging
import PstDedupe.MatterCore.FilterShape
import PstDedupe.MatterGap.DatParse
import PstDedupe.MatterCull.ResumeRuns
import PstDedupe.MatterThread.Partition
import PstDedupe.DedupEngine.FinalizeWinner
import PstDedupe.MatterCore.WithholdRuns
import PstDedupe.MatterDedupe.Canonical
import PstDedupe.MatterNeardup.EqualTexts
import PstDedupe.PstReader.BlockFraming
import PstDedupe.MatterPromote.ReviewOrder
import PstDedupe.PstReader.BthVisits
import PstDedupe.PstReader.AttachStream
import PstDedupe.PstReader.BodyBudget
import PstDedupe.PstDedupCli.AttachProbeFull
import PstDedupe.DedupEngine.EmlAccounting
import PstDedupe.PstWriter.SourcePrefixes
import PstDedupe.PstDedupCli.MimeIdentity
import PstDedupe.MatterCore.AeadChunkLoops
import PstDedupe.MatterCull.FamilyRounds
import PstDedupe.MatterCore.FamilyOrder
import PstDedupe.MatterCore.ContainsFilter
import PstDedupe.PstWriter.StreamedChain
import PstDedupe.PstWriter.SizeProbe
import PstDedupe.IngestPurview.PathSafety
import PstDedupe.PstReader.TreeWalks
import PstDedupe.MatterCore.Workflow
import PstDedupe.RoundTrip.OpenedFile
