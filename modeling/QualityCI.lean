import QualityCI.Loader.OrderFree
import QualityCI.Engine.RunIdentity
import QualityCI.Authorization.Soundness
import QualityCI.Rules.Legacy
import QualityCI.Engine.Returns
import QualityCI.Rules.Verdict
import QualityCI.Engine.Drafts
import QualityCI.Rules.Respelling
import QualityCI.Loader.Composition
import QualityCI.Loader.ErrorContract
import QualityCI.Store.Cases
import QualityCI.Store.AuditChain
import QualityCI.Replay.Sharing
import QualityCI.Orchestration.Total
import QualityCI.Ingestion.MemberName
import QualityCI.Ingestion.PdfNames
import QualityCI.Ingestion.ZipDirectory
import QualityCI.Authorization.TimeWindows
import QualityCI.CaseBuilder.References
import QualityCI.Replay.Application
import QualityCI.Replay.Frame
import QualityCI.Validation.Identity
import QualityCI.Artifacts.SourceKeys
import QualityCI.Artifacts.LeafPaths
import QualityCI.Validation.Digests
import QualityCI.CaseBuilder.Fingerprint
import QualityCI.Ingestion.TablePlaces
import QualityCI.Lineage.Binding
import QualityCI.Lineage.Evaluation
import QualityCI.Lineage.Roots
import QualityCI.Store.AuditBinding
import QualityCI.Store.CaseHistory
