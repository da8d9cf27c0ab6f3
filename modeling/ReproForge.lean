import ReproForge.ActiveJobs
import ReproForge.Convergence
import ReproForge.IdempotentStart
import ReproForge.StartOutcomes
import ReproForge.Suspension
import ReproForge.RecordRoundTrip
import ReproForge.TenantErasure
import ReproForge.WakeUp
import ReproForge.Noninterference
import ReproForge.OutboxSafety
import ReproForge.QuotaRelease
import ReproForge.TenantBackup
import ReproForge.RepositoryEvents
import ReproForge.AuthorizationFold
import ReproForge.BundleValidation
import ReproForge.SourceProvenances
import ReproForge.Investigator
import ReproForge.ExportQuota
import ReproForge.OpenQuarantines
import ReproForge.OracleVerdict
import ReproForge.Redaction
import ReproForge.RepositoryProofs
import ReproForge.BundleRoundTrip
import ReproForge.Minimization
import ReproForge.Migrations
import ReproForge.ArtifactMap
import ReproForge.DependencyPolicy
import ReproForge.DependencyPreparation
import ReproForge.RecoveryIsolation
import ReproForge.RetryBudgets
import ReproForge.BoundedReaders
import ReproForge.ExperimentWorkspaces
import ReproForge.RepositoryPages
import ReproForge.TrustedStarts
import ReproForge.InstallationCallbacks
import ReproForge.RunnerSandboxes
import ReproForge.SupervisorTexts
import ReproForge.ExecutedPlans
import ReproForge.RestoreGuarantees
