import ReproForge.ExecutionPlans

/-!
# Proofs of repository reproductions

What the lock of an assembled proof says about the execution: which command
reproduces it, on which revision, in which environment.
-/
namespace ReproForge

open JsonValues

variable {ν : Type}

/-! ## Provenance -/

structure DependencyMetadata where
  dependencyCount : Int
  lockfileSha256 : String
  lockfileVersion : Int
  packageJsonSha256 : String
  deriving DecidableEq, Repr

def DependencyMetadata.policyVersion : String := "node-lock-v1"

structure ExecutionEnvironmentProvenance where
  archiveSha256 : String
  environmentHash : String
  lockfileSha256 : String
  manifestSha256 : String
  nodeVersion : String
  npmVersion : String
  packageJsonSha256 : String
  runtime : NodeVersion
  sourceCommitSha : String
  deriving DecidableEq, Repr

def ExecutionEnvironmentProvenance.executionPolicyVersion : String := "node-npm-v1"

structure SourceProvenance where
  acquiredAt : String
  archiveBytes : Int
  archiveSha256 : String
  commitSha : String
  extractedBytes : Int
  fileCount : Int
  manifestSha256 : String
  repositoryId : String
  deriving DecidableEq, Repr

def SourceProvenance.policyVersion : String := "source-archive-v1"

/-- `EXECUTION_LIMITS.policyVersion` -/
def limitsPolicyVersion : String := "sandbox-limits-v1"

structure RepositoryBudget where
  maxToolCalls : Int
  requiredRuns : Int
  deriving DecidableEq, Repr

def RepositoryBudget.valid (b : RepositoryBudget) : Bool :=
  1 ≤ b.maxToolCalls && b.maxToolCalls ≤ 12 && 3 ≤ b.requiredRuns && b.requiredRuns ≤ 5

/-- The parts of a `RepositoryProofInput` that its lock and its plan are made of. -/
structure RepositoryProofInput (ν : Type) where
  budget : RepositoryBudget
  dependency : DependencyMetadata
  environment : ExecutionEnvironmentProvenance
  oracle : FailureOracle ν
  profile : NodeRepositoryProfile
  source : ImmutableRepositorySource
  sourceProvenance : SourceProvenance

/-- What the schema asks of these parts, the digests apart. -/
def RepositoryProofInput.valid (input : RepositoryProofInput ν) : Bool :=
  input.budget.valid && input.profile.valid && input.source.valid

/-! ## The lock -/

theorem lockEnvironmentKeys_inOrder :
    inOrder ["NETWORK", "NODE_VERSION", "NPM_VERSION", "REPROFORGE_EXECUTION_POLICY", "REPROFORGE_LIMITS_POLICY",
      "REPROFORGE_SOURCE_POLICY"] = true := by
  decide +kernel

/-- The environment of a lock, with the keys in the order of the source. -/
def lockEnvironment (environment : ExecutionEnvironmentProvenance) : Dictionary String where
  entries :=
    [("NETWORK", "denied"), ("NODE_VERSION", environment.nodeVersion), ("NPM_VERSION", environment.npmVersion),
      ("REPROFORGE_EXECUTION_POLICY", ExecutionEnvironmentProvenance.executionPolicyVersion),
      ("REPROFORGE_LIMITS_POLICY", limitsPolicyVersion),
      ("REPROFORGE_SOURCE_POLICY", SourceProvenance.policyVersion)]
  ordered := lockEnvironmentKeys_inOrder

/-- The lock of the bundle that `assembleRepositoryProof` creates. -/
def proofLock (input : RepositoryProofInput ν) : BundleLock where
  command := reproductionCommand input.profile
  dependencyLockHash := input.dependency.lockfileSha256
  environment := lockEnvironment input.environment
  environmentHash := input.environment.environmentHash
  oracleId := input.oracle.id
  oracleVersion := input.oracle.version
  packageManager := "npm@" ++ input.environment.npmVersion
  repository := input.source.fullName
  repositoryTreeHash := input.sourceProvenance.manifestSha256
  reproForgeVersion := "0.2.0"
  revision := input.source.commitSha
  runner := "vercel-sandbox/" ++ limitsPolicyVersion
  runtime := "node@" ++ input.environment.nodeVersion

/-- What a shell runs for the command of the lock, from the root of the repository. -/
def lockInvocation (input : RepositoryProofInput ν) : Option Shell.Invocation :=
  Shell.interpret "" (proofLock input).command

/-- The plan of the input, and what the candidates of the plan run. -/
def executedInvocations (input : RepositoryProofInput ν) : Option (List (Option Shell.Invocation)) :=
  (buildNodeExecutionPlan input.profile input.budget.requiredRuns input.source).map (fun plan =>
    plan.candidates.mapIdx (fun index command => command.invocation (candidateWorkspace index)))

theorem lockInvocation_eq (input : RepositoryProofInput ν) :
    lockInvocation input =
      some ⟨"", "npm", npmExperimentArgs input.profile.reproductionScript input.profile.testNamePattern⟩ :=
  interpret_reproductionCommand input.profile ""

/-- Every candidate runs the same command, in the workspace of its own copy of the repository. -/
theorem executedInvocations_eq {input : RepositoryProofInput ν} (h : input.valid = true) :
    executedInvocations input = some (List.replicate input.budget.requiredRuns.toNat
      (some ⟨(present input.profile.workspace).getD "", "npm",
        npmExperimentArgs input.profile.reproductionScript input.profile.testNamePattern⟩)) := by
  simp only [RepositoryProofInput.valid, RepositoryBudget.valid, Bool.and_eq_true, decide_eq_true_iff] at h
  obtain ⟨⟨⟨⟨-, hleast⟩, hmost⟩, hprofile⟩, hsource⟩ := h
  rw [executedInvocations, buildNodeExecutionPlan_ok hprofile hleast hmost hsource, Option.map_some,
    RepositoryExecutionPlan.candidates, candidates_planCommands]
  refine congrArg some (List.ext_getElem ?_ ?_)
  · rw [List.length_mapIdx, List.length_map, List.length_range, List.length_replicate]
  · intro index hleft hright
    rw [List.getElem_mapIdx, List.getElem_map, List.getElem_range, List.getElem_replicate,
      invocation_candidateCommand]

/-- The exported command is the one that every candidate ran exactly if the
profile has no workspace: it is started at the root, and the candidates are not. -/
theorem exported_command_exact (input : RepositoryProofInput ν) (h : input.valid = true) :
    ∃ executed, executedInvocations input = some executed ∧ executed ≠ [] ∧
      ((∀ e ∈ executed, lockInvocation input = e) ↔ input.profile.workspace = none) := by
  refine ⟨_, executedInvocations_eq h, ?_, ?_⟩
  · simp only [RepositoryProofInput.valid, RepositoryBudget.valid, Bool.and_eq_true, decide_eq_true_iff] at h
    rw [ne_eq, List.replicate_eq_nil_iff]
    omega
  · have hruns : input.budget.requiredRuns.toNat ≠ 0 := by
      simp only [RepositoryProofInput.valid, RepositoryBudget.valid, Bool.and_eq_true, decide_eq_true_iff] at h
      omega
    rw [lockInvocation_eq]
    constructor
    · intro hall
      have hsame := hall _ (List.mem_replicate.mpr ⟨hruns, rfl⟩)
      have hdirectory : "" = (present input.profile.workspace).getD "" :=
        congrArg Shell.Invocation.directory (Option.some.inj hsame)
      cases hworkspace : input.profile.workspace with
      | none => rfl
      | some workspace =>
        have hne : workspace ≠ "" := by
          simp only [RepositoryProofInput.valid, NodeRepositoryProfile.valid, hworkspace, Option.all_some,
            workspaceName, isSafeRelativePath, Bool.and_eq_true, bne_iff_ne] at h
          exact h.1.2.2.2.1.1.1.1
        rw [hworkspace, present_some.mpr ⟨rfl, hne⟩] at hdirectory
        exact absurd hdirectory.symm hne
    · intro hnone e he
      rw [(List.mem_replicate.mp he).2, hnone]
      rfl

end ReproForge

/-! ## A profile with a workspace -/

namespace ReproForge.Sample.Workspace

def sampleHash : String := "0123456789abcdef0123456789abcdef0123456789abcdef0123456789abcdef"

def sampleRevision : String := "0123456789abcdef0123456789abcdef01234567"

def sampleProfile (workspace : Option String) : NodeRepositoryProfile :=
  ⟨"test", .v22, "test:bug", some "doesn't parse", workspace⟩

def sampleInput (workspace : Option String) : RepositoryProofInput Int where
  budget := ⟨12, 3⟩
  dependency := ⟨0, sampleHash, 3, sampleHash⟩
  environment := ⟨sampleHash, sampleHash, sampleHash, sampleHash, "22.1.0", "10.8.1", sampleHash, .v22, sampleRevision⟩
  oracle := ⟨"oracle-1", .exitCode 1, 1⟩
  profile := sampleProfile workspace
  source := ⟨sampleRevision, "acme/app", false, "42"⟩
  sourceProvenance := ⟨"2026-07-16T04:00:00.000Z", 1, sampleHash, sampleRevision, 1, 1, sampleHash, "42"⟩

theorem sampleInput_valid (workspace : Option String) (h : workspace = none ∨ workspace = some "packages/app") :
    (sampleInput workspace).valid = true := by
  obtain rfl | rfl := h <;> decide +kernel

theorem exported_command_exact_sample :
    ∃ executed, executedInvocations (sampleInput none) = some executed ∧ executed ≠ [] ∧
      ((∀ e ∈ executed, lockInvocation (sampleInput none) = e) ↔ (sampleInput none).profile.workspace = none) :=
  exported_command_exact (sampleInput none) (sampleInput_valid none (.inl rfl))

theorem command_leaves_workspace :
    ¬∀ input : RepositoryProofInput Int, input.valid = true → ∀ executed, executedInvocations input = some executed →
      ∀ e ∈ executed, lockInvocation input = e := by
  intro h
  have hvalid := sampleInput_valid (some "packages/app") (.inr rfl)
  have hsame := h _ hvalid _ (executedInvocations_eq hvalid) _ (List.mem_replicate.mpr ⟨by decide, rfl⟩)
  rw [lockInvocation_eq] at hsame
  have hdirectory := congrArg Shell.Invocation.directory (Option.some.inj hsame)
  exact absurd hdirectory (by decide +kernel)

end ReproForge.Sample.Workspace
