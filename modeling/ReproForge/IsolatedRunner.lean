import ReproForge.System

/-!
# The isolated runner

`IsolatedRepositoryRunner.execute` as its timers see it: the stages of a call,
the timer over the whole call, the time that the call hands to its coordinator,
and the error that a call which fails is reported as.
-/
namespace ReproForge

variable {ρ σ : Type}

/-! ## Timeouts -/

/-- `EXECUTION_LIMITS.maxTotalAttemptMs` -/
def maxTotalAttemptMs : Int := 900000

/-- The timeout that the constructor accepts. -/
structure IsolatedRepositoryRunner where
  attemptTimeoutMs : Int
  accepted : 1 ≤ attemptTimeoutMs ∧ attemptTimeoutMs ≤ maxTotalAttemptMs

/-- The time that `execute` hands to the coordinator. -/
def remaining (attemptTimeoutMs : Int) (now createdAt : Instant) : Int :=
  max 1 (attemptTimeoutMs - max 0 (now - createdAt))

/-- What is left of a timeout, of which some time has passed. -/
def budget (attemptTimeoutMs elapsed : Int) : Int := max 1 (attemptTimeoutMs - elapsed)

theorem remaining_eq (attemptTimeoutMs : Int) (now createdAt : Instant) :
    remaining attemptTimeoutMs now createdAt = budget attemptTimeoutMs (max 0 (now - createdAt)) := rfl

theorem budget_eq_iff {attemptTimeoutMs age elapsed : Int} :
    budget attemptTimeoutMs age = budget attemptTimeoutMs elapsed ↔
      age = elapsed ∨ (attemptTimeoutMs - 1 ≤ age ∧ attemptTimeoutMs - 1 ≤ elapsed) := by
  unfold budget
  omega

/-- The schema of the coordinator never refuses the time. -/
theorem budget_accepted (runner : IsolatedRepositoryRunner) {age : Int} (h : 0 ≤ age) :
    1 ≤ budget runner.attemptTimeoutMs age ∧ budget runner.attemptTimeoutMs age ≤ maxTotalAttemptMs := by
  obtain ⟨hlow, hhigh⟩ := runner.accepted
  unfold budget
  omega

theorem remaining_accepted (runner : IsolatedRepositoryRunner) (now createdAt : Instant) :
    1 ≤ remaining runner.attemptTimeoutMs now createdAt ∧
      remaining runner.attemptTimeoutMs now createdAt ≤ maxTotalAttemptMs := by
  rw [remaining_eq]
  exact budget_accepted runner (le_max_left _ _)

/-! ## Errors -/

inductive AttemptLifecycleCode where
  | attemptTimeout | budgetExhausted | cancelled | executionFailed | providerInterrupted
  deriving DecidableEq, Repr

inductive RepositoryExecutionCode where
  | attemptTimeout | budgetExhausted | cancelled | executionFailed | providerInterrupted | unsupportedSource
  deriving DecidableEq, Repr

def RepositoryExecutionCode.text : RepositoryExecutionCode → String
  | .attemptTimeout => "ATTEMPT_TIMEOUT"
  | .budgetExhausted => "BUDGET_EXHAUSTED"
  | .cancelled => "CANCELLED"
  | .executionFailed => "EXECUTION_FAILED"
  | .providerInterrupted => "PROVIDER_INTERRUPTED"
  | .unsupportedSource => "UNSUPPORTED_SOURCE"

inductive RepositoryExecutionStage where
  | provisioning | acquisition | dependencies | workspaces | environment | experiments | proof
  deriving DecidableEq, Repr

/-- The stages before the experiments, each after the one that it waits for. -/
def RepositoryExecutionStage.next : RepositoryExecutionStage → Option RepositoryExecutionStage
  | .provisioning => some .acquisition
  | .acquisition => some .dependencies
  | .dependencies => some .workspaces
  | .workspaces => some .environment
  | .environment | .experiments | .proof => none

structure RepositoryExecutionError where
  code : RepositoryExecutionCode
  stage : RepositoryExecutionStage
  deriving DecidableEq, Repr

/-- What the `catch` of `execute` receives. -/
inductive Thrown where
  | execution : RepositoryExecutionError → Thrown
  | lifecycle : AttemptLifecycleCode → Thrown
  /-- Any other error, with its `code` or the empty text. -/
  | other : String → Thrown
  deriving DecidableEq, Repr

def lifecycleFailure : AttemptLifecycleCode → RepositoryExecutionCode
  | .attemptTimeout | .budgetExhausted => .budgetExhausted
  | .cancelled => .cancelled
  | .providerInterrupted => .providerInterrupted
  | .executionFailed => .executionFailed

/-- An error of neither kind: the source is at fault, or the execution. -/
def otherFailure (code : String) (stage : RepositoryExecutionStage) : RepositoryExecutionError :=
  if ["UNSUPPORTED_SOURCE", "UNSAFE_ARCHIVE", "ARCHIVE_LIMIT_EXCEEDED"].contains code then
    ⟨.unsupportedSource, .provisioning⟩
  else ⟨.executionFailed, stage⟩

theorem otherFailure_code (code : String) (stage : RepositoryExecutionStage) :
    (otherFailure code stage).code ≠ .budgetExhausted := by
  unfold otherFailure
  split <;> exact nofun

/-- An `AbortController` and the flag that its timer sets. -/
structure AbortTimer where
  aborted : Bool
  timedOut : Bool
  deriving DecidableEq, Repr

namespace AbortTimer

def armed : AbortTimer := ⟨false, false⟩

def expire (_ : AbortTimer) : AbortTimer := ⟨true, true⟩

def abort (t : AbortTimer) : AbortTimer := { t with aborted := true }

/-- `timedOut ? "BUDGET_EXHAUSTED" : "CANCELLED"` -/
def code (t : AbortTimer) : RepositoryExecutionCode := if t.timedOut then .budgetExhausted else .cancelled

end AbortTimer

/-! ## A call of `execute` -/

structure RunnerCall where
  lease : JobLease
  caseId : String
  /-- `input.case.createdAt` -/
  createdAt : Instant
  /-- When the timer over the call was set. -/
  beganAt : Nat
  deriving DecidableEq, Repr

/-- The coordinator of a call, with the time that it was made with. -/
structure Coordinator where
  call : RunnerCall
  attemptTimeoutMs : Int
  accepted : 1 ≤ attemptTimeoutMs ∧ attemptTimeoutMs ≤ maxTotalAttemptMs
  /-- What the clock of the runner read. -/
  now : Instant
  madeAt : Nat
  deriving DecidableEq

/-- The age of the case by the clock of the runner. -/
def Coordinator.age (k : Coordinator) : Int := max 0 (k.now - k.call.createdAt)

/-- The time since the call began. -/
def Coordinator.elapsed (k : Coordinator) : Nat := k.madeAt - k.call.beganAt

/-- A call that has not come to its end. -/
structure Execution (ρ σ : Type) where
  record : DurableReproductionRecord ρ σ
  call : RunnerCall
  stage : RepositoryExecutionStage
  timer : AbortTimer
  coordinator : Option (Coordinator × AbortTimer)

namespace Execution

def start (lease : JobLease) (record : DurableReproductionRecord ρ σ) (beganAt : Nat) : Execution ρ σ where
  record := record
  call := ⟨lease, record.caseId, record.snapshot.case.createdAt, beganAt⟩
  stage := .provisioning
  timer := .armed
  coordinator := none

/-- The coordinator listens to the signal of the call. -/
def forward (x : Execution ρ σ) : Option (Coordinator × AbortTimer) :=
  x.coordinator.map (fun k => (k.1, k.2.abort))

def timeout (x : Execution ρ σ) : Execution ρ σ := { x with timer := x.timer.expire, coordinator := x.forward }

def cancel (x : Execution ρ σ) : Execution ρ σ := { x with timer := x.timer.abort, coordinator := x.forward }

def coordinatorTimeout (x : Execution ρ σ) : Execution ρ σ :=
  { x with coordinator := x.coordinator.map (fun k => (k.1, k.2.expire)) }

/-- The coordinator that the call makes. -/
def coordinate (runner : IsolatedRepositoryRunner) (now : Instant) (time : Nat) (x : Execution ρ σ) : Coordinator where
  call := x.call
  attemptTimeoutMs := remaining runner.attemptTimeoutMs now x.call.createdAt
  accepted := remaining_accepted runner now x.call.createdAt
  now := now
  madeAt := time

/-- The experiments begin under a coordinator that a call aborted before then has aborted too. -/
def experiments (k : Coordinator) (x : Execution ρ σ) : Execution ρ σ :=
  { x with stage := .experiments, coordinator := some (k, if x.timer.aborted then AbortTimer.armed.abort else .armed) }

/-- The coordinator has returned and has cleared its timer. -/
def assemble (x : Execution ρ σ) : Execution ρ σ := { x with stage := .proof, coordinator := none }

/-- The errors that can reach the `catch` of `execute` as things stand. -/
def throws (x : Execution ρ σ) : Thrown → Bool
  -- only the check before the sandbox is created throws one of these
  | .execution error => x.stage == .provisioning && x.timer.aborted && error == ⟨x.timer.code, .provisioning⟩
  | .lifecycle .attemptTimeout => x.coordinator.any (fun k => k.2.timedOut)
  | .lifecycle .cancelled => x.coordinator.any (fun k => k.2.aborted)
  | .lifecycle _ => x.coordinator.isSome
  | .other _ => true

/-- An aborted call reports the abort in place of any other error. -/
def unlessAborted (x : Execution ρ σ) (error : RepositoryExecutionError) : RepositoryExecutionError :=
  if x.timer.aborted then ⟨x.timer.code, .provisioning⟩ else error

/-- The `catch` of `execute`. -/
def classify (x : Execution ρ σ) : Thrown → RepositoryExecutionError
  | .execution error =>
    if error.stage == .provisioning && x.stage != .provisioning then ⟨error.code, x.stage⟩ else error
  | .lifecycle code => x.unlessAborted ⟨lifecycleFailure code, x.stage⟩
  | .other code => x.unlessAborted (otherFailure code x.stage)

theorem timedOut_of_code {t : AbortTimer} (h : t.code = .budgetExhausted) : t.timedOut = true := by
  unfold AbortTimer.code at h
  split at h
  · assumption
  · cases h

/-- The error itself or the abort: which one is reported. -/
theorem unlessAborted_cases (x : Execution ρ σ) (error : RepositoryExecutionError) :
    (x.unlessAborted error).code = x.timer.code ∨ x.unlessAborted error = error := by
  unfold unlessAborted
  split
  · exact .inl rfl
  · exact .inr rfl

/-- A call is reported as out of budget for one of three reasons: its own timer,
the timer of its coordinator, or a run that exceeded a limit of its own. -/
theorem classify_budgetExhausted {x : Execution ρ σ} {thrown : Thrown} (hthrows : x.throws thrown = true)
    (h : (x.classify thrown).code = .budgetExhausted) :
    x.timer.timedOut = true ∨ (∃ k, x.coordinator = some k ∧ k.2.timedOut = true) ∨
      thrown = .lifecycle .budgetExhausted := by
  cases thrown with
  | execution error =>
    simp only [throws, Bool.and_eq_true, beq_iff_eq] at hthrows
    obtain ⟨⟨-, -⟩, rfl⟩ := hthrows
    left
    apply timedOut_of_code
    simp only [classify] at h
    split at h <;> exact h
  | lifecycle code =>
    rcases x.unlessAborted_cases ⟨lifecycleFailure code, x.stage⟩ with habort | herror
    · exact .inl (timedOut_of_code (habort.symm.trans h))
    · right
      rw [classify, herror] at h
      cases code with
      | attemptTimeout => exact .inl ((Option.any_eq_true _ _).mp hthrows)
      | budgetExhausted => exact .inr rfl
      | cancelled => cases h
      | executionFailed => cases h
      | providerInterrupted => cases h
  | other code =>
    rcases x.unlessAborted_cases (otherFailure code x.stage) with habort | hkept
    · exact .inl (timedOut_of_code (habort.symm.trans h))
    · rw [classify, hkept] at h
      exact absurd h (otherFailure_code code x.stage)

end Execution

end ReproForge
