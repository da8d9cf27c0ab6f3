import ReproForge.CaseTimes
import ReproForge.IsolatedRunner

/-!
# The budgets of retries

`DurableQueueConsumer.consume` and the repository worker as a program that each
of any number of processes runs step by step, over one database and one running
time. Between two steps anything else may happen to the database, so an attempt
may be requeued, may lose its lease, or may be recovered.
-/
namespace ReproForge

open KeyedTable Transactions Transactions.Tx Relation

variable {ρ σ : Type}

/-! ## The program of a consumer -/

/-- What the constructors of the consumer and of the runner accept. -/
structure Deployment where
  runner : IsolatedRepositoryRunner
  leaseSeconds : Int
  leaseSeconds_range : 1 ≤ leaseSeconds ∧ leaseSeconds ≤ 3600

namespace DurableQueueConsumer

def retryAt (now : Instant) (attempt : Nat) : Instant := now + (min 300 (5 * 2 ^ (attempt - 1)) : Nat) * 1000

/-- The code to store, and whether the job is tried again. -/
def workerFailure (code : String) : String × Bool :=
  if ["BUDGET_EXHAUSTED", "CANCELLED", "UNSUPPORTED_SOURCE"].contains code then (code, false)
  else if ["EXECUTION_FAILED", "PROVIDER_INTERRUPTED"].contains code then (code, true)
  else ("DURABLE_WORKER_FAILED", true)

def leaseFailure (lease : JobLease) (code : String) (failedAt : Instant) : LeaseFailure where
  at' := failedAt
  code := (workerFailure code).1
  nextAttemptAt := retryAt failedAt lease.attempt
  retryable := (workerFailure code).2

end DurableQueueConsumer

/-- The first test of `RepositoryDurableWorker.execute`. -/
def workable (message : QueueMessage) (lease : JobLease) (record : DurableReproductionRecord ρ σ) : Bool :=
  record.snapshot.repositorySource.isSome && record.snapshot.sampleId.isNone &&
    record.snapshot.job.state == .running && record.snapshot.job.attempt == lease.attempt &&
    record.jobId == lease.jobId && record.tenantId == lease.tenantId && record.caseId == message.caseId &&
    record.jobId == message.jobId && record.tenantId == message.tenantId

/-- `requestFor` and `runnerInputSchema`. -/
def runnerInput [RequestDocument σ] (lease : JobLease) (record : DurableReproductionRecord ρ σ) : Bool :=
  let given := record.requestedBudget.getD ⟨6, 3⟩
  record.repositoryRequest.any RequestDocument.valid &&
    opaqueId (record.jobId ++ ".attempt-" ++ toString lease.attempt) &&
    1 ≤ given.maxToolCalls && given.maxToolCalls ≤ 12 && 3 ≤ given.requiredRuns && given.requiredRuns ≤ 5 &&
    record.snapshot.case.valid && record.snapshot.case.state == .draft &&
    1 ≤ utf16Length record.callerId && utf16Length record.callerId ≤ 128 &&
    1 ≤ utf16Length record.tenantId && utf16Length record.tenantId ≤ 128

/-- The case of a proof: the case of the attempt, moved on. -/
def provedCase (case : ReproCase) (moves : List (CaseState × String × Instant)) : Option ReproCase :=
  moves.foldlM (fun c move => transitionCase c move.1 move.2.1 move.2.2) case

/-- The record that `RepositoryDurableWorker.execute` returns. -/
def completedRecord (record : DurableReproductionRecord ρ σ) (case : ReproCase) (result : ρ) (now : Instant) :
    Option (DurableReproductionRecord ρ σ) :=
  let completedAt := max now (max case.updatedAt record.snapshot.job.updatedAt)
  (transitionJob record.snapshot.job .succeeded completedAt none case.state).map fun job =>
    { record with
      snapshot := { record.snapshot with case := case, job := job, result := some result }
      updatedAt := completedAt }

/-- Where a process stands in `consume`. -/
inductive ConsumePhase (ρ σ : Type) where
  | idle
  | claimed : QueueMessage → JobLease → ConsumePhase ρ σ
  | found : QueueMessage → JobLease → DurableReproductionRecord ρ σ → ConsumePhase ρ σ
  | admitted : QueueMessage → JobLease → DurableReproductionRecord ρ σ → ConsumePhase ρ σ
  | executing : Execution ρ σ → ConsumePhase ρ σ
  | proved : JobLease → DurableReproductionRecord ρ σ → ReproCase → ConsumePhase ρ σ
  | returned : JobLease → DurableReproductionRecord ρ σ → ConsumePhase ρ σ
  /-- The worker threw an error with this code. -/
  | threw : JobLease → String → ConsumePhase ρ σ
  | completing : JobLease → DurableReproductionRecord ρ σ → ConsumePhase ρ σ
  | failing : JobLease → String → ConsumePhase ρ σ
  | cancelling : JobLease → ConsumePhase ρ σ

/-- The lease of a process that asks for cancellation next, and where it goes if there is none. -/
def ConsumePhase.unflagged : ConsumePhase ρ σ → Option (JobLease × ConsumePhase ρ σ)
  | .found message lease record => some (lease, .admitted message lease record)
  | .returned lease record => some (lease, .completing lease record)
  | .threw lease code => some (lease, .failing lease code)
  | _ => none

/-- A call of `execute` that was reported as failed. -/
structure FailedCall where
  call : RunnerCall
  thrown : Thrown
  error : RepositoryExecutionError
  endedAt : Nat

/-- The database, the running time in milliseconds, the processes, every
coordinator that was made and every call that failed. -/
structure Consuming (ρ σ : Type) where
  db : Db ρ σ
  time : Nat
  passes : Nat → ConsumePhase ρ σ
  coordinators : List Coordinator
  failed : List FailedCall

/-- One step of the system, with all that the clocks, the server and the provider decide in it. -/
inductive ConsumerAction (ρ σ : Type) where
  | wait : Nat → ConsumerAction ρ σ
  | call : Event ρ σ → ConsumerAction ρ σ
  | claim (i : Nat) : QueueMessage → String → Instant → List Attempt → ConsumerAction ρ σ
  | find (i : Nat) : ConsumerAction ρ σ
  | check (i : Nat) : ConsumerAction ρ σ
  | execute (i : Nat) : ConsumerAction ρ σ
  | timeout (i : Nat) : ConsumerAction ρ σ
  | abort (i : Nat) : ConsumerAction ρ σ
  | advance (i : Nat) : ConsumerAction ρ σ
  | experiments (i : Nat) : Instant → ConsumerAction ρ σ
  | coordinatorTimeout (i : Nat) : ConsumerAction ρ σ
  | assemble (i : Nat) : ConsumerAction ρ σ
  | prove (i : Nat) : List (CaseState × String × Instant) → ConsumerAction ρ σ
  | throw (i : Nat) : Thrown → ConsumerAction ρ σ
  /-- The worker stores the bundle and returns, or it throws. -/
  | finish (i : Nat) : Instant → Option ρ → ConsumerAction ρ σ
  | settle (i : Nat) : Instant → List Attempt → ConsumerAction ρ σ
  | crash (i : Nat) : ConsumerAction ρ σ

namespace Consuming

variable [ResultDocument ρ] [RequestDocument σ] [Sha256]

def put (w : Consuming ρ σ) (i : Nat) (phase : ConsumePhase ρ σ) : Consuming ρ σ :=
  { w with passes := Function.update w.passes i phase }

def claim (d : Deployment) (w : Consuming ρ σ) (i : Nat) (message : QueueMessage) (ownerId : String)
    (now : Instant) (attempts : List Attempt) : Consuming ρ σ :=
  if message.valid && (message.kind == .requested || message.kind == .recoveryRequested) then
    match runSerializableTransaction 3 attempts
        (claimLease ⟨now, message.jobId, d.leaseSeconds, ownerId, message.tenantId⟩) w.db with
    | (.ok (some lease), db) => { w with db := db }.put i (.claimed message lease)
    | (_, db) => { w with db := db }
  else w

def find (w : Consuming ρ σ) (i : Nat) (message : QueueMessage) (lease : JobLease) : Consuming ρ σ :=
  match findByLease lease w.db with
  | (.ok (some record), _) =>
    w.put i (if record.caseId = message.caseId then .found message lease record else .idle)
  | _ => w.put i .idle

def check (w : Consuming ρ σ) (i : Nat) (lease : JobLease) (next : ConsumePhase ρ σ) : Consuming ρ σ :=
  match isCancellationRequested lease w.db with
  | (.ok requested, _) => w.put i (if requested then .cancelling lease else next)
  | (.error _, _) => w.put i .idle

def execute (w : Consuming ρ σ) (i : Nat) (message : QueueMessage) (lease : JobLease)
    (record : DurableReproductionRecord ρ σ) : Consuming ρ σ :=
  w.put i
    (if workable message lease record && runnerInput lease record then
      .executing (.start lease record w.time)
    else .threw lease "INVALID_REPOSITORY_PROOF")

/-- What a call in progress does next; `none` where the action does not apply to it. -/
def move (d : Deployment) (time : Nat) (x : Execution ρ σ) : ConsumerAction ρ σ → Option (ConsumePhase ρ σ)
  | .timeout _ =>
    if x.call.beganAt + d.runner.attemptTimeoutMs ≤ (time : Int) then some (.executing x.timeout) else none
  | .abort _ => some (.executing x.cancel)
  | .advance _ => x.stage.next.map (fun stage => .executing { x with stage := stage })
  | .experiments _ now =>
    if x.stage = .environment then some (.executing (x.experiments (x.coordinate d.runner now time))) else none
  | .coordinatorTimeout _ =>
    if x.coordinator.any (fun k => k.1.madeAt + k.1.attemptTimeoutMs ≤ (time : Int)) then
      some (.executing x.coordinatorTimeout)
    else none
  | .assemble _ => if x.stage = .experiments then some (.executing x.assemble) else none
  | .prove _ moves =>
    if x.stage = .proof then
      (provedCase x.record.snapshot.case moves).map (.proved x.call.lease x.record)
    else none
  | .throw _ thrown =>
    if x.throws thrown then some (.threw x.call.lease (x.classify thrown).code.text) else none
  | _ => none

/-- The coordinator that an action makes. -/
def made (d : Deployment) (time : Nat) (x : Execution ρ σ) : ConsumerAction ρ σ → List Coordinator
  | .experiments _ now => if x.stage = .environment then [x.coordinate d.runner now time] else []
  | _ => []

/-- The failure that an action ends a call with. -/
def ended (time : Nat) (x : Execution ρ σ) : ConsumerAction ρ σ → List FailedCall
  | .throw _ thrown => if x.throws thrown then [⟨x.call, thrown, x.classify thrown, time⟩] else []
  | _ => []

def drive (d : Deployment) (w : Consuming ρ σ) (i : Nat) (x : Execution ρ σ) (action : ConsumerAction ρ σ) :
    Consuming ρ σ :=
  match move d w.time x action with
  | some phase =>
    { w with
      coordinators := made d w.time x action ++ w.coordinators
      failed := ended w.time x action ++ w.failed }.put i phase
  | none => w

def finish (w : Consuming ρ σ) (i : Nat) (lease : JobLease) (record : DurableReproductionRecord ρ σ)
    (case : ReproCase) (now : Instant) (result : Option ρ) : Consuming ρ σ :=
  w.put i
    (match result.bind (fun r => completedRecord record case r now) with
    | some completed => .returned lease completed
    | none => .threw lease "ARTIFACT_PERSISTENCE_FAILED")

/-- The last statement of `consume`, whatever its reply. -/
def settle (w : Consuming ρ σ) (i : Nat) (statement : Statement ρ σ Unit) (attempts : List Attempt) :
    Consuming ρ σ :=
  { w with db := (runSerializableTransaction 3 attempts statement w.db).2 }.put i .idle

/-- An action that its process is not ready for does nothing. -/
def step (d : Deployment) (action : ConsumerAction ρ σ) (w : Consuming ρ σ) : Consuming ρ σ :=
  match action with
  | .wait ms => { w with time := w.time + ms }
  | .call event => { w with db := ReproForge.step event w.db }
  | .claim i message ownerId now attempts =>
    match w.passes i with
    | .idle => w.claim d i message ownerId now attempts
    | _ => w
  | .find i =>
    match w.passes i with
    | .claimed message lease => w.find i message lease
    | _ => w
  | .check i =>
    match (w.passes i).unflagged with
    | some (lease, next) => w.check i lease next
    | none => w
  | .execute i =>
    match w.passes i with
    | .admitted message lease record => w.execute i message lease record
    | _ => w
  | .finish i now result =>
    match w.passes i with
    | .proved lease record case => w.finish i lease record case now result
    | _ => w
  | .settle i now attempts =>
    match w.passes i with
    | .completing lease record => w.settle i (do let _ ← completeLease lease record; pure ()) attempts
    | .failing lease code =>
      w.settle i (do let _ ← failLease lease (DurableQueueConsumer.leaseFailure lease code now); pure ()) attempts
    | .cancelling lease => w.settle i (do let _ ← cancelLease lease now; pure ()) attempts
    | _ => w
  | .crash i => w.put i .idle
  | .timeout i | .abort i | .advance i | .experiments i _ | .coordinatorTimeout i | .assemble i | .prove i _
  | .throw i _ =>
    match w.passes i with
    | .executing x => w.drive d i x action
    | _ => w

end Consuming

/-! ## The time that a call gets -/

/-- An attempt after the first: every one before it was interrupted. -/
def RunnerCall.later (call : RunnerCall) : Prop := 1 < call.lease.attempt

def RunnerCall.caseKey (call : RunnerCall) : Key := ⟨call.lease.tenantId, call.caseId⟩

/-- The case is as old as the call, or both have used up the timeout but for a millisecond. -/
def Coordinator.Fresh (d : Deployment) (k : Coordinator) : Prop :=
  k.age = k.elapsed ∨
    (d.runner.attemptTimeoutMs - 1 ≤ k.age ∧ d.runner.attemptTimeoutMs - 1 ≤ k.elapsed)

/-- Of a case that is older than the call, only a used up timeout is left in full. -/
theorem Coordinator.fresh_of_older {d : Deployment} {k : Coordinator} (h : k.elapsed < k.age) :
    k.Fresh d ↔ d.runner.attemptTimeoutMs - 1 ≤ k.elapsed := by
  unfold Coordinator.Fresh
  omega

/-- Every later attempt that reached its experiments got what was left of the
timeout of its own call, and none was reported as out of budget before that
timeout had passed, unless one of its runs exceeded a limit. -/
structure UsableBudgets (d : Deployment) (w : Consuming ρ σ) : Prop where
  own : ∀ k ∈ w.coordinators, k.call.later →
    k.attemptTimeoutMs = budget d.runner.attemptTimeoutMs k.elapsed
  spent : ∀ f ∈ w.failed, f.call.later → f.error.code = .budgetExhausted →
    f.thrown ≠ .lifecycle .budgetExhausted → f.call.beganAt + d.runner.attemptTimeoutMs ≤ (f.endedAt : Int)

/-- What the timers of a call in progress stand for. -/
structure Execution.Timed (d : Deployment) (coordinators : List Coordinator) (time : Nat) (x : Execution ρ σ) :
    Prop where
  began : x.call.beganAt ≤ time
  timer : x.timer.timedOut = true → x.call.beganAt + d.runner.attemptTimeoutMs ≤ (time : Int)
  coordinator : ∀ k, x.coordinator = some k → k.1 ∈ coordinators ∧ k.1.call = x.call ∧
    (k.2.timedOut = true → k.1.madeAt + k.1.attemptTimeoutMs ≤ (time : Int))

/-- Why a call was reported as out of budget. -/
def FailedCall.Accounted (d : Deployment) (coordinators : List Coordinator) (f : FailedCall) : Prop :=
  f.error.code = .budgetExhausted →
    f.call.beganAt + d.runner.attemptTimeoutMs ≤ (f.endedAt : Int) ∨
      (∃ k ∈ coordinators, k.call = f.call ∧ k.madeAt + k.attemptTimeoutMs ≤ (f.endedAt : Int)) ∨
        f.thrown = .lifecycle .budgetExhausted

/-- Every coordinator got what the age of its case left, and every timer fired in its time. -/
structure Consuming.Timed (d : Deployment) (w : Consuming ρ σ) : Prop where
  coordinators : ∀ k ∈ w.coordinators, k.attemptTimeoutMs = budget d.runner.attemptTimeoutMs k.age ∧
    k.call.beganAt ≤ k.madeAt
  executing : ∀ i x, w.passes i = .executing x → x.Timed d w.coordinators w.time
  failed : ∀ f ∈ w.failed, f.Accounted d w.coordinators

namespace Execution.Timed

variable {d : Deployment} {coordinators : List Coordinator} {time : Nat} {x : Execution ρ σ}

theorem later (h : x.Timed d coordinators time) {time' : Nat} (hle : time ≤ time') :
    x.Timed d coordinators time' where
  began := h.began.trans hle
  timer := fun ht => (h.timer ht).trans (by exact_mod_cast hle)
  coordinator := by
    intro k hk
    obtain ⟨hmem, hcall, hexpired⟩ := h.coordinator k hk
    exact ⟨hmem, hcall, fun ht => (hexpired ht).trans (by exact_mod_cast hle)⟩

theorem more (h : x.Timed d coordinators time) (added : List Coordinator) :
    x.Timed d (added ++ coordinators) time where
  began := h.began
  timer := h.timer
  coordinator := by
    intro k hk
    obtain ⟨hmem, hrest⟩ := h.coordinator k hk
    exact ⟨List.mem_append_right _ hmem, hrest⟩

/-- A new state of the coordinator, whose timer has fired only if it was due. -/
theorem forwarded (h : x.Timed d coordinators time) {f : AbortTimer → AbortTimer}
    (hf : ∀ k, x.coordinator = some k → (f k.2).timedOut = true → k.2.timedOut = true ∨
      k.1.madeAt + k.1.attemptTimeoutMs ≤ (time : Int)) :
    ∀ k, x.coordinator.map (fun k => (k.1, f k.2)) = some k → k.1 ∈ coordinators ∧ k.1.call = x.call ∧
      (k.2.timedOut = true → k.1.madeAt + k.1.attemptTimeoutMs ≤ (time : Int)) := by
  intro k hk
  obtain ⟨k', hk', rfl⟩ := Option.map_eq_some_iff.mp hk
  obtain ⟨hmem, hcall, hexpired⟩ := h.coordinator k' hk'
  refine ⟨hmem, hcall, fun ht => ?_⟩
  rcases hf k' hk' ht with hbefore | hdue
  · exact hexpired hbefore
  · exact hdue

end Execution.Timed

namespace Consuming

variable {d : Deployment}

section move

variable {coordinators : List Coordinator} {time : Nat} {x x' : Execution ρ σ} {action : ConsumerAction ρ σ}

/-- What an action makes of a call in progress. -/
inductive Moved (d : Deployment) (time : Nat) (x : Execution ρ σ) : ConsumerAction ρ σ → ConsumePhase ρ σ → Prop
  | timeout (i : Nat) (hdue : x.call.beganAt + d.runner.attemptTimeoutMs ≤ (time : Int)) :
      Moved d time x (.timeout i) (.executing x.timeout)
  | abort (i : Nat) : Moved d time x (.abort i) (.executing x.cancel)
  | advance (i : Nat) (stage : RepositoryExecutionStage) (hnext : x.stage.next = some stage) :
      Moved d time x (.advance i) (.executing { x with stage := stage })
  | experiments (i : Nat) (now : Instant) (hstage : x.stage = .environment) :
      Moved d time x (.experiments i now) (.executing (x.experiments (x.coordinate d.runner now time)))
  | coordinatorTimeout (i : Nat)
      (hdue : x.coordinator.any (fun k => k.1.madeAt + k.1.attemptTimeoutMs ≤ (time : Int)) = true) :
      Moved d time x (.coordinatorTimeout i) (.executing x.coordinatorTimeout)
  | assemble (i : Nat) (hstage : x.stage = .experiments) : Moved d time x (.assemble i) (.executing x.assemble)
  | prove (i : Nat) (moves : List (CaseState × String × Instant)) (case : ReproCase) (hstage : x.stage = .proof)
      (hcase : provedCase x.record.snapshot.case moves = some case) :
      Moved d time x (.prove i moves) (.proved x.call.lease x.record case)
  | throw (i : Nat) (thrown : Thrown) (hthrows : x.throws thrown = true) :
      Moved d time x (.throw i thrown) (.threw x.call.lease (x.classify thrown).code.text)

theorem move_some {phase : ConsumePhase ρ σ} (hm : move d time x action = some phase) : Moved d time x action phase := by
  cases action with
  | timeout i =>
    obtain ⟨hdue, hm⟩ := Option.ite_none_right_eq_some.mp hm
    exact Option.some.inj hm ▸ .timeout i hdue
  | abort i => exact Option.some.inj hm ▸ .abort i
  | advance i =>
    obtain ⟨stage, hnext, rfl⟩ := Option.map_eq_some_iff.mp hm
    exact .advance i stage hnext
  | experiments i now =>
    obtain ⟨hstage, hm⟩ := Option.ite_none_right_eq_some.mp hm
    exact Option.some.inj hm ▸ .experiments i now hstage
  | coordinatorTimeout i =>
    obtain ⟨hdue, hm⟩ := Option.ite_none_right_eq_some.mp hm
    exact Option.some.inj hm ▸ .coordinatorTimeout i hdue
  | assemble i =>
    obtain ⟨hstage, hm⟩ := Option.ite_none_right_eq_some.mp hm
    exact Option.some.inj hm ▸ .assemble i hstage
  | prove i moves =>
    obtain ⟨hstage, hm⟩ := Option.ite_none_right_eq_some.mp hm
    obtain ⟨case, hcase, rfl⟩ := Option.map_eq_some_iff.mp hm
    exact .prove i moves case hstage hcase
  | throw i thrown =>
    obtain ⟨hthrows, hm⟩ := Option.ite_none_right_eq_some.mp hm
    exact Option.some.inj hm ▸ .throw i thrown hthrows
  | _ => cases hm

/-- A call that goes on keeps what its timers stand for. -/
theorem move_timed (h : x.Timed d coordinators time) (hm : move d time x action = some (.executing x')) :
    x'.Timed d (made d time x action ++ coordinators) time := by
  cases move_some hm with
  | timeout i hdue => exact ⟨h.began, fun _ => hdue, h.forwarded (fun k _ ht => .inl ht)⟩
  | abort i => exact ⟨h.began, h.timer, h.forwarded (fun k _ ht => .inl ht)⟩
  | advance i stage _ => exact ⟨h.began, h.timer, h.coordinator⟩
  | experiments i now hstage =>
    refine ⟨h.began, h.timer, ?_⟩
    rintro k hk
    obtain rfl := Option.some.inj hk
    refine ⟨?_, rfl, fun ht => ?_⟩
    · rw [made, if_pos hstage]
      exact List.mem_append_left _ (List.mem_singleton_self _)
    · dsimp only at ht
      split at ht <;> cases ht
  | coordinatorTimeout i hdue =>
    refine ⟨h.began, h.timer, h.forwarded (fun k hk _ => .inr ?_)⟩
    simpa [hk] using hdue
  | assemble i _ => exact ⟨h.began, h.timer, nofun⟩

/-- The coordinator that a call makes gets what the age of its case leaves. -/
theorem made_timed (h : x.Timed d coordinators time) :
    ∀ k ∈ made d time x action, k.attemptTimeoutMs = budget d.runner.attemptTimeoutMs k.age ∧
      k.call.beganAt ≤ k.madeAt := by
  intro k hk
  cases action with
  | experiments i now =>
    simp only [made] at hk
    split at hk
    · obtain rfl := List.mem_singleton.mp hk
      exact ⟨remaining_eq _ _ _, h.began⟩
    · cases hk
  | _ => cases hk

theorem ended_accounted (h : x.Timed d coordinators time) :
    ∀ f ∈ ended time x action, f.Accounted d coordinators := by
  intro f hf
  cases action with
  | throw i thrown =>
    simp only [ended] at hf
    split at hf
    · rename_i hthrows
      obtain rfl := List.mem_singleton.mp hf
      intro hcode
      rcases Execution.classify_budgetExhausted hthrows hcode with ht | ⟨k, hk, ht⟩ | hlimit
      · exact .inl (h.timer ht)
      · obtain ⟨hmem, hcall, hexpired⟩ := h.coordinator k hk
        exact .inr (.inl ⟨k.1, hmem, hcall, hexpired ht⟩)
      · exact .inr (.inr hlimit)
    · cases hf
  | _ => cases hf

end move

theorem Timed.put {w : Consuming ρ σ} (h : w.Timed d) (i : Nat) {phase : ConsumePhase ρ σ}
    (hphase : ∀ x, phase = .executing x → x.Timed d w.coordinators w.time) : (w.put i phase).Timed d where
  coordinators := h.coordinators
  executing := by
    intro n x hx
    by_cases hn : n = i
    · subst hn
      simp only [Consuming.put, Function.update_self] at hx
      exact hphase x hx
    · simp only [Consuming.put, Function.update_of_ne hn] at hx
      exact h.executing n x hx
  failed := h.failed

/-- A process that is in no call of `execute` leaves the timers alone. -/
theorem Timed.settled {w w' : Consuming ρ σ} (h : w.Timed d) (i : Nat) {phase : ConsumePhase ρ σ}
    (hphase : ∀ x, phase ≠ .executing x) (hw : w' = { w with db := w'.db }.put i phase) : w'.Timed d := by
  have hdb : Timed d { w with db := w'.db } := ⟨h.coordinators, h.executing, h.failed⟩
  rw [hw]
  exact hdb.put i (fun x hx => absurd hx (hphase x))

theorem Timed.drive {w : Consuming ρ σ} (h : w.Timed d) {i : Nat} {x : Execution ρ σ}
    (hx : w.passes i = .executing x) (action : ConsumerAction ρ σ) : (w.drive d i x action).Timed d := by
  have hcall := h.executing i x hx
  simp only [Consuming.drive]
  split
  · rename_i phase hm
    refine Timed.put ?_ i (fun x' hx' => ?_)
    · constructor
      · intro k hk
        rcases List.mem_append.mp hk with hk | hk
        · exact made_timed hcall k hk
        · exact h.coordinators k hk
      · intro n y hy
        exact (h.executing n y hy).more _
      · intro f hf hcode
        have hbefore : f.Accounted d w.coordinators := by
          rcases List.mem_append.mp hf with hf | hf
          · exact ended_accounted hcall f hf
          · exact h.failed f hf
        rcases hbefore hcode with hspent | ⟨k, hk, hrest⟩ | hlimit
        · exact .inl hspent
        · exact .inr (.inl ⟨k, List.mem_append_right _ hk, hrest⟩)
        · exact .inr (.inr hlimit)
    · rw [hx'] at hm
      exact move_timed hcall hm
  · exact h

variable [ResultDocument ρ] [RequestDocument σ] [Sha256]

theorem Timed.step {w : Consuming ρ σ} (h : w.Timed d) (action : ConsumerAction ρ σ) :
    (Consuming.step d action w).Timed d := by
  have idle : ∀ (db : Db ρ σ) (i : Nat) {phase : ConsumePhase ρ σ}, (∀ x, phase ≠ .executing x) →
      ({ w with db := db }.put i phase).Timed d := fun db i _ hphase => h.settled i hphase rfl
  cases action with
  | wait ms =>
    exact ⟨h.coordinators, fun i x hx => (h.executing i x hx).later (Nat.le_add_right _ _), h.failed⟩
  | call event => exact ⟨h.coordinators, h.executing, h.failed⟩
  | claim i message ownerId now attempts =>
    simp only [Consuming.step]
    split
    · unfold Consuming.claim
      split
      · split
        · exact idle _ i (fun _ => nofun)
        · exact ⟨h.coordinators, h.executing, h.failed⟩
      · exact h
    · exact h
  | find i =>
    simp only [Consuming.step]
    split
    · unfold Consuming.find
      split
      · split
        · exact idle w.db i (fun _ => nofun)
        · exact idle w.db i (fun _ => nofun)
      · exact idle w.db i (fun _ => nofun)
    · exact h
  | check i =>
    simp only [Consuming.step]
    split
    · rename_i lease next hnext
      have hstays : ∀ x, next ≠ .executing x := by
        rintro x rfl
        unfold ConsumePhase.unflagged at hnext
        split at hnext <;> cases hnext
      unfold Consuming.check
      split
      · split
        · exact idle w.db i (fun _ => nofun)
        · exact idle w.db i hstays
      · exact idle w.db i (fun _ => nofun)
    · exact h
  | execute i =>
    simp only [Consuming.step]
    split
    · unfold Consuming.execute
      split
      · refine h.put i (fun x hx => ?_)
        obtain rfl := ConsumePhase.executing.inj hx
        exact ⟨le_rfl, nofun, nofun⟩
      · exact idle w.db i (fun _ => nofun)
    · exact h
  | finish i now result =>
    simp only [Consuming.step]
    split
    · unfold Consuming.finish
      split
      · exact idle w.db i (fun _ => nofun)
      · exact idle w.db i (fun _ => nofun)
    · exact h
  | settle i now attempts =>
    simp only [Consuming.step]
    split
    · exact idle _ i (fun _ => nofun)
    · exact idle _ i (fun _ => nofun)
    · exact idle _ i (fun _ => nofun)
    · exact h
  | crash i => exact idle w.db i (fun _ => nofun)
  | timeout i | abort i | advance i | experiments i now | coordinatorTimeout i | assemble i | prove i moves
  | throw i thrown =>
    simp only [Consuming.step]
    split
    · rename_i x hx
      exact h.drive hx _
    · exact h

end Consuming

/-! ## The time of creation survives the attempts -/

/-- The cases that a process carries along, with the times at which they say they were created. -/
def ConsumePhase.dated : ConsumePhase ρ σ → List (Key × Instant)
  | .found _ _ record | .admitted _ _ record | .returned _ record | .completing _ record =>
    [(recordCaseKey record, record.snapshot.case.createdAt)]
  | .executing x =>
    [(recordCaseKey x.record, x.record.snapshot.case.createdAt), (x.call.caseKey, x.call.createdAt)]
  | .proved _ record case => [(recordCaseKey record, case.createdAt)]
  | .idle | .claimed _ _ | .threw _ _ | .failing _ _ | .cancelling _ => []

/-- Every case that a process carries along, and every one that a coordinator
was made for, is stored, and is as old as its attempt says. -/
structure Consuming.Dated (w : Consuming ρ σ) : Prop where
  passes : ∀ i, ∀ e ∈ (w.passes i).dated, caseCreatedAt w.db e.1 = some e.2
  coordinators : ∀ k ∈ w.coordinators, caseCreatedAt w.db k.call.caseKey = some k.call.createdAt

theorem provedCase_createdAt {case moved : ReproCase} {moves : List (CaseState × String × Instant)}
    (h : provedCase case moves = some moved) : moved.createdAt = case.createdAt := by
  induction moves generalizing case with
  | nil => exact congrArg ReproCase.createdAt (Option.some.inj h).symm
  | cons move rest ih =>
    simp only [provedCase, List.foldlM_cons, Option.bind_eq_bind, Option.bind_eq_some_iff] at h
    obtain ⟨next, hnext, hrest⟩ := h
    exact (ih hrest).trans (transitionCase_createdAt hnext)

theorem completedRecord_some {record completed : DurableReproductionRecord ρ σ} {case : ReproCase} {result : ρ}
    {now : Instant} (h : completedRecord record case result now = some completed) :
    recordCaseKey completed = recordCaseKey record ∧ completed.snapshot.case = case := by
  obtain ⟨job, -, rfl⟩ := Option.map_eq_some_iff.mp h
  exact ⟨rfl, rfl⟩

namespace Consuming

section dated

variable {w : Consuming ρ σ}

theorem Dated.put (h : w.Dated) (i : Nat) {phase : ConsumePhase ρ σ}
    (hphase : ∀ e ∈ phase.dated, caseCreatedAt w.db e.1 = some e.2) : (w.put i phase).Dated where
  passes := by
    intro n e he
    by_cases hn : n = i
    · subst hn
      simp only [Consuming.put, Function.update_self] at he
      exact hphase e he
    · simp only [Consuming.put, Function.update_of_ne hn] at he
      exact h.passes n e he
  coordinators := h.coordinators

theorem Dated.kept (h : w.Dated) {db : Db ρ σ} (hkept : TimesKept w.db db) : Dated { w with db := db } where
  passes := fun i e he => hkept e.1 e.2 (h.passes i e he)
  coordinators := fun k hk => hkept _ _ (h.coordinators k hk)

/-- A call that goes on or returns carries along what it did before. -/
theorem move_dated {d : Deployment} {time : Nat} {x : Execution ρ σ} {action : ConsumerAction ρ σ}
    {phase : ConsumePhase ρ σ} (hm : move d time x action = some phase) :
    ∀ e ∈ phase.dated, e ∈ (ConsumePhase.executing x).dated := by
  cases move_some hm with
  | timeout _ _ | abort _ | advance _ _ _ | experiments _ _ _ | coordinatorTimeout _ _ | assemble _ _ => exact fun _ => id
  | prove i moves case _ hcase =>
    intro e he
    obtain rfl := List.mem_singleton.mp he
    rw [provedCase_createdAt hcase]
    exact List.mem_cons_self
  | throw _ _ _ => exact fun _ => nofun

theorem made_dated {d : Deployment} {time : Nat} {x : Execution ρ σ} {action : ConsumerAction ρ σ} :
    ∀ k ∈ made d time x action, k.call = x.call := by
  intro k hk
  cases action with
  | experiments i now =>
    simp only [made] at hk
    split at hk
    · obtain rfl := List.mem_singleton.mp hk
      rfl
    · cases hk
  | _ => cases hk

theorem Dated.drive (h : w.Dated) {d : Deployment} {i : Nat} {x : Execution ρ σ}
    (hx : w.passes i = .executing x) (action : ConsumerAction ρ σ) : (w.drive d i x action).Dated := by
  have hcarried : ∀ e ∈ (ConsumePhase.executing x).dated, caseCreatedAt w.db e.1 = some e.2 := by
    rw [← hx]
    exact h.passes i
  simp only [Consuming.drive]
  split
  · rename_i phase hm
    refine Dated.put ?_ i (fun e he => hcarried e (move_dated hm e he))
    refine ⟨h.passes, fun k hk => ?_⟩
    rcases List.mem_append.mp hk with hk | hk
    · rw [made_dated k hk]
      exact hcarried _ (List.mem_cons_of_mem _ (List.mem_singleton_self _))
    · exact h.coordinators k hk
  · exact h

end dated

/-- A record that an event stores is as old as the case that it replaces. -/
def Permitted [ResultDocument ρ] [RequestDocument σ] (w : Consuming ρ σ) : ConsumerAction ρ σ → Prop
  | .call event => event.Preserves w.db
  | _ => True

variable [ResultDocument ρ] [RequestDocument σ] [Sha256]

omit [Sha256] in
/-- The record of a lease holds the case as it is stored. -/
theorem findByLease_dated {lease : JobLease} {db db' : Db ρ σ} {record : DurableReproductionRecord ρ σ}
    (h : findByLease lease db = (.ok (some record), db')) :
    caseCreatedAt db (recordCaseKey record) = some record.snapshot.case.createdAt := by
  obtain ⟨-, row, hrow, -, -, hrecord⟩ := findByLease_some h
  obtain ⟨failure, -, -, -, -, -, -, -, rfl, -⟩ := rowToRecord_some.mp hrecord
  rw [caseCreatedAt, show recordCaseKey _ = row.caseKey from rfl, hrow.case]
  rfl

omit [ResultDocument ρ] [RequestDocument σ] [Sha256] in
/-- A transaction keeps the times if its statement does. -/
theorem transaction_timesKept {attempts : List Attempt} {α : Type} {statement : Statement ρ σ α} {db : Db ρ σ}
    (h : ∀ a db', statement db = (.ok a, db') → TimesKept db db') :
    TimesKept db (runSerializableTransaction 3 attempts statement db).2 := by
  rcases runSerializableTransaction_cases 3 attempts statement db with ⟨e, he⟩ | ⟨a, db', ho, hr | hr⟩
  · rw [he]
    exact .refl db
  · rw [hr]
    exact h a db' ho
  · rw [hr]
    exact h a db' ho

omit [ResultDocument ρ] [RequestDocument σ] [Sha256] in
theorem Dated.settle {w : Consuming ρ σ} (h : w.Dated) (i : Nat) {statement : Statement ρ σ Unit}
    (attempts : List Attempt) (hkept : ∀ db', statement w.db = (.ok (), db') → TimesKept w.db db') :
    (w.settle i statement attempts).Dated := by
  have hdb : TimesKept w.db (runSerializableTransaction 3 attempts statement w.db).2 :=
    transaction_timesKept (fun _ => hkept)
  exact (h.kept hdb).put i (fun _ => nofun)

section functions

variable {d : Deployment} {w : Consuming ρ σ} {i : Nat} {message : QueueMessage} {lease : JobLease}
  {record : DurableReproductionRecord ρ σ}

theorem Dated.claim (h : w.Dated) (ownerId : String) (now : Instant) (attempts : List Attempt) :
    (w.claim d i message ownerId now attempts).Dated := by
  unfold Consuming.claim
  split
  · have hkept : TimesKept w.db (runSerializableTransaction 3 attempts (claimLease
        ⟨now, message.jobId, d.leaseSeconds, ownerId, message.tenantId⟩) w.db).2 := by
      refine transaction_timesKept (fun reply db' hr => ?_)
      rcases claimLease_ok hr with ⟨-, rfl⟩ | ⟨j, c, -, hw⟩
      · exact .refl _
      · exact hw.timesKept_of_advanced
    split
    · rename_i lease db hr
      rw [hr] at hkept
      exact (h.kept hkept).put i (fun _ => nofun)
    · rename_i reply db _ hr
      rw [hr] at hkept
      exact h.kept hkept
  · exact h

omit [Sha256] in
theorem Dated.find (h : w.Dated) : (w.find i message lease).Dated := by
  unfold Consuming.find
  split
  · rename_i record db hr
    refine h.put i (fun e he => ?_)
    split at he
    · obtain rfl := List.mem_singleton.mp he
      exact findByLease_dated hr
    · cases he
  · exact h.put i (fun _ => nofun)

omit [ResultDocument ρ] [RequestDocument σ] [Sha256] in
theorem Dated.check (h : w.Dated) {next : ConsumePhase ρ σ} (hnext : (w.passes i).unflagged = some (lease, next)) :
    (w.check i lease next).Dated := by
  have hcarried : ∀ e ∈ next.dated, caseCreatedAt w.db e.1 = some e.2 := by
    unfold ConsumePhase.unflagged at hnext
    split at hnext
    · rename_i hphase
      cases hnext
      exact fun e he => h.passes i e (by rw [hphase]; exact he)
    · rename_i hphase
      cases hnext
      exact fun e he => h.passes i e (by rw [hphase]; exact he)
    · cases hnext
      exact fun _ => nofun
    · cases hnext
  unfold Consuming.check
  split
  · refine h.put i (fun e he => ?_)
    split at he
    · cases he
    · exact hcarried e he
  · exact h.put i (fun _ => nofun)

omit [ResultDocument ρ] [RequestDocument σ] [Sha256] in
/-- The case of the record that a process carries along is stored as the record says. -/
theorem Dated.stored (h : w.Dated) (i : Nat) (record : DurableReproductionRecord ρ σ)
    (hcarried : (recordCaseKey record, record.snapshot.case.createdAt) ∈ (w.passes i).dated) :
    caseCreatedAt w.db (recordCaseKey record) = some record.snapshot.case.createdAt :=
  h.passes i (recordCaseKey record, record.snapshot.case.createdAt) hcarried

omit [ResultDocument ρ] [Sha256] in
theorem Dated.execute (h : w.Dated) (hphase : w.passes i = .admitted message lease record) :
    (w.execute i message lease record).Dated := by
  have hstored := h.stored i record (by rw [hphase]; exact List.mem_singleton_self _)
  refine h.put i (fun e he => ?_)
  split at he
  · rename_i hworkable
    have htenant : record.tenantId = lease.tenantId := by
      simp only [workable, Bool.and_eq_true, beq_iff_eq] at hworkable
      exact hworkable.1.1.1.1.2
    rcases List.mem_pair.mp he with rfl | rfl
    · exact hstored
    · show caseCreatedAt w.db ⟨lease.tenantId, record.caseId⟩ = some record.snapshot.case.createdAt
      rw [← htenant]
      exact hstored
  · cases he

omit [ResultDocument ρ] [RequestDocument σ] [Sha256] in
theorem Dated.finish (h : w.Dated) {case : ReproCase} (hphase : w.passes i = .proved lease record case)
    (now : Instant) (result : Option ρ) : (w.finish i lease record case now result).Dated := by
  refine h.put i (fun e he => ?_)
  split at he
  · rename_i completed hcompleted
    obtain ⟨r, -, hr⟩ := Option.bind_eq_some_iff.mp hcompleted
    obtain ⟨hkey, hcase⟩ := completedRecord_some hr
    obtain rfl := List.mem_singleton.mp he
    refine h.passes i _ ?_
    rw [hphase, hkey, hcase]
    exact List.mem_singleton_self _
  · cases he

theorem Dated.completed (h : w.Dated) (hphase : w.passes i = .completing lease record) (attempts : List Attempt) :
    (w.settle i (do let _ ← completeLease lease record; pure ()) attempts).Dated := by
  refine h.settle i attempts (fun db' hr => ?_)
  obtain ⟨reply, hr⟩ := discard_ok hr
  refine completeLease_timesKept hr (fun t ht => ?_)
  have hstored := h.stored i record (by rw [hphase]; exact List.mem_singleton_self _)
  exact Option.some.inj (hstored.symm.trans ht)

end functions

/-- Step lemma. -/
theorem Dated.step {d : Deployment} {w : Consuming ρ σ} (h : w.Dated) {action : ConsumerAction ρ σ}
    (hp : w.Permitted action) : (Consuming.step d action w).Dated := by
  cases action with
  | wait ms => exact ⟨h.passes, h.coordinators⟩
  | call event => exact h.kept (step_timesKept hp)
  | claim i message ownerId now attempts =>
    simp only [Consuming.step]
    split
    · exact h.claim ownerId now attempts
    · exact h
  | find i =>
    simp only [Consuming.step]
    split
    · exact h.find
    · exact h
  | check i =>
    simp only [Consuming.step]
    split
    · rename_i lease next hnext
      exact h.check hnext
    · exact h
  | execute i =>
    simp only [Consuming.step]
    split
    · rename_i message lease record hphase
      exact h.execute hphase
    · exact h
  | finish i now result =>
    simp only [Consuming.step]
    split
    · rename_i lease record case hphase
      exact h.finish hphase now result
    · exact h
  | settle i now attempts =>
    simp only [Consuming.step]
    split
    · rename_i lease record hphase
      exact h.completed hphase attempts
    · refine h.settle i attempts (fun db' hr => ?_)
      obtain ⟨reply, hr⟩ := discard_ok hr
      exact (failLease_ok hr).timesKept
    · refine h.settle i attempts (fun db' hr => ?_)
      obtain ⟨reply, hr⟩ := discard_ok hr
      obtain ⟨j, c, cancelled, -, -, hw⟩ := cancelLease_ok hr
      exact hw.timesKept_of_cancelled rfl
    · exact h
  | crash i => exact h.put i (fun _ => nofun)
  | timeout i | abort i | advance i | experiments i now | coordinatorTimeout i | assemble i | prove i moves
  | throw i thrown =>
    simp only [Consuming.step]
    split
    · rename_i x hx
      exact h.drive hx _
    · exact h

/-! ## Histories of retries -/

/-- Any database, in which no process has begun. -/
def initial (db : Db ρ σ) : Consuming ρ σ := ⟨db, 0, fun _ => .idle, [], []⟩

theorem run_timed (d : Deployment) (actions : List (ConsumerAction ρ σ)) (db : Db ρ σ) :
    (Runs.run (Consuming.step d) actions (initial db)).Timed d := by
  have hstep : ∀ (w : Consuming ρ σ) action, w.Timed d → (Consuming.step d action w).Timed d :=
    fun w action hw => hw.step action
  have hinitial : (initial db).Timed d := ⟨fun _ => nofun, fun _ _ => nofun, fun _ => nofun⟩
  exact Runs.run_keeps hstep hinitial

theorem run_dated {d : Deployment} {actions : List (ConsumerAction ρ σ)} {db : Db ρ σ}
    (h : Runs.Guarded (Consuming.step d) Permitted actions (initial db)) :
    (Runs.run (Consuming.step d) actions (initial db)).Dated := by
  have hstep : ∀ (w : Consuming ρ σ) action, w.Dated → w.Permitted action → (Consuming.step d action w).Dated :=
    fun w action hw hp => hw.step hp
  have hinitial : (initial db).Dated := ⟨fun _ _ => nofun, fun _ => nofun⟩
  exact Runs.run_invariant hstep hinitial h

omit [ResultDocument ρ] [RequestDocument σ] [Sha256] in
/-- A call that got what was left of its own timeout is out of budget only when that has passed. -/
theorem Timed.spent {d : Deployment} {w : Consuming ρ σ} (h : w.Timed d) {f : FailedCall} (hf : f ∈ w.failed)
    (hown : ∀ k ∈ w.coordinators, k.call = f.call →
      k.attemptTimeoutMs = budget d.runner.attemptTimeoutMs k.elapsed)
    (hcode : f.error.code = .budgetExhausted) (hlimit : f.thrown ≠ .lifecycle .budgetExhausted) :
    f.call.beganAt + d.runner.attemptTimeoutMs ≤ (f.endedAt : Int) := by
  rcases h.failed f hf hcode with hspent | ⟨k, hk, hcall, hdue⟩ | hreported
  · exact hspent
  · obtain ⟨-, hbegan⟩ := h.coordinators k hk
    rw [hown k hk hcall, Coordinator.elapsed] at hdue
    rw [hcall] at hbegan hdue
    unfold budget at hdue
    omega
  · exact absurd hreported hlimit

/-- In every run, the later attempts have usable budgets exactly when each of them
reached its experiments as old as its case, or with its timeout used up; and the
age of a case is counted from the creation that all its attempts share. -/
theorem retry_budgets (d : Deployment) (db : Db ρ σ) (actions : List (ConsumerAction ρ σ)) :
    (UsableBudgets d (Runs.run (Consuming.step d) actions (initial db)) ↔
      ∀ k ∈ (Runs.run (Consuming.step d) actions (initial db)).coordinators, k.call.later → k.Fresh d) ∧
    (Runs.Guarded (Consuming.step d) Permitted actions (initial db) →
      ∀ k ∈ (Runs.run (Consuming.step d) actions (initial db)).coordinators,
        caseCreatedAt (Runs.run (Consuming.step d) actions (initial db)).db k.call.caseKey =
          some k.call.createdAt) := by
  have htimed := run_timed d actions db
  refine ⟨?_, fun hguarded => (run_dated hguarded).coordinators⟩
  have hfresh : ∀ k ∈ (Runs.run (Consuming.step d) actions (initial db)).coordinators,
      k.attemptTimeoutMs = budget d.runner.attemptTimeoutMs k.elapsed ↔ k.Fresh d := by
    intro k hk
    rw [(htimed.coordinators k hk).1]
    exact budget_eq_iff
  constructor
  · intro h k hk hlater
    exact (hfresh k hk).mp (h.own k hk hlater)
  · intro h
    have hown := fun k hk hlater => (hfresh k hk).mpr (h k hk hlater)
    refine ⟨hown, fun f hf hlater hcode hlimit => ?_⟩
    exact htimed.spent hf (fun k hk hcall => hown k hk (hcall ▸ hlater)) hcode hlimit

end Consuming

end ReproForge

/-! ## A case that waited -/

namespace ReproForge.Sample.Retries

open KeyedTable Sample

/-- The request of a sample is the revision that it names. -/
scoped instance : RequestDocument ImmutableRepositorySource := ⟨ImmutableRepositorySource.valid, id⟩

def source : ImmutableRepositorySource := ⟨"da39a3ee5e6b4b0d3255bfef95601890afd80709", "acme/web", true, "repo-1"⟩

def start : StartCommand ImmutableRepositorySource where
  budget := ⟨6, 3⟩
  callerId := "caller"
  caseId := "case-1"
  commandHash := "6f5902ac237024bdd0c176cb93063dc46f5902ac237024bdd0c176cb93063dc4"
  createdAt := opening
  idempotencyKey := "key-1"
  jobId := "job-1"
  principalId := "caller"
  source := .repository source source
  tenantId := "acme"

def started : Db Empty ImmutableRepositorySource :=
  match startInput (ρ := Empty) reservationLifetime start with
  | some input => (reserveDurableStart .default input (Db.initial opening tenants)).2
  | none => Db.initial opening tenants

def deployment : Deployment where
  runner := ⟨maxTotalAttemptMs, by decide⟩
  leaseSeconds := 960
  leaseSeconds_range := by decide

def message (kind : MessageKind) : QueueMessage := ⟨"case-1", "event-1", "job-1", kind, "1.0", "acme"⟩

/-- One pass of the consumer up to the call of `execute`. -/
def attempt (kind : MessageKind) (now : Instant) : List (ConsumerAction Empty ImmutableRepositorySource) :=
  [.claim 0 (message kind) "worker-1" now [], .find 0, .check 0, .execute 0]

/-- The first attempt fails after a minute and is requeued. -/
def interrupted : List (ConsumerAction Empty ImmutableRepositorySource) :=
  attempt .requested opening ++ [.wait 60000, .throw 0 (.other ""), .check 0, .settle 0 (opening + 60000) []]

/-- The second attempt begins some time after the first one and reaches its experiments in half a minute. -/
def retried (after : Nat) : List (ConsumerAction Empty ImmutableRepositorySource) :=
  interrupted ++ .wait (after - 60000) :: attempt .recoveryRequested (opening + after) ++
    [.advance 0, .advance 0, .advance 0, .advance 0, .wait 30000, .experiments 0 (opening + after + 30000)]

/-- The timer of its coordinator ends it. -/
def expired (after : Nat) : List (ConsumerAction Empty ImmutableRepositorySource) :=
  retried after ++ [.wait 1, .coordinatorTimeout 0, .throw 0 (.lifecycle .attemptTimeout), .check 0,
    .settle 0 (opening + after + 30001) []]

def history (actions : List (ConsumerAction Empty ImmutableRepositorySource)) :
    Consuming Empty ImmutableRepositorySource :=
  Runs.run (Consuming.step deployment) actions (.initial started)

/-- The second attempt needs its whole timeout to reach its experiments. -/
def slow : List (ConsumerAction Empty ImmutableRepositorySource) :=
  interrupted ++ .wait 5000 :: attempt .recoveryRequested (opening + 65000) ++
    [.advance 0, .advance 0, .advance 0, .advance 0, .wait 900000, .experiments 0 (opening + 965000)]

def ages (k : Coordinator) : Nat × Int × Nat := (k.call.lease.attempt, k.age, k.elapsed)

def failure (f : FailedCall) : Nat × RepositoryExecutionCode × Nat :=
  (f.call.lease.attempt, f.error.code, f.endedAt - f.call.beganAt)

def outcome (j : JobRow) : JobState × Option String := (j.state, j.failureCode)

def given (k : Coordinator) : Nat × Nat × Int := (k.call.lease.attempt, k.elapsed, k.attemptTimeoutMs)

/-- What becomes of an attempt that comes soon, of one that comes an hour later,
of that one in the end, and of one that takes its whole timeout to prepare. -/
theorem histories :
    (history (retried 65000)).coordinators.map given = [(2, 30000, 805000)] ∧
    (history (retried 3600000)).coordinators.map given = [(2, 30000, 1)] ∧
    (history (expired 3600000)).failed.map failure =
      [(2, .budgetExhausted, 30001), (1, .executionFailed, 60000)] ∧
    ((history (expired 3600000)).db.jobs.get ⟨"acme", "job-1"⟩).map outcome =
      some (.failed, some "BUDGET_EXHAUSTED") ∧
    (history slow).coordinators.map ages = [(2, 965000, 900000)] := by
  decide +kernel

end ReproForge.Sample.Retries

namespace ReproForge

open Sample.Retries Sample

theorem retry_budgets_sample :
    UsableBudgets deployment (history slow) ∧
      ∀ k ∈ (history slow).coordinators,
        caseCreatedAt (history slow).db k.call.caseKey = some k.call.createdAt := by
  obtain ⟨husable, hdated⟩ := Consuming.retry_budgets deployment started slow
  refine ⟨husable.mpr (fun k hk _ => ?_), hdated ?_⟩
  · have hages : ages k ∈ (history slow).coordinators.map ages := List.mem_map_of_mem hk
    rw [histories.2.2.2.2, List.mem_singleton, ages, Prod.mk.injEq, Prod.mk.injEq] at hages
    obtain ⟨-, hage, helapsed⟩ := hages
    right
    rw [hage, helapsed]
    decide
  · simp [slow, Retries.interrupted, attempt, Runs.Guarded, Consuming.Permitted]

/-- No function of the timeout and of the time since the call began is what the
later attempts get, and an attempt on a case that waited for an hour gets a
millisecond, after which its job has failed for good. -/
theorem aged_case_starved :
    (¬ ∃ f : Int → Nat → Int, ∀ actions, ∀ k ∈ (history actions).coordinators, k.call.later →
      k.attemptTimeoutMs = f deployment.runner.attemptTimeoutMs k.elapsed) ∧
    (history (expired 3600000)).failed.map failure =
      [(2, .budgetExhausted, 30001), (1, .executionFailed, 60000)] ∧
    ((history (expired 3600000)).db.jobs.get ⟨"acme", "job-1"⟩).map outcome =
      some (.failed, some "BUDGET_EXHAUSTED") := by
  refine ⟨?_, histories.2.2.1, histories.2.2.2.1⟩
  rintro ⟨f, hf⟩
  have depends : ∀ after time, (history (retried after)).coordinators.map given = [(2, 30000, time)] →
      time = f deployment.runner.attemptTimeoutMs 30000 := by
    intro after time h
    have hmem : (2, 30000, time) ∈ (history (retried after)).coordinators.map given := by
      rw [h]
      exact List.mem_singleton_self _
    obtain ⟨k, hk, hgiven⟩ := List.mem_map.mp hmem
    simp only [given, Prod.mk.injEq] at hgiven
    obtain ⟨hattempt, helapsed, htime⟩ := hgiven
    rw [← htime, ← helapsed]
    exact hf _ k hk (by rw [RunnerCall.later, hattempt]; decide)
  have hsoon := depends _ _ histories.1
  have hlate := depends _ _ histories.2.1
  exact absurd (hsoon.trans hlate.symm) (by decide)

end ReproForge
