import ReproForge.IsolatedRunner
import ReproForge.SandboxQuarantine

/-!
# Runs from a snapshot

`SnapshotRunCoordinator.execute`, one step for each call that comes back: the
prepared session becomes a snapshot, every experiment runs in a session restored
from it, and each session and the snapshot are given back whatever happens.
Cancellation and the attempt's timer may strike between any two steps.
-/
namespace ReproForge

/-! ## Resources and errors -/

/-- A session of the provider: the object, and the sandbox that it drives. -/
structure SandboxSession where
  object : Nat
  sandboxId : String
  deriving DecidableEq, Repr

inductive CleanupStatus where
  | clean | quarantined
  deriving DecidableEq, Repr

inductive ExecutionLimitCode where
  | artifactLimitExceeded | attemptTimeout | commandTimeout | memoryLimitExceeded | outputInvalid
  | processLimitExceeded | providerInterrupted | workspaceLimitExceeded
  deriving DecidableEq, Repr

/-- What the callback of an experiment may throw. -/
inductive RunError where
  | limit (code : ExecutionLimitCode)
  | lifecycle (code : AttemptLifecycleCode)
  | other
  deriving DecidableEq, Repr

def isProviderInterruption : RunError → Bool
  | .limit code => code == .providerInterrupted
  | _ => false

def isBudgetExhaustion : RunError → Bool
  | .limit code => code != .providerInterrupted
  | _ => false

/-- What has to be given back to the provider. -/
inductive LifecycleResource where
  | sandbox (session : SandboxSession)
  | snapshot (snapshotId : String)
  deriving DecidableEq, Repr

structure QuarantineRecord where
  attemptId : String
  providerResourceId : String
  resourceType : QuarantineResourceType
  deriving DecidableEq, Repr

def LifecycleResource.record (attemptId : String) : LifecycleResource → QuarantineRecord
  | .sandbox session => ⟨attemptId, session.sandboxId, .sandbox⟩
  | .snapshot snapshotId => ⟨attemptId, snapshotId, .snapshot⟩

/-! ## A coordinator and its input -/

/-- What the constructor accepts. -/
structure SnapshotRunCoordinator where
  maxProviderRetries : Nat
  retries_le : maxProviderRetries ≤ 1

/-- The input of `execute` that passes its schemas. -/
structure AttemptInput where
  attemptId : String
  preparedSession : SandboxSession
  runCount : Nat
  opaqueAttempt : opaqueId attemptId = true
  counted : 1 ≤ runCount ∧ runCount ≤ 6

/-- The calls that the coordinator makes, and the replies to them. -/
inductive LifecycleEvent (β : Type) where
  | snapshot (session : SandboxSession)
  | snapshotted (reply : Option String)
  | createFromSnapshot (snapshotId : String)
  | created (reply : Option SandboxSession)
  | run (index : Nat) (session : SandboxSession)
  | ran (index : Nat) (session : SandboxSession) (reply : Except RunError β)
  | stop (session : SandboxSession)
  | delete (snapshotId : String)
  /-- The resource was given back, or not. -/
  | returned (resource : LifecycleResource) (gone : Bool)
  | record (record : QuarantineRecord) (resource : LifecycleResource)
  | recorded (resource : LifecycleResource)

abbrev LifecycleTrace (β : Type) := List (LifecycleEvent β)

/-- The promise of `cleanupSession`: the stop is pending, it failed and its record is pending, or it is done. -/
inductive StopPhase where
  | stopping | recording | settled
  deriving DecidableEq, Repr

/-- What comes after a session was given back. -/
inductive AfterRun where
  | retry (index retries : Nat)
  | next (index : Nat)
  | fail (code : AttemptLifecycleCode)
  deriving DecidableEq, Repr

structure SnapshotRunResult (β : Type) where
  cleanupStatus : CleanupStatus
  providerRetries : Nat
  values : List β

structure AttemptLifecycleError where
  code : AttemptLifecycleCode
  cleanupStatus : CleanupStatus
  deriving DecidableEq, Repr

/-- What `execute` awaits. -/
inductive SnapshotPhase (β : Type) where
  | snapshotting
  | stoppingPrepared (snapshotId : String)
  | creating (index retries : Nat) (snapshotId : String)
  | running (index retries : Nat) (session : SandboxSession) (snapshotId : String)
  | stopping (session : SandboxSession) (after : AfterRun) (snapshotId : String)
  /-- The `finally` of `execute`, with the error that was caught. -/
  | closing (failure : Option AttemptLifecycleCode) (snapshot : Option String)
  | deleting (failure : Option AttemptLifecycleCode) (snapshotId : String)
  | recording (failure : Option AttemptLifecycleCode) (snapshotId : String)
  | settled (outcome : Except AttemptLifecycleError (SnapshotRunResult β))

structure SnapshotRun (β : Type) where
  timer : AbortTimer
  /-- The `WeakMap` of the stops that have begun. -/
  cleanup : SandboxSession → Option StopPhase
  cleanupStatus : CleanupStatus
  providerRetries : Nat
  values : List β
  phase : SnapshotPhase β
  events : LifecycleTrace β

/-- What happens next: an abort, or a promise that settles. -/
inductive SnapshotAction (β : Type) where
  | cancel
  | expire
  | snapshotReply (reply : Option String)
  | createReply (reply : Option SandboxSession)
  | runReply (reply : Except RunError β)
  | stopReply (session : SandboxSession) (gone : Bool)
  | stopRecorded (session : SandboxSession)
  /-- The stop that is awaited was done. -/
  | resume
  | deleteReply (gone : Bool)
  | deleteRecorded

namespace SnapshotRun

variable {β : Type}

/-! ## The parts of `execute` -/

def log (r : SnapshotRun β) (event : LifecycleEvent β) : SnapshotRun β := { r with events := r.events ++ [event] }

def become (r : SnapshotRun β) (phase : SnapshotPhase β) : SnapshotRun β := { r with phase := phase }

def setStop (r : SnapshotRun β) (session : SandboxSession) (phase : StopPhase) : SnapshotRun β :=
  { r with cleanup := Function.update r.cleanup session (some phase) }

/-- A session whose stop has begun is not stopped again. -/
def cleanupSession (r : SnapshotRun β) (session : SandboxSession) : SnapshotRun β :=
  match r.cleanup session with
  | some _ => r
  | none => (r.setStop session .stopping).log (.stop session)

def quarantine (i : AttemptInput) (r : SnapshotRun β) (resource : LifecycleResource) : SnapshotRun β :=
  { r with cleanupStatus := .quarantined }.log (.record (resource.record i.attemptId) resource)

/-- `timedOut ? "ATTEMPT_TIMEOUT" : "CANCELLED"` -/
def abortedCode (r : SnapshotRun β) : AttemptLifecycleCode := if r.timer.timedOut then .attemptTimeout else .cancelled

/-- The `finally` of `execute` begins. -/
def close (i : AttemptInput) (r : SnapshotRun β) (failure : Option AttemptLifecycleCode) (snapshot : Option String) :
    SnapshotRun β :=
  (r.cleanupSession i.preparedSession).become (.closing failure snapshot)

/-- The head of the loop over the attempts of one experiment. -/
def attempt (i : AttemptInput) (r : SnapshotRun β) (index retries : Nat) (snapshotId : String) : SnapshotRun β :=
  if r.timer.aborted then r.close i (some r.abortedCode) (some snapshotId)
  else (r.become (.creating index retries snapshotId)).log (.createFromSnapshot snapshotId)

/-- The head of the loop over the experiments. -/
def experiment (i : AttemptInput) (r : SnapshotRun β) (index : Nat) (snapshotId : String) : SnapshotRun β :=
  if index < i.runCount then r.attempt i index 0 snapshotId else r.close i none (some snapshotId)

/-- The inner `finally`. -/
def release (r : SnapshotRun β) (session : SandboxSession) (after : AfterRun) (snapshotId : String) : SnapshotRun β :=
  (r.cleanupSession session).become (.stopping session after snapshotId)

def retried (r : SnapshotRun β) : SnapshotRun β := { r with providerRetries := r.providerRetries + 1 }

def push (r : SnapshotRun β) (value : β) : SnapshotRun β := { r with values := r.values ++ [value] }

def finish (r : SnapshotRun β) (failure : Option AttemptLifecycleCode) : SnapshotRun β :=
  r.become (.settled (match failure with
    | some code => .error ⟨code, r.cleanupStatus⟩
    | none => .ok ⟨r.cleanupStatus, r.providerRetries, r.values⟩))

/-! ## Steps -/

/-- The listener that is registered while an experiment runs. -/
def aborts (r : SnapshotRun β) : SnapshotRun β :=
  match r.phase with
  | .running _ _ session _ => r.cleanupSession session
  | _ => r

/-- The signal fires its event once. -/
def cancel (r : SnapshotRun β) : SnapshotRun β :=
  if r.timer.aborted then r else { r with timer := r.timer.abort }.aborts

def expire (r : SnapshotRun β) : SnapshotRun β :=
  if r.timer.aborted then { r with timer := r.timer.expire } else { r with timer := r.timer.expire }.aborts

def snapshotReply (i : AttemptInput) (r : SnapshotRun β) : Option String → SnapshotRun β
  | none => r.close i (some (if r.timer.aborted then r.abortedCode else .providerInterrupted)) none
  | some snapshotId => (r.cleanupSession i.preparedSession).become (.stoppingPrepared snapshotId)

def createReply (k : SnapshotRunCoordinator) (i : AttemptInput) (r : SnapshotRun β) (index retries : Nat)
    (snapshotId : String) : Option SandboxSession → SnapshotRun β
  | none =>
    if r.timer.aborted then r.close i (some r.abortedCode) (some snapshotId)
    else if retries < k.maxProviderRetries then r.retried.attempt i index (retries + 1) snapshotId
    else r.close i (some .providerInterrupted) (some snapshotId)
  | some session => (r.become (.running index retries session snapshotId)).log (.run index session)

/-- The `try` and the `catch` around the callback. -/
def runReply (k : SnapshotRunCoordinator) (r : SnapshotRun β) (index retries : Nat) (session : SandboxSession)
    (snapshotId : String) : Except RunError β → SnapshotRun β
  | .ok value =>
    if r.timer.aborted then r.release session (.fail r.abortedCode) snapshotId
    else (r.push value).release session (.next (index + 1)) snapshotId
  | .error error =>
    if r.timer.aborted then r.release session (.fail r.abortedCode) snapshotId
    else if isBudgetExhaustion error then r.release session (.fail .budgetExhausted) snapshotId
    else if isProviderInterruption error && retries < k.maxProviderRetries then
      r.retried.release session (.retry index (retries + 1)) snapshotId
    else if isProviderInterruption error then r.release session (.fail .providerInterrupted) snapshotId
    else
      match error with
      | .lifecycle code => r.release session (.fail code) snapshotId
      | _ => r.release session (.fail .executionFailed) snapshotId

def stopReply (i : AttemptInput) (r : SnapshotRun β) (session : SandboxSession) (gone : Bool) : SnapshotRun β :=
  let r := r.log (.returned (.sandbox session) gone)
  if gone then r.setStop session .settled else (r.quarantine i (.sandbox session)).setStop session .recording

def deleteReply (i : AttemptInput) (r : SnapshotRun β) (failure : Option AttemptLifecycleCode) (snapshotId : String)
    (gone : Bool) : SnapshotRun β :=
  let r := r.log (.returned (.snapshot snapshotId) gone)
  if gone then r.finish failure else (r.quarantine i (.snapshot snapshotId)).become (.recording failure snapshotId)

/-- The code after an `await cleanupSession(session)` that is done. -/
def resume (i : AttemptInput) (r : SnapshotRun β) : SnapshotRun β :=
  match r.phase with
  | .stoppingPrepared snapshotId =>
    if r.cleanup i.preparedSession = some .settled then r.experiment i 0 snapshotId else r
  | .stopping session after snapshotId =>
    if r.cleanup session = some .settled then
      match after with
      | .retry index retries => r.attempt i index retries snapshotId
      | .next index => r.experiment i index snapshotId
      | .fail code => r.close i (some code) (some snapshotId)
    else r
  | .closing failure snapshot =>
    if r.cleanup i.preparedSession = some .settled then
      match snapshot with
      | some snapshotId => (r.become (.deleting failure snapshotId)).log (.delete snapshotId)
      | none => r.finish failure
    else r
  | _ => r

def step (k : SnapshotRunCoordinator) (i : AttemptInput) (action : SnapshotAction β) (r : SnapshotRun β) :
    SnapshotRun β :=
  match action, r.phase with
  -- the timer is cleared and the listener removed
  | .cancel, .settled _ => r
  | .expire, .settled _ => r
  | .cancel, _ => r.cancel
  | .expire, _ => r.expire
  | .snapshotReply reply, .snapshotting => (r.log (.snapshotted reply)).snapshotReply i reply
  | .createReply reply, .creating index retries snapshotId =>
    (r.log (.created reply)).createReply k i index retries snapshotId reply
  | .runReply reply, .running index retries session snapshotId =>
    (r.log (.ran index session reply)).runReply k index retries session snapshotId reply
  | .stopReply session gone, _ => if r.cleanup session = some .stopping then r.stopReply i session gone else r
  | .stopRecorded session, _ =>
    if r.cleanup session = some .recording then
      (r.log (.recorded (.sandbox session))).setStop session .settled
    else r
  | .resume, _ => r.resume i
  | .deleteReply gone, .deleting failure snapshotId => r.deleteReply i failure snapshotId gone
  | .deleteRecorded, .recording failure snapshotId => (r.log (.recorded (.snapshot snapshotId))).finish failure
  | _, _ => r

/-- `execute` up to its first `await`, called with a signal that may be aborted already. -/
def start (i : AttemptInput) (aborted : Bool) : SnapshotRun β :=
  let r : SnapshotRun β :=
    ⟨if aborted then AbortTimer.armed.abort else .armed, fun _ => none, .clean, 0, [], .snapshotting, []⟩
  if aborted then r.close i (some .cancelled) none else r.log (.snapshot i.preparedSession)

end SnapshotRun

end ReproForge
