import Mathlib
import ReproForge.ExperimentWorkspaces
import ReproForge.SnapshotResults

/-!
# The sandboxes of the isolated runner

`IsolatedRepositoryRunner.execute` as its sandboxes see it: it prepares one
session, stops it itself as long as it is in charge, and hands it over to a
coordinator. Whatever fails or is aborted, no session is left behind.
-/
namespace ReproForge

open LifecycleEvent

variable {β : Type}

/-! ## The input -/

/-- The part of the input that decides the sandboxes, past `runnerInputSchema`. -/
structure RunnerAttempt where
  attemptId : String
  profile : NodeRepositoryProfile
  requiredRuns : Int
  source : ImmutableRepositorySource
  opaqueAttempt : opaqueId attemptId = true
  validProfile : profile.valid = true
  admitted : 3 ≤ requiredRuns ∧ requiredRuns ≤ 5
  validSource : source.valid = true

namespace RunnerAttempt

/-- `experimentCommands` -/
def experimentCommands (a : RunnerAttempt) : List SandboxCommand :=
  ((buildNodeExecutionPlan a.profile a.requiredRuns a.source).map RepositoryExecutionPlan.experiments).getD []

theorem experimentCommands_length (a : RunnerAttempt) : a.experimentCommands.length = a.requiredRuns.toNat + 1 := by
  obtain ⟨hleast, hmost⟩ := a.admitted
  have hcommands : a.experimentCommands =
      (planCommands a.profile a.requiredRuns.toNat).filter SandboxCommand.experiment := by
    rw [experimentCommands, buildNodeExecutionPlan_ok a.validProfile hleast hmost a.validSource, Option.map_some,
      Option.getD_some, RepositoryExecutionPlan.experiments]
  rw [hcommands, experiments_planCommands, List.length_cons, List.length_map, List.length_range]

/-- The schemas of the coordinator accept what the runner passes on. -/
def attemptInput (a : RunnerAttempt) (prepared : SandboxSession) : AttemptInput where
  attemptId := a.attemptId
  preparedSession := prepared
  runCount := a.experimentCommands.length
  opaqueAttempt := a.opaqueAttempt
  counted := by
    obtain ⟨hleast, hmost⟩ := a.admitted
    rw [a.experimentCommands_length]
    omega

end RunnerAttempt

theorem default_retries_le : 1 ≤ 1 := le_rfl

/-- `maxProviderRetries` has its default. -/
def runnerCoordinator : SnapshotRunCoordinator := ⟨1, default_retries_le⟩

/-! ## A call of `execute` -/

/-- The promise `stopPrepared`. -/
inductive PreparedStop where
  | unasked
  | pending
  | answered (gone : Bool)
  deriving DecidableEq, Repr

/-- A call of `cleanupPrepared`. -/
inductive CleanupCall where
  | stopping | recording | done
  deriving DecidableEq, Repr

inductive RunnerPhase (β : Type) where
  /-- `provider.create` -/
  | provisioning
  | preparing (stage : RepositoryExecutionStage) (prepared : SandboxSession)
  /-- The lifecycle owns the prepared session. -/
  | coordinating (prepared : SandboxSession) (lifecycle : SnapshotRun β)
  | proving (prepared : SandboxSession) (lifecycle : SnapshotRun β)
  /-- The `finally` of `execute`. -/
  | cleaning (prepared : SandboxSession) (call : CleanupCall)
  | settled (prepared : Option SandboxSession) (lifecycle : Option (SnapshotRun β))

structure RunnerRun (β : Type) where
  timer : AbortTimer
  stopPrepared : PreparedStop
  /-- The call of `cleanupPrepared` by the listener, which nothing awaits. -/
  listener : Option CleanupCall
  phase : RunnerPhase β
  /-- The calls of the runner itself and their replies. -/
  events : LifecycleTrace β

inductive RunnerAction (β : Type) where
  | cancel
  | expire
  | createReply (reply : Option SandboxSession)
  /-- The stage returns, or it throws. -/
  | stageReply (returns : Bool)
  | lifecycle (action : SnapshotAction β)
  /-- `coordinator.execute` has settled; its values are accepted, or not. -/
  | executed (accepted : Bool)
  | proofReply
  | stopReply (gone : Bool)
  | listenerResumes
  | listenerRecorded
  | cleanupResumes
  | cleanupRecorded

namespace RunnerRun

def log (r : RunnerRun β) (event : LifecycleEvent β) : RunnerRun β := { r with events := r.events ++ [event] }

def become (r : RunnerRun β) (phase : RunnerPhase β) : RunnerRun β := { r with phase := phase }

/-- `stopPrepared ??= prepared.stop()` -/
def askStop (r : RunnerRun β) (prepared : SandboxSession) : RunnerRun β :=
  if r.stopPrepared = .unasked then { r with stopPrepared := .pending }.log (.stop prepared) else r

/-- `if (!lifecycleOwnsPrepared) await cleanupPrepared()` -/
def clean (r : RunnerRun β) (prepared : SandboxSession) : RunnerRun β :=
  (r.askStop prepared).become (.cleaning prepared .stopping)

/-- What the abort of the runner's signal sets off. -/
def aborts (r : RunnerRun β) (a : RunnerAttempt) : RunnerRun β :=
  match r.phase with
  | .preparing _ prepared => { r.askStop prepared with listener := some .stopping }
  | .coordinating prepared lifecycle =>
    r.become (.coordinating prepared (lifecycle.step runnerCoordinator (a.attemptInput prepared) .cancel))
  | _ => r

def cancel (r : RunnerRun β) (a : RunnerAttempt) : RunnerRun β :=
  if r.timer.aborted then r else { r with timer := r.timer.abort }.aborts a

def expire (r : RunnerRun β) (a : RunnerAttempt) : RunnerRun β :=
  if r.timer.aborted then { r with timer := r.timer.expire } else { r with timer := r.timer.expire }.aborts a

/-- After the last stage the coordinator begins, with the signal as it is. -/
def stageReturns (a : RunnerAttempt) (r : RunnerRun β) (stage : RepositoryExecutionStage) (prepared : SandboxSession) :
    RunnerRun β :=
  match stage.next with
  | some next => r.become (.preparing next prepared)
  | none => r.become (.coordinating prepared (.start (a.attemptInput prepared) r.timer.aborted))

/-- A stop that was answered ends a call of `cleanupPrepared`, or has it record the sandbox. -/
def answered (a : RunnerAttempt) (prepared : SandboxSession) (r : RunnerRun β) (gone : Bool) : RunnerRun β :=
  if gone then r
  else r.log (.record (LifecycleResource.record a.attemptId (.sandbox prepared)) (.sandbox prepared))

def step (a : RunnerAttempt) (action : RunnerAction β) (r : RunnerRun β) : RunnerRun β :=
  match action, r.phase with
  -- the `finally` clears the timer and removes the listener before it cleans up
  | .cancel, .settled _ _ => r
  | .expire, .settled _ _ => r
  | .cancel, .cleaning _ _ => r
  | .expire, .cleaning _ _ => r
  | .cancel, _ => r.cancel a
  | .expire, _ => r.expire a
  | .createReply none, .provisioning => (r.log (.created none)).become (.settled none none)
  | .createReply (some prepared), .provisioning =>
    (r.log (.created (some prepared))).become (.preparing .acquisition prepared)
  | .stageReply returns, .preparing stage prepared =>
    if returns then r.stageReturns a stage prepared else r.clean prepared
  | .lifecycle .cancel, .coordinating _ _ => r
  | .lifecycle action, .coordinating prepared lifecycle =>
    r.become (.coordinating prepared (lifecycle.step runnerCoordinator (a.attemptInput prepared) action))
  | .executed accepted, .coordinating prepared lifecycle =>
    match lifecycle.phase with
    | .settled (.ok _) => if accepted then r.become (.proving prepared lifecycle) else r.become (.settled (some prepared) (some lifecycle))
    | .settled (.error _) => r.become (.settled (some prepared) (some lifecycle))
    | _ => r
  | .proofReply, .proving prepared lifecycle => r.become (.settled (some prepared) (some lifecycle))
  | .stopReply gone, _ =>
    match r.stopPrepared, (r.events.filterMap createdSession).head? with
    | .pending, some prepared => { r with stopPrepared := .answered gone }.log (.returned (.sandbox prepared) gone)
    | _, _ => r
  | .listenerResumes, _ =>
    match r.listener, r.stopPrepared, (r.events.filterMap createdSession).head? with
    | some .stopping, .answered gone, some prepared =>
      { r with listener := some (if gone then .done else .recording) }.answered a prepared gone
    | _, _, _ => r
  | .listenerRecorded, _ =>
    match r.listener, (r.events.filterMap createdSession).head? with
    | some .recording, some prepared => { r with listener := some .done }.log (.recorded (.sandbox prepared))
    | _, _ => r
  | .cleanupResumes, .cleaning prepared .stopping =>
    match r.stopPrepared with
    | .answered true => r.become (.settled (some prepared) none)
    | .answered false => (r.answered a prepared false).become (.cleaning prepared .recording)
    | _ => r
  | .cleanupRecorded, .cleaning prepared .recording =>
    (r.log (.recorded (.sandbox prepared))).become (.settled (some prepared) none)
  | _, _ => r

/-- `execute` up to its first `await`, called with a signal that may be aborted already. -/
def start (aborted : Bool) : RunnerRun β :=
  if aborted then ⟨AbortTimer.armed.abort, .unasked, none, .settled none none, []⟩
  else ⟨.armed, .unasked, none, .provisioning, []⟩

/-! ## The invariant -/

open LifecycleTrace

variable {a : RunnerAttempt} {r : RunnerRun β} {prepared : SandboxSession}

/-- The sessions that the provider handed to the runner itself. -/
def handed (r : RunnerRun β) : List SandboxSession := r.events.filterMap createdSession

/-- The answers to the stop of the runner's session. -/
def PreparedStop.answers : PreparedStop → List Bool
  | .answered gone => [gone]
  | _ => []

/-- The stop of the runner's session and its records agree with the trace. -/
structure Kept (a : RunnerAttempt) (r : RunnerRun β) (prepared : SandboxSession) : Prop where
  handed : r.handed = [prepared]
  stops : ∀ session, r.events.stops session = if r.stopPrepared ≠ .unasked ∧ session = prepared then 1 else 0
  returns : r.events.returns (.sandbox prepared) = PreparedStop.answers r.stopPrepared
  recording : r.listener = some .recording → r.stopPrepared = .answered false

/-- A lifecycle that a run of the coordinator reaches. -/
def Reached (a : RunnerAttempt) (prepared : SandboxSession) (lifecycle : SnapshotRun β) : Prop :=
  ∃ aborted actions, lifecycle =
    Runs.run (SnapshotRun.step runnerCoordinator (a.attemptInput prepared)) actions (.start (a.attemptInput prepared) aborted)

/-- What each phase knows. -/
def PhaseKnows (a : RunnerAttempt) (r : RunnerRun β) : RunnerPhase β → Prop
  | .provisioning => r.events = [] ∧ r.stopPrepared = .unasked ∧ r.listener = none
  | .preparing _ prepared => r.Kept a prepared
  | .coordinating prepared lifecycle => r.Kept a prepared ∧ Reached a prepared lifecycle
  | .proving prepared lifecycle =>
    r.Kept a prepared ∧ Reached a prepared lifecycle ∧ ∃ outcome, lifecycle.phase = .settled outcome
  | .cleaning prepared call => r.Kept a prepared ∧ r.stopPrepared ≠ .unasked ∧
      (call = .recording → r.stopPrepared = .answered false ∧
        .record (LifecycleResource.record a.attemptId (.sandbox prepared)) (.sandbox prepared) ∈ r.events)
  | .settled (some prepared) (some lifecycle) =>
    r.Kept a prepared ∧ Reached a prepared lifecycle ∧ ∃ outcome, lifecycle.phase = .settled outcome
  | .settled (some prepared) none => r.Kept a prepared ∧ r.events.GivenBack a.attemptId (.sandbox prepared)
  | .settled none none => r.handed = [] ∧ ∀ session, r.events.stops session = 0
  | .settled none (some _) => False

def Safe (a : RunnerAttempt) (r : RunnerRun β) : Prop := r.PhaseKnows a r.phase

/-! ## What each part keeps -/

/-- Nothing that concerns the stop of a session. -/
def Silent (added : LifecycleTrace β) : Prop :=
  ∀ event ∈ added, createdSession event = none ∧ stopCall event = none ∧ ∀ resource, returnOf resource event = none

section silent

variable {added : LifecycleTrace β} (hadded : Silent added) (events : LifecycleTrace β)

include hadded

theorem stops_silent (session : SandboxSession) :
    LifecycleTrace.stops (events ++ added) session = events.stops session := by
  rw [LifecycleTrace.stops, List.filterMap_append, List.filterMap_eq_nil_iff.mpr fun e he => (hadded e he).2.1,
    List.append_nil, LifecycleTrace.stops]

theorem returns_silent (resource : LifecycleResource) :
    LifecycleTrace.returns (events ++ added) resource = events.returns resource := by
  rw [LifecycleTrace.returns, List.filterMap_append,
    List.filterMap_eq_nil_iff.mpr fun e he => (hadded e he).2.2 resource, List.append_nil, LifecycleTrace.returns]

theorem created_silent : (events ++ added).filterMap createdSession = events.filterMap createdSession := by
  rw [List.filterMap_append, List.filterMap_eq_nil_iff.mpr fun e he => (hadded e he).1, List.append_nil]

end silent

theorem Kept.silent (h : r.Kept a prepared) {r' : RunnerRun β} {added : LifecycleTrace β} (hadded : Silent added)
    (hevents : r'.events = r.events ++ added) (hstop : r'.stopPrepared = r.stopPrepared)
    (hlistener : r'.listener = some .recording → r.stopPrepared = .answered false) : r'.Kept a prepared where
  handed := by
    rw [RunnerRun.handed, hevents, created_silent hadded]
    exact h.handed
  stops := by
    intro session
    rw [hevents, stops_silent hadded, hstop]
    exact h.stops session
  returns := by
    rw [hevents, returns_silent hadded, hstop]
    exact h.returns
  recording := hstop ▸ hlistener

theorem Kept.become (h : r.Kept a prepared) (phase : RunnerPhase β) : (r.become phase).Kept a prepared :=
  ⟨h.handed, h.stops, h.returns, h.recording⟩

theorem Kept.timed (h : r.Kept a prepared) (timer : AbortTimer) : { r with timer := timer }.Kept a prepared :=
  ⟨h.handed, h.stops, h.returns, h.recording⟩

theorem Kept.askStop (h : r.Kept a prepared) : (r.askStop prepared).Kept a prepared := by
  unfold RunnerRun.askStop
  split
  · rename_i hunasked
    constructor
    · exact (List.filterMap_append.trans (List.append_nil _)).trans h.handed
    · intro session
      have hstops := h.stops session
      simp only [hunasked, ne_eq, not_true_eq_false, false_and, if_false] at hstops
      simp only [RunnerRun.log, stops_append, hstops, stopCall, Option.some.injEq]
      by_cases hs : session = prepared
      · simp [hs]
      · have hne : ¬ prepared = session := fun he => hs he.symm
        simp [hs, hne]
    · have hreturns := h.returns
      rw [hunasked] at hreturns
      simp only [RunnerRun.log, returns_append, hreturns]
      rfl
    · intro hl
      cases (h.recording hl).symm.trans hunasked
  · exact h

theorem askStop_asked (r : RunnerRun β) (prepared : SandboxSession) : (r.askStop prepared).stopPrepared ≠ .unasked := by
  unfold RunnerRun.askStop
  split
  · exact nofun
  · assumption

theorem clean_safe (h : r.Kept a prepared) : (r.clean prepared).Safe a :=
  ⟨h.askStop.become _, askStop_asked r prepared, nofun⟩

theorem Reached.start (a : RunnerAttempt) (prepared : SandboxSession) (aborted : Bool) :
    Reached (β := β) a prepared (.start (a.attemptInput prepared) aborted) := ⟨aborted, [], rfl⟩

theorem Reached.step {lifecycle : SnapshotRun β} (h : Reached a prepared lifecycle) (action : SnapshotAction β) :
    Reached a prepared (lifecycle.step runnerCoordinator (a.attemptInput prepared) action) := by
  obtain ⟨aborted, actions, rfl⟩ := h
  refine ⟨aborted, actions ++ [action], ?_⟩
  rw [Runs.run_append]
  rfl

theorem PhaseKnows.timed {phase : RunnerPhase β} (h : r.PhaseKnows a phase) (timer : AbortTimer) :
    { r with timer := timer }.PhaseKnows a phase := by
  cases phase with
  | provisioning => exact h
  | preparing => exact Kept.timed h timer
  | coordinating | proving | cleaning => exact ⟨h.1.timed timer, h.2⟩
  | settled first lifecycle =>
    cases first with
    | none => cases lifecycle <;> exact h
    | some mine => cases lifecycle <;> exact ⟨h.1.timed timer, h.2⟩

theorem aborts_safe (h : r.Safe a) : (r.aborts a).Safe a := by
  cases hp : r.phase with
  | preparing stage prepared =>
    have hkept : r.Kept a prepared := by
      unfold Safe at h
      rw [hp] at h
      exact h
    have hsame : (r.askStop prepared).phase = r.phase := by
      unfold askStop
      split <;> rfl
    have hasked := hkept.askStop
    simp only [aborts, hp, Safe, hsame]
    exact ⟨hasked.handed, hasked.stops, hasked.returns, nofun⟩
  | coordinating prepared lifecycle =>
    unfold Safe at h
    rw [hp] at h
    simp only [aborts, hp]
    exact ⟨h.1.become _, h.2.step .cancel⟩
  | _ =>
    simp only [aborts, hp]
    exact h

theorem cancel_safe (h : r.Safe a) : (r.cancel a).Safe a := by
  unfold cancel
  split
  · exact h
  · exact aborts_safe (PhaseKnows.timed h r.timer.abort)

theorem expire_safe (h : r.Safe a) : (r.expire a).Safe a := by
  unfold expire
  split
  · exact PhaseKnows.timed h r.timer.expire
  · exact aborts_safe (PhaseKnows.timed h r.timer.expire)

/-- Once there is a prepared session, every phase keeps its stop. -/
theorem PhaseKnows.kept {phase : RunnerPhase β} (h : r.PhaseKnows a phase) (hhead : r.handed.head? = some prepared) :
    r.Kept a prepared := by
  have hmine : ∀ {mine : SandboxSession}, r.Kept a mine → r.Kept a prepared := by
    intro mine hkept
    rw [hkept.handed] at hhead
    rwa [← Option.some.inj hhead]
  cases phase with
  | provisioning =>
    rw [handed, h.1] at hhead
    cases hhead
  | preparing => exact hmine h
  | coordinating | proving | cleaning => exact hmine h.1
  | settled first lifecycle =>
    cases first with
    | some mine => cases lifecycle <;> exact hmine h.1
    | none =>
      cases lifecycle with
      | some lifecycle => exact h.elim
      | none =>
        rw [h.1] at hhead
        cases hhead

/-- Records are made beside what a phase knows. -/
theorem PhaseKnows.silent {phase : RunnerPhase β} (h : r.PhaseKnows a phase) (hhead : r.handed.head? = some prepared)
    {r' : RunnerRun β} {added : LifecycleTrace β} (hadded : Silent added) (hevents : r'.events = r.events ++ added)
    (hstop : r'.stopPrepared = r.stopPrepared)
    (hlistener : r'.listener = some .recording → r.stopPrepared = .answered false) : r'.PhaseKnows a phase := by
  have hkept : ∀ {mine : SandboxSession}, r.Kept a mine → r'.Kept a mine :=
    fun hmine => hmine.silent hadded hevents hstop hlistener
  cases phase with
  | provisioning =>
    rw [handed, h.1] at hhead
    cases hhead
  | preparing => exact hkept h
  | coordinating | proving => exact ⟨hkept h.1, h.2⟩
  | cleaning mine call =>
    refine ⟨hkept h.1, hstop ▸ h.2.1, ?_⟩
    intro hcall
    obtain ⟨hanswered, hrecord⟩ := h.2.2 hcall
    rw [hstop, hevents]
    exact ⟨hanswered, List.mem_append_left _ hrecord⟩
  | settled first lifecycle =>
    cases first with
    | some mine =>
      cases lifecycle with
      | some lifecycle => exact ⟨hkept h.1, h.2⟩
      | none =>
        refine ⟨hkept h.1, ?_⟩
        unfold LifecycleTrace.GivenBack
        rw [hevents, returns_silent hadded]
        exact h.2.imp id fun hf => ⟨hf.1, List.mem_append_left _ hf.2.1, List.mem_append_left _ hf.2.2⟩
    | none =>
      cases lifecycle with
      | some lifecycle => exact h.elim
      | none =>
        rw [h.1] at hhead
        cases hhead

/-- The answer to the stop arrives. -/
theorem Kept.answer (h : r.Kept a prepared) (hpending : r.stopPrepared = .pending) (gone : Bool) :
    ({ r with stopPrepared := .answered gone }.log (.returned (.sandbox prepared) gone)).Kept a prepared where
  handed := (List.filterMap_append.trans (List.append_nil _)).trans h.handed
  stops := by
    intro session
    have hstops := h.stops session
    rw [hpending] at hstops
    simp only [RunnerRun.log, stops_append, hstops, stopCall]
    by_cases hs : session = prepared <;> simp [hs]
  returns := by
    have hreturns := h.returns
    rw [hpending] at hreturns
    simp only [RunnerRun.log]
    rw [returns_reply hreturns, if_pos rfl]
    rfl
  recording := by
    intro hl
    cases (h.recording hl).symm.trans hpending

theorem PhaseKnows.answer {phase : RunnerPhase β} (h : r.PhaseKnows a phase) (hhead : r.handed.head? = some prepared)
    (hpending : r.stopPrepared = .pending) (gone : Bool) :
    ({ r with stopPrepared := .answered gone }.log (.returned (.sandbox prepared) gone)).PhaseKnows a phase := by
  have hmine : ∀ {mine : SandboxSession}, r.Kept a mine → mine = prepared := by
    intro mine hkept
    rw [hkept.handed] at hhead
    exact Option.some.inj hhead
  cases phase with
  | provisioning =>
    rw [handed, h.1] at hhead
    cases hhead
  | preparing stage mine =>
    obtain rfl := hmine h
    exact Kept.answer h hpending gone
  | coordinating mine lifecycle | proving mine lifecycle =>
    obtain rfl := hmine h.1
    exact ⟨h.1.answer hpending gone, h.2⟩
  | cleaning mine call =>
    obtain rfl := hmine h.1
    refine ⟨h.1.answer hpending gone, nofun, ?_⟩
    intro hcall
    cases (h.2.2 hcall).1.symm.trans hpending
  | settled first lifecycle =>
    cases first with
    | some mine =>
      cases lifecycle with
      | some lifecycle =>
        obtain rfl := hmine h.1
        exact ⟨h.1.answer hpending gone, h.2⟩
      | none =>
        have hreturns := h.1.returns
        rw [hpending] at hreturns
        rcases h.2 with hback | hback
        · cases hreturns.symm.trans hback
        · cases hreturns.symm.trans hback.1
    | none =>
      cases lifecycle with
      | some lifecycle => exact h.elim
      | none =>
        rw [h.1] at hhead
        cases hhead

theorem silent_record (record : QuarantineRecord) (resource : LifecycleResource) :
    Silent (β := β) [.record record resource] := by
  simp [Silent, createdSession, stopCall, returnOf]

theorem silent_recorded (resource : LifecycleResource) : Silent (β := β) [.recorded resource] := by
  simp [Silent, createdSession, stopCall, returnOf]

theorem silent_nil : Silent ([] : LifecycleTrace β) := nofun

theorem stageReturns_safe (h : r.Kept a prepared) (stage : RepositoryExecutionStage) :
    (r.stageReturns a stage prepared).Safe a := by
  unfold stageReturns
  split
  · exact h.become _
  · exact ⟨h.become _, .start a prepared r.timer.aborted⟩

theorem executed_safe {lifecycle : SnapshotRun β} (h : r.Safe a) (hp : r.phase = .coordinating prepared lifecycle)
    (accepted : Bool) : (r.step a (.executed accepted)).Safe a := by
  have hknown : r.Kept a prepared ∧ Reached a prepared lifecycle := by
    unfold Safe at h
    rw [hp] at h
    exact h
  simp only [step, hp]
  split
  · rename_i result hsettled
    split
    · exact ⟨hknown.1.become _, hknown.2, _, hsettled⟩
    · exact ⟨hknown.1.become _, hknown.2, _, hsettled⟩
  · rename_i error hsettled
    exact ⟨hknown.1.become _, hknown.2, _, hsettled⟩
  · exact h

theorem cleanupResumes_safe (h : r.Safe a) (hp : r.phase = .cleaning prepared .stopping) :
    (r.step a .cleanupResumes).Safe a := by
  have hknown : r.Kept a prepared := by
    unfold Safe at h
    rw [hp] at h
    exact h.1
  have hreturns := hknown.returns
  simp only [step, hp]
  split
  · rename_i hstop
    rw [hstop] at hreturns
    exact ⟨hknown.become _, .inl hreturns⟩
  · rename_i hstop
    have hkept : (r.answered a prepared false).Kept a prepared :=
      hknown.silent (silent_record _ _) rfl rfl hknown.recording
    refine ⟨hkept.become _, ?_, ?_⟩
    · intro he
      cases (show r.stopPrepared = .unasked from he).symm.trans hstop
    · intro _
      exact ⟨hstop, List.mem_append_right _ List.mem_cons_self⟩
  · exact h

theorem cleanupRecorded_safe (h : r.Safe a) (hp : r.phase = .cleaning prepared .recording) :
    ((r.log (.recorded (.sandbox prepared))).become (.settled (some prepared) none)).Safe a := by
  unfold Safe at h
  rw [hp] at h
  obtain ⟨hknown, -, hrecording⟩ := h
  obtain ⟨hanswered, hrecord⟩ := hrecording rfl
  have hreturns := hknown.returns
  rw [hanswered] at hreturns
  have hkept : (r.log (.recorded (.sandbox prepared))).Kept a prepared :=
    hknown.silent (silent_recorded _) rfl rfl hknown.recording
  refine ⟨hkept.become _, .inr ⟨?_, ?_, ?_⟩⟩
  · exact (returns_silent (silent_recorded _) r.events _).trans hreturns
  · exact List.mem_append_left _ hrecord
  · exact List.mem_append_right _ List.mem_cons_self

theorem listenerResumes_safe (h : r.Safe a) {gone : Bool} (hstop : r.stopPrepared = .answered gone)
    (hhead : r.handed.head? = some prepared) :
    ({ r with listener := some (if gone then CleanupCall.done else .recording) }.answered a prepared gone).Safe a := by
  cases gone with
  | true => exact PhaseKnows.silent h hhead silent_nil (List.append_nil _).symm rfl nofun
  | false => exact PhaseKnows.silent h hhead (silent_record _ _) rfl rfl fun _ => hstop

theorem step_safe (h : r.Safe a) (action : RunnerAction β) : (r.step a action).Safe a := by
  cases action with
  | cancel =>
    cases hp : r.phase with
    | settled | cleaning => simpa only [step, hp] using h
    | _ =>
      simp only [step, hp]
      exact cancel_safe h
  | expire =>
    cases hp : r.phase with
    | settled | cleaning => simpa only [step, hp] using h
    | _ =>
      simp only [step, hp]
      exact expire_safe h
  | createReply reply =>
    cases hp : r.phase with
    | provisioning =>
      unfold Safe at h
      rw [hp] at h
      obtain ⟨hevents, hstop, hlistener⟩ := h
      cases reply with
      | none =>
        simp only [step, hp, Safe, become, log, PhaseKnows, handed, hevents]
        exact ⟨rfl, fun _ => rfl⟩
      | some prepared =>
        simp only [step, hp]
        constructor
        · simp only [become, log, handed, hevents]
          rfl
        · intro session
          simp only [become, log, hevents, hstop]
          rfl
        · simp only [become, log, hevents, hstop]
          rfl
        · intro hl
          cases hlistener.symm.trans hl
    | _ => cases reply <;> simpa only [step, hp] using h
  | stageReply returns =>
    cases hp : r.phase with
    | preparing stage prepared =>
      unfold Safe at h
      rw [hp] at h
      simp only [step, hp]
      cases returns with
      | true => exact stageReturns_safe h stage
      | false => exact clean_safe h
    | _ => simpa only [step, hp] using h
  | lifecycle action =>
    cases hp : r.phase with
    | coordinating prepared lifecycle =>
      have hknown : r.Kept a prepared ∧ Reached a prepared lifecycle := by
        unfold Safe at h
        rw [hp] at h
        exact h
      cases action with
      | cancel => simpa only [step, hp] using h
      | _ =>
        simp only [step, hp]
        exact ⟨hknown.1.become _, hknown.2.step _⟩
    | _ => cases action <;> simpa only [step, hp] using h
  | executed accepted =>
    cases hp : r.phase with
    | coordinating prepared lifecycle => exact executed_safe h hp accepted
    | _ => simpa only [step, hp] using h
  | proofReply =>
    cases hp : r.phase with
    | proving prepared lifecycle =>
      unfold Safe at h
      rw [hp] at h
      simp only [step, hp]
      exact ⟨h.1.become _, h.2⟩
    | _ => simpa only [step, hp] using h
  | stopReply gone =>
    simp only [step]
    split
    · rename_i hpending hhead
      exact PhaseKnows.answer h hhead hpending gone
    · exact h
  | listenerResumes =>
    simp only [step]
    split
    · rename_i hlistener hstop hhead
      exact listenerResumes_safe h hstop hhead
    · exact h
  | listenerRecorded =>
    simp only [step]
    split
    · rename_i hlistener hhead
      exact PhaseKnows.silent h hhead (silent_recorded _) rfl rfl nofun
    · exact h
  | cleanupResumes =>
    cases hp : r.phase with
    | cleaning prepared call =>
      cases call with
      | stopping => exact cleanupResumes_safe h hp
      | _ => simpa only [step, hp] using h
    | _ => simpa only [step, hp] using h
  | cleanupRecorded =>
    cases hp : r.phase with
    | cleaning prepared call =>
      cases call with
      | recording =>
        simp only [step, hp]
        exact cleanupRecorded_safe h hp
      | _ => simpa only [step, hp] using h
    | _ => simpa only [step, hp] using h

theorem start_safe (a : RunnerAttempt) (aborted : Bool) : (start (β := β) aborted).Safe a := by
  cases aborted with
  | true => exact ⟨rfl, fun _ => rfl⟩
  | false => exact ⟨rfl, rfl, rfl⟩

theorem run_safe (a : RunnerAttempt) (aborted : Bool) (actions : List (RunnerAction β)) :
    (Runs.run (step a) actions (start aborted)).Safe a := by
  have hstep : ∀ (r : RunnerRun β) (action : RunnerAction β), Safe a r → Safe a (step a action r) :=
    fun _ action h => step_safe h action
  exact Runs.run_keeps hstep (start_safe a aborted)

/-! ## Nothing is left behind -/

/-- The calls of the coordinator, where it was reached. -/
def lifecycleEvents : Option (SnapshotRun β) → LifecycleTrace β
  | some lifecycle => lifecycle.events
  | none => []

theorem Kept.stops_le (h : r.Kept a prepared) (session : SandboxSession) : r.events.stops session ≤ 1 := by
  rw [h.stops]
  split <;> omega

/-- What a call of `execute` leaves at the provider. -/
structure LeavesClean (a : RunnerAttempt) (events lifecycle : LifecycleTrace β) : Prop where
  /-- Every session that the runner or its coordinator was handed is back or recorded. -/
  sessions : ∀ session ∈ events.filterMap createdSession ++ lifecycle.filterMap createdSession,
    events.GivenBack a.attemptId (.sandbox session) ∨ lifecycle.GivenBack a.attemptId (.sandbox session)
  /-- Each side stops a session once at most. -/
  stops : ∀ session, events.stops session ≤ 1 ∧ lifecycle.stops session ≤ 1
  /-- A snapshot was deleted once, and is gone or recorded. -/
  snapshots : ∀ snapshotId ∈ lifecycle.snapshots,
    lifecycle.deletes = [snapshotId] ∧ lifecycle.GivenBack a.attemptId (.snapshot snapshotId)

theorem leavesClean_lifecycle {lifecycle : SnapshotRun β} (hkept : r.Kept a prepared) (hreached : Reached a prepared lifecycle)
    {outcome : Except AttemptLifecycleError (SnapshotRunResult β)} (hphase : lifecycle.phase = .settled outcome) :
    LeavesClean a r.events lifecycle.events := by
  have hhanded : r.events.filterMap createdSession = [prepared] := hkept.handed
  have hleaves : SnapshotRun.LeavesNothing (a.attemptInput prepared) lifecycle.events
      (SnapshotRun.outcomeStatus outcome) := by
    obtain ⟨aborted, actions, rfl⟩ := hreached
    exact (SnapshotRun.run_lifecycle runnerCoordinator (a.attemptInput prepared) aborted actions).leavesNothing hphase
  constructor
  · intro session hs
    rw [hhanded] at hs
    exact .inr (hleaves.sessions session hs).2
  · intro session
    refine ⟨hkept.stops_le session, ?_⟩
    by_cases hs : session ∈ LifecycleTrace.sessions (a.attemptInput prepared) lifecycle.events
    · exact (hleaves.sessions session hs).1.le
    · exact (hleaves.others session hs).le.trans (Nat.zero_le 1)
  · intro snapshotId hs
    refine ⟨?_, hleaves.snapshots snapshotId hs⟩
    have hone : lifecycle.events.snapshots = [snapshotId] := by
      cases hlist : lifecycle.events.snapshots with
      | nil =>
        rw [hlist] at hs
        cases hs
      | cons first rest =>
        have hlength := hleaves.single
        rw [hlist, List.length_cons] at hlength
        have hrest : rest = [] := List.eq_nil_of_length_eq_zero (by omega)
        rw [hlist, hrest, List.mem_singleton] at hs
        rw [hrest, hs]
    exact hleaves.deletes.trans hone

theorem Safe.leavesClean {first : Option SandboxSession} {lifecycle : Option (SnapshotRun β)} (h : r.Safe a)
    (hsettled : r.phase = .settled first lifecycle) : LeavesClean a r.events (lifecycleEvents lifecycle) := by
  unfold Safe at h
  rw [hsettled] at h
  cases first with
  | none =>
    cases lifecycle with
    | some lifecycle => exact h.elim
    | none =>
      refine ⟨?_, fun session => ⟨(h.2 session).le.trans (Nat.zero_le 1), Nat.zero_le 1⟩, nofun⟩
      intro session hs
      rw [show r.events.filterMap createdSession = [] from h.1] at hs
      cases hs
  | some prepared =>
    have hkept : r.Kept a prepared := by cases lifecycle <;> exact h.1
    have hhanded : r.events.filterMap createdSession = [prepared] := hkept.handed
    cases lifecycle with
    | none =>
      refine ⟨?_, fun session => ⟨hkept.stops_le session, Nat.zero_le 1⟩, nofun⟩
      intro session hs
      rw [hhanded] at hs
      obtain rfl : session = prepared := by simpa [lifecycleEvents] using hs
      exact .inl h.2
    | some lifecycle =>
      obtain ⟨-, hreached, outcome, hphase⟩ := h
      exact leavesClean_lifecycle hkept hreached hphase

/-- Whatever fails or is aborted at whatever point, a call that settles leaves no session and no snapshot behind. -/
theorem runner_leaves_nothing (a : RunnerAttempt) (aborted : Bool) (actions : List (RunnerAction β))
    (prepared : Option SandboxSession) (lifecycle : Option (SnapshotRun β))
    (hsettled : (Runs.run (step a) actions (start aborted)).phase = .settled prepared lifecycle) :
    LeavesClean a (Runs.run (step a) actions (start (β := β) aborted)).events (lifecycleEvents lifecycle) :=
  (run_safe a aborted actions).leavesClean hsettled

end RunnerRun

end ReproForge

/-! ## An abort during the last stage -/

namespace ReproForge.Sample.RunnerSandboxes

def attempt : RunnerAttempt where
  attemptId := "attempt-1"
  profile := ⟨"test", .v22, "repro", none, none⟩
  requiredRuns := 3
  source := ⟨"0123456789abcdef0123456789abcdef01234567", "acme/web", true, "repo-1"⟩
  opaqueAttempt := Snapshots.input.opaqueAttempt
  validProfile := by decide +kernel
  admitted := by omega
  validSource := by decide +kernel

def prepared : SandboxSession := ⟨0, "sbx"⟩

def lifecycle : List (SnapshotAction Nat) := [.stopReply prepared false, .stopRecorded prepared, .resume]

/-- The runner and its coordinator both stop the session. -/
def actions : List (RunnerAction Nat) :=
  [.createReply (some prepared), .stageReply true, .stageReply true, .stageReply true, .cancel, .stopReply true,
    .stageReply true] ++ lifecycle.map RunnerAction.lifecycle ++ [.executed true]

theorem runner_leaves_nothing_sample :
    RunnerRun.LeavesClean attempt (Runs.run (RunnerRun.step attempt) actions (RunnerRun.start false)).events
      (RunnerRun.lifecycleEvents (some (Runs.run (SnapshotRun.step runnerCoordinator (attempt.attemptInput prepared))
        lifecycle (SnapshotRun.start (attempt.attemptInput prepared) true)))) :=
  RunnerRun.runner_leaves_nothing attempt false actions (some prepared) (some _) rfl

end ReproForge.Sample.RunnerSandboxes
