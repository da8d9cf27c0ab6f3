import ReproForge.Contracts

/-!
# Case and job lifecycle

The state machines of a reproduction case and of its job, with the schema check
that every constructor and transition makes on its result.
-/
namespace ReproForge

inductive CaseState where
  | draft | ingesting | inspecting | hypothesizing | experimenting | verifying | minimizing
  | packaging | verified | unstable | notReproduced | blocked | cancelled
  deriving DecidableEq, Repr

structure TransitionEntry where
  at' : Instant
  source : CaseState
  reason : String
  target : CaseState
  deriving DecidableEq, Repr

def TransitionEntry.valid (e : TransitionEntry) : Bool := datetime e.at' && e.reason != ""

structure ReproCase where
  createdAt : Instant
  history : List TransitionEntry
  id : String
  state : CaseState
  updatedAt : Instant
  deriving DecidableEq, Repr

def ReproCase.valid (c : ReproCase) : Bool :=
  datetime c.createdAt && c.history.all TransitionEntry.valid && c.id != "" && datetime c.updatedAt

def allowedTransitions : CaseState → List CaseState
  | .draft => [.ingesting, .cancelled]
  | .ingesting => [.inspecting, .blocked, .cancelled]
  | .inspecting => [.hypothesizing, .blocked, .cancelled]
  | .hypothesizing => [.experimenting, .blocked, .cancelled]
  | .experimenting => [.verifying, .blocked, .cancelled]
  | .verifying => [.minimizing, .unstable, .notReproduced, .blocked, .cancelled]
  | .minimizing => [.packaging, .blocked, .cancelled]
  | .packaging => [.verified, .blocked, .cancelled]
  | .verified | .unstable | .notReproduced | .blocked | .cancelled => []

def canTransition (source target : CaseState) : Bool := target ∈ allowedTransitions source

/-- `none` when the schema rejects the identifier or the instant. -/
def createCase (id : String) (at' : Instant) : Option ReproCase :=
  let created : ReproCase := ⟨at', [], id, .draft, at'⟩
  if created.valid then some created else none

/-- `none` for an illegal transition or a result that the schema rejects. -/
def transitionCase (current : ReproCase) (target : CaseState) (reason : String) (at' : Instant) :
    Option ReproCase :=
  if canTransition current.state target then
    let moved : ReproCase :=
      { current with
        history := current.history ++ [⟨at', current.state, reason, target⟩]
        state := target
        updatedAt := at' }
    if moved.valid then some moved else none
  else none

theorem createCase_some {id : String} {at' : Instant} {c : ReproCase}
    (h : createCase id at' = some c) : c = ⟨at', [], id, .draft, at'⟩ ∧ c.valid = true := by
  simp only [createCase] at h
  split at h
  · rename_i hv
    cases h
    exact ⟨rfl, hv⟩
  · cases h

theorem transitionCase_some {current moved : ReproCase} {target : CaseState} {reason : String}
    {at' : Instant} (h : transitionCase current target reason at' = some moved) :
    canTransition current.state target = true ∧ moved.valid = true ∧
      moved = { current with
        history := current.history ++ [⟨at', current.state, reason, target⟩]
        state := target
        updatedAt := at' } := by
  simp only [transitionCase] at h
  split at h
  · rename_i hc
    split at h
    · rename_i hv
      cases h
      exact ⟨hc, hv, rfl⟩
    · cases h
  · cases h

inductive JobState where
  | queued | running | succeeded | failed | cancelled
  deriving DecidableEq, Repr

/-- `JOB_TERMINAL_STATES` -/
def JobState.terminal : JobState → Bool
  | .succeeded | .failed | .cancelled => true
  | .queued | .running => false

structure JobFailure where
  code : String
  message : String
  retryable : Bool
  deriving DecidableEq, Repr

structure ReproductionJob where
  attempt : Nat
  caseId : String
  createdAt : Instant
  failure : Option JobFailure
  id : String
  progressPhase : CaseState
  state : JobState
  updatedAt : Instant
  deriving DecidableEq, Repr

def ReproductionJob.valid (j : ReproductionJob) : Bool :=
  j.attempt ≤ 100 && j.caseId != "" && datetime j.createdAt &&
    j.failure.all (fun f => f.code != "" && f.message != "") && j.id != "" && datetime j.updatedAt &&
    (j.state == .queued || j.state == .cancelled || 1 ≤ j.attempt) &&
    (j.state == .failed) == j.failure.isSome

def canTransitionJob : JobState → JobState → Bool
  | .queued, .running | .queued, .cancelled => true
  | .running, .succeeded | .running, .failed | .running, .cancelled => true
  | _, _ => false

def createJob (id caseId : String) (at' : Instant) : Option ReproductionJob :=
  let created : ReproductionJob := ⟨0, caseId, at', none, id, .draft, .queued, at'⟩
  if created.valid then some created else none

def transitionJob (current : ReproductionJob) (target : JobState) (at' : Instant)
    (failure : Option JobFailure) (progressPhase : CaseState) : Option ReproductionJob :=
  if canTransitionJob current.state target then
    let moved : ReproductionJob :=
      { current with
        attempt := if current.state = .queued ∧ target = .running then current.attempt + 1
          else current.attempt
        failure := failure
        progressPhase := progressPhase
        state := target
        updatedAt := at' }
    if moved.valid then some moved else none
  else none

theorem createJob_some {id caseId : String} {at' : Instant} {j : ReproductionJob}
    (h : createJob id caseId at' = some j) :
    j = ⟨0, caseId, at', none, id, .draft, .queued, at'⟩ ∧ j.valid = true := by
  simp only [createJob] at h
  split at h
  · rename_i hv
    cases h
    exact ⟨rfl, hv⟩
  · cases h

end ReproForge
