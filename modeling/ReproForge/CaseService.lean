import ReproForge.Bundles
import ReproForge.FirstClaims
import ReproForge.RepositoryStarts

/-!
# The case service

The service that runs the trusted sample in the process of its caller, over a
repository in memory. A call pauses wherever it awaits an answer, and between
its pauses the calls of all services on one repository run in any order.
-/
namespace ReproForge

open KeyedTable JsonValues FirstClaims

variable {ρ ν : Type}

/-! ## Commands -/

structure StartTrustedReproduction where
  /-- Both numbers have a default. -/
  budget : Option (Option Int × Option Int)
  callerId : String
  idempotencyKey : String
  sampleId : String
  deriving DecidableEq, Repr

def SampleId.text : SampleId → String
  | .cliSpaces => "cli-spaces"

structure TrustedCommand where
  budget : RequestedBudget
  callerId : String
  idempotencyKey : String
  sampleId : SampleId
  accepted : budget.valid = true

def StartTrustedReproduction.requestedBudget (raw : StartTrustedReproduction) : RequestedBudget :=
  let budget := raw.budget.getD (none, none)
  ⟨budget.1.getD 6, budget.2.getD 3⟩

/-- `startTrustedReproductionSchema.parse` -/
def StartTrustedReproduction.parse (raw : StartTrustedReproduction) : Option TrustedCommand :=
  if h : raw.requestedBudget.valid = true then
    if 1 ≤ utf16Length raw.callerId && utf16Length raw.callerId ≤ 128 && 1 ≤ utf16Length raw.idempotencyKey &&
        utf16Length raw.idempotencyKey ≤ 128 && raw.sampleId == SampleId.cliSpaces.text then
      some ⟨raw.requestedBudget, raw.callerId, raw.idempotencyKey, .cliSpaces, h⟩
    else none
  else none

namespace TrustedCommand

def key (command : TrustedCommand) : String × String := (command.callerId, command.idempotencyKey)

variable [LocaleCompare] [DomainNumber ν]

/-- The part of a command that its hash is taken of. -/
def json (command : TrustedCommand) : Json ν :=
  .obj [("budget", command.budget.json), ("sampleId", .str command.sampleId.text)]

def commandHash [Sha256] (ν : Type) [DomainNumber ν] (command : TrustedCommand) : String :=
  hashCanonical (command.json : Json ν)

/-- The canonical text of a command gives away its budget. -/
theorem budget_eq {command command' : TrustedCommand}
    (h : canonicalJson (command.json : Json ν) = canonicalJson (command'.json : Json ν)) :
    command.budget = command'.budget := by
  have hbudget := normalizeJson_field (canonicalJson_inj h) "budget" command.budget.json command'.budget.json
    List.mem_cons_self (by simp)
  have hcalls := normalizeJson_field hbudget "maxToolCalls" (.num (JsonNumber.ofInt command.budget.maxToolCalls))
    (.num (JsonNumber.ofInt command'.budget.maxToolCalls)) (by simp) (by simp)
  have hruns := normalizeJson_field hbudget "requiredRuns" (.num (JsonNumber.ofInt command.budget.requiredRuns))
    (.num (JsonNumber.ofInt command'.budget.requiredRuns)) (by simp) (by simp)
  have hsafe : ∀ {i j : Int}, 1 ≤ i → i ≤ 20 → 1 ≤ j → j ≤ 20 →
      (JsonNumber.ofInt i : ν) = JsonNumber.ofInt j → i = j := by
    intro i j hi hi' hj hj' hsame
    have hread : IntegerNumber.toInt (IntegerNumber.ofInt i : ν) = IntegerNumber.toInt (IntegerNumber.ofInt j : ν) :=
      congrArg IntegerNumber.toInt hsame
    rw [IntegerNumber.toInt_ofInt (by omega), IntegerNumber.toInt_ofInt (by omega)] at hread
    exact Option.some.inj hread
  have haccepted := command.accepted
  have haccepted' := command'.accepted
  simp only [RequestedBudget.valid, Bool.and_eq_true, decide_eq_true_eq] at haccepted haccepted'
  simp only [normalizeJson, Json.num.injEq] at hcalls hruns
  have hsame : command.budget.maxToolCalls = command'.budget.maxToolCalls := hsafe (by omega) (by omega) (by omega) (by omega) hcalls
  have hsame' : command.budget.requiredRuns = command'.budget.requiredRuns := hsafe (by omega) (by omega) (by omega) (by omega) hruns
  generalize command.budget = budget at hsame hsame'
  generalize command'.budget = budget' at hsame hsame'
  cases budget
  cases budget'
  dsimp only at hsame hsame'
  rw [hsame, hsame']

end TrustedCommand

/-! ## The sample -/

class SampleDocument (ρ : Type) where
  /-- What `sampleCaseResultSchema` makes of everything but the case. -/
  valid : ρ → Bool

structure SampleCaseResult (ρ : Type) where
  case : ReproCase
  rest : ρ
  deriving DecidableEq

/-- The schema is strict and has no `kind`. -/
instance [SampleDocument ρ] : ResultDocument (SampleCaseResult ρ) where
  valid result := result.case.valid && SampleDocument.valid result.rest
  repository _ := false

structure TrustedSampleOptions where
  budget : RequestedBudget
  caseId : String
  startedAt : Instant

/-- `executeTrustedSample`: it may go differently each time. When it resolves, its
result is checked and about the case that was asked for. -/
structure TrustedExecutor (ρ : Type) [SampleDocument ρ] where
  run : Nat → TrustedSampleOptions → Option (SampleCaseResult ρ)
  checked : ∀ {n options result}, run n options = some result → ResultDocument.valid result = true
  about : ∀ {n options result}, run n options = some result → result.case.id = options.caseId

def transitionPath : List (CaseState × String) :=
  [(.ingesting, "Loaded the trusted sample issue and fixture."),
    (.inspecting, "Classified issue and repository evidence."),
    (.hypothesizing, "Created falsifiable hypotheses."),
    (.experimenting, "Ran the allowlisted control and candidate commands."),
    (.verifying, "Evaluated the versioned failure oracle."),
    (.minimizing, "Reduced the reproduction to one spaced-path input."),
    (.packaging, "Validated the portable Repro Bundle contract."),
    (.verified, "Three candidate runs matched and the control did not.")]

/-- The transitions of a path, a millisecond apart. -/
def follow : List (CaseState × String) → Instant → ReproCase → Option ReproCase
  | [], _, current => some current
  | (target, reason) :: rest, at', current =>
    (transitionCase current target reason at').bind (follow rest (at' + 1))

theorem follow_id {path : List (CaseState × String)} {at' : Instant} {current last : ReproCase}
    (h : follow path at' current = some last) : last.id = current.id := by
  induction path generalizing at' current with
  | nil =>
    obtain rfl := Option.some.inj h
    rfl
  | cons transition rest ih =>
    obtain ⟨moved, hmoved, hrest⟩ := Option.bind_eq_some_iff.mp h
    rw [ih hrest, (transitionCase_some hmoved).2.2]

def sampleCase (options : TrustedSampleOptions) : Option ReproCase :=
  (createCase options.caseId options.startedAt).bind (follow transitionPath (options.startedAt + 1))

/-- `runTrustedSample`, with the rest of its result as a parameter. -/
def runTrustedSample [SampleDocument ρ] (rest : Nat → TrustedSampleOptions → Option ρ) : TrustedExecutor ρ where
  run n options :=
    ((sampleCase options).bind (fun case => (rest n options).map (SampleCaseResult.mk case))).filter ResultDocument.valid
  checked := fun h => (Option.filter_eq_some_iff.mp h).2
  about := by
    intro n options result h
    obtain ⟨case, hcase, hresult⟩ := Option.bind_eq_some_iff.mp (Option.filter_eq_some_iff.mp h).1
    obtain ⟨rest', -, rfl⟩ := Option.map_eq_some_iff.mp hresult
    obtain ⟨created, hcreated, hfollow⟩ := Option.bind_eq_some_iff.mp hcase
    exact (follow_id hfollow).trans (congrArg ReproCase.id (createCase_some hcreated).1)

/-! ## The repository in memory -/

structure StoredReproduction (ρ : Type) where
  callerId : String
  case : ReproCase
  commandHash : String
  idempotencyKey : String
  job : ReproductionJob
  result : Option (SampleCaseResult ρ)
  sampleId : SampleId
  deriving DecidableEq

namespace StoredReproduction

def key (record : StoredReproduction ρ) : String × String := (record.callerId, record.idempotencyKey)

def snapshot (record : StoredReproduction ρ) : ReproductionSnapshot (SampleCaseResult ρ) where
  case := record.case
  job := record.job
  repositorySource := none
  result := record.result
  sampleId := some record.sampleId
  schemaVersion := "2.0"

/-- What no later version of a record changes. -/
def anchor (record : StoredReproduction ρ) : (String × String) × String × String × String :=
  (record.key, record.commandHash, record.case.id, record.job.id)

/-- What is stored can be read. -/
theorem valid_snapshot [SampleDocument ρ] {record : StoredReproduction ρ} :
    record.snapshot.valid = true ↔
      record.case.valid = true ∧ record.job.valid = true ∧ record.result.all ResultDocument.valid = true := by
  simp [snapshot, ReproductionSnapshot.valid, and_assoc]

end StoredReproduction

/-- The key of a map holds no number. -/
instance : NumberText Empty where
  text n := nomatch n
  nonempty n := nomatch n
  chars n := nomatch n
  injective := fun {m} => nomatch m

/-- `scoped`: the text of `[callerId, value]`. -/
def scopedKey (callerId value : String) : String := (Json.arr [.str callerId, .str value] : Json Empty).stringify

theorem scopedKey_inj {callerId callerId' value value' : String} (h : scopedKey callerId value = scopedKey callerId' value') :
    callerId = callerId' ∧ value = value' := by
  have hitems := Json.stringify_inj h
  simp only [Json.arr.injEq, List.cons.injEq, Json.str.injEq, and_true] at hitems
  exact hitems

structure InMemoryReproductionRepository (ρ : Type) where
  byCase : Table String (StoredReproduction ρ)
  byIdempotency : Table String (StoredReproduction ρ)
  byJob : Table String (StoredReproduction ρ)

structure ReservationResult (ρ : Type) where
  created : Bool
  record : StoredReproduction ρ

namespace InMemoryReproductionRepository

def empty : InMemoryReproductionRepository ρ := ⟨.empty, .empty, .empty⟩

def findByCaseId (callerId caseId : String) (repository : InMemoryReproductionRepository ρ) :
    Option (StoredReproduction ρ) :=
  repository.byCase.get (scopedKey callerId caseId)

def findByIdempotencyKey (callerId idempotencyKey : String) (repository : InMemoryReproductionRepository ρ) :
    Option (StoredReproduction ρ) :=
  repository.byIdempotency.get (scopedKey callerId idempotencyKey)

def findByJobId (callerId jobId : String) (repository : InMemoryReproductionRepository ρ) :
    Option (StoredReproduction ρ) :=
  repository.byJob.get (scopedKey callerId jobId)

def write (record : StoredReproduction ρ) (repository : InMemoryReproductionRepository ρ) :
    InMemoryReproductionRepository ρ where
  byCase := repository.byCase.put (scopedKey record.callerId record.case.id) record
  byIdempotency := repository.byIdempotency.put (scopedKey record.callerId record.idempotencyKey) record
  byJob := repository.byJob.put (scopedKey record.callerId record.job.id) record

def reserve (record : StoredReproduction ρ) (repository : InMemoryReproductionRepository ρ) :
    ReservationResult ρ × InMemoryReproductionRepository ρ :=
  match repository.findByIdempotencyKey record.callerId record.idempotencyKey with
  | some existing => (⟨false, existing⟩, repository)
  | none => (⟨true, record⟩, repository.write record)

def save (record : StoredReproduction ρ) (repository : InMemoryReproductionRepository ρ) :
    InMemoryReproductionRepository ρ :=
  repository.write record

/-- The record under a caller and an idempotency key. -/
def stored (repository : InMemoryReproductionRepository ρ) (key : String × String) : Option (StoredReproduction ρ) :=
  repository.findByIdempotencyKey key.1 key.2

theorem stored_write (record : StoredReproduction ρ) (repository : InMemoryReproductionRepository ρ)
    (key : String × String) :
    (repository.write record).stored key = if key = record.key then some record else repository.stored key := by
  simp only [stored, findByIdempotencyKey, write, Table.get_put]
  by_cases hkey : key = record.key
  · rw [if_pos hkey, hkey]
    exact if_pos rfl
  · rw [if_neg hkey, if_neg]
    intro hscoped
    obtain ⟨hcaller, hvalue⟩ := scopedKey_inj hscoped
    exact hkey (Prod.ext hcaller hvalue)

theorem findByJobId_write (record : StoredReproduction ρ) (repository : InMemoryReproductionRepository ρ)
    (callerId jobId : String) :
    (repository.write record).findByJobId callerId jobId =
      if callerId = record.callerId ∧ jobId = record.job.id then some record
      else repository.findByJobId callerId jobId := by
  simp only [findByJobId, write, Table.get_put]
  by_cases hjob : callerId = record.callerId ∧ jobId = record.job.id
  · rw [if_pos hjob, hjob.1, hjob.2]
    exact if_pos rfl
  · rw [if_neg hjob, if_neg (fun hscoped => hjob (scopedKey_inj hscoped))]

end InMemoryReproductionRepository

/-! ## Calls -/

inductive TrustedReply (ρ : Type) where
  | started (reused : Bool) (snapshot : ReproductionSnapshot (SampleCaseResult ρ))
  | conflict
  /-- `TrustedExecutionFailedError` -/
  | failed
  /-- An error of a schema. -/
  | refused

/-- The answer that a call awaits. The repository in memory gives it when it is asked. -/
inductive TrustedPhase (ρ : Type) where
  | idle
  /-- The command was not accepted. -/
  | invalid
  | hashing (command : TrustedCommand)
  | looking (command : TrustedCommand) (existing : Option (StoredReproduction ρ))
  | reserving (command : TrustedCommand) (queued : StoredReproduction ρ) (reservation : ReservationResult ρ)
  | starting (command : TrustedCommand) (running : StoredReproduction ρ)
  | executing (command : TrustedCommand) (running : StoredReproduction ρ)
  | succeeding (command : TrustedCommand) (running succeeded : StoredReproduction ρ)
  | failing (command : TrustedCommand)
  | done (command : TrustedCommand) (reply : TrustedReply ρ)

/-- A reading of the clock, with a year of four digits. -/
abbrev ClockReading := { t : Instant // datetime t = true }

/-- What a step of a call takes from its service. -/
structure TrustedSurroundings where
  now : ClockReading
  /-- The clock in the `catch` block. -/
  caughtAt : ClockReading
  caseId : String
  jobId : String
  named : caseId ≠ "" ∧ jobId ≠ ""
  /-- Which of its ways the execution goes. -/
  execution : Nat

def trustedExecutionFailed : JobFailure :=
  ⟨"TRUSTED_EXECUTION_FAILED", "The trusted reproduction failed safely", true⟩

/-- The ledger lists the reservations that were created and the executions that were begun. -/
structure TrustedStarts (ρ : Type) where
  repository : InMemoryReproductionRepository ρ
  calls : Nat → TrustedPhase ρ
  ledger : Ledger (String × String) Nat

inductive TrustedAction where
  | call : Nat → StartTrustedReproduction → TrustedAction
  | advance : Nat → TrustedSurroundings → TrustedAction

def TrustedAction.caller : TrustedAction → Nat
  | .call n _ | .advance n _ => n

section service

variable [SampleDocument ρ] [LocaleCompare] [DomainNumber ν] [Sha256]

/-- A record that is there answers the calls of its command. -/
def TrustedCommand.reuse (ν : Type) [DomainNumber ν] (command : TrustedCommand) (existing : StoredReproduction ρ) :
    TrustedReply ρ :=
  if existing.commandHash = command.commandHash ν then
    if existing.snapshot.valid then .started true existing.snapshot else .refused
  else .conflict

def TrustedCommand.queued (ν : Type) [DomainNumber ν] (command : TrustedCommand) (case : ReproCase)
    (job : ReproductionJob) : StoredReproduction ρ where
  callerId := command.callerId
  case := case
  commandHash := command.commandHash ν
  idempotencyKey := command.idempotencyKey
  job := job
  result := none
  sampleId := command.sampleId

namespace TrustedStarts

def turn (n : Nat) (next : TrustedPhase ρ) (w : TrustedStarts ρ) : TrustedStarts ρ :=
  { w with calls := Function.update w.calls n next }

def save (record : StoredReproduction ρ) (w : TrustedStarts ρ) : TrustedStarts ρ :=
  { w with repository := w.repository.save record }

/-- The `catch` block. -/
def fail (n : Nat) (command : TrustedCommand) (running : StoredReproduction ρ) (at' : Instant) (w : TrustedStarts ρ) :
    TrustedStarts ρ :=
  match transitionJob running.job .failed at' (some trustedExecutionFailed) running.case.state with
  | none => w.turn n (.done command .refused)
  | some job => (w.save { running with job := job }).turn n (.failing command)

def reserve (ν : Type) [DomainNumber ν] (n : Nat) (command : TrustedCommand) (env : TrustedSurroundings)
    (w : TrustedStarts ρ) : TrustedStarts ρ :=
  match createCase env.caseId env.now.val, createJob env.jobId env.caseId env.now.val with
  | some case, some job =>
    let queued := command.queued ν case job
    let (reservation, repository) := w.repository.reserve queued
    let ledger := if reservation.created then w.ledger.claim command.key n else w.ledger
    { w with repository := repository, ledger := ledger }.turn n (.reserving command queued reservation)
  | _, _ => w.turn n (.done command .refused)

def advance (ν : Type) [DomainNumber ν] (executor : TrustedExecutor ρ) (n : Nat) (env : TrustedSurroundings)
    (w : TrustedStarts ρ) : TrustedStarts ρ :=
  match w.calls n with
  | .hashing command =>
    w.turn n (.looking command (w.repository.findByIdempotencyKey command.callerId command.idempotencyKey))
  | .looking command (some existing) => w.turn n (.done command (command.reuse ν existing))
  | .looking command none => w.reserve ν n command env
  | .reserving command queued reservation =>
    if reservation.created then
      match transitionJob queued.job .running env.now.val none .ingesting with
      | none => w.turn n (.done command .refused)
      | some job =>
        let running := { queued with job := job }
        (w.save running).turn n (.starting command running)
    else w.turn n (.done command (command.reuse ν reservation.record))
  | .starting command running =>
    { w with ledger := w.ledger.act command.key n }.turn n (.executing command running)
  | .executing command running =>
    match executor.run env.execution ⟨command.budget, running.case.id, running.case.createdAt⟩ with
    | none => w.fail n command running env.caughtAt.val
    | some result =>
      match transitionJob running.job .succeeded env.now.val none result.case.state with
      | none => w.fail n command running env.caughtAt.val
      | some job =>
        let succeeded := { running with case := result.case, job := job, result := some result }
        (w.save succeeded).turn n (.succeeding command running succeeded)
  | .succeeding command running succeeded =>
    if succeeded.snapshot.valid then w.turn n (.done command (.started false succeeded.snapshot))
    else w.fail n command running env.caughtAt.val
  | .failing command => w.turn n (.done command .failed)
  | .idle | .invalid | .done _ _ => w

def step (ν : Type) [DomainNumber ν] (executor : TrustedExecutor ρ) : TrustedAction → TrustedStarts ρ → TrustedStarts ρ
  | .call n raw, w =>
    match w.calls n, raw.parse with
    | .idle, some command => w.turn n (.hashing command)
    | .idle, none => w.turn n .invalid
    | _, _ => w
  | .advance n env, w => w.advance ν executor n env

def initial : TrustedStarts ρ := ⟨.empty, fun _ => .idle, .empty⟩

def stored (w : TrustedStarts ρ) (key : String × String) : Option (StoredReproduction ρ) := w.repository.stored key

end TrustedStarts

end service

end ReproForge
