import ReproForge.CanonicalJson
import ReproForge.IdempotentStart
import ReproForge.Objects
import Mathlib.Logic.Function.Basic

/-!
# Repository starts

The service that starts a reproduction of a repository: it resolves the source
with the provider, looks its idempotency key up, and reserves a case where there
is none. Its steps run among all other steps of the durable system.
-/
namespace ReproForge

open KeyedTable Transactions Transactions.Tx JsonValues

variable {ρ ν : Type}

/-! ## Requests -/

structure RepositoryPrincipal where
  callerId : String
  principalId : String
  tenantId : String
  deriving DecidableEq, Repr

def RepositoryPrincipal.scope (p : RepositoryPrincipal) : TenantScope := ⟨p.callerId, p.principalId, p.tenantId⟩

/-- What the schemas of the three documents in a request accept. -/
class RequestSchemas (ν : Type) where
  repositoryIssueEvidence : Json ν → Bool
  failureOracle : Json ν → Bool
  nodeRepositoryProfile : Json ν → Bool

structure ResolvedRepositoryExecutionRequest (ν : Type) where
  issueEvidence : Option (Json ν)
  oracle : Json ν
  profile : Json ν
  source : ImmutableRepositorySource

instance [RequestSchemas ν] : RequestDocument (ResolvedRepositoryExecutionRequest ν) where
  valid r := r.issueEvidence.all RequestSchemas.repositoryIssueEvidence && RequestSchemas.failureOracle r.oracle &&
    RequestSchemas.nodeRepositoryProfile r.profile && r.source.valid
  source r := r.source

structure RepositoryStartSource (ν : Type) where
  commitSha : String
  executionProfile : Json ν
  failureOracle : Json ν
  issueEvidence : Option (Json ν)
  repositoryId : String

structure StartRepositoryReproductionInput (ν : Type) where
  /-- Both numbers have a default. -/
  budget : Option (Option Int × Option Int)
  idempotencyKey : String
  source : RepositoryStartSource ν

namespace StartRepositoryReproductionInput

def requestedBudget (input : StartRepositoryReproductionInput ν) : RequestedBudget :=
  let budget := input.budget.getD (none, none)
  ⟨budget.1.getD 6, budget.2.getD 3⟩

/-- `startRepositoryReproductionInputSchema` -/
def valid [RequestSchemas ν] (input : StartRepositoryReproductionInput ν) : Bool :=
  1 ≤ input.requestedBudget.maxToolCalls && input.requestedBudget.maxToolCalls ≤ 12 &&
    3 ≤ input.requestedBudget.requiredRuns && input.requestedBudget.requiredRuns ≤ 5 &&
    1 ≤ utf16Length input.idempotencyKey && utf16Length input.idempotencyKey ≤ 128 &&
    hexDigest 40 input.source.commitSha && RequestSchemas.nodeRepositoryProfile input.source.executionProfile &&
    RequestSchemas.failureOracle input.source.failureOracle &&
    input.source.issueEvidence.all RequestSchemas.repositoryIssueEvidence && opaqueId input.source.repositoryId

end StartRepositoryReproductionInput

/-- The repository's metadata at the time of the request. -/
structure ResolvedRepositoryRevision where
  commitSha : String
  defaultBranch : String
  fullName : String
  private' : Bool
  repositoryId : String
  deriving DecidableEq, Repr

/-- `resolveImmutableRepositorySource`, on the provider's answer: the revision that was asked for. -/
def resolveImmutableRepositorySource (answer : Option ResolvedRepositoryRevision) (commitSha repositoryId : String) :
    Option { s : ImmutableRepositorySource // s.commitSha = commitSha ∧ s.repositoryId = repositoryId } :=
  match answer with
  | none => none
  | some resolved =>
    let source : ImmutableRepositorySource :=
      ⟨resolved.commitSha, resolved.fullName, resolved.private', resolved.repositoryId⟩
    if hexDigest 40 commitSha && opaqueId repositoryId then
      if h : source.commitSha = commitSha ∧ source.repositoryId = repositoryId then
        if source.valid then some ⟨source, h⟩ else none
      else none
    else none

/-- A call whose source is resolved. -/
structure RepositoryCall (ν : Type) where
  principal : RepositoryPrincipal
  input : StartRepositoryReproductionInput ν
  source : ImmutableRepositorySource
  resolved : source.commitSha = input.source.commitSha ∧ source.repositoryId = input.source.repositoryId

namespace RepositoryCall

def repositoryRequest (call : RepositoryCall ν) : ResolvedRepositoryExecutionRequest ν where
  issueEvidence := call.input.source.issueEvidence
  oracle := call.input.source.failureOracle
  profile := call.input.source.executionProfile
  source := call.source

def key (call : RepositoryCall ν) : IdempotencyKey :=
  ⟨call.principal.tenantId, call.principal.callerId, call.input.idempotencyKey⟩

end RepositoryCall

def ImmutableRepositorySource.json (s : ImmutableRepositorySource) : Json ν :=
  .obj [("commitSha", .str s.commitSha), ("fullName", .str s.fullName), ("private", .bool s.private'),
    ("provider", .str "github"), ("repositoryId", .str s.repositoryId)]

def ResolvedRepositoryExecutionRequest.json (r : ResolvedRepositoryExecutionRequest ν) : Json ν :=
  .obj ((r.issueEvidence.toList.map (fun e => ("issueEvidence", e))) ++
    [("oracle", r.oracle), ("profile", r.profile), ("source", r.source.json)])

section fingerprint

variable [LocaleCompare] [JsonNumber ν]

def RequestedBudget.json (b : RequestedBudget) : Json ν :=
  .obj [("maxToolCalls", .num (JsonNumber.ofInt b.maxToolCalls)),
    ("requiredRuns", .num (JsonNumber.ofInt b.requiredRuns))]

def RepositoryCall.command (call : RepositoryCall ν) : Json ν :=
  .obj [("budget", call.input.requestedBudget.json), ("repositoryRequest", call.repositoryRequest.json)]

def RepositoryCall.commandHash [Sha256] (call : RepositoryCall ν) : String := hashCanonical call.command

/-- The parts of the source that are not named by the client. -/
def ImmutableRepositorySource.metadata (s : ImmutableRepositorySource) : String × Bool := (s.fullName, s.private')

/-- The canonical text of a command gives away the metadata that it was resolved to. -/
theorem RepositoryCall.metadata_eq {call call' : RepositoryCall ν}
    (h : canonicalJson call.command = canonicalJson call'.command) : call.source.metadata = call'.source.metadata := by
  have hcommand := canonicalJson_inj h
  have hrequest := normalizeJson_field hcommand "repositoryRequest" call.repositoryRequest.json call'.repositoryRequest.json
    (List.mem_cons_of_mem _ List.mem_cons_self) (by simp)
  have hsource := normalizeJson_field hrequest "source" call.source.json call'.source.json
    (by simp [RepositoryCall.repositoryRequest]) (by simp [RepositoryCall.repositoryRequest])
  have hname := normalizeJson_field hsource "fullName" (.str call.source.fullName) (.str call'.source.fullName)
    (by simp) (by simp)
  have hprivate := normalizeJson_field hsource "private" (.bool call.source.private') (.bool call'.source.private')
    (by simp) (by simp)
  simp only [normalizeJson] at hname hprivate
  exact Prod.ext (Json.str.inj hname) (Json.bool.inj hprivate)

omit [LocaleCompare] in
/-- Calls with one input differ in the metadata alone. -/
theorem RepositoryCall.command_eq {call call' : RepositoryCall ν} (hinput : call.input = call'.input)
    (hmetadata : call.source.metadata = call'.source.metadata) : call.command = call'.command := by
  have hsource : call.source = call'.source := by
    obtain ⟨hname, hprivate⟩ := Prod.mk.inj hmetadata
    have hcommit := call.resolved.1.trans (hinput ▸ call'.resolved.1.symm)
    have hrepository := call.resolved.2.trans (hinput ▸ call'.resolved.2.symm)
    revert hname hprivate hcommit hrepository
    generalize call.source = s
    generalize call'.source = s'
    cases s
    cases s'
    rintro rfl rfl rfl rfl
    rfl
  rw [command, command, repositoryRequest, repositoryRequest, hinput, hsource]

end fingerprint

/-! ## The service -/

inductive StartReply (ρ : Type) where
  | ok (reused : Bool) (snapshot : ReproductionSnapshot ρ)
  | conflict
  | failed

/-- Where a call is. -/
inductive StartPhase (ρ ν : Type) where
  | idle
  /-- The input or the source was not accepted. -/
  | refused
  | resolving (principal : RepositoryPrincipal) (input : StartRepositoryReproductionInput ν)
  | looking (call : RepositoryCall ν)
  | admitting (call : RepositoryCall ν)
  | reserving (call : RepositoryCall ν)
  | publishing (call : RepositoryCall ν) (record : DurableReproductionRecord ρ (ResolvedRepositoryExecutionRequest ν))
      (requireNewDelivery reused : Bool)
  | consuming (call : RepositoryCall ν) (record : DurableReproductionRecord ρ (ResolvedRepositoryExecutionRequest ν))
      (reused : Bool)
  | reading (call : RepositoryCall ν) (record : DurableReproductionRecord ρ (ResolvedRepositoryExecutionRequest ν))
      (reused : Bool)
  | done (call : RepositoryCall ν) (reply : StartReply ρ)

structure PublishSummary where
  dead : Nat
  delivered : Nat
  retryScheduled : Nat
  deriving DecidableEq, Repr

/-- What a step of a call meets: the provider's answer, the fate of its transactions, the
admission, the publisher and the consumer that it calls, and what its host draws. -/
structure StartSurroundings where
  answer : Option ResolvedRepositoryRevision
  fate : Objects.Fate
  attempts : List Attempt
  admitted : Bool
  published : Option PublishSummary
  consumed : Bool
  createdAt : Instant
  caseId : String
  jobId : String

structure StartService where
  limits : QuotaLimits
  /-- Queued work is left to the consumers; otherwise the call consumes its own message. -/
  queued : Bool

structure Starts (ρ ν : Type) where
  world : World ρ (ResolvedRepositoryExecutionRequest ν)
  calls : Nat → StartPhase ρ ν

inductive StartAction (ρ ν : Type) where
  | call : Nat → RepositoryPrincipal → StartRepositoryReproductionInput ν → StartAction ρ ν
  | advance : Nat → StartSurroundings → StartAction ρ ν
  | world : Action ρ (ResolvedRepositoryExecutionRequest ν) → StartAction ρ ν

def terminal {σ : Type} (record : DurableReproductionRecord ρ σ) : Bool := record.snapshot.job.state.terminal

section service

variable [ResultDocument ρ] [RequestSchemas ν] [LocaleCompare] [JsonNumber ν] [Sha256]

/-- `startResultSchema.parse` -/
def startResult (reused : Bool) (record : DurableReproductionRecord ρ (ResolvedRepositoryExecutionRequest ν)) :
    StartReply ρ :=
  if record.snapshot.valid then .ok reused record.snapshot else .failed

/-- A lookup by idempotency key; a call that fails reports nothing. -/
def lookup (fate : Objects.Fate) (scope : TenantScope) (idempotencyKey : String)
    (db : Db ρ (ResolvedRepositoryExecutionRequest ν)) :
    Option (Option (DurableReproductionRecord ρ (ResolvedRepositoryExecutionRequest ν))) :=
  if fate = .runs then
    match findByIdempotencyKey scope idempotencyKey db with
    | (.ok found, _) => some found
    | (.error _, _) => none
  else none

def RepositoryCall.startCommand (call : RepositoryCall ν) (env : StartSurroundings) :
    StartCommand (ResolvedRepositoryExecutionRequest ν) where
  budget := call.input.requestedBudget
  callerId := call.principal.callerId
  caseId := env.caseId
  commandHash := call.commandHash
  createdAt := env.createdAt
  idempotencyKey := call.input.idempotencyKey
  jobId := env.jobId
  principalId := call.principal.principalId
  source := .repository call.repositoryRequest call.source
  tenantId := call.principal.tenantId

/-- A record that is reused or created goes on to be published, unless its job is over. -/
def proceed (call : RepositoryCall ν) (record : DurableReproductionRecord ρ (ResolvedRepositoryExecutionRequest ν))
    (requireNewDelivery reused : Bool) : StartPhase ρ ν :=
  if record.commandHash = call.commandHash then
    if terminal record then .done call (startResult reused record)
    else .publishing call record requireNewDelivery reused
  else .done call .conflict

namespace Starts

def turn (n : Nat) (next : StartPhase ρ ν) (w : Starts ρ ν) : Starts ρ ν :=
  { w with calls := Function.update w.calls n next }

/-- The transaction of `reserveDurableStart`. -/
def reserve (service : StartService) (n : Nat) (call : RepositoryCall ν) (env : StartSurroundings) (w : Starts ρ ν) :
    Starts ρ ν :=
  match startInput reservationLifetime (call.startCommand env) with
  | none => w.turn n (.done call .failed)
  | some input =>
    let (reply, db) := startCall env.attempts service.limits input w.world.db
    let w := { w with world := { w.world with db := db } }
    match reply with
    | .error e => w.turn n (.done call (if e = idempotencyConflict then .conflict else .failed))
    | .ok reservation => w.turn n (proceed call reservation.record reservation.created !reservation.created)

def advance (service : StartService) (n : Nat) (env : StartSurroundings) (w : Starts ρ ν) : Starts ρ ν :=
  match w.calls n with
  | .resolving principal input =>
    match resolveImmutableRepositorySource env.answer input.source.commitSha input.source.repositoryId with
    | none => w.turn n .refused
    | some source =>
      let call : RepositoryCall ν := ⟨principal, input, source.val, source.property⟩
      if RequestDocument.valid call.repositoryRequest then w.turn n (.looking call) else w.turn n .refused
  | .looking call =>
    match lookup env.fate call.principal.scope call.input.idempotencyKey w.world.db with
    | none => w.turn n (.done call .failed)
    | some none => w.turn n (.admitting call)
    | some (some existing) => w.turn n (proceed call existing false true)
  | .admitting call => w.turn n (if env.admitted then .reserving call else .done call .failed)
  | .reserving call => w.reserve service n call env
  | .publishing call record requireNewDelivery reused =>
    match env.published with
    | none => w.turn n (.done call .failed)
    | some published =>
      if published.dead > 0 || published.retryScheduled > 0 || requireNewDelivery && published.delivered < 1 then
        w.turn n (.done call .failed)
      else w.turn n (if service.queued then .reading call record reused else .consuming call record reused)
  | .consuming call record reused =>
    w.turn n (if env.consumed then .reading call record reused else .done call .failed)
  | .reading call record reused =>
    match lookup env.fate (recordScope record) record.idempotencyKey w.world.db with
    | some (some stored) => w.turn n (.done call (startResult reused stored))
    | some none | none => w.turn n (.done call .failed)
  | .idle | .refused | .done _ _ => w

def step (service : StartService) : StartAction ρ ν → Starts ρ ν → Starts ρ ν
  | .call n principal input, w => w.turn n (if input.valid then .resolving principal input else .refused)
  | .advance n env, w => w.advance service n env
  | .world action, w => { w with world := World.step action w.world }

def initial (now : Instant) (tenants : Table String TenantRow) : Starts ρ ν :=
  ⟨World.initial now tenants, fun _ => .idle⟩

/-- The condition of the durable system. -/
def Permitted (w : Starts ρ ν) : StartAction ρ ν → Prop
  | .world action => w.world.Permitted action
  | _ => True

end Starts

end service

/-! ## What a call leaves behind -/

section rows

variable [ResultDocument ρ] [RequestSchemas ν] {db db' : Db ρ (ResolvedRepositoryExecutionRequest ν)} {i : IdempotencyRow} {key : IdempotencyKey}
  {record : DurableReproductionRecord ρ (ResolvedRepositoryExecutionRequest ν)}

/-- The record is the one that an idempotency row stands for. -/
structure Answers (key : IdempotencyKey) (i : IdempotencyRow)
    (record : DurableReproductionRecord ρ (ResolvedRepositoryExecutionRequest ν)) : Prop where
  key : recordKey record = key
  commandHash : record.commandHash = i.commandHash
  case : record.snapshot.case.id = i.caseId
  job : record.snapshot.job.id = i.jobId
  valid : record.snapshot.valid = true

theorem snapshot_ids (h : validateRecord record false = true) :
    record.snapshot.case.id = record.caseId ∧ record.snapshot.job.id = record.jobId ∧ record.snapshot.valid = true := by
  obtain ⟨hok, -⟩ := validateRecord_iff.mp h
  exact ⟨hok.case.id, hok.job.id, validateRecord_snapshot h⟩

theorem joined_answers {row : DurableRow ρ (ResolvedRepositoryExecutionRequest ν)} (hrow : Joined db row)
    (hrecord : rowToRecord row = some record) :
    db.idempotencyKeys.get row.key = some row.idempotency ∧ Answers row.key row.idempotency record := by
  refine ⟨hrow.idempotency, ?_⟩
  have hanchor := rowToRecord_anchor hrecord
  have htenant : record.tenantId = row.key.tenantId := congrArg Anchor.tenantId hanchor
  have hcaller : record.callerId = row.key.callerId := congrArg Anchor.callerId hanchor
  have hkey : record.idempotencyKey = row.key.idempotencyKey := congrArg Anchor.idempotencyKey hanchor
  have hcase := congrArg Anchor.caseId hanchor
  have hjob := congrArg Anchor.jobId hanchor
  obtain ⟨hok, hsnapshot⟩ := rowToRecord_ok hrecord
  refine ⟨?_, congrArg Anchor.commandHash hanchor, hok.case.id.trans hcase, hok.job.id.trans hjob, hsnapshot⟩
  rw [recordKey, htenant, hcaller, hkey]

/-- A lookup that finds a record found the row of its key. -/
theorem lookup_some {fate : Objects.Fate} {scope : TenantScope} {idempotencyKey : String}
    (h : lookup fate scope idempotencyKey db = some (some record)) :
    ∃ i, db.idempotencyKeys.get ⟨scope.tenantId, scope.callerId, idempotencyKey⟩ = some i ∧
      Answers ⟨scope.tenantId, scope.callerId, idempotencyKey⟩ i record := by
  unfold lookup at h
  split at h
  · split at h
    · rename_i db' hfind
      obtain rfl := Option.some.inj h
      simp only [findByIdempotencyKey, bind_ok, require_ok] at hfind
      obtain ⟨_, _, ⟨-, rfl⟩, hfind⟩ := hfind
      obtain ⟨-, row, hrow, hcondition, hrecord⟩ := find_some hfind
      simp only [Bool.and_eq_true, beq_iff_eq] at hcondition
      obtain ⟨⟨htenant, hcaller⟩, hkey⟩ := hcondition
      have hrowKey : row.key = ⟨scope.tenantId, scope.callerId, idempotencyKey⟩ := by
        rw [← htenant, ← hcaller, ← hkey]
      rw [← hrowKey]
      exact ⟨row.idempotency, joined_answers hrow hrecord⟩
    · cases h
  · cases h

/-- A lookup that works finds the row of its key. -/
theorem lookup_finds {scope : TenantScope} {idempotencyKey : String} (hdb : Lockstep db) (hscope : scope.valid = true)
    (hi : db.idempotencyKeys.get ⟨scope.tenantId, scope.callerId, idempotencyKey⟩ = some i) :
    ∃ record, lookup .runs scope idempotencyKey db = some (some record) := by
  obtain ⟨found, hfound, -⟩ := findByIdempotencyKey_reads hdb hscope hi
  exact ⟨found, by simp [lookup, hfound]⟩

/-- A lookup never misses a row that is there. -/
theorem lookup_none {fate : Objects.Fate} {scope : TenantScope} {idempotencyKey : String} (hdb : Lockstep db)
    (h : lookup fate scope idempotencyKey db = some none) :
    db.idempotencyKeys.get ⟨scope.tenantId, scope.callerId, idempotencyKey⟩ = none := by
  cases hi : db.idempotencyKeys.get ⟨scope.tenantId, scope.callerId, idempotencyKey⟩ with
  | none => rfl
  | some i =>
    exfalso
    cases hscope : scope.valid with
    | true =>
      obtain ⟨record, hfound⟩ := lookup_finds hdb hscope hi
      unfold lookup at h hfound
      rw [if_pos rfl] at hfound
      split at h
      · rw [hfound] at h
        cases h
      · cases h
    | false =>
      have herror : findByIdempotencyKey scope idempotencyKey db = (.error .schema, db) := by
        simp only [findByIdempotencyKey, hscope]
        rfl
      unfold lookup at h
      rw [herror] at h
      split at h <;> cases h

/-- A reservation that succeeds leaves the row of its key behind. -/
theorem startCall_answers {attempts : List Attempt} {limits : QuotaLimits}
    {input : DurableStartInput ρ (ResolvedRepositoryExecutionRequest ν)}
    {reply : DurableReservationResult ρ (ResolvedRepositoryExecutionRequest ν)}
    (h : startCall attempts limits input db = (.ok reply, db')) :
    ∃ i, db'.idempotencyKeys.get (recordKey input.record) = some i ∧ Answers (recordKey input.record) i reply.record := by
  rcases reserveDurableStart_ok (runSerializableTransaction_ok h) with ⟨-, rfl, -, row, hrow, hkey, hrecord⟩ | ⟨rfl, hw⟩
  · rw [← hkey]
    exact ⟨row.idempotency, joined_answers hrow hrecord⟩
  · obtain ⟨hcase, hjob, hsnapshot⟩ := snapshot_ids (validateRecord_iff.mpr ⟨(validateRecord_iff.mp hw.valid).1, nofun⟩)
    refine ⟨newIdempotencyKey input.record db.now, ?_, ⟨rfl, rfl, hcase, hjob, hsnapshot⟩⟩
    rw [hw.result]
    exact Table.get_insert_self hw.idempotencyKey

/-- Whatever a reservation does, the rows that are there stay. -/
theorem startCall_keeps {attempts : List Attempt} {limits : QuotaLimits}
    {input : DurableStartInput ρ (ResolvedRepositoryExecutionRequest ν)} (hi : db.idempotencyKeys.get key = some i) :
    (startCall attempts limits input db).2.idempotencyKeys.get key = some i := by
  rcases runSerializableTransaction_cases 3 attempts (reserveDurableStart limits input) db with
    ⟨e, he⟩ | ⟨reply, db', ho, hr⟩
  · rw [startCall, he]
    exact hi
  · have hd : (startCall attempts limits input db).2 = db' := by
      rcases hr with hr | hr <;> rw [startCall, hr]
    rw [hd]
    rcases reserveDurableStart_ok ho with ⟨-, rfl, -⟩ | ⟨-, hw⟩
    · exact hi
    · rw [hw.result]
      exact Table.get_insert_some hi

end rows

/-! ## Rows stay, and settle what a call may answer -/

section calls

variable [ResultDocument ρ] [LocaleCompare] [JsonNumber ν] [Sha256]
  {db db' : Db ρ (ResolvedRepositoryExecutionRequest ν)} {i : IdempotencyRow} {call : RepositoryCall ν}

/-- A record that a call works with, or answered with, is the one under its key. -/
def StartPhase.Settled (db : Db ρ (ResolvedRepositoryExecutionRequest ν)) : StartPhase ρ ν → Prop
  | .publishing call record _ _ | .consuming call record _ | .reading call record _ =>
    ∃ i, db.idempotencyKeys.get call.key = some i ∧ Answers call.key i record ∧ i.commandHash = call.commandHash
  | .done call (.ok _ snapshot) =>
    ∃ i, db.idempotencyKeys.get call.key = some i ∧ i.commandHash = call.commandHash ∧
      snapshot.case.id = i.caseId ∧ snapshot.job.id = i.jobId
  | _ => True

theorem StartPhase.Settled.kept {phase : StartPhase ρ ν} (h : phase.Settled db)
    (hkept : ∀ key i, db.idempotencyKeys.get key = some i → db'.idempotencyKeys.get key = some i) :
    phase.Settled db' := by
  have hrow : ∀ {key : IdempotencyKey} {P : IdempotencyRow → Prop},
      (∃ i, db.idempotencyKeys.get key = some i ∧ P i) → ∃ i, db'.idempotencyKeys.get key = some i ∧ P i :=
    fun ⟨i, hi, hp⟩ => ⟨i, hkept _ i hi, hp⟩
  cases phase with
  | publishing call record requireNewDelivery reused => exact hrow h
  | consuming call record reused => exact hrow h
  | reading call record reused => exact hrow h
  | done call reply =>
    cases reply with
    | ok reused snapshot => exact hrow h
    | conflict => trivial
    | failed => trivial
  | _ => trivial

theorem startResult_settled {record : DurableReproductionRecord ρ (ResolvedRepositoryExecutionRequest ν)}
    (hi : db.idempotencyKeys.get call.key = some i) (ha : Answers call.key i record)
    (hhash : i.commandHash = call.commandHash) (reused : Bool) :
    (StartPhase.done call (startResult reused record)).Settled db := by
  unfold startResult
  split
  · exact ⟨i, hi, hhash, ha.case, ha.job⟩
  · trivial

theorem proceed_settled {record : DurableReproductionRecord ρ (ResolvedRepositoryExecutionRequest ν)}
    (hi : db.idempotencyKeys.get call.key = some i) (ha : Answers call.key i record) (requireNewDelivery reused : Bool) :
    (proceed call record requireNewDelivery reused).Settled db := by
  unfold proceed
  split
  · rename_i hhash
    have hrow : i.commandHash = call.commandHash := ha.commandHash.symm.trans hhash
    split
    · exact startResult_settled hi ha hrow reused
    · exact ⟨i, hi, ha, hrow⟩
  · trivial

omit [ResultDocument ρ] in
theorem startInput_key {env : StartSurroundings} {input : DurableStartInput ρ (ResolvedRepositoryExecutionRequest ν)}
    (h : startInput reservationLifetime (call.startCommand env) = some input) : recordKey input.record = call.key := by
  have hrecord := (startInput_some h).1
  unfold startRecord at hrecord
  split at hrecord
  · rw [← Option.some.inj hrecord]
    rfl
  · cases hrecord

variable [RequestSchemas ν]

/-- A step of a call moves that call, and leaves the rows that are there. -/
theorem Starts.advance_effect (w : Starts ρ ν) (service : StartService) (n : Nat) (env : StartSurroundings) :
    ∃ next db, w.advance service n env = ⟨{ w.world with db := db }, Function.update w.calls n next⟩ ∧
      ∀ key i, w.world.db.idempotencyKeys.get key = some i → db.idempotencyKeys.get key = some i := by
  have hturn : ∀ next : StartPhase ρ ν, ∃ next' db,
      w.turn n next = ⟨{ w.world with db := db }, Function.update w.calls n next'⟩ ∧
        ∀ key i, w.world.db.idempotencyKeys.get key = some i → db.idempotencyKeys.get key = some i :=
    fun next => ⟨next, w.world.db, rfl, fun _ _ hi => hi⟩
  have hsame : ∃ next' db, w = ⟨{ w.world with db := db }, Function.update w.calls n next'⟩ ∧
      ∀ key i, w.world.db.idempotencyKeys.get key = some i → db.idempotencyKeys.get key = some i :=
    ⟨w.calls n, w.world.db, by rw [Function.update_eq_self], fun _ _ hi => hi⟩
  unfold Starts.advance
  cases w.calls n with
  | idle => exact hsame
  | refused => exact hsame
  | done call reply => exact hsame
  | resolving principal input =>
    dsimp only
    split
    · exact hturn _
    · split <;> exact hturn _
  | looking call =>
    dsimp only
    split <;> exact hturn _
  | admitting call => exact hturn _
  | publishing call record requireNewDelivery reused =>
    dsimp only
    split
    · exact hturn _
    · split <;> exact hturn _
  | consuming call record reused => exact hturn _
  | reading call record reused =>
    dsimp only
    split <;> exact hturn _
  | reserving call =>
    dsimp only
    unfold Starts.reserve
    split
    · exact hturn _
    · rename_i input _
      have hkept : ∀ key i, w.world.db.idempotencyKeys.get key = some i →
          (startCall env.attempts service.limits input w.world.db).2.idempotencyKeys.get key = some i :=
        fun key i hi => startCall_keeps hi
      dsimp only
      split
      · exact ⟨_, _, rfl, hkept⟩
      · exact ⟨_, _, rfl, hkept⟩

theorem Starts.step_keeps {w : Starts ρ ν} {service : StartService} (action : StartAction ρ ν) {key : IdempotencyKey}
    (hi : w.world.db.idempotencyKeys.get key = some i) :
    (Starts.step service action w).world.db.idempotencyKeys.get key = some i := by
  cases action with
  | call n principal input => exact hi
  | world action => exact run_idempotencyKeys hi [action]
  | advance n env =>
    obtain ⟨next, db, heffect, hkept⟩ := w.advance_effect service n env
    rw [Starts.step, heffect]
    exact hkept key i hi

structure Starts.Sound (w : Starts ρ ν) : Prop where
  world : w.world.Sound
  settled : ∀ n, (w.calls n).Settled w.world.db

namespace Starts.Sound

variable {w : Starts ρ ν} {service : StartService}

theorem turn (hs : w.Sound) {n : Nat} {next : StartPhase ρ ν} (h : next.Settled w.world.db) : (w.turn n next).Sound := by
  refine ⟨hs.world, fun m => ?_⟩
  dsimp only [Starts.turn]
  by_cases hm : m = n
  · rw [hm, Function.update_self]
    exact h
  · rw [Function.update_of_ne hm]
    exact hs.settled m

theorem moves (hs : w.Sound) {world : World ρ (ResolvedRepositoryExecutionRequest ν)} (hworld : world.Sound)
    (hkept : ∀ key i, w.world.db.idempotencyKeys.get key = some i → world.db.idempotencyKeys.get key = some i) :
    Starts.Sound { w with world := world } :=
  ⟨hworld, fun m => (hs.settled m).kept hkept⟩

/-- The database after the transaction of a start. -/
theorem afterStart (hs : w.Sound) (attempts : List Attempt) (limits : QuotaLimits)
    (input : DurableStartInput ρ (ResolvedRepositoryExecutionRequest ν)) :
    Starts.Sound { w with world := { w.world with db := (startCall attempts limits input w.world.db).2 } } := by
  have hcommitted := (startOutcome hs.world.lockstep attempts limits input).committed
  have hpermitted : w.world.Permitted (.event (.call attempts (.start limits input))) := fun _ h => h.elim
  have hworld := (hs.world.step hpermitted).1
  dsimp only [World.step] at hworld
  rw [hcommitted] at hworld
  exact hs.moves hworld (fun key i hi => startCall_keeps hi)

theorem advance (hs : w.Sound) (service : StartService) (n : Nat) (env : StartSurroundings) : (w.advance service n env).Sound := by
  have hphase := hs.settled n
  unfold Starts.advance
  cases hcall : w.calls n with
  | idle => exact hs
  | refused => exact hs
  | done call reply => exact hs
  | resolving principal input =>
    dsimp only
    split
    · exact hs.turn trivial
    · split
      · exact hs.turn trivial
      · exact hs.turn trivial
  | looking call =>
    dsimp only
    split
    · exact hs.turn trivial
    · exact hs.turn trivial
    · rename_i existing hfound
      obtain ⟨i, hi, ha⟩ := lookup_some hfound
      exact hs.turn (proceed_settled hi ha false true)
  | admitting call =>
    refine hs.turn ?_
    split <;> trivial
  | reserving call =>
    dsimp only
    unfold Starts.reserve
    split
    · exact hs.turn trivial
    · rename_i input hinput
      have hafter := hs.afterStart env.attempts service.limits input
      dsimp only
      split
      · refine hafter.turn ?_
        split <;> trivial
      · rename_i reservation hreservation
        obtain ⟨i, hi, ha⟩ := startCall_answers (Prod.ext hreservation rfl)
        rw [startInput_key hinput] at hi ha
        exact hafter.turn (proceed_settled hi ha reservation.created !reservation.created)
  | publishing call record requireNewDelivery reused =>
    rw [hcall] at hphase
    dsimp only
    split
    · exact hs.turn trivial
    · split
      · exact hs.turn trivial
      · refine hs.turn ?_
        split
        · exact hphase
        · exact hphase
  | consuming call record reused =>
    rw [hcall] at hphase
    refine hs.turn ?_
    split
    · exact hphase
    · trivial
  | reading call record reused =>
    rw [hcall] at hphase
    obtain ⟨i, hi, ha, hhash⟩ := hphase
    dsimp only
    split
    · rename_i stored hfound
      obtain ⟨i', hi', ha'⟩ := lookup_some hfound
      have hkey : (⟨(recordScope record).tenantId, (recordScope record).callerId, record.idempotencyKey⟩ :
          IdempotencyKey) = call.key := ha.key
      rw [hkey] at hi' ha'
      obtain rfl := Option.some.inj (hi.symm.trans hi')
      exact hs.turn (startResult_settled hi ha' hhash reused)
    · exact hs.turn trivial
    · exact hs.turn trivial

/-- Step lemma. -/
theorem step (hs : w.Sound) (service : StartService) {action : StartAction ρ ν} (hp : w.Permitted action) :
    (Starts.step service action w).Sound := by
  cases action with
  | call n principal input =>
    refine hs.turn ?_
    split <;> trivial
  | advance n env => exact hs.advance service n env
  | world action =>
    refine hs.moves (hs.world.step hp).1 (fun key i hi => ?_)
    exact run_idempotencyKeys hi [action]

end Starts.Sound

/-! ## A call under a key that is taken -/

/-- The lookups, the publisher and the consumer do their work. -/
def StartSurroundings.Works (env : StartSurroundings) : Prop :=
  env.fate = .runs ∧ env.consumed = true ∧
    ∃ published, env.published = some published ∧ published.dead = 0 ∧ published.retryScheduled = 0

/-- Where a call can be whose key has the row `i`; if its steps all work, it does not fail. -/
def StartPhase.Follows (principal : RepositoryPrincipal) (input : StartRepositoryReproductionInput ν)
    (i : IdempotencyRow) (working : Prop) : StartPhase ρ ν → Prop
  | .refused => True
  | .resolving p x => p = principal ∧ x = input
  | .looking call => call.principal = principal ∧ call.input = input
  | .publishing call _ requireNewDelivery reused =>
    (call.principal = principal ∧ call.input = input) ∧ i.commandHash = call.commandHash ∧ reused = true ∧
      requireNewDelivery = false
  | .consuming call _ reused | .reading call _ reused =>
    (call.principal = principal ∧ call.input = input) ∧ i.commandHash = call.commandHash ∧ reused = true
  | .done call (.ok reused _) =>
    (call.principal = principal ∧ call.input = input) ∧ i.commandHash = call.commandHash ∧ reused = true
  | .done call .conflict => (call.principal = principal ∧ call.input = input) ∧ i.commandHash ≠ call.commandHash
  | .done call .failed => (call.principal = principal ∧ call.input = input) ∧ ¬ working
  | .idle | .admitting _ | .reserving _ => False

section follows

variable {principal : RepositoryPrincipal} {input : StartRepositoryReproductionInput ν} {working : Prop}
  {record : DurableReproductionRecord ρ (ResolvedRepositoryExecutionRequest ν)} {key : IdempotencyKey}

omit [RequestSchemas ν] in
theorem startResult_follows (hcall : call.principal = principal ∧ call.input = input) (ha : Answers key i record)
    (hhash : i.commandHash = call.commandHash) :
    (StartPhase.done call (startResult true record)).Follows principal input i working := by
  rw [startResult, if_pos ha.valid]
  exact ⟨hcall, hhash, rfl⟩

omit [RequestSchemas ν] in
theorem proceed_follows (hcall : call.principal = principal ∧ call.input = input) (ha : Answers key i record) :
    (proceed call record false true).Follows principal input i working := by
  unfold proceed
  split
  · rename_i hhash
    have hrow : i.commandHash = call.commandHash := ha.commandHash.symm.trans hhash
    split
    · exact startResult_follows hcall ha hrow
    · exact ⟨hcall, hrow, rfl, rfl⟩
  · rename_i hhash
    exact ⟨hcall, fun hrow => hhash (ha.commandHash.trans hrow)⟩

omit [LocaleCompare] [JsonNumber ν] [Sha256] [RequestSchemas ν] in
theorem recordScope_valid (ha : Answers call.key i record) (hscope : call.principal.scope.valid = true) :
    (recordScope record).valid = true := by
  simp only [RepositoryPrincipal.scope, TenantScope.valid, Bool.and_eq_true] at hscope
  obtain ⟨htenant, hcaller, -⟩ := IdempotencyKey.mk.inj ha.key
  simp only [recordScope, TenantScope.valid, htenant, hcaller, hscope, Bool.and_self]

theorem StartPhase.Follows.advance {w : Starts ρ ν} {n : Nat} (h : (w.calls n).Follows principal input i working)
    (hs : w.Sound)
    (hi : w.world.db.idempotencyKeys.get ⟨principal.tenantId, principal.callerId, input.idempotencyKey⟩ = some i)
    (hscope : principal.scope.valid = true) (service : StartService) {env : StartSurroundings}
    (hworks : working → env.Works) : ((w.advance service n env).calls n).Follows principal input i working := by
  have hturn : ∀ {next : StartPhase ρ ν}, next.Follows principal input i working →
      ((w.turn n next).calls n).Follows principal input i working := by
    intro next hnext
    rw [Starts.turn]
    dsimp only
    rw [Function.update_self]
    exact hnext
  have hfailed : ∀ {call : RepositoryCall ν}, (call.principal = principal ∧ call.input = input) → ¬ env.Works →
      ((w.turn n (.done call .failed)).calls n).Follows principal input i working :=
    fun hcall hbroken => hturn ⟨hcall, fun hw => hbroken (hworks hw)⟩
  have hsettled := hs.settled n
  have hstays := h
  unfold Starts.advance
  cases hphase : w.calls n with
  | idle => exact hstays
  | refused => exact hstays
  | done call reply => exact hstays
  | admitting call =>
    rw [hphase] at h
    exact h.elim
  | reserving call =>
    rw [hphase] at h
    exact h.elim
  | resolving p x =>
    rw [hphase] at h
    obtain ⟨rfl, rfl⟩ := h
    dsimp only
    split
    · exact hturn trivial
    · split
      · exact hturn ⟨rfl, rfl⟩
      · exact hturn trivial
  | looking call =>
    rw [hphase] at h
    obtain ⟨rfl, rfl⟩ := h
    dsimp only
    split
    · rename_i hlookup
      refine hfailed ⟨rfl, rfl⟩ (fun hw => ?_)
      obtain ⟨found, hfound⟩ := lookup_finds hs.world.lockstep hscope hi
      rw [hw.1] at hlookup
      rw [hlookup] at hfound
      cases hfound
    · rename_i hlookup
      have hnone := lookup_none hs.world.lockstep hlookup
      rw [RepositoryPrincipal.scope] at hnone
      rw [hnone] at hi
      cases hi
    · rename_i existing hlookup
      obtain ⟨i', hi', ha⟩ := lookup_some hlookup
      obtain rfl := Option.some.inj (hi.symm.trans hi')
      exact hturn (proceed_follows ⟨rfl, rfl⟩ ha)
  | publishing call record requireNewDelivery reused =>
    rw [hphase] at h
    obtain ⟨hcall, hhash, hreused, hnew⟩ := h
    dsimp only
    split
    · rename_i hnone
      refine hfailed hcall (fun hw => ?_)
      obtain ⟨published, hpublished, -⟩ := hw.2.2
      rw [hnone] at hpublished
      cases hpublished
    · rename_i published hpublished
      split
      · rename_i hbroken
        refine hfailed hcall (fun hw => ?_)
        obtain ⟨published', hpublished', hdead, hretry⟩ := hw.2.2
        obtain rfl := Option.some.inj (hpublished.symm.trans hpublished')
        simp [hdead, hretry, hnew] at hbroken
      · refine hturn ?_
        split
        · exact ⟨hcall, hhash, hreused⟩
        · exact ⟨hcall, hhash, hreused⟩
  | consuming call record reused =>
    rw [hphase] at h
    dsimp only
    split
    · exact hturn h
    · rename_i hconsumed
      exact hfailed h.1 (fun hw => hconsumed hw.2.1)
  | reading call record reused =>
    rw [hphase] at h hsettled
    obtain ⟨⟨rfl, rfl⟩, hhash, hreused⟩ := h
    obtain ⟨i', hi', ha, -⟩ := hsettled
    have hkey : (⟨(recordScope record).tenantId, (recordScope record).callerId, record.idempotencyKey⟩ :
        IdempotencyKey) = call.key := ha.key
    have hbroken : ∀ {found}, (∀ stored, found ≠ some (some stored)) →
        lookup env.fate (recordScope record) record.idempotencyKey w.world.db = found → ¬ env.Works := by
      intro found hnot hlookup hw
      rw [hw.1] at hlookup
      obtain ⟨stored, hstored⟩ := lookup_finds hs.world.lockstep (recordScope_valid ha hscope) (hkey ▸ hi')
      exact hnot stored (hlookup.symm.trans hstored)
    dsimp only
    split
    · rename_i stored hlookup
      obtain ⟨i'', hi'', ha''⟩ := lookup_some hlookup
      rw [hkey] at hi'' ha''
      obtain rfl := Option.some.inj (hi.symm.trans hi'')
      rw [hreused]
      exact hturn (startResult_follows ⟨rfl, rfl⟩ ha'' hhash)
    · rename_i hlookup
      exact hfailed ⟨rfl, rfl⟩ (hbroken (fun _ he => by cases he) hlookup)
    · rename_i hlookup
      exact hfailed ⟨rfl, rfl⟩ (hbroken (fun _ he => by cases he) hlookup)

/-- From its start on, a call under a taken key follows the row. -/
theorem follows_run {service : StartService} {n : Nat} {later : List (StartAction ρ ν)} {w : Starts ρ ν} (hs : w.Sound)
    (hi : w.world.db.idempotencyKeys.get ⟨principal.tenantId, principal.callerId, input.idempotencyKey⟩ = some i)
    (hscope : principal.scope.valid = true) (h : (w.calls n).Follows principal input i working)
    (hg : Runs.Guarded (Starts.step service) Starts.Permitted later w) (honce : ∀ p x, .call n p x ∉ later)
    (hworks : working → ∀ env, .advance n env ∈ later → env.Works) :
    let w' := Runs.run (Starts.step service) later w
    w'.Sound ∧ w'.world.db.idempotencyKeys.get ⟨principal.tenantId, principal.callerId, input.idempotencyKey⟩ = some i ∧
      (w'.calls n).Follows principal input i working := by
  induction later generalizing w with
  | nil => exact ⟨hs, hi, h⟩
  | cons action rest ih =>
    have hrest : ∀ p x, .call n p x ∉ rest := fun p x hmem => honce p x (List.mem_cons_of_mem action hmem)
    have hworks' : working → ∀ env, .advance n env ∈ rest → env.Works :=
      fun hw env hmem => hworks hw env (List.mem_cons_of_mem action hmem)
    have hs' := hs.step service hg.1
    refine ih hs' (Starts.step_keeps action hi) ?_ hg.2 hrest hworks'
    cases action with
    | world action => exact h
    | call m p x =>
      have hm : n ≠ m := by
        rintro rfl
        exact honce p x List.mem_cons_self
      dsimp only [Starts.step, Starts.turn]
      rw [Function.update_of_ne hm]
      exact h
    | advance m env =>
      by_cases hm : m = n
      · subst hm
        exact h.advance hs hi hscope service (fun hw => hworks hw env List.mem_cons_self)
      · obtain ⟨next, db, heffect, -⟩ := w.advance_effect service m env
        rw [Starts.step, heffect]
        dsimp only
        rw [Function.update_of_ne (fun hn => hm hn.symm)]
        exact h

theorem Starts.sound_run {service : StartService} {now : Instant} {tenants : Table String TenantRow}
    {actions : List (StartAction ρ ν)}
    (h : Runs.Guarded (Starts.step service) Starts.Permitted actions (Starts.initial now tenants)) :
    (Runs.run (Starts.step service) actions (Starts.initial now tenants)).Sound := by
  refine Runs.run_invariant (fun w action hw hp => hw.step service hp) ?_ h
  refine ⟨?_, fun n => trivial⟩
  have hopen : Runs.Guarded World.step World.Permitted []
      (World.initial now tenants : World ρ (ResolvedRepositoryExecutionRequest ν)) := trivial
  exact world_sound hopen

/-- SHA-256 tells these two texts apart, if they differ. -/
def CollisionFree (text text' : String) : Prop := Sha256.hex text = Sha256.hex text' → text = text'

/-- A start has succeeded, and the same principal starts again with the same input. A call whose
steps all work does not fail, and one that does not fail answers with the first case and job
exactly when the provider reports the metadata of the first call. -/
theorem start_replay {service : StartService} {now : Instant} {tenants : Table String TenantRow}
    {before later : List (StartAction ρ ν)} {n : Nat} (hscope : principal.scope.valid = true)
    (h : Runs.Guarded (Starts.step service) Starts.Permitted (before ++ .call n principal input :: later)
      (Starts.initial now tenants)) (honce : ∀ p x, .call n p x ∉ later)
    {m : Nat} {first call : RepositoryCall ν} {reused : Bool} {snapshot : ReproductionSnapshot ρ} {reply : StartReply ρ}
    (hfirst : (Runs.run (Starts.step service) before (Starts.initial now tenants)).calls m =
      .done first (.ok reused snapshot))
    (hprincipal : first.principal = principal) (hinput : first.input = input)
    (hreply : (Runs.run (Starts.step service) (before ++ .call n principal input :: later)
      (Starts.initial now tenants)).calls n = .done call reply) :
    (reply = .failed → ∃ env, .advance n env ∈ later ∧ ¬ env.Works) ∧
      (CollisionFree (canonicalJson call.command) (canonicalJson first.command) → reply ≠ .failed →
        ((∃ s, reply = .ok true s ∧ s.case.id = snapshot.case.id ∧ s.job.id = snapshot.job.id) ↔
          call.source.metadata = first.source.metadata)) := by
  obtain ⟨hbefore, hstart, hlater⟩ := Runs.guarded_append.mp h
  rw [Runs.run_append] at hreply
  have hs := Starts.sound_run hbefore
  generalize Runs.run (Starts.step service) before (Starts.initial now tenants) = w at hs hfirst hstart hlater hreply
  obtain ⟨i, hi, hhash, hcase, hjob⟩ := hfirst ▸ hs.settled m
  have hkey : first.key = ⟨principal.tenantId, principal.callerId, input.idempotencyKey⟩ := by
    rw [RepositoryCall.key, hprincipal, hinput]
  rw [hkey] at hi
  have hstarted : ∀ working, ((Starts.step service (.call n principal input) w).calls n).Follows principal input i
      working := by
    intro working
    dsimp only [Starts.step, Starts.turn]
    rw [Function.update_self]
    split
    · exact ⟨rfl, rfl⟩
    · trivial
  have hrun := fun working => follows_run (hs.step service hstart) (Starts.step_keeps (.call n principal input) hi) hscope
    (hstarted working) hlater honce
  rw [Runs.run] at hreply
  constructor
  · rintro rfl
    by_contra hworks
    push Not at hworks
    obtain ⟨-, -, hfollows⟩ := hrun True (fun _ => hworks)
    rw [hreply] at hfollows
    exact hfollows.2 trivial
  · intro hcollision hnot
    obtain ⟨hs', hi', hfollows⟩ := hrun False (fun hfalse => hfalse.elim)
    have hsettled := hs'.settled n
    rw [hreply] at hfollows hsettled
    cases reply with
    | failed => exact absurd rfl hnot
    | conflict =>
      obtain ⟨⟨-, hsame⟩, hdiffers⟩ := hfollows
      refine ⟨?_, fun hmetadata => absurd ?_ hdiffers⟩
      · rintro ⟨s, hs, -⟩
        cases hs
      · rw [hhash, RepositoryCall.commandHash, RepositoryCall.commandHash,
          RepositoryCall.command_eq (hsame.trans hinput.symm) hmetadata]
    | ok reused' s =>
      obtain ⟨⟨hwho, hsame⟩, hcommand, hreused⟩ := hfollows
      obtain ⟨i', hi'', -, hcase', hjob'⟩ := hsettled
      rw [RepositoryCall.key, hwho, hsame] at hi''
      obtain rfl := Option.some.inj (hi'.symm.trans hi'')
      constructor
      · intro _
        refine RepositoryCall.metadata_eq (hcollision ?_)
        exact (hhash.symm.trans hcommand).symm
      · intro _
        rw [hreused]
        exact ⟨s, rfl, hcase'.trans hcase.symm, hjob'.trans hjob.symm⟩

/-! ## Calls that work -/

omit [ResultDocument ρ] [LocaleCompare] [JsonNumber ν] [Sha256] [RequestSchemas ν] in
theorem Starts.turn_calls (w : Starts ρ ν) (n : Nat) (next : StartPhase ρ ν) : (w.turn n next).calls n = next := by
  dsimp only [Starts.turn]
  rw [Function.update_self]

/-- A first call under a key reserves, and goes on to publish. -/
theorem fresh_reserved (service : StartService) (env : StartSurroundings) {w : Starts ρ ν} {n : Nat}
    {start : DurableStartInput ρ (ResolvedRepositoryExecutionRequest ν)}
    {db' : Db ρ (ResolvedRepositoryExecutionRequest ν)} (hlooking : w.calls n = .looking call)
    (hfate : env.fate = .runs) (hadmitted : env.admitted = true)
    (hfree : lookup .runs call.principal.scope call.input.idempotencyKey w.world.db = some none)
    (hstart : startInput reservationLifetime (call.startCommand env) = some start)
    (hreserved : startCall env.attempts service.limits start w.world.db = (.ok ⟨true, record⟩, db'))
    (hhash : record.commandHash = call.commandHash) (hopen : terminal record = false) :
    w.advance service n env = w.turn n (.admitting call) ∧
      (w.turn n (.admitting call)).advance service n env = (w.turn n (.admitting call)).turn n (.reserving call) ∧
      ((w.turn n (.admitting call)).turn n (.reserving call)).advance service n env =
        ⟨{ w.world with db := db' }, Function.update w.calls n (.publishing call record true false)⟩ := by
  refine ⟨?_, ?_, ?_⟩
  · unfold Starts.advance
    rw [hlooking]
    dsimp only
    rw [hfate, hfree]
  · unfold Starts.advance
    rw [Starts.turn_calls]
    dsimp only
    rw [if_pos hadmitted]
  · have hdb : ((w.turn n (.admitting call)).turn n (.reserving call)).world.db = w.world.db := rfl
    unfold Starts.advance
    rw [Starts.turn_calls]
    dsimp only
    unfold Starts.reserve
    rw [hstart, hdb]
    dsimp only
    rw [hreserved]
    dsimp only
    rw [proceed, if_pos hhash, hopen]
    simp only [Starts.turn, Function.update_idem, Bool.false_eq_true, if_false, Bool.not_true]

/-- A first call under a key, left to the consumers, answers with the reproduction that it created. -/
theorem fresh_start {w : Starts ρ ν} {service : StartService} {n : Nat} {env : StartSurroundings}
    {start : DurableStartInput ρ (ResolvedRepositoryExecutionRequest ν)}
    {db' : Db ρ (ResolvedRepositoryExecutionRequest ν)} (hs : w.Sound) (hlooking : w.calls n = .looking call)
    (hscope : call.principal.scope.valid = true) (hworks : env.Works) (hadmitted : env.admitted = true)
    (hqueued : service.queued = true)
    (hdelivered : ∀ published, env.published = some published → 1 ≤ published.delivered)
    (hfree : lookup .runs call.principal.scope call.input.idempotencyKey w.world.db = some none)
    (hstart : startInput reservationLifetime (call.startCommand env) = some start)
    (hreserved : startCall env.attempts service.limits start w.world.db = (.ok ⟨true, record⟩, db'))
    (hhash : record.commandHash = call.commandHash) (hopen : terminal record = false) :
    ∃ snapshot, (Runs.run (Starts.step service) (List.replicate 5 (.advance n env)) w).calls n =
      .done call (.ok false snapshot) := by
  obtain ⟨hfate, -, published, hpublished, hdead, hretry⟩ := hworks
  obtain ⟨hlook, hadmit, hreserve⟩ := fresh_reserved service env hlooking hfate hadmitted hfree hstart hreserved hhash hopen
  have hpublish : ∀ w' : Starts ρ ν, w'.calls n = .publishing call record true false →
      w'.advance service n env = w'.turn n (.reading call record false) := by
    intro w' hphase
    have hone : ¬ published.delivered < 1 := not_lt.mpr (hdelivered published hpublished)
    unfold Starts.advance
    rw [hphase]
    dsimp only
    rw [hpublished]
    dsimp only
    rw [hdead, hretry, hqueued]
    simp [hone]
  have hread : ∀ w' : Starts ρ ν, w'.Sound → w'.calls n = .reading call record false →
      ∃ snapshot, (w'.advance service n env).calls n = .done call (.ok false snapshot) := by
    intro w' hs' hphase
    have hsettled := hs'.settled n
    rw [hphase] at hsettled
    obtain ⟨i, hi, ha, -⟩ := hsettled
    have hkey : (⟨(recordScope record).tenantId, (recordScope record).callerId, record.idempotencyKey⟩ :
        IdempotencyKey) = call.key := ha.key
    obtain ⟨stored, hstored⟩ := lookup_finds hs'.world.lockstep (recordScope_valid ha hscope) (hkey ▸ hi)
    obtain ⟨_, -, ha'⟩ := lookup_some hstored
    refine ⟨stored.snapshot, ?_⟩
    unfold Starts.advance
    rw [hphase]
    dsimp only
    rw [hfate, hstored]
    dsimp only
    rw [Starts.turn_calls, startResult, if_pos ha'.valid]
  simp only [List.replicate, Runs.run, Starts.step]
  rw [hlook, hadmit]
  have hsecond : ((w.turn n (.admitting call)).turn n (.reserving call)).Sound := by
    rw [← hadmit, ← hlook]
    exact (hs.advance service n env).advance service n env
  have hthird := hsecond.advance service n env
  have hphase : (((w.turn n (.admitting call)).turn n (.reserving call)).advance service n env).calls n =
      .publishing call record true false := by
    rw [hreserve]
    exact Function.update_self _ _ _
  generalize Starts.advance service n env ((w.turn n (.admitting call)).turn n (.reserving call)) = w₃
    at hthird hphase ⊢
  have hfourth := hthird.advance service n env
  rw [hpublish w₃ hphase] at hfourth ⊢
  exact hread _ hfourth (Starts.turn_calls _ n _)

/-- A later call under the key conflicts when its fingerprint is another. -/
theorem taken_start {w : Starts ρ ν} {service : StartService} {n : Nat} {env : StartSurroundings} (hs : w.Sound)
    (hlooking : w.calls n = .looking call) (hi : w.world.db.idempotencyKeys.get call.key = some i)
    (hscope : call.principal.scope.valid = true) (hfate : env.fate = .runs)
    (hhash : i.commandHash ≠ call.commandHash) :
    (Starts.step service (.advance n env) w).calls n = .done call .conflict := by
  obtain ⟨found, hfound⟩ := lookup_finds hs.world.lockstep hscope hi
  obtain ⟨i', hi', ha⟩ := lookup_some hfound
  obtain rfl := Option.some.inj (hi.symm.trans hi')
  rw [Starts.step]
  unfold Starts.advance
  rw [hlooking]
  dsimp only
  rw [hfate, hfound]
  dsimp only
  rw [Starts.turn_calls, proceed, if_neg (fun hsame => hhash (ha.commandHash.symm.trans hsame))]

end follows

end calls

end ReproForge

/-! ## A sample repository -/

namespace ReproForge.Sample.Repository

open JsonValues

theorem digit_numberChar : ∀ n : Fin 10, numberChar (Char.ofNat (48 + n.val)) = true := by decide

/-- The numbers of the sample have one digit. -/
scoped instance : JsonNumber (Fin 10) where
  text n := [Char.ofNat (48 + n.val)]
  nonempty _ := List.cons_ne_nil _ _
  chars n c hc := by
    rw [List.mem_singleton.mp hc]
    exact digit_numberChar n
  injective := by decide
  ofInt n := Fin.ofNat 10 n.toNat

scoped instance : LocaleCompare where
  le a b := decide (a ≤ b)
  trans := codePoints_trans
  total := codePoints_total

scoped instance : RequestSchemas (Fin 10) := ⟨fun _ => true, fun _ => true, fun _ => true⟩

def repositoryPrincipal : RepositoryPrincipal := ⟨"caller", "user-1", "acme"⟩

def fixedCommit : String := "da39a3ee5e6b4b0d3255bfef95601890afd80709"

def repositoryInput : StartRepositoryReproductionInput (Fin 10) where
  budget := none
  idempotencyKey := "key-1"
  source :=
    { commitSha := fixedCommit
      executionProfile := .obj [("controlScript", .str "test"), ("ecosystem", .str "node"),
        ("lockfile", .str "package-lock.json"), ("nodeVersion", .str "22"), ("packageManager", .str "npm"),
        ("reproductionScript", .str "repro")]
      failureOracle := .obj [("id", .str "exit"),
        ("root", .obj [("type", .str "exit_code"), ("expected", .num 1)]), ("version", .num 1)]
      issueEvidence := none
      repositoryId := "repo-1" }

/-- The call, with the repository under a name. -/
def named (fullName : String) : RepositoryCall (Fin 10) :=
  ⟨repositoryPrincipal, repositoryInput, ⟨fixedCommit, fullName, true, "repo-1"⟩, ⟨rfl, rfl⟩⟩

def firstHash : String := "ca8a002b619b1c06cc538c992f6eba94c084ff16c6fb0133dfbb54a94ffa66a9"

def renamedHash : String := "d65ea01a61e8df5cb1a6167b5ac161f7e0c142b19f5b3ffcffca6ae181324398"

/-- The digests of the texts that the two calls hash. -/
scoped instance (priority := 2000) commandDigests : Sha256 where
  hex text :=
    if text = "acme\u0000case-1" then "a523b6117c5475090b2c429e2384b13bd1704ef948f5ad0e091ad668b197f517"
    else if text = canonicalJson (named "acme/web").command then firstHash
    else if text = canonicalJson (named "acme/site").command then renamedHash
    else ""

def working (fullName : String) : StartSurroundings where
  answer := some ⟨fixedCommit, "main", fullName, true, "repo-1"⟩
  fate := .runs
  attempts := []
  admitted := true
  published := some ⟨0, 1, 0⟩
  consumed := true
  createdAt := opening
  caseId := "case-1"
  jobId := "job-1"

def queuedService : StartService := ⟨.default, true⟩

/-- The repository is started under its first name. -/
def startedOnce : List (StartAction Empty (Fin 10)) :=
  [.call 0 repositoryPrincipal repositoryInput, .advance 0 (working "acme/web")] ++
    List.replicate 5 (.advance 0 (working "acme/web"))

/-- It is renamed, and the start is repeated. -/
def repeated : List (StartAction Empty (Fin 10)) :=
  [.advance 1 (working "acme/site"), .advance 1 (working "acme/site")]

def afterStarts (actions : List (StartAction Empty (Fin 10))) : Starts Empty (Fin 10) :=
  Runs.run (Starts.step queuedService) actions (Starts.initial opening tenants)

end ReproForge.Sample.Repository

namespace ReproForge

open Sample Sample.Repository KeyedTable JsonValues

/-- A command is an object. -/
theorem command_opens (call : RepositoryCall (Fin 10)) : canonicalJson call.command ≠ "acme\u0000case-1" := by
  intro h
  obtain ⟨fields, hfields⟩ : ∃ fields, normalizeJson call.command = .obj fields := ⟨_, by
    rw [RepositoryCall.command, normalizeJson]⟩
  rw [canonicalJson, hfields, Json.stringify, Json.text] at h
  have hlist := congrArg String.toList h
  rw [String.toList_ofList] at hlist
  exact absurd (List.cons.inj hlist).1 (by decide)

theorem first_commandHash : (named "acme/web").commandHash = firstHash := by
  rw [RepositoryCall.commandHash, hashCanonical, Sha256.hex, commandDigests]
  dsimp only
  rw [if_neg (command_opens _), if_pos rfl]

theorem renamed_commandHash : (named "acme/site").commandHash = renamedHash := by
  have hdiffers : canonicalJson (named "acme/site").command ≠ canonicalJson (named "acme/web").command := by
    intro h
    exact absurd (congrArg Prod.fst (RepositoryCall.metadata_eq h)) (by decide)
  rw [RepositoryCall.commandHash, hashCanonical, Sha256.hex, commandDigests]
  dsimp only
  rw [if_neg (command_opens _), if_neg hdiffers, if_pos rfl]

theorem looking_named (w : Starts Empty (Fin 10)) (n : Nat) (fullName : String)
    (hname : (⟨fixedCommit, fullName, true, "repo-1"⟩ : ImmutableRepositorySource).valid = true) :
    Runs.run (Starts.step queuedService) [.call n repositoryPrincipal repositoryInput, .advance n (working fullName)] w =
      (w.turn n (.resolving repositoryPrincipal repositoryInput)).turn n (.looking (named fullName)) := by
  have hvalid : repositoryInput.valid = true := by decide +kernel
  have hrequested : (hexDigest 40 repositoryInput.source.commitSha && opaqueId repositoryInput.source.repositoryId) =
      true := by decide +kernel
  have hresolved : resolveImmutableRepositorySource (working fullName).answer repositoryInput.source.commitSha
      repositoryInput.source.repositoryId = some ⟨⟨fixedCommit, fullName, true, "repo-1"⟩, ⟨rfl, rfl⟩⟩ := by
    unfold resolveImmutableRepositorySource working
    dsimp only
    rw [if_pos hrequested, dif_pos ⟨rfl, rfl⟩]
    exact if_pos hname
  rw [Runs.run, Runs.run, Runs.run, Starts.step, Starts.step, if_pos hvalid]
  unfold Starts.advance
  rw [Starts.turn_calls]
  dsimp only
  rw [hresolved]
  exact if_pos hname

def firstCommand : StartCommand (ResolvedRepositoryExecutionRequest (Fin 10)) :=
  { (named "acme/web").startCommand (working "acme/web") with commandHash := firstHash }

def isCreated {ρ σ : Type} : Except DurableError (DurableReservationResult ρ σ) → Bool
  | .ok reservation => reservation.created
  | .error _ => false

theorem first_startCommand : (named "acme/web").startCommand (working "acme/web") = firstCommand := by
  rw [firstCommand, RepositoryCall.startCommand, first_commandHash]

theorem first_start : ∃ start, startInput (ρ := Empty) reservationLifetime firstCommand = some start ∧
    start.record.commandHash = firstHash ∧ terminal start.record = false ∧
    isCreated (startCall [] .default start (Db.initial opening tenants)).1 = true := by
  have hstart : (startInput (ρ := Empty) reservationLifetime firstCommand).any (fun start =>
      start.record.commandHash == firstHash && !terminal start.record &&
        isCreated (startCall [] .default start (Db.initial opening tenants)).1) = true := by decide +kernel
  obtain ⟨start, hstart, hfacts⟩ := (Option.any_eq_true _ _).mp hstart
  simp only [Bool.and_eq_true, beq_iff_eq, Bool.not_eq_true'] at hfacts
  exact ⟨start, hstart, hfacts.1.1, hfacts.1.2, hfacts.2⟩

theorem key_free : lookup .runs (named "acme/web").principal.scope (named "acme/web").input.idempotencyKey
    (Db.initial opening tenants : Db Empty (ResolvedRepositoryExecutionRequest (Fin 10))) = some none := by
  rfl

theorem first_reserved {start : DurableStartInput Empty (ResolvedRepositoryExecutionRequest (Fin 10))}
    (h : isCreated (startCall [] .default start (Db.initial opening tenants)).1 = true) :
    startCall [] .default start (Db.initial opening tenants) =
      (.ok ⟨true, start.record⟩, (startCall [] .default start (Db.initial opening tenants)).2) := by
  obtain ⟨reply, hreply, hnew⟩ : ∃ reply, (startCall [] .default start (Db.initial opening tenants)).1 = .ok reply ∧
      reply.created = true := by
    revert h
    cases (startCall [] .default start (Db.initial opening tenants)).1 with
    | ok reply => exact fun h => ⟨reply, rfl, h⟩
    | error e => exact fun h => (nomatch h)
  have hrecord := ((startOutcome (lockstep_initial opening tenants) [] .default start).created reply hreply hnew).1
  rw [← hnew, ← hrecord]
  exact Prod.ext hreply rfl

/-- The first start succeeds. -/
theorem started_first : ∃ snapshot, (afterStarts startedOnce).calls 0 = .done (named "acme/web") (.ok false snapshot) := by
  obtain ⟨start, hstart, hhash, hopen, hcreated⟩ := first_start
  rw [← first_startCommand] at hstart
  have hlooking := looking_named (Starts.initial opening tenants) 0 "acme/web" (by decide +kernel)
  have hs : (afterStarts [.call 0 repositoryPrincipal repositoryInput, .advance 0 (working "acme/web")]).Sound :=
    Starts.sound_run ⟨trivial, trivial, trivial⟩
  rw [afterStarts] at hs ⊢
  rw [startedOnce, Runs.run_append]
  rw [hlooking] at hs ⊢
  exact fresh_start hs (Starts.turn_calls _ 0 _) (by decide +kernel) ⟨rfl, rfl, _, rfl, rfl, rfl⟩ rfl rfl
    (fun _ h => by rw [← Option.some.inj h]) key_free hstart (first_reserved hcreated)
    (hhash.trans first_commandHash.symm) hopen

theorem startedOnce_permitted (later : List (StartAction Empty (Fin 10)))
    (h : ∀ action ∈ later, ∀ w : Starts Empty (Fin 10), w.Permitted action) :
    Runs.Guarded (Starts.step queuedService) Starts.Permitted (startedOnce ++ later) (Starts.initial opening tenants) := by
  refine Runs.guarded_append.mpr ⟨⟨trivial, trivial, trivial, trivial, trivial, trivial, trivial, trivial⟩, ?_⟩
  generalize Runs.run (Starts.step queuedService) startedOnce (Starts.initial opening tenants) = w
  induction later generalizing w with
  | nil => trivial
  | cons action rest ih =>
    exact ⟨h action List.mem_cons_self w, ih (fun a ha => h a (List.mem_cons_of_mem action ha)) _⟩

theorem repeats {w : Starts Empty (Fin 10)} (hs : w.Sound) {i : IdempotencyRow}
    (hi : w.world.db.idempotencyKeys.get (named "acme/site").key = some i) (hhash : i.commandHash = firstHash) :
    (Runs.run (Starts.step queuedService) (.call 1 repositoryPrincipal repositoryInput :: repeated) w).calls 1 =
      .done (named "acme/site") .conflict := by
  have hlooking := looking_named w 1 "acme/site" (by decide +kernel)
  have hcalled : (Starts.step queuedService (.call 1 repositoryPrincipal repositoryInput) w).Sound :=
    hs.step queuedService trivial
  have hs' : (Starts.step queuedService (.advance 1 (working "acme/site"))
      (Starts.step queuedService (.call 1 repositoryPrincipal repositoryInput) w)).Sound :=
    hcalled.step queuedService trivial
  rw [Runs.run, Runs.run, Runs.run] at hlooking
  rw [repeated, Runs.run, Runs.run, Runs.run, Runs.run]
  rw [hlooking] at hs' ⊢
  refine taken_start hs' (Starts.turn_calls _ 1 _) hi (by decide +kernel) rfl ?_
  rw [hhash, renamed_commandHash]
  decide +kernel

theorem first_row {w : Starts Empty (Fin 10)} (hs : w.Sound) {reused : Bool} {snapshot : ReproductionSnapshot Empty}
    (hdone : w.calls 0 = .done (named "acme/web") (.ok reused snapshot)) :
    ∃ i, w.world.db.idempotencyKeys.get (named "acme/site").key = some i ∧ i.commandHash = firstHash := by
  have hsettled := hs.settled 0
  rw [hdone] at hsettled
  obtain ⟨i, hi, hhash, -⟩ := hsettled
  exact ⟨i, hi, hhash.trans first_commandHash⟩

/-- The second start meets the fingerprint of the first. -/
theorem repeated_conflicts : (afterStarts (startedOnce ++ .call 1 repositoryPrincipal repositoryInput :: repeated)).calls 1 =
    .done (named "acme/site") .conflict := by
  obtain ⟨snapshot, hdone⟩ := started_first
  have hguard := startedOnce_permitted [] (fun _ h => (nomatch h))
  rw [List.append_nil] at hguard
  rw [afterStarts] at hdone ⊢
  obtain ⟨i, hi, hhash⟩ := first_row (Starts.sound_run hguard) hdone
  rw [Runs.run_append]
  exact repeats (Starts.sound_run hguard) hi hhash

/-- A repository is renamed, and the repeated start of its case conflicts. -/
theorem renamed_repository_conflicts :
    ∃ first call snapshot, (afterStarts startedOnce).calls 0 = .done first (.ok false snapshot) ∧
      (afterStarts (startedOnce ++ .call 1 repositoryPrincipal repositoryInput :: repeated)).calls 1 =
        .done call .conflict ∧
      call.principal = first.principal ∧ call.input = first.input ∧
      call.source.repositoryId = first.source.repositoryId ∧ call.source.commitSha = first.source.commitSha := by
  obtain ⟨snapshot, hdone⟩ := started_first
  exact ⟨named "acme/web", named "acme/site", snapshot, hdone, repeated_conflicts, rfl, rfl, rfl, rfl⟩

theorem start_replay_sample :
    ∃ snapshot, (afterStarts startedOnce).calls 0 = .done (named "acme/web") (.ok false snapshot) ∧
      ((∃ s : ReproductionSnapshot Empty, StartReply.conflict = .ok true s ∧ s.case.id = snapshot.case.id ∧ s.job.id = snapshot.job.id) ↔
        (named "acme/site").source.metadata = (named "acme/web").source.metadata) := by
  obtain ⟨snapshot, hdone⟩ := started_first
  have hguard : Runs.Guarded (Starts.step queuedService) Starts.Permitted
      (startedOnce ++ .call 1 repositoryPrincipal repositoryInput :: repeated) (Starts.initial opening tenants) := by
    refine startedOnce_permitted _ (fun action haction w => ?_)
    simp only [repeated, List.mem_cons, List.not_mem_nil, or_false] at haction
    rcases haction with rfl | rfl | rfl <;> trivial
  have honce : ∀ p x, (.call 1 p x : StartAction Empty (Fin 10)) ∉ repeated := by
    intro p x h
    simp [repeated] at h
  have hcollision : CollisionFree (canonicalJson (named "acme/site").command)
      (canonicalJson (named "acme/web").command) := by
    intro h
    have hhash : renamedHash = firstHash := renamed_commandHash.symm.trans (h.trans first_commandHash)
    exact absurd hhash (by decide +kernel)
  have hconflict := repeated_conflicts
  rw [afterStarts] at hdone hconflict ⊢
  have hreplay := start_replay (m := 0) (by decide +kernel) hguard honce hdone rfl rfl
    hconflict
  exact ⟨snapshot, hdone, hreplay.2 hcollision (by simp)⟩

end ReproForge
