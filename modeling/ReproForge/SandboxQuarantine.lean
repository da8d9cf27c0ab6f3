import ReproForge.Retention
import ReproForge.Runs

/-!
# Sandbox quarantine

A sandbox or a snapshot that an attempt could not delete is named by an audit
event. An operator lists the events without a resolution, has the provider
delete a resource, and appends the resolution to the audit.
-/
namespace ReproForge

open KeyedTable Transactions Transactions.Tx

variable {ρ σ : Type}

/-! ## Records -/

inductive QuarantineResourceType where
  | sandbox | snapshot
  deriving DecidableEq, Repr

def QuarantineResourceType.text : QuarantineResourceType → String
  | .sandbox => "sandbox"
  | .snapshot => "snapshot"

def QuarantineResourceType.ofText (s : String) : Option QuarantineResourceType :=
  if s = "sandbox" then some .sandbox else if s = "snapshot" then some .snapshot else none

/-- A resource of the provider, as an attempt records it and as an operator names it. -/
structure QuarantineResource where
  actorId : String
  attemptId : String
  providerResourceId : String
  resourceType : QuarantineResourceType
  tenantId : String
  deriving DecidableEq, Repr

abbrev ProviderResource := QuarantineResourceType × String

/-- `/[\u0000-\u001f\u007f]/u.test(value)` -/
def controlCharacters (s : String) : Bool := s.toList.any (fun c => c.toNat < 32 || c.toNat == 127)

def providerResourceId (s : String) : Bool := 1 ≤ utf16Length s && utf16Length s ≤ 512 && !controlCharacters s

namespace QuarantineResource

def resource (r : QuarantineResource) : ProviderResource := (r.resourceType, r.providerResourceId)

/-- `contextualRecordSchema` -/
def recordable (r : QuarantineResource) : Bool :=
  opaqueId r.actorId && opaqueId r.attemptId && 1 ≤ utf16Length r.providerResourceId &&
    utf16Length r.providerResourceId ≤ 512 && opaqueId r.tenantId

/-- `resolveSchema` -/
def resolvable (r : QuarantineResource) : Bool :=
  opaqueId r.actorId && opaqueId r.attemptId && ReproForge.providerResourceId r.providerResourceId && opaqueId r.tenantId

variable [Sha256]

def identity (r : QuarantineResource) : List String :=
  [r.tenantId, r.attemptId, r.resourceType.text, r.providerResourceId]

def quarantinedEvent (r : QuarantineResource) (at' : Instant) : AuditEvent where
  action := "sandbox.cleanup-quarantined"
  actorId := r.actorId
  eventId := derivedId "audit_quarantine" r.identity
  metadata := [("cleanupKind", .text r.resourceType.text), ("providerId", .text r.providerResourceId),
    ("reason", .text "cleanup-failed")]
  occurredAt := at'
  outcome := .failure
  targetId := r.attemptId
  targetType := .job
  tenantId := r.tenantId

def resolvedEvent (r : QuarantineResource) (at' : Instant) : AuditEvent where
  action := "sandbox.cleanup-resolved"
  actorId := r.actorId
  eventId := derivedId "audit_quarantine_resolved" r.identity
  metadata := [("cleanupKind", .text r.resourceType.text), ("providerId", .text r.providerResourceId)]
  occurredAt := at'
  outcome := .success
  targetId := r.attemptId
  targetType := .job
  tenantId := r.tenantId

end QuarantineResource

/-- `AuditSandboxQuarantineSink.record`; a text of a jsonb document holds no NUL. -/
def recordQuarantine [Sha256] (r : QuarantineResource) (at' : Instant) : Statement ρ σ Unit := do
  require r.recordable .schema
  require (!r.providerResourceId.toList.contains '\x00') .constraint
  appendAudit (r.quarantinedEvent at')

/-! ## Queries -/

/-- `metadata->>name` -/
def AuditRow.metadataText (row : AuditRow) (name : String) : Option String :=
  match row.metadata.lookup name with
  | some (.text s) => some s
  | some (.number n) => some (toString n)
  | some (.flag b) => some (if b then "true" else "false")
  | some .null => none
  | none => none

/-- The row of an event about exactly this resource. -/
def AuditRow.names (action : String) (r : QuarantineResource) (key : Key) (row : AuditRow) : Bool :=
  key.tenantId == r.tenantId && row.action == action && row.targetId == r.attemptId &&
    row.metadataText "providerId" == some r.providerResourceId &&
    row.metadataText "cleanupKind" == some r.resourceType.text

structure QuarantineState where
  quarantined : Bool
  resolved : Bool
  deriving DecidableEq, Repr

def lookupQuarantine (r : QuarantineResource) (db : Db ρ σ) : QuarantineState where
  quarantined := (db.auditEvents.find? (AuditRow.names "sandbox.cleanup-quarantined" r)).isSome
  resolved := (db.auditEvents.find? (AuditRow.names "sandbox.cleanup-resolved" r)).isSome

/-- Two columns that are equal; a missing value equals nothing. -/
def sameText (a b : Option String) : Bool := a.isSome && a == b

/-- `NOT EXISTS (SELECT 1 FROM audit_events r WHERE …)` -/
def unresolved (db : Db ρ σ) (key : Key) (q : AuditRow) : Bool :=
  (db.auditEvents.find? (fun key' r => key'.tenantId == key.tenantId && r.action == "sandbox.cleanup-resolved" &&
    r.targetId == q.targetId && sameText (r.metadataText "providerId") (q.metadataText "providerId") &&
    sameText (r.metadataText "cleanupKind") (q.metadataText "cleanupKind"))).isNone

/-- `ORDER BY q.occurred_at, q.tenant_id, q.target_id` -/
def quarantinedBefore (a b : Key × AuditRow) : Bool :=
  a.2.occurredAt < b.2.occurredAt || (a.2.occurredAt == b.2.occurredAt &&
    (a.1.tenantId < b.1.tenantId || (a.1.tenantId == b.1.tenantId && a.2.targetId ≤ b.2.targetId)))

def openRows (db : Db ρ σ) : List (Key × AuditRow) :=
  (db.auditEvents.select (fun key q => q.action == "sandbox.cleanup-quarantined" && unresolved db key q)).mergeSort
    quarantinedBefore

structure OpenQuarantine where
  attemptId : String
  providerResourceId : String
  quarantinedAt : Instant
  resourceType : QuarantineResourceType
  tenantId : String
  deriving DecidableEq, Repr

/-- The three schemas that a listed row passes. -/
def parseQuarantineRow (row : Key × AuditRow) : Option OpenQuarantine :=
  match row.2.metadataText "providerId", (row.2.metadataText "cleanupKind").bind QuarantineResourceType.ofText with
  | some providerId, some resourceType =>
    if opaqueId row.2.targetId && providerResourceId providerId && opaqueId row.1.tenantId then
      some ⟨row.2.targetId, providerId, row.2.occurredAt, resourceType, row.1.tenantId⟩
    else none
  | _, _ => none

def listOpen (limit : Int) : Statement ρ σ (List OpenQuarantine) := do
  require (1 ≤ limit && limit ≤ 100) .schema
  let db ← read
  forEach (fun row => demand (parseQuarantineRow row) .schema) ((openRows db).take limit.toNat)

/-! ## Resolving -/

/-- A call of `resolve` between its steps. -/
inductive ResolveCall where
  | idle
  /-- The resource is quarantined, and the provider is asked to delete it. -/
  | deleting (input : QuarantineResource)
  /-- The provider has deleted the resource, and the resolution is appended. -/
  | recording (input : QuarantineResource)
  /-- The append failed, and the call looks whether another one has recorded the resolution. -/
  | confirming (input : QuarantineResource)
  | returned (input : QuarantineResource) (changed : Bool)
  | threw
  deriving DecidableEq, Repr

/-- The call up to the request to the provider. -/
def ResolveCall.begin (input : QuarantineResource) (db : Db ρ σ) : ResolveCall :=
  if !input.resolvable then .threw
  else if (lookupQuarantine input db).resolved then .returned input false
  else if !(lookupQuarantine input db).quarantined then .threw
  else .deleting input

/-- What the provider does with a request to delete a resource that exists. -/
inductive ProviderReply where
  | deletes | fails
  /-- The resource is deleted, and the caller does not learn of it. -/
  | deletesUnheard
  deriving DecidableEq, Repr

inductive RetentionOperation where
  | request (input : DeletionInput)
  | schedule (input : ScheduleInput) (locked : List String)
  | claimNext (at' : Instant) (ownerId : String) (locked : List Key)
  | markFailed (claim : DeletionClaim) (at' : Instant) (failure : RetentionFailure)
  | complete (claim : DeletionClaim) (at' : Instant)
  deriving DecidableEq, Repr

/-- Account deletions, without their replies. -/
def RetentionOperation.statement [Sha256] [ResultDocument ρ] [RequestDocument σ] :
    RetentionOperation → Statement ρ σ Unit
  | .request input => do
    let _ ← requestDeletion input
    pure ()
  | .schedule input locked => do
    let _ ← scheduleDue input locked
    pure ()
  | .claimNext at' ownerId locked => do
    let _ ← ReproForge.claimNext at' ownerId locked
    pure ()
  | .markFailed claim at' failure => ReproForge.markFailed claim at' failure
  | .complete claim at' => ReproForge.complete claim at'

/-- The database, the provider, and the calls of `resolve`. `recorded` are the resources that were quarantined
at some time, and `interrupted` those whose deletion was not recorded by the call that asked for it. -/
structure QuarantineWorld (ρ σ : Type) where
  db : Db ρ σ
  provided : List ProviderResource
  deleted : List ProviderResource
  calls : Nat → ResolveCall
  recorded : List QuarantineResource
  interrupted : List QuarantineResource

inductive QuarantineAction (ρ σ : Type) where
  /-- An attempt obtains a resource; the provider does not reuse an identifier. -/
  | provide (resource : ProviderResource)
  | record (r : QuarantineResource) (at' : Instant) (attempt : Attempt)
  | resolve (n : Nat) (input : QuarantineResource)
  | delete (n : Nat) (reply : ProviderReply)
  | append (n : Nat) (at' : Instant) (attempt : Attempt)
  | confirm (n : Nat) (answers : Bool)
  | crash (n : Nat)
  | retention (attempt : Attempt) (operation : RetentionOperation)
  /-- Another service appends an audit event. -/
  | audit (key : Key) (row : AuditRow)
  /-- Other services write to the other tables. -/
  | others (db : Db ρ σ)

namespace QuarantineWorld

def initial (db : Db ρ σ) : QuarantineWorld ρ σ := ⟨db, [], [], fun _ => .idle, [], []⟩

def available (w : QuarantineWorld ρ σ) (resource : ProviderResource) : Bool :=
  w.provided.contains resource && !w.deleted.contains resource

def move (n : Nat) (c : ResolveCall) (w : QuarantineWorld ρ σ) : QuarantineWorld ρ σ :=
  { w with calls := fun m => if m = n then c else w.calls m }

variable [Sha256] [ResultDocument ρ] [RequestDocument σ]

def step : QuarantineAction ρ σ → QuarantineWorld ρ σ → QuarantineWorld ρ σ
  | .provide resource, w => { w with provided := resource :: w.provided }
  | .record r at' attempt, w =>
    let db := (attempt.transaction (recordQuarantine r at') w.db).2
    { w with db := db, recorded := if (lookupQuarantine r db).quarantined then r :: w.recorded else w.recorded }
  | .resolve n input, w =>
    match w.calls n with
    | .idle => w.move n (.begin input w.db)
    | _ => w
  | .delete n reply, w =>
    match w.calls n with
    | .deleting input =>
      if w.available input.resource then
        match reply with
        | .deletes => { w.move n (.recording input) with deleted := input.resource :: w.deleted }
        | .fails => w.move n .threw
        | .deletesUnheard =>
          { w.move n .threw with
            deleted := input.resource :: w.deleted
            interrupted := input :: w.interrupted }
      else w.move n .threw
    | _ => w
  | .append n at' attempt, w =>
    match w.calls n with
    | .recording input =>
      match attempt.transaction (appendAudit (input.resolvedEvent at')) w.db with
      | (.ok _, db) => { w.move n (.returned input true) with db := db }
      | (.error _, db) =>
        { w.move n (.confirming input) with
          db := db
          interrupted := if (lookupQuarantine input db).resolved then w.interrupted else input :: w.interrupted }
    | _ => w
  | .confirm n answers, w =>
    match w.calls n with
    | .confirming input =>
      w.move n (if answers && (lookupQuarantine input w.db).resolved then .returned input false else .threw)
    | _ => w
  | .crash n, w =>
    match w.calls n with
    | .recording input => { w.move n .threw with interrupted := input :: w.interrupted }
    | .deleting _ => w.move n .threw
    | .confirming _ => w.move n .threw
    | _ => w
  | .retention attempt operation, w => { w with db := (attempt.transaction operation.statement w.db).2 }
  | .audit key row, w =>
    if row.action = "sandbox.cleanup-quarantined" || row.action = "sandbox.cleanup-resolved" then w
    else { w with db := (insertAuditEvent key row w.db).2 }
  | .others db, w => { w with db := { db with auditEvents := w.db.auditEvents } }

end QuarantineWorld

end ReproForge
