import ReproForge.JobUpdates
import ReproForge.Objects

/-!
# Artifact rows

The descriptor of a private artifact, the constraints of its row, and the
statements that the content-addressed store issues on the `artifacts` table.
-/
namespace ReproForge

open KeyedTable Transactions Transactions.Tx

variable {ρ σ : Type}

/-- `createHash("sha256").update(bytes).digest("hex")` -/
class ContentHash where
  sha256 : List UInt8 → String

structure ArtifactDescriptor where
  artifactId : String
  byteCount : Nat
  caseId : String
  createdAt : Instant
  kind : ArtifactKind
  objectKey : String
  retentionUntil : Instant
  sha256 : String
  tenantId : String
  deriving DecidableEq, Repr

def ArtifactKind.text : ArtifactKind → String
  | .source => "source"
  | .runLog => "run-log"
  | .runOutput => "run-output"
  | .bundle => "bundle"
  | .backupManifest => "backup-manifest"

/-- All objects of a tenant lie under one prefix. -/
def tenantPrefix (tenantId : String) : String := "tenants/" ++ tenantId ++ "/"

def objectKey (tenantId caseId : String) (kind : ArtifactKind) (sha256 : String) : String :=
  tenantPrefix tenantId ++ "cases/" ++ caseId ++ "/" ++ kind.text ++ "/" ++ sha256

namespace ArtifactDescriptor

def key (d : ArtifactDescriptor) : Key := ⟨d.tenantId, d.artifactId⟩

def valid (d : ArtifactDescriptor) : Bool :=
  opaqueId d.artifactId && d.byteCount ≤ 1073741824 && opaqueId d.caseId && datetime d.createdAt &&
    1 ≤ utf16Length d.objectKey && utf16Length d.objectKey ≤ 512 && datetime d.retentionUntil &&
    hexDigest 64 d.sha256 && opaqueId d.tenantId &&
    d.objectKey == ReproForge.objectKey d.tenantId d.caseId d.kind d.sha256 && d.createdAt < d.retentionUntil

/-- The columns of the unique key `artifacts_content_identity_unique`. -/
def identifies (d : ArtifactDescriptor) (key : Key) (a : ArtifactRow) : Bool :=
  key.tenantId == d.tenantId && a.caseId == d.caseId && a.kind == d.kind && a.sha256 == d.sha256

end ArtifactDescriptor

def retentionClass : ArtifactKind → RetentionClass
  | .backupManifest => .backup
  | .bundle => .bundle
  | .source => .source
  | .runLog | .runOutput => .run

namespace ArtifactRow

def lifecycleShape (a : ArtifactRow) : Bool :=
  match a.status with
  | .pending => a.providerEtag.isNone && a.verifiedAt.isNone && a.failureCode.isNone && a.deletedAt.isNone
  | .available | .deleting =>
    a.providerEtag.isSome && a.verifiedAt.isSome && a.failureCode.isNone && a.deletedAt.isNone
  | .deleted => a.providerEtag.isSome && a.verifiedAt.isSome && a.failureCode.isNone && a.deletedAt.isSome
  | .failed => a.providerEtag.isNone && a.verifiedAt.isNone && a.failureCode.isSome && a.deletedAt.isNone

def checks (key : Key) (a : ArtifactRow) : Bool :=
  opaqueId key.id && hexDigest 64 a.sha256 &&
    a.objectKey == ReproForge.objectKey key.tenantId a.caseId a.kind a.sha256 &&
    a.createdAt < a.retentionUntil && a.deletedAt.all (a.createdAt ≤ ·) &&
    a.providerEtag.all (fun e => 1 ≤ e.length && e.length ≤ 512) &&
    a.failureCode.all (fun c => 1 ≤ c.length && c.length ≤ 96) && 1 ≤ a.version &&
    a.createdAt ≤ a.updatedAt && a.lifecycleShape

/-! ## SET clauses -/

def reclaimed (now : Instant) (a : ArtifactRow) : ArtifactRow :=
  { a with status := .pending, failureCode := none, version := a.version + 1, updatedAt := now }

def finalized (etag : String) (now : Instant) (a : ArtifactRow) : ArtifactRow :=
  { a with
    status := .available
    providerEtag := some etag
    verifiedAt := some now
    version := a.version + 1
    updatedAt := now }

def failedWrite (failureCode : String) (now : Instant) (a : ArtifactRow) : ArtifactRow :=
  { a with
    status := .failed
    providerEtag := none
    verifiedAt := none
    failureCode := some failureCode
    version := a.version + 1
    updatedAt := now }

def deletionClaimed (now : Instant) (a : ArtifactRow) : ArtifactRow :=
  { a with status := .deleting, version := a.version + 1, updatedAt := now }

def deletionCompleted (now : Instant) (a : ArtifactRow) : ArtifactRow :=
  { a with status := .deleted, deletedAt := some now, version := a.version + 1, updatedAt := now }

def restored (now : Instant) (a : ArtifactRow) : ArtifactRow :=
  { a with status := .available, version := a.version + 1, updatedAt := now }

end ArtifactRow

def artifactUpdateAllowed (key : Key) (old new : ArtifactRow) : Bool :=
  successorVersion old.version new.version old.updatedAt new.updatedAt && datetime new.updatedAt &&
    new.checks key

def ArtifactRow.descriptor (key : Key) (a : ArtifactRow) : ArtifactDescriptor where
  artifactId := key.id
  byteCount := a.byteCount
  caseId := a.caseId
  createdAt := a.createdAt
  kind := a.kind
  objectKey := a.objectKey
  retentionUntil := a.retentionUntil
  sha256 := a.sha256
  tenantId := key.tenantId

/-- The descriptor of a row, unless a column of it is out of range. -/
def rowDescriptor (key : Key) (a : ArtifactRow) : Option ArtifactDescriptor :=
  if (a.descriptor key).valid then some (a.descriptor key) else none

/-- A change of the status leaves the descriptor of a row as it is. -/
theorem rowDescriptor_congr {key : Key} {a a' : ArtifactRow} (h : a'.descriptor key = a.descriptor key) :
    rowDescriptor key a' = rowDescriptor key a := by
  rw [rowDescriptor, rowDescriptor, h]

theorem rowDescriptor_some {key : Key} {a : ArtifactRow} {d : ArtifactDescriptor}
    (h : rowDescriptor key a = some d) :
    d.valid = true ∧ d.key = key ∧ d.objectKey = a.objectKey ∧ d.byteCount = a.byteCount ∧
      d.sha256 = a.sha256 ∧ d.caseId = a.caseId ∧ d.kind = a.kind := by
  simp only [rowDescriptor] at h
  split at h
  · rename_i hvalid
    obtain rfl := Option.some.inj h
    exact ⟨hvalid, rfl, rfl, rfl, rfl, rfl, rfl⟩
  · cases h

/-! ## Statements -/

def newArtifact (d : ArtifactDescriptor) : ArtifactRow where
  caseId := d.caseId
  kind := d.kind
  sha256 := d.sha256
  byteCount := d.byteCount
  objectKey := d.objectKey
  retentionClass := retentionClass d.kind
  createdAt := d.createdAt
  retentionUntil := d.retentionUntil
  deletedAt := none
  status := .pending
  providerEtag := none
  verifiedAt := none
  failureCode := none
  version := 1
  updatedAt := d.createdAt

theorem rowDescriptor_newArtifact {d : ArtifactDescriptor} (h : d.valid = true) :
    rowDescriptor d.key (newArtifact d) = some d := by
  have hself : (newArtifact d).descriptor d.key = d := rfl
  rw [rowDescriptor, hself, if_pos h]

/-- `ON CONFLICT (tenant_id, case_id, kind, sha256) DO NOTHING RETURNING *` -/
def insertArtifact (d : ArtifactDescriptor) : Statement ρ σ (Option (Key × ArtifactRow)) := fun db =>
  if !(newArtifact d).checks d.key then (.error .constraint, db)
  else if (db.artifacts.find? d.identifies).isSome then (.ok none, db)
  else if (db.artifacts.get d.key).isNone &&
      (db.artifacts.find? (fun _ a => a.objectKey == d.objectKey)).isNone &&
      (db.cases.get ⟨d.tenantId, d.caseId⟩).isSome then
    (.ok (some (d.key, newArtifact d)), { db with artifacts := db.artifacts.insert d.key (newArtifact d) })
  else (.error .constraint, db)

/-- The transaction in which `put` reserves its row. -/
def reserveArtifact (d : ArtifactDescriptor) : Statement ρ σ (Option (Key × ArtifactRow)) := do
  let db ← read
  require (tenantActive db d.tenantId) (.artifact .tenantUnavailable)
  insertArtifact d

def updateArtifact (key : Key) (condition : ArtifactRow → Bool) (assign : ArtifactRow → ArtifactRow) :
    Statement ρ σ (Option ArtifactRow) :=
  updateRow Db.artifacts (fun t db => { db with artifacts := t }) artifactUpdateAllowed key condition assign

def findByIdentity (d : ArtifactDescriptor) : Statement ρ σ (Option (Key × ArtifactRow)) := do
  let db ← read
  pure (db.artifacts.find? d.identifies)

/-- Take over a row that an earlier write left `FAILED`, under the identity of that row. -/
def reclaimArtifact (d : ArtifactDescriptor) (version : Nat) (now : Instant) :
    Statement ρ σ (Option (Key × ArtifactRow)) := fun db =>
  match db.artifacts.find? d.identifies with
  | none => (.ok none, db)
  | some (key, _) =>
    match updateArtifact key (fun a => a.status == .failed && a.version == version)
      (ArtifactRow.reclaimed now) db with
    | (.ok row, db') => (.ok (row.map (fun a => (key, a))), db')
    | (.error e, db') => (.error e, db')

def finalizeArtifact (key : Key) (version : Nat) (etag : String) (now : Instant) :
    Statement ρ σ (Option ArtifactRow) :=
  updateArtifact key (fun a => a.status == .pending && a.version == version) (ArtifactRow.finalized etag now)

def failArtifact (key : Key) (version : Nat) (failureCode : String) (now : Instant) :
    Statement ρ σ (Option ArtifactRow) :=
  updateArtifact key (fun a => a.status == .pending && a.version == version)
    (ArtifactRow.failedWrite failureCode now)

def findAuthorized (scope : TenantScope) (artifactId : String) (status : ArtifactStatus) :
    Statement ρ σ (Option ArtifactRow) := do
  let db ← read
  pure ((db.artifacts.get ⟨scope.tenantId, artifactId⟩).filter (fun a => a.status == status &&
    (db.idempotencyKeys.find? (fun key i => key.tenantId == scope.tenantId && i.caseId == a.caseId &&
      key.callerId == scope.callerId)).isSome))

def claimArtifactDeletion (key : Key) (version : Nat) (now : Instant) : Statement ρ σ (Option ArtifactRow) :=
  updateArtifact key (fun a => a.status == .available && a.version == version)
    (ArtifactRow.deletionClaimed now)

def completeArtifactDeletion (key : Key) (version : Nat) (now : Instant) :
    Statement ρ σ (Option ArtifactRow) :=
  updateArtifact key (fun a => a.status == .deleting && a.version == version)
    (ArtifactRow.deletionCompleted now)

def restoreArtifact (key : Key) (version : Nat) (now : Instant) : Statement ρ σ (Option ArtifactRow) :=
  updateArtifact key (fun a => a.status == .deleting && a.version == version) (ArtifactRow.restored now)

/-! ## What a statement that succeeded did -/

/-- One update of one row, allowed by its constraints and triggers. -/
structure ArtifactUpdate (db db' : Db ρ σ) (key : Key) (a a' : ArtifactRow) : Prop where
  row : db.artifacts.get key = some a
  allowed : artifactUpdateAllowed key a a' = true
  result : db' = { db with artifacts := db.artifacts.set key a' }

namespace ArtifactUpdate

variable {db db' : Db ρ σ} {key : Key} {a a' : ArtifactRow}

theorem version (h : ArtifactUpdate db db' key a a') : a'.version = a.version + 1 := by
  have hallowed := h.allowed
  simp only [artifactUpdateAllowed, successorVersion, Bool.and_eq_true, beq_iff_eq] at hallowed
  exact hallowed.1.1.1

theorem get_self (h : ArtifactUpdate db db' key a a') : db'.artifacts.get key = some a' := by
  rw [h.result]
  exact Table.get_set_self h.row

theorem get_other (h : ArtifactUpdate db db' key a a') {k : Key} (hk : k ≠ key) :
    db'.artifacts.get k = db.artifacts.get k := by
  rw [h.result]
  exact Table.get_set_other _ _ hk

theorem tenants (h : ArtifactUpdate db db' key a a') : db'.tenants = db.tenants := by rw [h.result]

end ArtifactUpdate

theorem updateArtifact_ok {key : Key} {condition : ArtifactRow → Bool} {assign : ArtifactRow → ArtifactRow}
    {db db' : Db ρ σ} {reply : Option ArtifactRow}
    (h : updateArtifact key condition assign db = (.ok reply, db')) :
    (reply = none ∧ db' = db) ∨ ∃ a, condition a = true ∧ reply = some (assign a) ∧
      ArtifactUpdate db db' key a (assign a) := by
  rcases updateRow_ok h with hnone | ⟨a, ha, hc, hallowed, hr, hd⟩
  · exact .inl hnone
  · exact .inr ⟨a, hc, hr, ha, hallowed, hd⟩

/-- The row of a fresh insertion, whose identity and path no other row has. -/
structure ArtifactInsertion (db db' : Db ρ σ) (d : ArtifactDescriptor) : Prop where
  active : tenantActive db d.tenantId = true
  checks : (newArtifact d).checks d.key = true
  fresh : db.artifacts.get d.key = none
  unique : ∀ key a, db.artifacts.get key = some a → a.objectKey ≠ d.objectKey
  result : db' = { db with artifacts := db.artifacts.insert d.key (newArtifact d) }

theorem reserveArtifact_ok {d : ArtifactDescriptor} {reply : Option (Key × ArtifactRow)} {db db' : Db ρ σ}
    (h : reserveArtifact d db = (.ok reply, db')) :
    (reply = none ∧ db' = db) ∨ (reply = some (d.key, newArtifact d) ∧ ArtifactInsertion db db' d) := by
  simp only [reserveArtifact, bind_ok, read_ok, require_ok] at h
  obtain ⟨_, _, ⟨rfl, rfl⟩, _, _, ⟨hactive, rfl⟩, h⟩ := h
  simp only [insertArtifact] at h
  split at h
  · cases h
  · rename_i hchecks
    split at h
    · exact .inl ⟨(Except.ok.inj (Prod.mk.inj h).1).symm, (Prod.mk.inj h).2.symm⟩
    · split at h
      · rename_i hfresh
        simp only [Bool.and_eq_true, Option.isNone_iff_eq_none] at hfresh
        simp only [Prod.mk.injEq, Except.ok.injEq] at h
        refine .inr ⟨h.1.symm, hactive, by simpa using hchecks, hfresh.1.1, ?_, h.2.symm⟩
        intro key a ha he
        obtain ⟨row, hrow⟩ := Table.find?_isSome (p := fun _ a => a.objectKey == d.objectKey) ha (by simp [he])
        rw [hfresh.1.2] at hrow
        cases hrow
      · cases h

theorem findByIdentity_ok {d : ArtifactDescriptor} {reply : Option (Key × ArtifactRow)} {db db' : Db ρ σ}
    (h : findByIdentity d db = (.ok reply, db')) :
    db' = db ∧ ∀ key a, reply = some (key, a) → db.artifacts.get key = some a ∧ d.identifies key a = true := by
  simp only [findByIdentity, bind_ok, read_ok, pure_ok] at h
  obtain ⟨_, _, ⟨rfl, rfl⟩, rfl, rfl⟩ := h
  exact ⟨rfl, fun key a he => Table.find?_some he⟩

theorem reclaimArtifact_ok {d : ArtifactDescriptor} {version : Nat} {now : Instant}
    {reply : Option (Key × ArtifactRow)} {db db' : Db ρ σ}
    (h : reclaimArtifact d version now db = (.ok reply, db')) :
    (reply = none ∧ db' = db) ∨ ∃ key a, d.identifies key a = true ∧ a.status = .failed ∧
      a.version = version ∧ reply = some (key, a.reclaimed now) ∧
      ArtifactUpdate db db' key a (a.reclaimed now) := by
  simp only [reclaimArtifact] at h
  split at h
  · exact .inl ⟨(Except.ok.inj (Prod.mk.inj h).1).symm, (Prod.mk.inj h).2.symm⟩
  · rename_i key found hfound
    obtain ⟨hget, hidentifies⟩ := Table.find?_some hfound
    split at h
    · rename_i row t hu
      simp only [Prod.mk.injEq, Except.ok.injEq] at h
      obtain ⟨rfl, rfl⟩ := h
      rcases updateArtifact_ok hu with ⟨rfl, hd⟩ | ⟨a, hc, rfl, hw⟩
      · exact .inl ⟨rfl, hd⟩
      · simp only [Bool.and_eq_true, beq_iff_eq] at hc
        obtain rfl := Option.some.inj (hget.symm.trans hw.row)
        exact .inr ⟨key, _, hidentifies, hc.1, hc.2, rfl, hw⟩
    · cases h

theorem findAuthorized_ok {scope : TenantScope} {artifactId : String} {status : ArtifactStatus}
    {reply : Option ArtifactRow} {db db' : Db ρ σ}
    (h : findAuthorized scope artifactId status db = (.ok reply, db')) :
    db' = db ∧ ∀ a, reply = some a →
      db.artifacts.get ⟨scope.tenantId, artifactId⟩ = some a ∧ a.status = status := by
  simp only [findAuthorized, bind_ok, read_ok, pure_ok] at h
  obtain ⟨_, _, ⟨rfl, rfl⟩, rfl, rfl⟩ := h
  refine ⟨rfl, fun a ha => ?_⟩
  obtain ⟨hget, hc⟩ := Option.filter_eq_some_iff.mp ha
  simp only [Bool.and_eq_true, beq_iff_eq] at hc
  exact ⟨hget, hc.1⟩

/-- A single statement whose reply arrives ran on the committed rows. -/
theorem Attempt.transaction_ok {α : Type} {attempt : Attempt} {operation : Statement ρ σ α} {db db' : Db ρ σ}
    {a : α} (h : attempt.transaction operation db = (.ok a, db')) : operation db = (.ok a, db') := by
  rcases transaction_cases attempt operation db with ⟨e, he⟩ | ⟨b, t, ho, hr | hr⟩
  · rw [he] at h
    cases h
  · rw [hr] at h
    rw [ho]
    exact h
  · rw [hr] at h
    cases h

/-- Without a reply the statement did not take effect, or its effect was not acknowledged. -/
theorem Attempt.transaction_error {α : Type} {attempt : Attempt} {operation : Statement ρ σ α}
    {db db' : Db ρ σ} {e : DurableError} (h : attempt.transaction operation db = (.error e, db')) :
    db' = db ∨ (attempt = .failsAfter ∧ ∃ a, operation db = (.ok a, db')) := by
  cases attempt with
  | runs => exact .inl (atomically_error h)
  | serializationFailure => exact .inl (Prod.mk.inj h).2.symm
  | failsBefore => exact .inl (Prod.mk.inj h).2.symm
  | failsAfter =>
    simp only [Attempt.transaction] at h
    split at h
    · rename_i a t ha
      obtain rfl := (Prod.mk.inj h).2
      exact .inr ⟨rfl, a, atomically_ok.mp ha⟩
    · rename_i f t ha
      obtain rfl := (Prod.mk.inj h).2
      exact .inl (atomically_error ha)

/-- A statement that only reads leaves the database alone, whatever becomes of it. -/
theorem Attempt.transaction_reads {α : Type} {operation : Statement ρ σ α} (attempt : Attempt) {db : Db ρ σ}
    (hreads : ∀ reply db', operation db = (.ok reply, db') → db' = db) :
    (attempt.transaction operation db).2 = db := by
  rcases transaction_cases attempt operation db with ⟨e, he⟩ | ⟨a, t, ho, hr | hr⟩
  · rw [he]
  · rw [hr]
    exact hreads a t ho
  · rw [hr]
    exact hreads a t ho

end ReproForge
