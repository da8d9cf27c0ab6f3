import ReproForge.BackupService

/-!
# What a restore writes

The rows that the restore transaction leaves of an archive, in the order of the
archive, after every row that was there before.
-/
namespace ReproForge

open KeyedTable Transactions Transactions.Tx

variable {ρ σ : Type}

/-! ## Loops of insertions -/

section loops

variable {τ ε α β γ : Type} {f : α → Tx τ ε β} {items : List α} {s s' : τ} {bs : List β}

theorem forEach_appended {q : τ → List γ} {g : α → γ}
    (hf : ∀ a b s s', f a s = (.ok b, s') → q s' = q s ++ [g a]) (h : forEach f items s = (.ok bs, s')) :
    q s' = q s ++ items.map g := by
  induction items generalizing s bs with
  | nil =>
    obtain ⟨-, rfl⟩ := forEach_nil_ok.mp h
    rw [List.map_nil, List.append_nil]
  | cons a rest ih =>
    obtain ⟨b, t, bs', hb, hr, -⟩ := forEach_cons_ok.mp h
    rw [ih hr, hf a b s t hb, List.append_assoc, List.map_cons, List.singleton_append]

theorem forEach_kept {q : τ → γ} (hf : ∀ a b s s', f a s = (.ok b, s') → q s' = q s)
    (h : forEach f items s = (.ok bs, s')) : q s' = q s := by
  induction items generalizing s bs with
  | nil =>
    obtain ⟨-, rfl⟩ := forEach_nil_ok.mp h
    rfl
  | cons a rest ih =>
    obtain ⟨b, t, bs', hb, hr, -⟩ := forEach_cons_ok.mp h
    rw [ih hr, hf a b s t hb]

/-- What an iteration finds is there in every round of the loop. -/
theorem forEach_found {P : α → Prop} (hf : ∀ a b s s', f a s = (.ok b, s') → P a)
    (h : forEach f items s = (.ok bs, s')) : ∀ a ∈ items, P a := by
  induction items generalizing s bs with
  | nil => exact fun a ha => absurd ha List.not_mem_nil
  | cons a rest ih =>
    obtain ⟨b, t, bs', hb, hr, -⟩ := forEach_cons_ok.mp h
    intro c hc
    rcases List.mem_cons.mp hc with rfl | hc
    · exact hf c b s t hb
    · exact ih hr c hc

/-- A loop ends when every round can be made in the state that the rounds before it left. -/
theorem forEach_ends {I : List α → τ → Prop}
    (hf : ∀ a rest s, I (a :: rest) s → ∃ b s', f a s = (.ok b, s') ∧ I rest s') (h : I items s) :
    ∃ bs s', forEach f items s = (.ok bs, s') ∧ I [] s' := by
  induction items generalizing s with
  | nil => exact ⟨[], s, forEach_nil_ok.mpr ⟨rfl, rfl⟩, h⟩
  | cons a rest ih =>
    obtain ⟨b, t, hb, ht⟩ := hf a rest s h
    obtain ⟨bs, s', hr, hs'⟩ := ih ht
    exact ⟨b :: bs, s', forEach_cons_ok.mpr ⟨b, t, bs, hb, hr, rfl⟩, hs'⟩

end loops

/-! ## What the statements write -/

section statements

variable {p p' : Platform ρ σ} {tenantId : String} {α : Type}

theorem lift_ok {operation : Statement ρ σ α} {a : α} :
    RestoreStatement.lift operation p = (.ok a, p') ↔
      ∃ db, operation p.db = (.ok a, db) ∧ p' = { p with db := db } := by
  rw [RestoreStatement.lift]
  constructor
  · intro h
    split at h
    · rename_i b db hop
      cases h
      exact ⟨db, hop, rfl⟩
    · cases h
  · rintro ⟨db, hop, rfl⟩
    rw [hop]

theorem insertTenant_ok {id : String} {row : TenantRow} {db db' : Db ρ σ} {u : Unit} :
    RestoreStatement.insertTenant id row db = (.ok u, db') ↔
      db.tenants.get id = none ∧ opaqueId id = true ∧ row.checks = true ∧
        db' = { db with tenants := db.tenants.insert id row } := by
  rw [RestoreStatement.insertTenant]
  split
  next hc =>
    simp only [Bool.and_eq_true, Option.isNone_iff_eq_none] at hc
    simp only [Prod.mk.injEq, true_and]
    exact ⟨fun h => ⟨hc.1.1, hc.1.2, hc.2, h.symm⟩, fun h => h.2.2.2.symm⟩
  next hc =>
    simp only [Bool.and_eq_true, Option.isNone_iff_eq_none, not_and] at hc
    constructor
    · intro h
      cases h
    · intro h
      exact absurd h.2.2.1 (hc ⟨h.1, h.2.1⟩)

theorem insertRestoreSession_ok {row : RestoreSessionRow} {u : Unit} :
    RestoreStatement.insertRestoreSession tenantId row p = (.ok u, p') ↔
      p.restoreSessions.get tenantId = none ∧ (p.db.tenants.get tenantId).isSome = true ∧ row.checks = true ∧
        p' = { p with restoreSessions := p.restoreSessions.insert tenantId row } := by
  rw [RestoreStatement.insertRestoreSession]
  split
  next hc =>
    simp only [Bool.and_eq_true, Option.isNone_iff_eq_none] at hc
    simp only [Prod.mk.injEq, true_and]
    exact ⟨fun h => ⟨hc.1.1, hc.1.2, hc.2, h.symm⟩, fun h => h.2.2.2.symm⟩
  next hc =>
    simp only [Bool.and_eq_true, Option.isNone_iff_eq_none, not_and] at hc
    constructor
    · intro h
      cases h
    · intro h
      exact absurd h.2.2.1 (hc ⟨h.1, h.2.1⟩)

theorem insertRunEvidence_ok {key : EvidenceKey} {row : EvidenceRow} {u : Unit} :
    RestoreStatement.insertRunEvidence key row p = (.ok u, p') ↔
      RestoreStatement.evidenceLease p key row = true ∧ p.runEvidence.get key = none ∧
        jobExists p.db key.tenantId row.caseId key.jobId = true ∧ row.checks key = true ∧
        p' = { p with runEvidence := p.runEvidence.insert key row } := by
  rw [RestoreStatement.insertRunEvidence]
  split
  next hc =>
    simp only [Bool.and_eq_true, Option.isNone_iff_eq_none] at hc
    simp only [Prod.mk.injEq, true_and]
    exact ⟨fun h => ⟨hc.1.1.1, hc.1.1.2, hc.1.2, hc.2, h.symm⟩, fun h => h.2.2.2.2.symm⟩
  next hc =>
    simp only [Bool.and_eq_true, Option.isNone_iff_eq_none, not_and] at hc
    constructor
    · intro h
      cases h
    · intro h
      exact absurd h.2.2.2.1 (hc ⟨⟨h.1, h.2.1⟩, h.2.2.1⟩)

/-- The rows that an artifact must not share its identity or its path with. -/
structure Unclaimed (db : Db ρ σ) (key : Key) (row : ArtifactRow) : Prop where
  vacant : db.artifacts.get key = none
  identity : db.artifacts.find? (fun k a =>
    k.tenantId == key.tenantId && a.caseId == row.caseId && a.kind == row.kind && a.sha256 == row.sha256) = none
  path : db.artifacts.find? (fun _ a => a.objectKey == row.objectKey) = none

theorem insertRestoredArtifact_ok {key : Key} {row : ArtifactRow} {db db' : Db ρ σ} {u : Unit} :
    RestoreStatement.insertRestoredArtifact key row db = (.ok u, db') ↔
      Unclaimed db key row ∧ (db.cases.get ⟨key.tenantId, row.caseId⟩).isSome = true ∧ row.checks key = true ∧
        db' = { db with artifacts := db.artifacts.insert key row } := by
  rw [RestoreStatement.insertRestoredArtifact]
  split
  next hc =>
    simp only [Bool.and_eq_true, Option.isNone_iff_eq_none] at hc
    simp only [Prod.mk.injEq, true_and]
    exact ⟨fun h => ⟨⟨hc.1.1.1.1, hc.1.1.1.2, hc.1.1.2⟩, hc.1.2, hc.2, h.symm⟩, fun h => h.2.2.2.symm⟩
  next hc =>
    simp only [Bool.and_eq_true, Option.isNone_iff_eq_none, not_and] at hc
    constructor
    · intro h
      cases h
    · intro h
      exact absurd h.2.2.1 (hc ⟨⟨⟨h.1.vacant, h.1.identity⟩, h.1.path⟩, h.2.1⟩)

/-- What an inserted reproduction found and left. -/
structure Reproduced (tenantId : String) (r : TenantBackupReproduction ρ σ) (p p' : Platform ρ σ) : Prop where
  case : p.db.cases.get ⟨tenantId, r.record.caseId⟩ = none
  job : p.db.jobs.get ⟨tenantId, r.record.jobId⟩ = none
  key : p.db.idempotencyKeys.get ⟨tenantId, r.record.callerId, r.record.idempotencyKey⟩ = none
  left : p' = { p with
    db := { p.db with
      cases := p.db.cases.insert ⟨tenantId, r.record.caseId⟩ (restoredCase r)
      jobs := p.db.jobs.insert ⟨tenantId, r.record.jobId⟩ (restoredJob r)
      idempotencyKeys := p.db.idempotencyKeys.insert ⟨tenantId, r.record.callerId, r.record.idempotencyKey⟩
        (restoredIdempotency r) } }

theorem insertReproduction_ok {r : TenantBackupReproduction ρ σ} {u : Unit}
    (h : insertReproduction tenantId r p = (.ok u, p')) : Reproduced tenantId r p p' := by
  obtain ⟨db, hop, rfl⟩ := lift_ok.mp h
  obtain ⟨_, db₁, hcase, hop⟩ := bind_ok.mp hop
  obtain ⟨_, db₂, hjob, hkey⟩ := bind_ok.mp hop
  obtain ⟨hc, -, -, rfl⟩ := insertCase_ok hcase
  obtain ⟨hj, -, -, -, rfl⟩ := insertJob_ok hjob
  obtain ⟨hk, -, -, rfl⟩ := insertIdempotencyKey_ok hkey
  exact ⟨hc, hj, hk, rfl⟩

theorem insertEvidence_ok {e : TenantBackupEvidence} {u : Unit} (h : insertEvidence tenantId e p = (.ok u, p')) :
    p.runEvidence.get ⟨tenantId, e.jobId, e.attempt, e.sequence⟩ = none ∧
      p' = { p with
        runEvidence := p.runEvidence.insert ⟨tenantId, e.jobId, e.attempt, e.sequence⟩ (restoredEvidence e) } := by
  obtain ⟨-, hvacant, -, -, hleft⟩ := insertRunEvidence_ok.mp h
  exact ⟨hvacant, hleft⟩

/-- The etag of the upload under the path of an artifact. -/
def Uploads.etag (uploads : Uploads) (a : ArtifactDescriptor) : String :=
  ((uploads.get a.objectKey).map fun u => u.metadata.etag).getD ""

theorem insertArtifactRow_ok {uploads : Uploads} {restoredAt : Instant} {a : ArtifactDescriptor} {u : Unit}
    (h : insertArtifactRow tenantId uploads restoredAt a p = (.ok u, p')) :
    (uploads.get a.objectKey).isSome = true ∧ p.db.artifacts.get ⟨tenantId, a.artifactId⟩ = none ∧
      p' = { p with
        db := { p.db with
          artifacts :=
            p.db.artifacts.insert ⟨tenantId, a.artifactId⟩ (restoredArtifact restoredAt (uploads.etag a) a) } } := by
  obtain ⟨uploaded, t, hdemand, hlift⟩ := bind_ok.mp h
  obtain ⟨hfound, rfl⟩ := demand_ok.mp hdemand
  obtain ⟨db, hop, rfl⟩ := lift_ok.mp hlift
  obtain ⟨hunclaimed, -, -, rfl⟩ := insertRestoredArtifact_ok.mp hop
  have hetag : uploads.etag a = uploaded.metadata.etag := by
    rw [Uploads.etag, hfound, Option.map_some, Option.getD_some]
  rw [hetag]
  exact ⟨by rw [hfound, Option.isSome_some], hunclaimed.vacant, rfl⟩

theorem completeRestore_ok {manifestSha256 : String} {restoredAt : Instant} {u : Unit} :
    completeRestore tenantId manifestSha256 restoredAt p = (.ok u, p') ↔
      ∃ session, p.restoreSessions.get tenantId = some session ∧ session.backupSha256 = manifestSha256 ∧
        session.state = .running ∧
        p' = { p with
          restoreSessions := p.restoreSessions.set tenantId
            { session with state := .restored, completedAt := some restoredAt } } := by
  rw [completeRestore]
  cases hsession : p.restoreSessions.get tenantId with
  | none => simp
  | some session =>
    simp only [Option.some.injEq, exists_eq_left']
    split
    next hc =>
      simp only [Prod.mk.injEq, true_and]
      exact ⟨fun h => ⟨hc.1, hc.2, h.symm⟩, fun h => h.2.2.symm⟩
    next hc =>
      constructor
      · intro h
        cases h
      · intro h
        exact absurd ⟨h.1, h.2.1⟩ hc

end statements

/-! ## What the transaction leaves -/

section written

variable (archive : TenantBackupArchive ρ σ) (requestedBy : String) (uploads : Uploads) (restoredAt : Instant)

abbrev TenantBackupArchive.tenantId : String := archive.manifest.tenant.tenantId

def caseEntry (tenantId : String) (r : TenantBackupReproduction ρ σ) : Key × CaseRow ρ σ :=
  (⟨tenantId, r.record.caseId⟩, restoredCase r)

def jobEntry (tenantId : String) (r : TenantBackupReproduction ρ σ) : Key × JobRow :=
  (⟨tenantId, r.record.jobId⟩, restoredJob r)

def idempotencyEntry (tenantId : String) (r : TenantBackupReproduction ρ σ) : IdempotencyKey × IdempotencyRow :=
  (⟨tenantId, r.record.callerId, r.record.idempotencyKey⟩, restoredIdempotency r)

def evidenceEntry (tenantId : String) (e : TenantBackupEvidence) : EvidenceKey × EvidenceRow :=
  (⟨tenantId, e.jobId, e.attempt, e.sequence⟩, restoredEvidence e)

def artifactEntry (tenantId : String) (a : ArtifactDescriptor) : Key × ArtifactRow :=
  (⟨tenantId, a.artifactId⟩, restoredArtifact restoredAt (uploads.etag a) a)

/-- The rows of an archive stand behind the rows of before. -/
structure Written (p p' : Platform ρ σ) : Prop where
  tenant : p'.db.tenants = p.db.tenants.insert archive.tenantId (restoredTenant archive.manifest.tenant)
  cases : p'.db.cases.rows = p.db.cases.rows ++ archive.manifest.reproductions.map (caseEntry archive.tenantId)
  jobs : p'.db.jobs.rows = p.db.jobs.rows ++ archive.manifest.reproductions.map (jobEntry archive.tenantId)
  idempotencyKeys : p'.db.idempotencyKeys.rows =
    p.db.idempotencyKeys.rows ++ archive.manifest.reproductions.map (idempotencyEntry archive.tenantId)
  runEvidence : p'.runEvidence.rows =
    p.runEvidence.rows ++ archive.manifest.evidence.map (evidenceEntry archive.tenantId)
  artifacts : p'.db.artifacts.rows =
    p.db.artifacts.rows ++ archive.manifest.artifacts.map (artifactEntry uploads restoredAt archive.tenantId)
  uploaded : ∀ a ∈ archive.manifest.artifacts, (uploads.get a.objectKey).isSome = true
  session : p'.restoreSessions.get archive.tenantId = some
    { restoreSession archive requestedBy restoredAt with state := .restored, completedAt := some restoredAt }
  sessions : ∀ id, id ≠ archive.tenantId → p'.restoreSessions.get id = p.restoreSessions.get id
  vacant : p.db.tenants.get archive.tenantId = none

variable {archive requestedBy uploads restoredAt} {p p' : Platform ρ σ}

theorem insertReproductions_rows {tenantId : String} {items : List (TenantBackupReproduction ρ σ)} {us : List Unit}
    (h : forEach (insertReproduction tenantId) items p = (.ok us, p')) :
    p'.db.cases.rows = p.db.cases.rows ++ items.map (caseEntry tenantId) ∧
      p'.db.jobs.rows = p.db.jobs.rows ++ items.map (jobEntry tenantId) ∧
      p'.db.idempotencyKeys.rows = p.db.idempotencyKeys.rows ++ items.map (idempotencyEntry tenantId) := by
  refine ⟨forEach_appended (q := fun p => p.db.cases.rows) ?_ h,
    forEach_appended (q := fun p => p.db.jobs.rows) ?_ h,
    forEach_appended (q := fun p => p.db.idempotencyKeys.rows) ?_ h⟩
  all_goals intro r u s s' hr
  · obtain ⟨hcase, -, -, rfl⟩ := insertReproduction_ok hr
    exact Table.rows_insert hcase
  · obtain ⟨-, hjob, -, rfl⟩ := insertReproduction_ok hr
    exact Table.rows_insert hjob
  · obtain ⟨-, -, hkey, rfl⟩ := insertReproduction_ok hr
    exact Table.rows_insert hkey

/-- The tables that a part of the transaction does not write. -/
theorem insertReproductions_kept {tenantId : String} {items : List (TenantBackupReproduction ρ σ)} {us : List Unit}
    (h : forEach (insertReproduction tenantId) items p = (.ok us, p')) :
    (p'.db.tenants, p'.db.artifacts, p'.runEvidence, p'.restoreSessions) =
      (p.db.tenants, p.db.artifacts, p.runEvidence, p.restoreSessions) := by
  refine forEach_kept (q := fun p => (p.db.tenants, p.db.artifacts, p.runEvidence, p.restoreSessions)) ?_ h
  intro r u s s' hr
  obtain ⟨-, -, -, rfl⟩ := insertReproduction_ok hr
  rfl

theorem insertEvidence_kept {tenantId : String} {items : List TenantBackupEvidence} {us : List Unit}
    (h : forEach (insertEvidence tenantId) items p = (.ok us, p')) :
    (p'.db, p'.restoreSessions) = (p.db, p.restoreSessions) := by
  refine forEach_kept (q := fun p => (p.db, p.restoreSessions)) ?_ h
  intro e u s s' he
  obtain ⟨-, rfl⟩ := insertEvidence_ok he
  rfl

theorem insertArtifactRows_kept {tenantId : String} {items : List ArtifactDescriptor} {us : List Unit}
    (h : forEach (insertArtifactRow tenantId uploads restoredAt) items p = (.ok us, p')) :
    (p'.db.tenants, p'.db.cases, p'.db.jobs, p'.db.idempotencyKeys, p'.runEvidence, p'.restoreSessions) =
      (p.db.tenants, p.db.cases, p.db.jobs, p.db.idempotencyKeys, p.runEvidence, p.restoreSessions) := by
  refine forEach_kept (q := fun p =>
    (p.db.tenants, p.db.cases, p.db.jobs, p.db.idempotencyKeys, p.runEvidence, p.restoreSessions)) ?_ h
  intro a u s s' ha
  obtain ⟨-, -, rfl⟩ := insertArtifactRow_ok ha
  rfl

theorem writeTenant_ok {u : Unit} (h : writeTenant archive requestedBy uploads restoredAt p = (.ok u, p')) :
    Written archive requestedBy uploads restoredAt p p' := by
  obtain ⟨_, p₁, htenant, h⟩ := bind_ok.mp h
  obtain ⟨_, p₂, hsession, h⟩ := bind_ok.mp h
  obtain ⟨_, p₃, hreproductions, h⟩ := bind_ok.mp h
  obtain ⟨_, p₄, hevidence, h⟩ := bind_ok.mp h
  obtain ⟨_, p₅, hartifacts, hcomplete⟩ := bind_ok.mp h
  obtain ⟨db, hop, hp₁⟩ := lift_ok.mp htenant
  obtain ⟨hvacant, -, -, hdb⟩ := insertTenant_ok.mp hop
  obtain ⟨hnone, -, -, hp₂⟩ := insertRestoreSession_ok.mp hsession
  have hnone' : p.restoreSessions.get archive.tenantId = none := by
    rw [hp₁] at hnone
    exact hnone
  have hdb₂ : p₂.db = { p.db with
      tenants := p.db.tenants.insert archive.tenantId (restoredTenant archive.manifest.tenant) } := by
    rw [hp₂, hp₁, hdb]
  have hsessions₂ : p₂.restoreSessions =
      p.restoreSessions.insert archive.tenantId (restoreSession archive requestedBy restoredAt) := by
    rw [hp₂, hp₁]
  have hevidence₂ : p₂.runEvidence = p.runEvidence := by rw [hp₂, hp₁]
  obtain ⟨hcases, hjobs, hkeys⟩ := insertReproductions_rows hreproductions
  have hkept₃ := insertReproductions_kept hreproductions
  have hkept₄ := insertEvidence_kept hevidence
  have hkept₅ := insertArtifactRows_kept hartifacts
  simp only [Prod.mk.injEq] at hkept₃ hkept₄ hkept₅
  have hrows : p₄.runEvidence.rows =
      p₃.runEvidence.rows ++ archive.manifest.evidence.map (evidenceEntry archive.tenantId) := by
    refine forEach_appended (q := fun p => p.runEvidence.rows) ?_ hevidence
    intro e u s s' he
    obtain ⟨hv, rfl⟩ := insertEvidence_ok he
    exact Table.rows_insert hv
  have hartifactRows : p₅.db.artifacts.rows = p₄.db.artifacts.rows ++
      archive.manifest.artifacts.map (artifactEntry uploads restoredAt archive.tenantId) := by
    refine forEach_appended (q := fun p => p.db.artifacts.rows) ?_ hartifacts
    intro a u s s' ha
    obtain ⟨-, hv, rfl⟩ := insertArtifactRow_ok ha
    exact Table.rows_insert hv
  have hsessions₅ : p₅.restoreSessions = p₂.restoreSessions := by
    rw [hkept₅.2.2.2.2.2, hkept₄.2, hkept₃.2.2.2]
  obtain ⟨session, hget, -, -, hp'⟩ := completeRestore_ok.mp hcomplete
  have hcreated : session = restoreSession archive requestedBy restoredAt := by
    rw [hsessions₅, hsessions₂, Table.get_insert_self hnone'] at hget
    exact (Option.some.inj hget).symm
  rw [hp']
  exact
    { tenant := by rw [hkept₅.1, hkept₄.1, hkept₃.1, hdb₂]
      cases := by rw [hkept₅.2.1, hkept₄.1, hcases, hdb₂]
      jobs := by rw [hkept₅.2.2.1, hkept₄.1, hjobs, hdb₂]
      idempotencyKeys := by rw [hkept₅.2.2.2.1, hkept₄.1, hkeys, hdb₂]
      runEvidence := by rw [hkept₅.2.2.2.2.1, hrows, hkept₃.2.2.1, hevidence₂]
      artifacts := by rw [hartifactRows, hkept₄.1, hkept₃.2.1, hdb₂]
      uploaded := by
        refine forEach_found ?_ hartifacts
        intro a u s s' ha
        exact (insertArtifactRow_ok ha).1
      session := by rw [Table.get_set_self hget, hcreated]
      sessions := by
        intro id hid
        rw [Table.get_set_other _ _ hid, hsessions₅, hsessions₂, Table.get_insert_other hid]
      vacant := hvacant }

theorem restoreTransaction_true (h : restoreTransaction archive requestedBy uploads restoredAt p = (.ok true, p')) :
    Written archive requestedBy uploads restoredAt p p' := by
  obtain ⟨t, q, hread, h⟩ := bind_ok.mp h
  obtain ⟨rfl, rfl⟩ := read_ok.mp hread
  cases htenant : p.db.tenants.get archive.manifest.tenant.tenantId with
  | none =>
    simp only [htenant] at h
    obtain ⟨u, q', hwrite, hpure⟩ := bind_ok.mp h
    obtain ⟨-, rfl⟩ := pure_ok.mp hpure
    exact writeTenant_ok hwrite
  | some row =>
    simp only [htenant] at h
    split at h
    · obtain ⟨he, -⟩ := pure_ok.mp h
      cases he
    · exact (fail_ok.mp h).elim

/-- A restore that finds the tenant changes nothing. -/
theorem restoreTransaction_false (h : restoreTransaction archive requestedBy uploads restoredAt p = (.ok false, p')) :
    p' = p ∧ ∃ session, p.restoreSessions.get archive.tenantId = some session ∧
      session.holds archive.manifestSha256 = true := by
  obtain ⟨t, q, hread, h⟩ := bind_ok.mp h
  obtain ⟨rfl, rfl⟩ := read_ok.mp hread
  cases htenant : p.db.tenants.get archive.manifest.tenant.tenantId with
  | none =>
    simp only [htenant] at h
    obtain ⟨u, q', -, hpure⟩ := bind_ok.mp h
    obtain ⟨he, -⟩ := pure_ok.mp hpure
    cases he
  | some row =>
    simp only [htenant] at h
    split at h
    · rename_i hholds
      obtain ⟨-, rfl⟩ := pure_ok.mp h
      obtain ⟨session, hsession, hheld⟩ := (Option.any_eq_true _ _).mp hholds
      exact ⟨rfl, session, hsession, hheld⟩
    · exact (fail_ok.mp h).elim

end written

end ReproForge
