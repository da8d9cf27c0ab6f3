import ReproForge.BackupRoundTrip
import ReproForge.System

/-!
# A restore commits

Every row of an archive that was exported from consistent tables passes the
constraints of the tables that it is restored into.
-/
namespace ReproForge

open KeyedTable Transactions Transactions.Tx

variable {ρ σ : Type}

/-! ## Constraints -/

/-- The rows keep the constraints that a restore depends on. -/
structure Consistent (p : Platform ρ σ) : Prop extends Referenced p where
  tenants : ∀ id t, p.db.tenants.get id = some t → opaqueId id = true ∧ t.checks = true
  jobRows : ∀ k j, p.db.jobs.get k = some j → j.checks k = true ∧ cancellationTimestamps j = true
  artifactRows : ∀ k a, p.db.artifacts.get k = some a → a.checks k = true

theorem objectKey_tenant {tenantId tenantId' caseId caseId' sha256 sha256' : String} {kind kind' : ArtifactKind}
    (htenant : opaqueId tenantId = true) (htenant' : opaqueId tenantId' = true)
    (h : objectKey tenantId caseId kind sha256 = objectKey tenantId' caseId' kind' sha256') : tenantId = tenantId' := by
  have hlist := congrArg String.toList h
  have hslash : ("/" : String).toList = ['/'] := by decide
  simp only [objectKey, tenantPrefix, String.toList_append, List.append_assoc, List.append_cancel_left_eq, hslash,
    List.singleton_append] at hlist
  exact String.toList_inj.mp (split_at_slash (opaque_no_slash htenant) (opaque_no_slash htenant') hlist)

theorem length_le_utf16Length (s : String) : s.length ≤ utf16Length s := by
  have hsum : ∀ l : List Char, l.length ≤ (l.map fun c => if c.toNat > 0xFFFF then 2 else 1).sum := by
    intro l
    induction l with
    | nil => exact Nat.le_refl 0
    | cons c l ih =>
      rw [List.map_cons, List.sum_cons, List.length_cons]
      split <;> omega
  rw [← String.length_toList]
  exact hsum s.toList

theorem length_of_utf16Length {s : String} (h : 1 ≤ utf16Length s) : 1 ≤ s.length := by
  by_contra hzero
  have hempty : s.toList = [] := by
    rw [← List.length_eq_zero_iff, String.length_toList]
    omega
  rw [utf16Length, hempty] at h
  cases h

section checks

variable [ResultDocument ρ] {r : TenantBackupReproduction ρ σ}

theorem restoredCase_checks (h : r.Sound) (tenantId : String) :
    (restoredCase r).checks ⟨tenantId, r.record.caseId⟩ = true := by
  have hversion : r.record.snapshot.schemaVersion = "2.0" := by
    have hsnapshot := h.record.snapshot
    simp only [ReproductionSnapshot.valid, Bool.and_eq_true, beq_iff_eq] at hsnapshot
    exact hsnapshot.1.1.2
  have hformat : schemaVersionFormat "2.0" = true := by decide
  simp only [CaseRow.checks, restoredCase, hversion, hformat, h.record.caseId, h.record.version.1, h.record.times,
    h.caseRetained, decide_true, Bool.and_self]

theorem restoredIdempotency_checks (h : r.Sound) (tenantId : String) :
    (restoredIdempotency r).checks ⟨tenantId, r.record.callerId, r.record.idempotencyKey⟩ = true := by
  have hlower := length_of_utf16Length h.record.idempotencyKey.1
  have hupper : r.record.idempotencyKey.length ≤ 128 :=
    Nat.le_trans (length_le_utf16Length _) h.record.idempotencyKey.2
  simp only [IdempotencyRow.checks, restoredIdempotency, h.record.callerId, hlower, hupper, h.record.commandHash,
    h.remembered, decide_true, Bool.and_self]

end checks

theorem restoredEvidence_checks {e : TenantBackupEvidence} (h : e.valid = true) (tenantId : String) :
    (restoredEvidence e).checks ⟨tenantId, e.jobId, e.attempt, e.sequence⟩ = true := by
  simp only [TenantBackupEvidence.valid, Bool.and_eq_true, decide_eq_true_eq] at h
  have hhash : e.commandHash.all (hexDigest 64) = true := by tauto
  have howner : e.leaseOwner.all opaqueId = true := by tauto
  have hattempt : 1 ≤ e.attempt := by tauto
  have hsequence : 1 ≤ e.sequence := by tauto
  simp only [EvidenceRow.checks, restoredEvidence, hhash, howner, hattempt, hsequence, h.2, decide_true, Bool.and_self]

theorem restoredArtifact_checks {a : ArtifactDescriptor} {restoredAt : Instant} {etag : String} (h : a.valid = true)
    (hetag : 1 ≤ etag.length ∧ etag.length ≤ 512) :
    (restoredArtifact restoredAt etag a).checks ⟨a.tenantId, a.artifactId⟩ = true := by
  simp only [ArtifactDescriptor.valid, Bool.and_eq_true, beq_iff_eq] at h
  have hcreated : a.createdAt ≤ max restoredAt a.createdAt := Int.le_max_right _ _
  have hid : opaqueId a.artifactId = true := by tauto
  have hsha : hexDigest 64 a.sha256 = true := by tauto
  simp only [ArtifactRow.checks, restoredArtifact, ArtifactRow.lifecycleShape, hid, hsha, h.1.2, hetag.1, hetag.2, h.2,
    hcreated, Option.all_some, Option.all_none, Option.isSome_some, Option.isNone_none, beq_self_eq_true,
    Nat.le_refl, decide_true, Bool.and_self]

/-! ## One statement after another -/

section statements

variable {tenantId : String} {p : Platform ρ σ}

theorem get_vacant {κ τ : Type} [DecidableEq κ] {t t' : Table κ τ} {added : List (κ × τ)} {k : κ}
    (h : t'.rows = t.rows ++ added) (hvacant : t.get k = none) (hnew : k ∉ added.map Prod.fst) : t'.get k = none := by
  rw [Table.get_eq_none, h, List.map_append, List.mem_append, not_or]
  exact ⟨Table.get_eq_none.mp hvacant, hnew⟩

/-- The tenant is there, and nothing of it yet but the session under which it is restored. -/
structure Blank (tenantId : String) (p : Platform ρ σ) : Prop where
  tenant : (p.db.tenants.get tenantId).isSome = true
  cases : ∀ id, p.db.cases.get ⟨tenantId, id⟩ = none
  jobs : ∀ id, p.db.jobs.get ⟨tenantId, id⟩ = none
  idempotencyKeys : ∀ callerId key, p.db.idempotencyKeys.get ⟨tenantId, callerId, key⟩ = none
  runEvidence : ∀ jobId attempt sequence, p.runEvidence.get ⟨tenantId, jobId, attempt, sequence⟩ = none
  artifacts : ∀ k a, p.db.artifacts.get k = some a → k.tenantId ≠ tenantId
  session : (p.restoreSessions.get tenantId).any (fun s => s.state == .running) = true

/-- The reproductions inserted so far. -/
structure Inserted (tenantId : String) (p : Platform ρ σ) (items : List (TenantBackupReproduction ρ σ))
    (s : Platform ρ σ) : Prop where
  cases : s.db.cases.rows = p.db.cases.rows ++ items.map (caseEntry tenantId)
  jobs : s.db.jobs.rows = p.db.jobs.rows ++ items.map (jobEntry tenantId)
  idempotencyKeys : s.db.idempotencyKeys.rows = p.db.idempotencyKeys.rows ++ items.map (idempotencyEntry tenantId)
  kept : (s.db.tenants, s.db.artifacts, s.runEvidence, s.restoreSessions) =
    (p.db.tenants, p.db.artifacts, p.runEvidence, p.restoreSessions)

theorem insertCase_runs {key : Key} {row : CaseRow ρ σ} {db : Db ρ σ} (hvacant : db.cases.get key = none)
    (htenant : (db.tenants.get key.tenantId).isSome = true) (hchecks : row.checks key = true) :
    insertCase key row db = (.ok (), { db with cases := db.cases.insert key row }) := by
  rw [insertCase, hvacant, htenant, hchecks]
  rfl

theorem insertJob_runs {key : Key} {row : JobRow} {db : Db ρ σ} (hvacant : db.jobs.get key = none)
    (hcase : (db.cases.get ⟨key.tenantId, row.caseId⟩).isSome = true) (hchecks : row.checks key = true)
    (hcancelled : cancellationTimestamps row = true) :
    insertJob key row db = (.ok (), { db with jobs := db.jobs.insert key row }) := by
  rw [insertJob, hvacant, hcase, hchecks, hcancelled]
  rfl

theorem insertIdempotencyKey_runs {key : IdempotencyKey} {row : IdempotencyRow} {db : Db ρ σ}
    (hvacant : db.idempotencyKeys.get key = none) (hjob : jobExists db key.tenantId row.caseId row.jobId = true)
    (hchecks : row.checks key = true) :
    insertIdempotencyKey key row db = (.ok (), { db with idempotencyKeys := db.idempotencyKeys.insert key row }) := by
  rw [insertIdempotencyKey, hvacant, hjob, hchecks]
  rfl

variable [ResultDocument ρ]

/-- A reproduction whose keys are new goes in. -/
theorem insertReproduction_runs {r : TenantBackupReproduction ρ σ} {done : List (TenantBackupReproduction ρ σ)}
    {s : Platform ρ σ} (hblank : Blank tenantId p) (hinserted : Inserted tenantId p done s) (hsound : r.Sound)
    (hcase : r.record.caseId ∉ done.map fun r => r.record.caseId)
    (hjob : r.record.jobId ∉ done.map fun r => r.record.jobId)
    (hkey : (r.record.callerId, r.record.idempotencyKey) ∉
      done.map fun r => (r.record.callerId, r.record.idempotencyKey))
    (hchecks : (restoredJob r).checks ⟨tenantId, r.record.jobId⟩ = true)
    (hcancelled : cancellationTimestamps (restoredJob r) = true) :
    ∃ s', insertReproduction tenantId r s = (.ok (), s') ∧ Inserted tenantId p (done ++ [r]) s' := by
  have hkept := hinserted.kept
  simp only [Prod.mk.injEq] at hkept
  have hcaseVacant : s.db.cases.get ⟨tenantId, r.record.caseId⟩ = none := by
    apply get_vacant hinserted.cases (hblank.cases _)
    simpa [caseEntry] using hcase
  have hjobVacant : s.db.jobs.get ⟨tenantId, r.record.jobId⟩ = none := by
    apply get_vacant hinserted.jobs (hblank.jobs _)
    simpa [jobEntry] using hjob
  have hkeyVacant : s.db.idempotencyKeys.get ⟨tenantId, r.record.callerId, r.record.idempotencyKey⟩ = none := by
    apply get_vacant hinserted.idempotencyKeys (hblank.idempotencyKeys _ _)
    simpa [idempotencyEntry] using hkey
  let db₁ : Db ρ σ := { s.db with cases := s.db.cases.insert ⟨tenantId, r.record.caseId⟩ (restoredCase r) }
  let db₂ : Db ρ σ := { db₁ with jobs := db₁.jobs.insert ⟨tenantId, r.record.jobId⟩ (restoredJob r) }
  let db₃ : Db ρ σ := { db₂ with
    idempotencyKeys := db₂.idempotencyKeys.insert ⟨tenantId, r.record.callerId, r.record.idempotencyKey⟩
      (restoredIdempotency r) }
  have htenant : (s.db.tenants.get tenantId).isSome = true := by
    rw [hkept.1]
    exact hblank.tenant
  have hjobVacant₁ : db₁.jobs.get ⟨tenantId, r.record.jobId⟩ = none := hjobVacant
  have hcaseThere : (db₁.cases.get ⟨tenantId, (restoredJob r).caseId⟩).isSome = true := by
    rw [show db₁.cases.get ⟨tenantId, (restoredJob r).caseId⟩ = some (restoredCase r) from
      Table.get_insert_self hcaseVacant]
    rfl
  have hkeyVacant₂ : db₂.idempotencyKeys.get ⟨tenantId, r.record.callerId, r.record.idempotencyKey⟩ = none := hkeyVacant
  have hjobThere : jobExists db₂ tenantId r.record.caseId r.record.jobId = true :=
    jobExists_iff.mpr ⟨restoredJob r, Table.get_insert_self hjobVacant, rfl⟩
  have h₁ : insertCase ⟨tenantId, r.record.caseId⟩ (restoredCase r) s.db = (.ok (), db₁) :=
    insertCase_runs hcaseVacant htenant (restoredCase_checks hsound tenantId)
  have h₂ : insertJob ⟨tenantId, r.record.jobId⟩ (restoredJob r) db₁ = (.ok (), db₂) :=
    insertJob_runs hjobVacant₁ hcaseThere hchecks hcancelled
  have h₃ : insertIdempotencyKey ⟨tenantId, r.record.callerId, r.record.idempotencyKey⟩ (restoredIdempotency r) db₂ =
      (.ok (), db₃) := insertIdempotencyKey_runs hkeyVacant₂ hjobThere (restoredIdempotency_checks hsound tenantId)
  refine ⟨{ s with db := db₃ }, ?_, ?_⟩
  · exact lift_ok.mpr ⟨db₃, bind_ok.mpr ⟨(), db₁, h₁, bind_ok.mpr ⟨(), db₂, h₂, h₃⟩⟩, rfl⟩
  · exact
      { cases := by
          rw [show db₃.cases.rows = s.db.cases.rows ++ [caseEntry tenantId r] from Table.rows_insert hcaseVacant,
            hinserted.cases, List.map_append, List.append_assoc]
          rfl
        jobs := by
          rw [show db₃.jobs.rows = s.db.jobs.rows ++ [jobEntry tenantId r] from Table.rows_insert hjobVacant,
            hinserted.jobs, List.map_append, List.append_assoc]
          rfl
        idempotencyKeys := by
          rw [show db₃.idempotencyKeys.rows = s.db.idempotencyKeys.rows ++ [idempotencyEntry tenantId r] from
            Table.rows_insert hkeyVacant, hinserted.idempotencyKeys, List.map_append, List.append_assoc]
          rfl
        kept := hinserted.kept }

/-- Reproductions that share no key go in one after another. -/
theorem insertReproductions_run {items : List (TenantBackupReproduction ρ σ)} (hblank : Blank tenantId p)
    (hsound : ∀ r ∈ items, r.Sound) (hcases : (items.map fun r => r.record.caseId).Nodup)
    (hjobs : (items.map fun r => r.record.jobId).Nodup)
    (hkeys : (items.map fun r => (r.record.callerId, r.record.idempotencyKey)).Nodup)
    (hchecks : ∀ r ∈ items, (restoredJob r).checks ⟨tenantId, r.record.jobId⟩ = true ∧
      cancellationTimestamps (restoredJob r) = true) :
    ∃ us s, forEach (insertReproduction tenantId) items p = (.ok us, s) ∧ Inserted tenantId p items s := by
  let I : List (TenantBackupReproduction ρ σ) → Platform ρ σ → Prop := fun rest s =>
    ∃ done, items = done ++ rest ∧ Inserted tenantId p done s
  have hstep : ∀ r rest s, I (r :: rest) s → ∃ u s', insertReproduction tenantId r s = (.ok u, s') ∧ I rest s' := by
    rintro r rest s ⟨done, hitems, hinserted⟩
    have hr : r ∈ items := by simp [hitems]
    rw [hitems, List.map_append, List.map_cons] at hcases hjobs hkeys
    obtain ⟨s', hs', hnext⟩ := insertReproduction_runs hblank hinserted (hsound r hr)
      (fun hm => (List.nodup_append.mp hcases).2.2 _ hm _ List.mem_cons_self rfl)
      (fun hm => (List.nodup_append.mp hjobs).2.2 _ hm _ List.mem_cons_self rfl)
      (fun hm => (List.nodup_append.mp hkeys).2.2 _ hm _ List.mem_cons_self rfl) (hchecks r hr).1 (hchecks r hr).2
    exact ⟨(), s', hs', done ++ [r], by rw [hitems, List.append_assoc, List.singleton_append], hnext⟩
  have hstart : Inserted tenantId p [] p := ⟨by simp, by simp, by simp, rfl⟩
  obtain ⟨us, s, hs, done, hdone, hinserted⟩ := forEach_ends hstep ⟨[], rfl, hstart⟩
  rw [List.append_nil] at hdone
  exact ⟨us, s, hs, hdone ▸ hinserted⟩

omit [ResultDocument ρ] in
/-- Evidence of reproductions that went in goes in while the session runs. -/
theorem insertEvidence_runs {items : List TenantBackupEvidence} {q : Platform ρ σ}
    (hsession : (q.restoreSessions.get tenantId).any (fun s => s.state == .running) = true)
    (hvacant : ∀ jobId attempt sequence, q.runEvidence.get ⟨tenantId, jobId, attempt, sequence⟩ = none)
    (hjobs : ∀ e ∈ items, jobExists q.db tenantId e.caseId e.jobId = true) (hvalid : ∀ e ∈ items, e.valid = true)
    (hkeys : (items.map fun e => (e.jobId, e.attempt, e.sequence)).Nodup) :
    ∃ us s, forEach (insertEvidence tenantId) items q = (.ok us, s) ∧ s.db = q.db ∧
      s.restoreSessions = q.restoreSessions := by
  let I : List TenantBackupEvidence → Platform ρ σ → Prop := fun rest s =>
    ∃ done, items = done ++ rest ∧ s.runEvidence.rows = q.runEvidence.rows ++ done.map (evidenceEntry tenantId) ∧
      s.db = q.db ∧ s.restoreSessions = q.restoreSessions
  have hstep : ∀ e rest s, I (e :: rest) s → ∃ u s', insertEvidence tenantId e s = (.ok u, s') ∧ I rest s' := by
    rintro e rest s ⟨done, hitems, hrows, hdb, hsessions⟩
    have he : e ∈ items := by simp [hitems]
    rw [hitems, List.map_append, List.map_cons] at hkeys
    have hnew : s.runEvidence.get ⟨tenantId, e.jobId, e.attempt, e.sequence⟩ = none := by
      apply get_vacant hrows (hvacant _ _ _)
      have hout : (e.jobId, e.attempt, e.sequence) ∉ done.map fun e => (e.jobId, e.attempt, e.sequence) :=
        fun hm => (List.nodup_append.mp hkeys).2.2 _ hm _ List.mem_cons_self rfl
      simpa [evidenceEntry] using hout
    let s' : Platform ρ σ :=
      { s with
        runEvidence := s.runEvidence.insert ⟨tenantId, e.jobId, e.attempt, e.sequence⟩ (restoredEvidence e) }
    refine ⟨(), s', ?_, done ++ [e], ?_, ?_, hdb, hsessions⟩
    · refine insertRunEvidence_ok.mpr ⟨?_, hnew, ?_, restoredEvidence_checks (hvalid e he) tenantId, rfl⟩
      · rw [RestoreStatement.evidenceLease, hsessions, hsession, Bool.true_or]
      · rw [hdb]
        exact hjobs e he
    · rw [hitems, List.append_assoc, List.singleton_append]
    · change (s.runEvidence.insert _ _).rows = _
      rw [Table.rows_insert hnew, hrows, List.map_append, List.append_assoc]
      rfl
  obtain ⟨us, s, hs, -, -, -, hdb, hsessions⟩ := forEach_ends hstep ⟨[], rfl, by simp, rfl, rfl⟩
  exact ⟨us, s, hs, hdb, hsessions⟩

omit [ResultDocument ρ] in
/-- Artifacts of restored cases go in under paths that no other tenant has. -/
theorem insertArtifactRows_run {items : List ArtifactDescriptor} {uploads : Uploads} (restoredAt : Instant)
    {q : Platform ρ σ} (htenant : opaqueId tenantId = true)
    (hothers : ∀ k a, q.db.artifacts.get k = some a → k.tenantId ≠ tenantId ∧ opaqueId k.tenantId = true ∧
      a.checks k = true)
    (hcases : ∀ a ∈ items, (q.db.cases.get ⟨tenantId, a.caseId⟩).isSome = true)
    (hvalid : ∀ a ∈ items, a.valid = true ∧ a.tenantId = tenantId)
    (hids : (items.map ArtifactDescriptor.artifactId).Nodup)
    (hpaths : (items.map ArtifactDescriptor.objectKey).Nodup)
    (huploads : ∀ a ∈ items, ∃ u, uploads.get a.objectKey = some u ∧
      1 ≤ u.metadata.etag.length ∧ u.metadata.etag.length ≤ 512) :
    ∃ us s, forEach (insertArtifactRow tenantId uploads restoredAt) items q = (.ok us, s) ∧
      s.restoreSessions = q.restoreSessions := by
  let I : List ArtifactDescriptor → Platform ρ σ → Prop := fun rest s =>
    ∃ done, items = done ++ rest ∧
      s.db.artifacts.rows = q.db.artifacts.rows ++ done.map (artifactEntry uploads restoredAt tenantId) ∧
      s.db.cases = q.db.cases ∧ s.restoreSessions = q.restoreSessions
  have hpath : ∀ a ∈ items, a.objectKey = objectKey tenantId a.caseId a.kind a.sha256 := by
    intro a ha
    have hv := (hvalid a ha).1
    simp only [ArtifactDescriptor.valid, Bool.and_eq_true, beq_iff_eq] at hv
    rw [hv.1.2, (hvalid a ha).2]
  have hstep : ∀ a rest s, I (a :: rest) s →
      ∃ u s', insertArtifactRow tenantId uploads restoredAt a s = (.ok u, s') ∧ I rest s' := by
    rintro a rest s ⟨done, hitems, hrows, hsame, hsessions⟩
    have ha : a ∈ items := by simp [hitems]
    have hbefore : ∀ d ∈ done, d ∈ items := fun d hd => by simp [hitems, hd]
    rw [hitems, List.map_append, List.map_cons] at hids hpaths
    have hidOut : a.artifactId ∉ done.map ArtifactDescriptor.artifactId :=
      fun hm => (List.nodup_append.mp hids).2.2 _ hm _ List.mem_cons_self rfl
    have hpathOut : a.objectKey ∉ done.map ArtifactDescriptor.objectKey :=
      fun hm => (List.nodup_append.mp hpaths).2.2 _ hm _ List.mem_cons_self rfl
    have hvacant : q.db.artifacts.get ⟨tenantId, a.artifactId⟩ = none :=
      Option.eq_none_iff_forall_ne_some.mpr fun _ hget => (hothers _ _ hget).1 rfl
    have hnew : s.db.artifacts.get ⟨tenantId, a.artifactId⟩ = none := by
      apply get_vacant hrows hvacant
      simpa [artifactEntry] using hidOut
    -- a row is of another tenant, or one of those inserted before
    have hrow : ∀ row ∈ s.db.artifacts.rows, (row.1.tenantId ≠ tenantId ∧ row.2.objectKey ≠ a.objectKey) ∨
        ∃ d ∈ done, row = artifactEntry uploads restoredAt tenantId d := by
      intro row hm
      rw [hrows, List.mem_append] at hm
      rcases hm with hm | hm
      · obtain ⟨hne, hid, hchecks⟩ := hothers row.1 row.2 (Table.get_eq_some.mpr hm)
        simp only [ArtifactRow.checks, Bool.and_eq_true, beq_iff_eq] at hchecks
        refine .inl ⟨hne, ?_⟩
        rw [hpath a ha, hchecks.1.1.1.1.1.1.1.2]
        exact fun he => hne (objectKey_tenant hid htenant he)
      · obtain ⟨d, hd, rfl⟩ := List.mem_map.mp hm
        exact .inr ⟨d, hd, rfl⟩
    have hunclaimed : Unclaimed s.db ⟨tenantId, a.artifactId⟩ (restoredArtifact restoredAt (uploads.etag a) a) := by
      refine ⟨hnew, ?_, ?_⟩
      · rw [Table.find?, List.find?_eq_none]
        intro row hm hsame
        simp only [Bool.and_eq_true, beq_iff_eq] at hsame
        rcases hrow row hm with ⟨hne, -⟩ | ⟨d, hd, rfl⟩
        · exact hne hsame.1.1.1
        · apply hpathOut
          rw [List.mem_map]
          refine ⟨d, hd, ?_⟩
          rw [hpath d (hbefore d hd), hpath a ha]
          have hcase : d.caseId = a.caseId := hsame.1.1.2
          have hkind : d.kind = a.kind := hsame.1.2
          have hsha : d.sha256 = a.sha256 := hsame.2
          rw [hcase, hkind, hsha]
      · rw [Table.find?, List.find?_eq_none]
        intro row hm hsame
        simp only [beq_iff_eq] at hsame
        rcases hrow row hm with ⟨-, hne⟩ | ⟨d, hd, rfl⟩
        · exact hne hsame
        · exact hpathOut (List.mem_map.mpr ⟨d, hd, hsame⟩)
    obtain ⟨u, hu, hetag⟩ := huploads a ha
    have hetagOf : uploads.etag a = u.metadata.etag := by
      rw [Uploads.etag, hu, Option.map_some, Option.getD_some]
    have hchecks : (restoredArtifact restoredAt (uploads.etag a) a).checks ⟨tenantId, a.artifactId⟩ = true := by
      rw [hetagOf, ← (hvalid a ha).2]
      exact restoredArtifact_checks (hvalid a ha).1 hetag
    have hcase : (s.db.cases.get ⟨tenantId, a.caseId⟩).isSome = true := by
      rw [hsame]
      exact hcases a ha
    let db' : Db ρ σ :=
      { s.db with
        artifacts :=
          s.db.artifacts.insert ⟨tenantId, a.artifactId⟩ (restoredArtifact restoredAt (uploads.etag a) a) }
    refine ⟨(), { s with db := db' }, ?_, done ++ [a], ?_, ?_, hsame, hsessions⟩
    · refine bind_ok.mpr ⟨u, s, demand_ok.mpr ⟨hu, rfl⟩, lift_ok.mpr ⟨db', ?_, rfl⟩⟩
      rw [← hetagOf]
      exact insertRestoredArtifact_ok.mpr ⟨hunclaimed, hcase, hchecks, rfl⟩
    · rw [hitems, List.append_assoc, List.singleton_append]
    · change (s.db.artifacts.insert _ _).rows = _
      rw [Table.rows_insert hnew, hrows, List.map_append, List.append_assoc]
      rfl
  obtain ⟨us, s, hs, -, -, -, -, hsessions⟩ := forEach_ends hstep ⟨[], rfl, by simp, rfl, rfl⟩
  exact ⟨us, s, hs, hsessions⟩

end statements

/-! ## The transaction -/

section commit

variable [ManifestHash ρ σ] [ContentHash] [ResultDocument ρ] [RequestDocument σ] {archive : TenantBackupArchive ρ σ}
  {requestedBy : String} {uploads : Uploads} {restoredAt : Instant} {p : Platform ρ σ}

/-- What the tables ask of an archive beyond what its schema says. -/
structure TenantBackupArchive.Restorable (archive : TenantBackupArchive ρ σ) : Prop where
  tenant : (restoredTenant archive.manifest.tenant).checks = true
  jobs : ∀ r ∈ archive.manifest.reproductions,
    (restoredJob r).checks ⟨archive.tenantId, r.record.jobId⟩ = true ∧ cancellationTimestamps (restoredJob r) = true

/-- Every artifact was uploaded, under an etag that its column holds. -/
def Uploads.Cover (uploads : Uploads) (archive : TenantBackupArchive ρ σ) : Prop :=
  ∀ a ∈ archive.manifest.artifacts, ∃ u, uploads.get a.objectKey = some u ∧
    1 ≤ u.metadata.etag.length ∧ u.metadata.etag.length ≤ 512

theorem restoreSession_checks (hintact : archive.Intact) (hby : opaqueId requestedBy = true) :
    (restoreSession archive requestedBy restoredAt).checks = true := by
  have hhex : hexDigest 64 archive.manifestSha256 = true := by
    rw [hintact.hash]
    exact ManifestHash.hex _
  simp only [RestoreSessionRow.checks, restoreSession, hhex, hby, Option.isNone_none, Bool.and_self]

/-- An archive that the tables can hold is restored wherever its tenant is not. -/
theorem restore_commits (hintact : archive.Intact) (hrestorable : archive.Restorable) (hp : Consistent p)
    (hvacant : p.db.tenants.get archive.tenantId = none) (hcover : uploads.Cover archive)
    (hby : opaqueId requestedBy = true) :
    ∃ p', restoreTransaction archive requestedBy uploads restoredAt p = (.ok true, p') := by
  have hsound := TenantBackupManifest.sound hintact.valid
  have hid : opaqueId archive.tenantId = true := by
    have htenant := hsound.tenant
    simp only [BackupTenant.valid, Bool.and_eq_true] at htenant
    exact htenant.1.2
  -- nothing refers to a tenant that is not there
  have habsent : ∀ {id : String}, (p.db.tenants.get id).isSome = true → id ≠ archive.tenantId := by
    intro id hsome he
    rw [he, hvacant] at hsome
    cases hsome
  have hnoSession : p.restoreSessions.get archive.tenantId = none :=
    Option.eq_none_iff_forall_ne_some.mpr fun _ hget => habsent (hp.restoreSessions _ _ hget) rfl
  let db₁ : Db ρ σ :=
    { p.db with tenants := p.db.tenants.insert archive.tenantId (restoredTenant archive.manifest.tenant) }
  let p₂ : Platform ρ σ :=
    { p with
      db := db₁
      restoreSessions := p.restoreSessions.insert archive.tenantId (restoreSession archive requestedBy restoredAt) }
  have htenant : db₁.tenants.get archive.tenantId = some (restoredTenant archive.manifest.tenant) :=
    Table.get_insert_self hvacant
  have hsession : p₂.restoreSessions.get archive.tenantId = some (restoreSession archive requestedBy restoredAt) :=
    Table.get_insert_self hnoSession
  have hblank : Blank archive.tenantId p₂ :=
    { tenant := by
        rw [show p₂.db.tenants.get archive.tenantId = some _ from htenant]
        rfl
      cases := fun id => Option.eq_none_iff_forall_ne_some.mpr fun _ hget => habsent (hp.cases _ _ hget) rfl
      jobs := fun id => Option.eq_none_iff_forall_ne_some.mpr fun _ hget => habsent (hp.jobs _ _ hget) rfl
      idempotencyKeys := fun callerId key =>
        Option.eq_none_iff_forall_ne_some.mpr fun _ hget => habsent (hp.idempotencyKeys _ _ hget) rfl
      runEvidence := fun jobId attempt sequence =>
        Option.eq_none_iff_forall_ne_some.mpr fun _ hget => habsent (hp.runEvidence _ _ hget) rfl
      artifacts := fun k a hk => habsent (hp.artifacts k a hk)
      session := by
        rw [hsession]
        rfl }
  obtain ⟨us₃, p₃, h₃, hinserted⟩ := insertReproductions_run hblank (fun r hr => (hsound.reproductions r hr).1)
    hsound.caseIds hsound.jobIds hsound.keys hrestorable.jobs
  have hkept₃ := hinserted.kept
  simp only [Prod.mk.injEq] at hkept₃
  have hjobs : ∀ e ∈ archive.manifest.evidence, jobExists p₃.db archive.tenantId e.caseId e.jobId = true := by
    intro e he
    obtain ⟨r, hr, hjob, hcase⟩ := hsound.evidenceOf e he
    have hget := get_appended hinserted.jobs (List.mem_map_of_mem (f := jobEntry archive.tenantId) hr)
    rw [jobExists_iff, ← hjob]
    exact ⟨restoredJob r, hget, hcase⟩
  obtain ⟨us₄, p₄, h₄, hdb₄, hsessions₄⟩ := insertEvidence_runs (q := p₃)
    (by rw [hkept₃.2.2.2]; exact hblank.session) (by rw [hkept₃.2.2.1]; exact hblank.runEvidence) hjobs
    (fun e he => (hsound.evidence e he).1) hsound.evidenceKeys
  have hcases : ∀ a ∈ archive.manifest.artifacts, (p₄.db.cases.get ⟨archive.tenantId, a.caseId⟩).isSome = true := by
    intro a ha
    obtain ⟨r, hr, hcase⟩ := hsound.artifactOf a ha
    have hget := get_appended hinserted.cases (List.mem_map_of_mem (f := caseEntry archive.tenantId) hr)
    rw [hdb₄, ← hcase, show p₃.db.cases.get ⟨archive.tenantId, r.record.caseId⟩ = _ from hget]
    rfl
  have hothers : ∀ k a, p₄.db.artifacts.get k = some a →
      k.tenantId ≠ archive.tenantId ∧ opaqueId k.tenantId = true ∧ a.checks k = true := by
    intro k a hk
    rw [hdb₄, hkept₃.2.1] at hk
    obtain ⟨t, ht⟩ := Option.isSome_iff_exists.mp (hp.artifacts k a hk)
    exact ⟨hblank.artifacts k a hk, (hp.tenants _ t ht).1, hp.artifactRows k a hk⟩
  obtain ⟨us₅, p₅, h₅, hsessions₅⟩ := insertArtifactRows_run restoredAt hid hothers hcases
    hsound.artifacts hsound.artifactIds hsound.objectKeys hcover
  have hsession₅ : p₅.restoreSessions.get archive.tenantId = some (restoreSession archive requestedBy restoredAt) := by
    rw [hsessions₅, hsessions₄, hkept₃.2.2.2, hsession]
  obtain ⟨p', hcomplete⟩ : ∃ p', completeRestore archive.tenantId archive.manifestSha256 restoredAt p₅ = (.ok (), p') :=
    ⟨_, completeRestore_ok.mpr ⟨_, hsession₅, rfl, rfl, rfl⟩⟩
  have h₁ : RestoreStatement.lift
      (RestoreStatement.insertTenant archive.tenantId (restoredTenant archive.manifest.tenant)) p =
      (.ok (), { p with db := db₁ }) :=
    lift_ok.mpr ⟨db₁, insertTenant_ok.mpr ⟨hvacant, hid, hrestorable.tenant, rfl⟩, rfl⟩
  have h₂ : RestoreStatement.insertRestoreSession archive.tenantId (restoreSession archive requestedBy restoredAt)
      { p with db := db₁ } = (.ok (), p₂) :=
    insertRestoreSession_ok.mpr ⟨hnoSession, by rw [htenant]; rfl, restoreSession_checks hintact hby, rfl⟩
  have hwrite : writeTenant archive requestedBy uploads restoredAt p = (.ok (), p') :=
    bind_ok.mpr ⟨(), _, h₁, bind_ok.mpr ⟨(), p₂, h₂, bind_ok.mpr ⟨us₃, p₃, h₃, bind_ok.mpr ⟨us₄, p₄, h₄,
      bind_ok.mpr ⟨us₅, p₅, h₅, hcomplete⟩⟩⟩⟩⟩
  refine ⟨p', bind_ok.mpr ⟨p, p, rfl, ?_⟩⟩
  rw [show p.db.tenants.get archive.manifest.tenant.tenantId = none from hvacant]
  exact bind_ok.mpr ⟨(), p', hwrite, rfl⟩

omit [ManifestHash ρ σ] [ContentHash] [RequestDocument σ] in
/-- What a restore writes is the row of the job that the export read, without its lease. -/
theorem restoredJob_row {row : DurableRow ρ σ} {r : TenantBackupReproduction ρ σ} (h : mapReproduction row = .ok r)
    (hcase : row.job.caseId = row.idempotency.caseId) :
    restoredJob r = { row.job with leaseOwner := none, leaseAcquiredAt := none, leaseExpiresAt := none } := by
  obtain ⟨failure, hfailure, hversion, -, -, -, -, rfl⟩ := mapReproduction_ok.mp h
  have hcolumns : failure.map JobFailure.code = row.job.failureCode ∧
      failure.map JobFailure.message = row.job.failureMessage ∧
      failure.map JobFailure.retryable = row.job.failureRetryable := by
    rw [jobFailure] at hfailure
    split at hfailure
    · rename_i hcode hmessage hretryable
      cases hfailure
      exact ⟨hcode.symm, hmessage.symm, hretryable.symm⟩
    · rename_i code message retryable hcode hmessage hretryable
      cases hfailure
      exact ⟨hcode.symm, hmessage.symm, hretryable.symm⟩
    · cases hfailure
  obtain ⟨hcode, hmessage, hretryable⟩ := hcolumns
  simp only [restoredJob, rowReproduction, rowSnapshot, rowJob, hcode, hmessage, hretryable, hversion, hcase]

/-- An archive that was exported from consistent tables can be restored. -/
theorem TenantExport.restorable [Collation] {read : BlobReader} {source : Platform ρ σ} {tenantId : String}
    {createdAt : Instant} (h : TenantExport read source tenantId createdAt archive) (hsource : Consistent source) :
    archive.Restorable := by
  obtain ⟨t, ht, hactive, htenant⟩ := h.tenant
  have hid : archive.tenantId = tenantId := by
    rw [TenantBackupArchive.tenantId, htenant, backupTenant]
  refine ⟨?_, ?_⟩
  · have hchecks := (hsource.tenants _ t ht).2
    rw [htenant]
    simp only [TenantRow.checks, Bool.and_eq_true] at hchecks ⊢
    exact ⟨⟨hchecks.1.1, rfl⟩, hchecks.2⟩
  · intro r hr
    obtain ⟨row, hrow, he⟩ := mem_mapM h.reproductions hr
    have hmem : row ∈ (durableSelect source.db).filter fun row => row.key.tenantId == tenantId :=
      (List.mergeSort_perm _ _).mem_iff.mp hrow
    have hjoined := mem_durableSelect.mp (List.mem_filter.mp hmem).1
    have hof : row.key.tenantId = tenantId := by simpa using (List.mem_filter.mp hmem).2
    have hjob := hsource.jobRows row.jobKey row.job hjoined.job
    have hkey : row.jobKey = ⟨archive.tenantId, r.record.jobId⟩ := by
      obtain ⟨failure, -, -, -, -, -, -, rfl⟩ := mapReproduction_ok.mp he
      rw [DurableRow.jobKey, hof, hid]
      rfl
    rw [restoredJob_row he hjoined.caseId, ← hkey]
    refine ⟨?_, hjob.2⟩
    have hchecks := hjob.1
    simp only [JobRow.checks, JobRow.failureShape, JobRow.cancellationShape, JobRow.leaseComplete,
      Bool.and_eq_true] at hchecks ⊢
    tauto

/-- A backup of a tenant, restored into consistent tables that lack the tenant, commits and is exported
again as the same archive. -/
theorem backup_round_trip [Collation] {read read' : BlobReader} {source : Platform ρ σ} {tenantId : String}
    {createdAt : Instant} (hexport : buildArchive read source tenantId createdAt = .ok archive)
    (hsource : Consistent source) (hp : Consistent p) (hvacant : p.db.tenants.get tenantId = none)
    (hby : opaqueId requestedBy = true) (hcover : uploads.Cover archive) (hstored : ReadBack read' uploads archive) :
    ∃ p', restoreTransaction archive requestedBy uploads restoredAt p = (.ok true, p') ∧
      buildArchive read' p' tenantId createdAt = .ok archive := by
  have hexported := buildArchive_exported hexport
  have hid : archive.tenantId = tenantId := by
    obtain ⟨t, -, -, htenant⟩ := hexported.tenant
    rw [TenantBackupArchive.tenantId, htenant, backupTenant]
  obtain ⟨p', hcommit⟩ := restore_commits hexported.intact (hexported.restorable hsource) hp (hid ▸ hvacant) hcover hby
  exact ⟨p', hcommit, restored_exports_again hexport hp.toReferenced hstored hcommit⟩

end commit

end ReproForge

/-! ## A sample backup -/

namespace ReproForge.Sample.Backups

open KeyedTable

scoped instance : Collation where
  le a b := decide (a ≤ b)
  trans a b c h h' := decide_eq_true (String.le_trans (of_decide_eq_true h) (of_decide_eq_true h'))
  total a b := by simpa using String.le_total a b
  antisymm a b h h' := String.le_antisymm (of_decide_eq_true h) (of_decide_eq_true h')

def body : List UInt8 := [1, 2, 3]

def bodySha256 : String := "039058c6f2c0cb492c533b0a4d14ef77cc0f78abccced5287d84a1a2011cfb81"

scoped instance : ContentHash := ⟨fun bytes => if bytes = body then bodySha256 else ""⟩

def at' (ms : Int) : Instant := opening + ms

def month : Instant := at' 2592000000

def tenant : TenantRow := ⟨.active, at' 0, at' 0, none, none⟩

def caseKey : Key := ⟨"acme", "case-1"⟩
def jobKey : Key := ⟨"acme", "job-1"⟩
def idempotencyKey : IdempotencyKey := ⟨"acme", "caller", "key-1"⟩
def evidenceKey : EvidenceKey := ⟨"acme", "job-1", 1, 1⟩
def artifactKey : Key := ⟨"acme", "artifact-1"⟩

/-- A case that was cancelled in its first attempt. -/
def cancelledCase : ReproCase := ⟨at' 0, [⟨at' 1000, .draft, "Cancelled", .cancelled⟩], "case-1", .cancelled, at' 1000⟩

def caseRow : CaseRow Empty Empty where
  sourceKind := .trustedSample
  sourceDescriptor := ⟨none, none, some .cliSpaces⟩
  state := .cancelled
  domainState := ⟨cancelledCase, none, none, some .cliSpaces, "2.0"⟩
  schemaVersion := "2.0"
  version := 2
  createdAt := at' 0
  updatedAt := at' 1000
  retentionUntil := month

def jobRow : JobRow where
  caseId := "case-1"
  state := .cancelled
  progressPhase := .draft
  attempt := 1
  maxAttempts := 3
  nextAttemptAt := at' 0
  leaseOwner := none
  leaseAcquiredAt := none
  leaseExpiresAt := none
  cancellationRequestedAt := some (at' 1000)
  cancelledAt := some (at' 1000)
  failureCode := none
  failureMessage := none
  failureRetryable := none
  version := 2
  createdAt := at' 0
  updatedAt := at' 1000
  retentionUntil := month

def commandHash : String := "6f5902ac237024bdd0c176cb93063dc46f5902ac237024bdd0c176cb93063dc4"

def idempotencyRow : IdempotencyRow := ⟨commandHash, "case-1", "job-1", at' 0, at' 86400000⟩

def evidenceRow : EvidenceRow :=
  ⟨"case-1", .output, none, none, none, none, "\x7b\x7d", "\x7b\x7d", some "worker", at' 0, month⟩

def descriptor : ArtifactDescriptor where
  artifactId := "artifact-1"
  byteCount := 3
  caseId := "case-1"
  createdAt := at' 0
  kind := .runLog
  objectKey := "tenants/acme/cases/case-1/run-log/039058c6f2c0cb492c533b0a4d14ef77cc0f78abccced5287d84a1a2011cfb81"
  retentionUntil := month
  sha256 := bodySha256
  tenantId := "acme"

def uploaded : Uploaded := ⟨true, ⟨"etag-1", descriptor.objectKey, 3⟩⟩

def source : Platform Empty Empty where
  db :=
    { now := at' 2000
      tenants := Table.empty.insert "acme" tenant
      cases := Table.empty.insert caseKey caseRow
      jobs := Table.empty.insert jobKey jobRow
      idempotencyKeys := Table.empty.insert idempotencyKey idempotencyRow
      outboxEvents := .empty
      auditEvents := .empty
      quotaLedger := .empty
      artifacts := Table.empty.insert artifactKey (restoredArtifact (at' 0) "etag-0" descriptor)
      deletionRequests := .empty }
  principals := .empty
  installationStates := .empty
  installations := .empty
  repositories := .empty
  webhookDeliveries := .empty
  runEvidence := Table.empty.insert evidenceKey evidenceRow
  restoreSessions := .empty

/-- Where the tenant is not. -/
def target : Platform Empty Empty := Platform.initial (Db.initial (at' 3000) (Table.empty.insert "beta" tenant)) .empty

def storeOf (etag : String) : BlobReader := fun pathname size =>
  .ok (if pathname = descriptor.objectKey ∧ size = 3 then some (body, ⟨etag, pathname, 3⟩) else none)

def row : DurableRow Empty Empty := ⟨idempotencyKey, idempotencyRow, caseRow, jobRow⟩

def reproduction : TenantBackupReproduction Empty Empty := rowReproduction row 2 1 3 none

def evidence : TenantBackupEvidence where
  attempt := 1
  caseId := "case-1"
  commandHash := none
  createdAt := at' 0
  durationMs := none
  environment := "\x7b\x7d"
  evidence := "\x7b\x7d"
  exitCode := none
  jobId := "job-1"
  kind := .output
  leaseOwner := some "worker"
  passed := none
  retentionUntil := month
  sequence := 1
  tenantId := "acme"

def manifest : TenantBackupManifest Empty Empty :=
  ⟨[descriptor], at' 2000, [evidence], [reproduction], "1.0", ⟨at' 0, none, .active, "acme", at' 0⟩⟩

def manifestSha256 : String := "12597465ce2adf30d19136631b4eec53e16228ef09d5318ed6b644ff14b5092c"

scoped instance : ManifestHash Empty Empty where
  tenantBackupManifestSha256 m := if m = manifest then manifestSha256 else bodySha256
  hex m := by
    split
    · decide +kernel
    · decide +kernel

def backup : TenantBackupArchive Empty Empty := ⟨manifest, manifestSha256, bodies [(descriptor.objectKey, body)]⟩

def uploads : Uploads := Table.empty.insert descriptor.objectKey uploaded

theorem manifest_valid : manifest.valid = true := by
  decide +kernel

theorem intact : backup.Intact where
  valid := manifest_valid
  hash := (if_pos rfl).symm
  paths := rfl
  body a ha := by
    obtain rfl := List.mem_singleton.mp ha
    exact ⟨body, rfl, rfl, if_pos rfl⟩

/-- One row stands in the order of any query. -/
theorem orderBy_one {α : Type} (columns : α → List SortValue) (a : α) : orderBy columns [a] = [a] :=
  orderBy_self (List.pairwise_singleton _ a)

theorem exported : TenantExport (storeOf "etag-0") source "acme" (at' 2000) backup where
  tenant := ⟨tenant, rfl, rfl, rfl⟩
  quiescent := by decide +kernel
  reproductions := by
    have hrows : reproductionRows source "acme" = [row] := orderBy_one _ _
    rw [hrows, mapM_cons_ok]
    refine ⟨reproduction, [], mapReproduction_ok.mpr ⟨none, rfl, rfl, ?_, ?_, ?_, ?_, rfl⟩, rfl, rfl⟩
    all_goals decide +kernel
  evidence := by
    have hrows : evidenceRows source "acme" = [(evidenceKey, evidenceRow)] := orderBy_one _ _
    rw [hrows]
    rfl
  artifacts := by
    have hrows : artifactRows source "acme" = [(artifactKey, restoredArtifact (at' 0) "etag-0" descriptor)] :=
      orderBy_one _ _
    rw [hrows, mapM_cons_ok]
    exact ⟨descriptor, [], mapArtifact_ok.mpr (if_pos (by decide +kernel)), rfl, rfl⟩
  version := rfl
  createdAt := rfl
  objects := by
    have hrows : artifactRows source "acme" = [(artifactKey, restoredArtifact (at' 0) "etag-0" descriptor)] :=
      orderBy_one _ _
    refine ⟨[(descriptor.objectKey, body)], ?_, ?_⟩
    · rw [hrows]
      rfl
    · exact intact.sealed

theorem get_one {κ τ : Type} [DecidableEq κ] {k k' : κ} {r r' : τ} (h : (Table.empty.insert k r).get k' = some r') :
    k' = k ∧ r' = r := by
  have hm := Table.get_eq_some.mp h
  rw [Table.rows_insert (Table.get_empty k), Table.rows_empty, List.nil_append, List.mem_singleton] at hm
  exact Prod.mk.inj hm

theorem source_consistent : Consistent source where
  cases k c h := by
    obtain ⟨rfl, -⟩ := get_one h
    rfl
  jobs k j h := by
    obtain ⟨rfl, -⟩ := get_one h
    rfl
  idempotencyKeys k i h := by
    obtain ⟨rfl, -⟩ := get_one h
    rfl
  runEvidence k e h := by
    obtain ⟨rfl, -⟩ := get_one h
    rfl
  artifacts k a h := by
    obtain ⟨rfl, -⟩ := get_one h
    rfl
  restoreSessions id r h := by cases h
  tenants id t h := by
    obtain ⟨rfl, rfl⟩ := get_one h
    decide +kernel
  jobRows k j h := by
    obtain ⟨rfl, rfl⟩ := get_one h
    decide +kernel
  artifactRows k a h := by
    obtain ⟨rfl, rfl⟩ := get_one h
    decide +kernel

theorem target_consistent : Consistent target where
  cases k c h := by cases h
  jobs k j h := by cases h
  idempotencyKeys k i h := by cases h
  runEvidence k e h := by cases h
  artifacts k a h := by cases h
  restoreSessions id r h := by cases h
  tenants id t h := by
    obtain ⟨rfl, rfl⟩ := get_one h
    decide +kernel
  jobRows k j h := by cases h
  artifactRows k a h := by cases h

end ReproForge.Sample.Backups

namespace ReproForge

open Sample Sample.Backups

theorem backup_round_trip_sample :
    ∃ p', restoreTransaction backup "operator" uploads (at' 4000) target = (.ok true, p') ∧
      buildArchive (storeOf "etag-1") p' "acme" (at' 2000) = .ok backup := by
  refine backup_round_trip exported.buildArchive source_consistent target_consistent rfl (by decide +kernel) ?_ ?_
  · intro a ha
    obtain rfl := List.mem_singleton.mp ha
    exact ⟨uploaded, rfl, by decide, by decide⟩
  · intro a ha
    obtain rfl := List.mem_singleton.mp ha
    exact ⟨body, uploaded, rfl, rfl, rfl, rfl, rfl⟩

end ReproForge
