import ReproForge.RestoredTenants

/-!
# The round trip of a backup

A tenant that was exported and restored where it was not there is exported again
as the same archive, whatever else the database holds.
-/
namespace ReproForge

open KeyedTable Transactions

variable {ρ σ α β : Type}

/-! ## The order of a query -/

section order

variable [Collation]

theorem SortValue.le_antisymm {a b : SortValue} (h : a.le b = true) (h' : b.le a = true) : a = b := by
  cases a <;> cases b <;> simp only [SortValue.le, decide_eq_true_eq, reduceCtorEq] at h h'
  · rw [Collation.antisymm _ _ h h']
  · rw [Nat.le_antisymm h h']

theorem SortValue.le_trans {a b c : SortValue} (h : a.le b = true) (h' : b.le c = true) : a.le c = true := by
  cases a <;> cases b <;> cases c <;> simp only [SortValue.le, decide_eq_true_eq, reduceCtorEq] at h h' ⊢
  · exact Collation.trans _ _ _ h h'
  · exact Nat.le_trans h h'

theorem SortValue.le_total (a b : SortValue) : (a.le b || b.le a) = true := by
  cases a <;> cases b <;> simp only [SortValue.le, Bool.or_true, Bool.true_or, Bool.or_eq_true, decide_eq_true_eq]
  · exact Bool.or_eq_true _ _ ▸ Collation.total _ _
  · exact Nat.le_total _ _

theorem columnsLE_trans : ∀ as bs cs : List SortValue,
    columnsLE as bs = true → columnsLE bs cs = true → columnsLE as cs = true
  | [], _, _, _, _ => rfl
  | _ :: _, [], _, h, _ => by simp [columnsLE] at h
  | _ :: _, _ :: _, [], _, h => by simp [columnsLE] at h
  | a :: as, b :: bs, c :: cs, h, h' => by
    simp only [columnsLE] at h h' ⊢
    by_cases hab : a = b
    · subst hab
      rw [if_pos rfl] at h
      by_cases hac : a = c
      · rw [if_pos hac] at h' ⊢
        exact columnsLE_trans as bs cs h h'
      · rw [if_neg hac] at h' ⊢
        exact h'
    · rw [if_neg hab] at h
      by_cases hbc : b = c
      · subst hbc
        rw [if_neg hab]
        exact h
      · rw [if_neg hbc] at h'
        have hac : a ≠ c := by
          intro he
          subst he
          exact hab (SortValue.le_antisymm h h')
        rw [if_neg hac]
        exact SortValue.le_trans h h'

theorem columnsLE_total : ∀ as bs : List SortValue, (columnsLE as bs || columnsLE bs as) = true
  | [], _ => rfl
  | _ :: _, [] => by simp [columnsLE]
  | a :: as, b :: bs => by
    simp only [columnsLE]
    by_cases hab : a = b
    · rw [if_pos hab, if_pos hab.symm]
      exact columnsLE_total as bs
    · rw [if_neg hab, if_neg (Ne.symm hab)]
      exact SortValue.le_total a b

/-- As a query returns its rows. -/
def Ordered (columns : α → List SortValue) (items : List α) : Prop :=
  items.Pairwise fun a b => columnsLE (columns a) (columns b) = true

theorem orderBy_ordered (columns : α → List SortValue) (rows : List α) : Ordered columns (orderBy columns rows) :=
  List.pairwise_mergeSort (fun a b c => columnsLE_trans (columns a) (columns b) (columns c))
    (fun a b => columnsLE_total (columns a) (columns b)) rows

theorem orderBy_self {columns : α → List SortValue} {rows : List α} (h : Ordered columns rows) :
    orderBy columns rows = rows := List.mergeSort_of_pairwise h

/-- Rows and what they are read as are in one order when they agree on its columns. -/
theorem ordered_iff {columns : α → List SortValue} {columns' : β → List SortValue} {as : List α} {bs : List β}
    (h : as.map columns = bs.map columns') : Ordered columns as ↔ Ordered columns' bs := by
  have hmap : ∀ {γ : Type} (c : γ → List SortValue) (l : List γ),
      Ordered c l ↔ (l.map c).Pairwise fun x y => columnsLE x y = true := by
    intro γ c l
    rw [List.pairwise_map]
    rfl
  rw [hmap, hmap, h]

end order

/-! ## Reading row by row -/

section reading

/-- A loop whose rounds all end makes a list. -/
theorem mapM_of_pure {m : Type → Type} [Monad m] [LawfulMonad m] {f : α → m β} {g : α → β} {items : List α}
    (h : ∀ a ∈ items, f a = pure (g a)) : items.mapM f = pure (items.map g) := by
  induction items with
  | nil => rfl
  | cons a rest ih =>
    rw [List.mapM_cons, h a List.mem_cons_self, pure_bind, ih (fun b hb => h b (List.mem_cons_of_mem _ hb)), pure_bind,
      List.map_cons]

variable {f : α → Except BackupFailure β}

theorem except_bind_ok {γ : Type} {x : Except BackupFailure α} {g : α → Except BackupFailure γ} {c : γ} :
    (x >>= g) = .ok c ↔ ∃ a, x = .ok a ∧ g a = .ok c := by
  cases x with
  | ok a => exact ⟨fun h => ⟨a, rfl, h⟩, fun ⟨_, ha, h⟩ => Except.ok.inj ha ▸ h⟩
  | error e => exact ⟨fun h => (nomatch h), fun ⟨_, ha, _⟩ => (nomatch ha)⟩

theorem mapM_cons_ok {a : α} {rest : List α} {bs : List β} :
    (a :: rest).mapM f = .ok bs ↔ ∃ b bs', f a = .ok b ∧ rest.mapM f = .ok bs' ∧ bs = b :: bs' := by
  rw [List.mapM_cons, except_bind_ok]
  constructor
  · rintro ⟨b, hb, h⟩
    obtain ⟨bs', hrest, h⟩ := except_bind_ok.mp h
    exact ⟨b, bs', hb, hrest, (Except.ok.inj h).symm⟩
  · rintro ⟨b, bs', hb, hrest, rfl⟩
    exact ⟨b, hb, except_bind_ok.mpr ⟨bs', hrest, rfl⟩⟩

/-- What every row keeps of itself, the rows keep. -/
theorem mapM_kept {γ : Type} {q : α → γ} {q' : β → γ} {items : List α} {bs : List β}
    (hf : ∀ a ∈ items, ∀ b, f a = .ok b → q a = q' b) (h : items.mapM f = .ok bs) : items.map q = bs.map q' := by
  induction items generalizing bs with
  | nil =>
    obtain rfl : [] = bs := Except.ok.inj h
    rfl
  | cons a rest ih =>
    obtain ⟨b, bs', hb, hrest, rfl⟩ := mapM_cons_ok.mp h
    rw [List.map_cons, List.map_cons, hf a List.mem_cons_self b hb,
      ih (fun a ha => hf a (List.mem_cons_of_mem _ ha)) hrest]

/-- Rows made of the results are read as the results. -/
theorem mapM_made {items : List β} {g : β → α} (h : ∀ b ∈ items, f (g b) = .ok b) :
    (items.map g).mapM f = .ok items := by
  have hmade : items.mapM (f ∘ g) = pure (items.map id) := mapM_of_pure h
  rw [List.mapM_map, hmade, List.map_id]
  rfl

theorem mem_mapM {items : List α} {bs : List β} (h : items.mapM f = .ok bs) {b : β} (hb : b ∈ bs) :
    ∃ a ∈ items, f a = .ok b := by
  induction items generalizing bs with
  | nil =>
    obtain rfl : [] = bs := Except.ok.inj h
    exact absurd hb List.not_mem_nil
  | cons a rest ih =>
    obtain ⟨c, bs', hc, hrest, rfl⟩ := mapM_cons_ok.mp h
    rcases List.mem_cons.mp hb with rfl | hb
    · exact ⟨a, List.mem_cons_self, hc⟩
    · obtain ⟨a', ha', he⟩ := ih hrest hb
      exact ⟨a', List.mem_cons_of_mem _ ha', he⟩

end reading

/-! ## What the schema says of an entry -/

section schema

variable [ResultDocument ρ] [RequestDocument σ]

structure DurableReproductionRecord.Sound (record : DurableReproductionRecord ρ σ) : Prop where
  callerId : opaqueId record.callerId = true
  caseId : opaqueId record.caseId = true
  commandHash : hexDigest 64 record.commandHash = true
  idempotencyKey : 1 ≤ utf16Length record.idempotencyKey ∧ utf16Length record.idempotencyKey ≤ 128
  jobId : opaqueId record.jobId = true
  snapshot : record.snapshot.valid = true
  version : 1 ≤ record.version ∧ record.version ≤ maxSafeInteger
  case : record.caseId = record.snapshot.case.id
  job : record.jobId = record.snapshot.job.id
  jobCase : record.caseId = record.snapshot.job.caseId
  times : record.createdAt ≤ record.updatedAt

theorem DurableReproductionRecord.sound {record : DurableReproductionRecord ρ σ}
    (h : durableRecordValid record = true) : record.Sound := by
  simp only [durableRecordValid, Bool.and_eq_true, decide_eq_true_eq, beq_iff_eq] at h
  constructor <;> tauto

namespace TenantBackupReproduction

structure Sound (r : TenantBackupReproduction ρ σ) : Prop where
  maxAttempts : 1 ≤ r.jobMaxAttempts ∧ r.jobMaxAttempts ≤ 100
  record : r.record.Sound
  caseEnded : r.record.snapshot.case.state.terminal = true
  jobEnded : r.record.snapshot.job.state.terminal = true
  caseRetained : r.record.createdAt < r.caseRetentionUntil
  jobRetained : r.record.snapshot.job.createdAt < r.jobRetentionUntil
  remembered : r.idempotencyCreatedAt < r.idempotencyExpiresAt
  attempts : r.record.snapshot.job.attempt ≤ r.jobMaxAttempts

theorem sound {r : TenantBackupReproduction ρ σ} (h : r.valid = true) : r.Sound := by
  simp only [valid, bounds, Bool.and_eq_true, decide_eq_true_eq] at h
  obtain ⟨⟨⟨⟨⟨⟨⟨⟨-, hone⟩, hmax⟩, hrecord⟩, hcase⟩, hjob⟩, -⟩, -⟩, ⟨⟨⟨hretained, hjobRetained⟩, hkey⟩, hattempts⟩⟩ := h
  exact
    { maxAttempts := ⟨hone, hmax⟩
      record := DurableReproductionRecord.sound hrecord
      caseEnded := hcase
      jobEnded := hjob
      caseRetained := hretained
      jobRetained := hjobRetained
      remembered := hkey
      attempts := hattempts }

end TenantBackupReproduction

structure TenantBackupManifest.Sound (m : TenantBackupManifest ρ σ) : Prop where
  artifacts : ∀ a ∈ m.artifacts, a.valid = true ∧ a.tenantId = m.tenant.tenantId
  evidence : ∀ e ∈ m.evidence, e.valid = true ∧ e.tenantId = m.tenant.tenantId
  reproductions : ∀ r ∈ m.reproductions, r.Sound ∧ r.record.tenantId = m.tenant.tenantId
  version : m.schemaVersion = "1.0"
  tenant : m.tenant.valid = true
  caseIds : (m.reproductions.map fun r => r.record.caseId).Nodup
  jobIds : (m.reproductions.map fun r => r.record.jobId).Nodup
  keys : (m.reproductions.map fun r => (r.record.callerId, r.record.idempotencyKey)).Nodup
  evidenceOf : ∀ e ∈ m.evidence, ∃ r ∈ m.reproductions, r.record.jobId = e.jobId ∧ r.record.caseId = e.caseId
  evidenceKeys : (m.evidence.map fun e => (e.jobId, e.attempt, e.sequence)).Nodup
  artifactOf : ∀ a ∈ m.artifacts, ∃ r ∈ m.reproductions, r.record.caseId = a.caseId
  artifactIds : (m.artifacts.map ArtifactDescriptor.artifactId).Nodup
  objectKeys : (m.artifacts.map ArtifactDescriptor.objectKey).Nodup

theorem TenantBackupManifest.sound {m : TenantBackupManifest ρ σ} (h : m.valid = true) : m.Sound := by
  simp only [valid, reproductionsAgree, evidenceAgrees, artifactsAgree, unique, Bool.and_eq_true, List.all_eq_true,
    decide_eq_true_eq, beq_iff_eq] at h
  obtain ⟨⟨⟨⟨⟨⟨⟨⟨⟨hartifacts, -⟩, hevidence⟩, hreproductions⟩, hversion⟩, htenant⟩, ⟨⟨hof, hcases⟩, hjobs⟩, hkeys⟩,
    hevidenceOf, hevidenceKeys⟩, ⟨hartifactOf, hids⟩, hpaths⟩, -⟩ := h
  exact
    { artifacts := fun a ha => ⟨hartifacts a ha, (hartifactOf a ha).1⟩
      evidence := fun e he => ⟨hevidence e he, (hevidenceOf e he).1⟩
      reproductions := fun r hr => ⟨TenantBackupReproduction.sound (hreproductions r hr), hof r hr⟩
      version := hversion
      tenant := htenant
      caseIds := hcases
      jobIds := hjobs
      keys := hkeys
      evidenceOf := by
        intro e he
        obtain ⟨r, hfound, hr⟩ := (Option.any_eq_true _ _).mp (hevidenceOf e he).2
        have hjob := List.find?_some hfound
        simp only [Bool.and_eq_true, beq_iff_eq] at hjob hr
        exact ⟨r, List.mem_of_find?_eq_some hfound, hjob, hr.1⟩
      evidenceKeys := hevidenceKeys
      artifactOf := by
        intro a ha
        obtain ⟨r, hr, hcase⟩ := List.any_eq_true.mp (hartifactOf a ha).2
        exact ⟨r, hr, by simpa using hcase⟩
      artifactIds := hids
      objectKeys := hpaths }

end schema

/-! ## Reading a restored entry -/

section entries

variable {tenantId : String}

/-- The joined row of a restored reproduction. -/
def restoredRow (tenantId : String) (r : TenantBackupReproduction ρ σ) : DurableRow ρ σ :=
  ⟨⟨tenantId, r.record.callerId, r.record.idempotencyKey⟩, restoredIdempotency r, restoredCase r, restoredJob r⟩

theorem jobFailure_restored (r : TenantBackupReproduction ρ σ) :
    jobFailure (restoredJob r) = some r.record.snapshot.job.failure := by
  rw [jobFailure, restoredJob]
  cases r.record.snapshot.job.failure <;> rfl

variable [ResultDocument ρ]

theorem mapReproduction_ok {row : DurableRow ρ σ} {r : TenantBackupReproduction ρ σ} :
    mapReproduction row = .ok r ↔
      ∃ failure, jobFailure row.job = some failure ∧ row.case.version = row.job.version ∧
        row.case.version ≤ maxSafeInteger ∧ row.job.attempt ≤ maxSafeInteger ∧
        row.job.maxAttempts ≤ maxSafeInteger ∧ (rowSnapshot row row.job.attempt failure).valid = true ∧
        r = rowReproduction row row.case.version row.job.attempt row.job.maxAttempts failure := by
  rw [mapReproduction]
  constructor
  · intro h
    split at h
    next version jobVersion hversion hjobVersion =>
      obtain ⟨rfl, hbound⟩ := integer_some.mp hversion
      obtain ⟨rfl, -⟩ := integer_some.mp hjobVersion
      split at h
      · cases h
      · rename_i hagree
        split at h
        next failure attempt hfailure hattempt =>
          obtain ⟨rfl, hattemptBound⟩ := integer_some.mp hattempt
          split at h
          · cases h
          · rename_i hvalid
            split at h
            · cases h
            · rename_i maxAttempts hmax
              obtain ⟨rfl, hmaxBound⟩ := integer_some.mp hmax
              exact ⟨failure, hfailure, not_not.mp hagree, hbound, hattemptBound, hmaxBound, by simpa using hvalid,
                (Except.ok.inj h).symm⟩
        · cases h
    · cases h
  · rintro ⟨failure, hfailure, hagree, hbound, hattempt, hmax, hvalid, rfl⟩
    have hversion : integer row.case.version = some row.case.version := integer_some.mpr ⟨rfl, hbound⟩
    have hjobVersion : integer row.job.version = some row.case.version :=
      integer_some.mpr ⟨hagree, hagree ▸ hbound⟩
    have hattempt' : integer row.job.attempt = some row.job.attempt := integer_some.mpr ⟨rfl, hattempt⟩
    have hmax' : integer row.job.maxAttempts = some row.job.maxAttempts := integer_some.mpr ⟨rfl, hmax⟩
    simp [hversion, hjobVersion, hfailure, hattempt', hvalid, hmax']

omit [ResultDocument ρ] in
theorem rowSnapshot_restored {r : TenantBackupReproduction ρ σ} (hcase : r.record.caseId = r.record.snapshot.job.caseId)
    (hjob : r.record.jobId = r.record.snapshot.job.id) :
    rowSnapshot (restoredRow tenantId r) r.record.snapshot.job.attempt r.record.snapshot.job.failure =
      r.record.snapshot := by
  simp only [rowSnapshot, rowJob, restoredRow, restoredIdempotency, restoredCase, restoredJob, restoredDomain,
    serializeCaseDomain, hcase, hjob]

/-- What a restored reproduction is read as. -/
theorem mapReproduction_restored [RequestDocument σ] {r : TenantBackupReproduction ρ σ} (h : r.Sound)
    (htenant : r.record.tenantId = tenantId)
    (hasked : r.record.repositoryRequest = none ∧ r.record.requestedBudget = none) :
    mapReproduction (restoredRow tenantId r) = .ok r := by
  have hsafe : 100 ≤ maxSafeInteger := by decide
  have hattempts := h.attempts
  have hmax := h.maxAttempts
  rw [mapReproduction_ok]
  refine ⟨r.record.snapshot.job.failure, jobFailure_restored r, rfl, h.record.version.2, ?_, ?_, ?_, ?_⟩
  · change r.record.snapshot.job.attempt ≤ maxSafeInteger
    omega
  · change r.jobMaxAttempts ≤ maxSafeInteger
    omega
  · change ReproductionSnapshot.valid
      (rowSnapshot (restoredRow tenantId r) r.record.snapshot.job.attempt r.record.snapshot.job.failure) = true
    rw [rowSnapshot_restored h.record.jobCase h.record.job]
    exact h.record.snapshot
  · subst htenant
    have hsnapshot :
        rowSnapshot (restoredRow r.record.tenantId r) r.record.snapshot.job.attempt r.record.snapshot.job.failure =
          r.record.snapshot := rowSnapshot_restored h.record.jobCase h.record.job
    rw [rowReproduction, show (restoredRow r.record.tenantId r).job.attempt = r.record.snapshot.job.attempt from rfl,
      hsnapshot]
    simp only [restoredRow, restoredIdempotency, restoredCase, restoredJob, ← hasked.1, ← hasked.2]

theorem mapEvidence_ok {row : EvidenceKey × EvidenceRow} {e : TenantBackupEvidence} (h : mapEvidence row = .ok e) :
    row = evidenceEntry row.1.tenantId e ∧ e.tenantId = row.1.tenantId := by
  rw [mapEvidence] at h
  split at h
  · cases h
    exact ⟨rfl, rfl⟩
  · cases h

theorem mapEvidence_restored {e : TenantBackupEvidence} (h : e.valid = true) (htenant : e.tenantId = tenantId) :
    mapEvidence (evidenceEntry tenantId e) = .ok e := by
  have hsafe : 100 ≤ maxSafeInteger := by decide
  simp only [TenantBackupEvidence.valid, Bool.and_eq_true, decide_eq_true_eq] at h
  subst htenant
  have hbounds : (e.attempt ≤ maxSafeInteger && e.sequence ≤ maxSafeInteger && e.durationMs.all (· ≤ maxSafeInteger) &&
      e.exitCode.all safeInteger) = true := by
    have hattempt : e.attempt ≤ maxSafeInteger := by omega
    have hsequence : e.sequence ≤ maxSafeInteger := h.1.1.2
    have hduration : e.durationMs.all (· ≤ maxSafeInteger) = true := h.1.1.1.1.1.1.1.1.2
    have hexit : e.exitCode.all safeInteger = true := h.1.1.1.1.1.1.1.2
    rw [hduration, hexit, decide_eq_true hattempt, decide_eq_true hsequence]
    rfl
  exact if_pos hbounds

theorem mapArtifact_ok {row : Key × ArtifactRow} {a : ArtifactDescriptor} :
    mapArtifact row = .ok a ↔ rowDescriptor row.1 row.2 = some a := by
  rw [mapArtifact]
  cases rowDescriptor row.1 row.2 with
  | none => simp
  | some d => simp

theorem mapArtifact_restored {uploads : Uploads} {restoredAt : Instant} {a : ArtifactDescriptor}
    (h : a.valid = true) (htenant : a.tenantId = tenantId) :
    mapArtifact (artifactEntry uploads restoredAt tenantId a) = .ok a := by
  subst htenant
  exact mapArtifact_ok.mpr (if_pos h)

end entries

/-! ## Archives that were verified -/

section archives

theorem foldl_insert_rows {κ τ : Type} [DecidableEq κ] {entries : List (κ × τ)} {t : Table κ τ}
    (h : (t.rows.map Prod.fst ++ entries.map Prod.fst).Nodup) :
    (entries.foldl (fun t e => t.insert e.1 e.2) t).rows = t.rows ++ entries := by
  induction entries generalizing t with
  | nil => rw [List.foldl_nil, List.append_nil]
  | cons e rest ih =>
    have hvacant : t.get e.1 = none := by
      rw [Table.get_eq_none]
      intro hm
      exact (List.nodup_append.mp h).2.2 e.1 hm e.1 (by simp) rfl
    have hrows : (t.insert e.1 e.2).rows = t.rows ++ [e] := Table.rows_insert hvacant
    rw [List.foldl_cons, ih, hrows, List.append_assoc, List.singleton_append]
    rw [hrows, List.map_append, List.append_assoc]
    exact h

theorem bodies_rows {entries : List (String × List UInt8)} (h : (entries.map Prod.fst).Nodup) :
    (bodies entries).rows = entries := foldl_insert_rows h

theorem table_ext {κ τ : Type} [DecidableEq κ] {t t' : Table κ τ} (h : t.rows = t'.rows) : t = t' := by
  cases t
  cases t'
  cases h
  rfl

variable [ContentHash] [ManifestHash ρ σ] [ResultDocument ρ] [RequestDocument σ]

/-- An archive as the verification returns it. -/
structure TenantBackupArchive.Intact (archive : TenantBackupArchive ρ σ) : Prop where
  valid : archive.manifest.valid = true
  hash : archive.manifestSha256 = tenantBackupManifestSha256 archive.manifest
  paths : archive.objects.rows.map Prod.fst = archive.manifest.artifacts.map ArtifactDescriptor.objectKey
  body : ∀ a ∈ archive.manifest.artifacts, ∃ body, archive.objects.get a.objectKey = some body ∧
    body.length = a.byteCount ∧ ContentHash.sha256 body = a.sha256

omit [ManifestHash ρ σ] [ResultDocument ρ] [RequestDocument σ] in
theorem checkedBody_some {objects : Bodies} {a : ArtifactDescriptor} {entry : String × List UInt8} :
    checkedBody objects a = some entry ↔
      ∃ body, objects.get a.objectKey = some body ∧ body.length = a.byteCount ∧
        ContentHash.sha256 body = a.sha256 ∧ entry = (a.objectKey, body) := by
  rw [checkedBody]
  cases objects.get a.objectKey with
  | none => simp
  | some body =>
    simp only [Option.bind_some, Option.some.injEq, exists_eq_left']
    split
    next hc =>
      simp only [Bool.and_eq_true, beq_iff_eq] at hc
      simp only [Option.some.injEq]
      exact ⟨fun h => ⟨hc.1, hc.2, h.symm⟩, fun h => h.2.2.symm⟩
    next hc =>
      simp only [Bool.and_eq_true, beq_iff_eq] at hc
      constructor
      · intro h
        cases h
      · intro h
        exact absurd ⟨h.1, h.2.1⟩ hc

omit [ManifestHash ρ σ] [ResultDocument ρ] [RequestDocument σ] in
theorem checkedBodies {objects : Bodies} {artifacts : List ArtifactDescriptor} {entries : List (String × List UInt8)}
    (h : artifacts.mapM (checkedBody objects) = some entries) :
    entries.map Prod.fst = artifacts.map ArtifactDescriptor.objectKey ∧
      ∀ a ∈ artifacts, ∃ body, (a.objectKey, body) ∈ entries ∧ body.length = a.byteCount ∧
        ContentHash.sha256 body = a.sha256 := by
  induction artifacts generalizing entries with
  | nil =>
    obtain rfl : [] = entries := Option.some.inj h
    exact ⟨rfl, fun a ha => absurd ha List.not_mem_nil⟩
  | cons a rest ih =>
    rw [List.mapM_cons, Option.bind_eq_bind, Option.bind_eq_some_iff] at h
    obtain ⟨entry, hentry, h⟩ := h
    rw [Option.bind_eq_bind, Option.bind_eq_some_iff] at h
    obtain ⟨entries', hrest, h⟩ := h
    obtain rfl : entry :: entries' = entries := Option.some.inj h
    obtain ⟨body, -, hsize, hdigest, rfl⟩ := checkedBody_some.mp hentry
    obtain ⟨hpaths, hbodies⟩ := ih hrest
    refine ⟨by rw [List.map_cons, List.map_cons, hpaths], ?_⟩
    intro c hc
    rcases List.mem_cons.mp hc with rfl | hc
    · exact ⟨body, List.mem_cons_self, hsize, hdigest⟩
    · obtain ⟨body', hm, hb⟩ := hbodies c hc
      exact ⟨body', List.mem_cons_of_mem _ hm, hb⟩

theorem verify_intact {raw archive : TenantBackupArchive ρ σ} (h : verifyTenantBackupArchive raw = .ok archive) :
    archive.Intact ∧ archive.manifest = raw.manifest := by
  rw [verifyTenantBackupArchive] at h
  split at h
  · cases h
  · rename_i hvalid
    split at h
    · cases h
    · rename_i hhash
      split at h
      · cases h
      · split at h
        · cases h
        · rename_i entries hentries
          rw [← Except.ok.inj h]
          have hvalid' : raw.manifest.valid = true := by simpa using hvalid
          obtain ⟨hpaths, hbodies⟩ := checkedBodies hentries
          have hrows : (bodies entries).rows = entries := by
            apply bodies_rows
            rw [hpaths]
            exact (TenantBackupManifest.sound hvalid').objectKeys
          refine ⟨⟨hvalid', by simpa using hhash, by rw [hrows, hpaths], ?_⟩, rfl⟩
          intro a ha
          obtain ⟨body, hm, hb⟩ := hbodies a ha
          exact ⟨body, Table.get_eq_some.mpr (hrows.symm ▸ hm), hb⟩

/-- The body of an artifact, or nothing. -/
def TenantBackupArchive.bodyOf (archive : TenantBackupArchive ρ σ) (a : ArtifactDescriptor) : String × List UInt8 :=
  (a.objectKey, (archive.objects.get a.objectKey).getD [])

/-- The objects of an intact archive, one for each artifact. -/
theorem TenantBackupArchive.Intact.rows {archive : TenantBackupArchive ρ σ} (h : archive.Intact) :
    archive.objects.rows = archive.manifest.artifacts.map archive.bodyOf := by
  have hself : ∀ row ∈ archive.objects.rows, row = (row.1, (archive.objects.get row.1).getD []) := by
    intro row hrow
    have hget : archive.objects.get row.1 = some row.2 := Table.get_eq_some.mpr hrow
    rw [hget, Option.getD_some]
  calc archive.objects.rows
      = archive.objects.rows.map fun row => (row.1, (archive.objects.get row.1).getD []) := by
        exact (List.map_id _).symm.trans (List.map_congr_left hself)
    _ = (archive.objects.rows.map Prod.fst).map fun k => (k, (archive.objects.get k).getD []) := by
        rw [List.map_map]
        rfl
    _ = archive.manifest.artifacts.map archive.bodyOf := by
        rw [h.paths, List.map_map]
        rfl

theorem TenantBackupArchive.Intact.bodies {archive : TenantBackupArchive ρ σ} (h : archive.Intact) :
    ReproForge.bodies archive.objects.rows = archive.objects := by
  apply table_ext
  apply bodies_rows
  rw [h.paths]
  exact (TenantBackupManifest.sound h.valid).objectKeys

/-- An intact archive passes its checks as it is. -/
theorem TenantBackupArchive.Intact.verified {archive : TenantBackupArchive ρ σ} (h : archive.Intact) :
    verifyTenantBackupArchive archive = .ok archive := by
  have hentries : archive.manifest.artifacts.mapM (checkedBody archive.objects) = some archive.objects.rows := by
    rw [h.rows]
    apply mapM_of_pure
    intro a ha
    obtain ⟨body, hbody, hsize, hdigest⟩ := h.body a ha
    refine checkedBody_some.mpr ⟨body, hbody, hsize, hdigest, ?_⟩
    rw [TenantBackupArchive.bodyOf, hbody, Option.getD_some]
  have hperm : (archive.manifest.artifacts.map ArtifactDescriptor.objectKey).isPerm
      (archive.objects.rows.map Prod.fst) = true := by
    rw [h.paths, List.isPerm_iff]
  rw [verifyTenantBackupArchive, if_neg (by simp [h.valid]), if_neg (by simp [← h.hash]), if_neg (by simp [hperm]),
    hentries]
  simp only [h.bodies]

/-- An intact archive is sealed again as it is. -/
theorem TenantBackupArchive.Intact.sealed {archive : TenantBackupArchive ρ σ} (h : archive.Intact) :
    sealTenantBackupArchive archive.manifest archive.objects = .ok archive := by
  rw [sealTenantBackupArchive, if_neg (by simp [h.valid]), ← h.hash]
  exact h.verified

end archives

/-! ## The tables after a restore -/

/-- Every row belongs to a tenant, as the foreign keys on `tenants` say. -/
structure Referenced (p : Platform ρ σ) : Prop where
  cases : ∀ k c, p.db.cases.get k = some c → (p.db.tenants.get k.tenantId).isSome = true
  jobs : ∀ k j, p.db.jobs.get k = some j → (p.db.tenants.get k.tenantId).isSome = true
  idempotencyKeys : ∀ k i, p.db.idempotencyKeys.get k = some i → (p.db.tenants.get k.tenantId).isSome = true
  runEvidence : ∀ k e, p.runEvidence.get k = some e → (p.db.tenants.get k.tenantId).isSome = true
  artifacts : ∀ k a, p.db.artifacts.get k = some a → (p.db.tenants.get k.tenantId).isSome = true
  restoreSessions : ∀ id r, p.restoreSessions.get id = some r → (p.db.tenants.get id).isSome = true

theorem absent_ne {p : Platform ρ σ} {tenantId id : String} (h : p.db.tenants.get tenantId = none)
    (hid : (p.db.tenants.get id).isSome = true) : (id == tenantId) = false := by
  rw [beq_eq_false_iff_ne]
  intro he
  rw [he, h] at hid
  cases hid

section tables

variable {κ τ : Type} [DecidableEq κ] {t t' : Table κ τ} {added : List (κ × τ)}

/-- What a condition selects when it holds of the new rows alone. -/
theorem select_appended {p : κ → τ → Bool} (h : t'.rows = t.rows ++ added)
    (hold : ∀ k r, t.get k = some r → p k r = false) (hnew : ∀ row ∈ added, p row.1 row.2 = true) :
    t'.select p = added := by
  have hbefore : t.rows.filter (fun row => p row.1 row.2) = [] := by
    rw [List.filter_eq_nil_iff]
    intro row hrow
    rw [hold row.1 row.2 (Table.get_eq_some.mpr hrow)]
    exact Bool.false_ne_true
  rw [Table.select, h, List.filter_append, hbefore, List.nil_append, List.filter_eq_self]
  exact hnew

omit [DecidableEq κ] in
/-- What a condition selects when it holds of no new row. -/
theorem select_kept {p : κ → τ → Bool} (h : t'.rows = t.rows ++ added)
    (hnew : ∀ row ∈ added, p row.1 row.2 = false) : t'.select p = t.select p := by
  have hafter : added.filter (fun row => p row.1 row.2) = [] := by
    rw [List.filter_eq_nil_iff]
    intro row hrow
    rw [hnew row hrow]
    exact Bool.false_ne_true
  rw [Table.select, Table.select, h, List.filter_append, hafter, List.append_nil]

theorem get_selected {p : κ → τ → Bool} (h : t.select p = added) {row : κ × τ} (hrow : row ∈ added) :
    t.get row.1 = some row.2 := (Table.mem_select.mp (h ▸ hrow)).1

theorem get_appended (h : t'.rows = t.rows ++ added) {row : κ × τ} (hrow : row ∈ added) :
    t'.get row.1 = some row.2 := by
  rw [Table.get_eq_some, h]
  exact List.mem_append_right _ hrow

end tables

theorem joinRow_key {db : Db ρ σ} {entry : IdempotencyKey × IdempotencyRow} {row : DurableRow ρ σ}
    (h : joinRow db entry = some row) : row.key = entry.1 := by
  rw [joinRow] at h
  split at h
  · split at h
    · cases h
      rfl
    · cases h
  · cases h

/-- The joined rows of a tenant are joins of its keys. -/
theorem durableSelect_tenant (db : Db ρ σ) (tenantId : String) :
    ((durableSelect db).filter fun row => row.key.tenantId == tenantId) =
      (db.idempotencyKeys.select fun k _ => k.tenantId == tenantId).filterMap (joinRow db) := by
  rw [durableSelect, Table.select, List.filter_filterMap, List.filterMap_filter]
  apply List.filterMap_congr
  intro entry _
  cases hjoin : joinRow db entry with
  | none => simp
  | some row => rw [Option.filter_some, joinRow_key hjoin]

section restored

variable {archive : TenantBackupArchive ρ σ} {requestedBy : String} {uploads : Uploads} {restoredAt : Instant}
  {p p' : Platform ρ σ}

/-- The tables say of a tenant what an archive says of it. -/
structure Restored (archive : TenantBackupArchive ρ σ) (uploads : Uploads) (restoredAt : Instant)
    (p : Platform ρ σ) : Prop where
  tenant : p.db.tenants.get archive.tenantId = some (restoredTenant archive.manifest.tenant)
  cases : (p.db.cases.select fun k _ => k.tenantId == archive.tenantId) =
    archive.manifest.reproductions.map (caseEntry archive.tenantId)
  jobs : (p.db.jobs.select fun k _ => k.tenantId == archive.tenantId) =
    archive.manifest.reproductions.map (jobEntry archive.tenantId)
  idempotencyKeys : (p.db.idempotencyKeys.select fun k _ => k.tenantId == archive.tenantId) =
    archive.manifest.reproductions.map (idempotencyEntry archive.tenantId)
  runEvidence : (p.runEvidence.select fun k _ => k.tenantId == archive.tenantId) =
    archive.manifest.evidence.map (evidenceEntry archive.tenantId)
  artifacts : (p.db.artifacts.select fun k _ => k.tenantId == archive.tenantId) =
    archive.manifest.artifacts.map (artifactEntry uploads restoredAt archive.tenantId)

theorem Written.restored (h : Written archive requestedBy uploads restoredAt p p') (href : Referenced p) :
    Restored archive uploads restoredAt p' where
  tenant := by rw [h.tenant, Table.get_insert_self h.vacant]
  cases := by
    apply select_appended h.cases (fun k c hk => absent_ne h.vacant (href.cases k c hk))
    intro row hrow
    obtain ⟨r, -, rfl⟩ := List.mem_map.mp hrow
    exact beq_self_eq_true _
  jobs := by
    apply select_appended h.jobs (fun k j hk => absent_ne h.vacant (href.jobs k j hk))
    intro row hrow
    obtain ⟨r, -, rfl⟩ := List.mem_map.mp hrow
    exact beq_self_eq_true _
  idempotencyKeys := by
    apply select_appended h.idempotencyKeys (fun k i hk => absent_ne h.vacant (href.idempotencyKeys k i hk))
    intro row hrow
    obtain ⟨r, -, rfl⟩ := List.mem_map.mp hrow
    exact beq_self_eq_true _
  runEvidence := by
    apply select_appended h.runEvidence (fun k e hk => absent_ne h.vacant (href.runEvidence k e hk))
    intro row hrow
    obtain ⟨e, -, rfl⟩ := List.mem_map.mp hrow
    exact beq_self_eq_true _
  artifacts := by
    apply select_appended h.artifacts (fun k a hk => absent_ne h.vacant (href.artifacts k a hk))
    intro row hrow
    obtain ⟨a, -, rfl⟩ := List.mem_map.mp hrow
    exact beq_self_eq_true _

namespace Restored

/-- All artifacts of the tenant are available. -/
theorem available (h : Restored archive uploads restoredAt p) :
    (p.db.artifacts.select fun k a => k.tenantId == archive.tenantId && a.status == .available) =
      archive.manifest.artifacts.map (artifactEntry uploads restoredAt archive.tenantId) := by
  have hboth : (p.db.artifacts.select fun k a => k.tenantId == archive.tenantId && a.status == .available) =
      (p.db.artifacts.select fun k _ => k.tenantId == archive.tenantId).filter
        fun row => row.2.status == .available := by
    rw [Table.select, Table.select, List.filter_filter]
    simp only [Bool.and_comm]
  rw [hboth, h.artifacts, List.filter_eq_self]
  intro row hrow
  obtain ⟨a, -, rfl⟩ := List.mem_map.mp hrow
  rfl

/-- The joined rows of the tenant are those of the archive. -/
theorem durableSelect_restored (h : Restored archive uploads restoredAt p) :
    ((durableSelect p.db).filter fun row => row.key.tenantId == archive.tenantId) =
      archive.manifest.reproductions.map (restoredRow archive.tenantId) := by
  rw [durableSelect_tenant, h.idempotencyKeys, List.filterMap_map, ← List.filterMap_eq_map]
  apply List.filterMap_congr
  intro r hr
  have hcase := get_selected h.cases (List.mem_map_of_mem (f := caseEntry archive.tenantId) hr)
  have hjob := get_selected h.jobs (List.mem_map_of_mem (f := jobEntry archive.tenantId) hr)
  simp only [caseEntry] at hcase
  simp only [jobEntry] at hjob
  simp [joinRow, idempotencyEntry, restoredIdempotency, hcase, hjob, restoredJob, restoredRow]

/-- A restored tenant may be exported. -/
theorem quiescent_restored [ResultDocument ρ] [RequestDocument σ] (h : Restored archive uploads restoredAt p)
    (hsound : archive.manifest.Sound) : quiescent p.db archive.tenantId = true := by
  have havailable : (archive.manifest.artifacts.map (artifactEntry uploads restoredAt archive.tenantId)).filter
      (fun row => row.2.status == .available) =
        archive.manifest.artifacts.map (artifactEntry uploads restoredAt archive.tenantId) := by
    rw [List.filter_eq_self]
    intro row hrow
    obtain ⟨a, -, rfl⟩ := List.mem_map.mp hrow
    rfl
  have hopenCases : (archive.manifest.reproductions.map (caseEntry archive.tenantId)).filter
      (fun row => !row.2.state.terminal) = [] := by
    rw [List.filter_eq_nil_iff]
    intro row hrow
    obtain ⟨r, hr, rfl⟩ := List.mem_map.mp hrow
    have hended : (caseEntry archive.tenantId r).2.state.terminal = true := (hsound.reproductions r hr).1.caseEnded
    rw [hended]
    exact Bool.false_ne_true
  have hopenJobs : (archive.manifest.reproductions.map (jobEntry archive.tenantId)).filter
      (fun row => !row.2.state.terminal) = [] := by
    rw [List.filter_eq_nil_iff]
    intro row hrow
    obtain ⟨r, hr, rfl⟩ := List.mem_map.mp hrow
    have hended : (jobEntry archive.tenantId r).2.state.terminal = true := (hsound.reproductions r hr).1.jobEnded
    rw [hended]
    exact Bool.false_ne_true
  simp only [quiescent, h.cases, h.jobs, h.idempotencyKeys, h.artifacts, hopenCases, hopenJobs, havailable,
    List.length_map, List.length_nil, beq_self_eq_true, Bool.and_self]

end Restored

variable [Collation]

/-! ## What an export makes -/

def reproductionOrder (r : TenantBackupReproduction ρ σ) : List SortValue :=
  [.text r.record.caseId, .text r.record.jobId, .text r.record.callerId, .text r.record.idempotencyKey]

def evidenceOrder (e : TenantBackupEvidence) : List SortValue := [.text e.jobId, .number e.attempt, .number e.sequence]

def artifactOrder (a : ArtifactDescriptor) : List SortValue :=
  [.text a.caseId, .text a.kind.text, .text a.artifactId]

/-- The manifest as a query would list it, without what no query reads. -/
structure TenantBackupManifest.Canonical (m : TenantBackupManifest ρ σ) : Prop where
  reproductions : Ordered reproductionOrder m.reproductions
  evidence : Ordered evidenceOrder m.evidence
  artifacts : Ordered artifactOrder m.artifacts
  unasked : ∀ r ∈ m.reproductions, r.record.repositoryRequest = none ∧ r.record.requestedBudget = none
  active : m.tenant.status = .active

variable [ContentHash] [ManifestHash ρ σ] [ResultDocument ρ] [RequestDocument σ]

/-- What an export read, and the archive that it made of it. -/
structure TenantExport (read : BlobReader) (p : Platform ρ σ) (tenantId : String) (createdAt : Instant)
    (archive : TenantBackupArchive ρ σ) : Prop where
  tenant : ∃ row, p.db.tenants.get tenantId = some row ∧ row.status = .active ∧
    archive.manifest.tenant = backupTenant tenantId row
  quiescent : quiescent p.db tenantId = true
  reproductions : (reproductionRows p tenantId).mapM mapReproduction = .ok archive.manifest.reproductions
  evidence : (evidenceRows p tenantId).mapM mapEvidence = .ok archive.manifest.evidence
  artifacts : (artifactRows p tenantId).mapM mapArtifact = .ok archive.manifest.artifacts
  version : archive.manifest.schemaVersion = "1.0"
  createdAt : archive.manifest.createdAt = createdAt
  objects : ∃ objects, ((artifactRows p tenantId).zip archive.manifest.artifacts).mapM (readObject read) = .ok objects ∧
    sealTenantBackupArchive archive.manifest (ReproForge.bodies objects) = .ok archive

omit [Collation] in
theorem seal_ok {manifest : TenantBackupManifest ρ σ} {objects : Bodies} {archive : TenantBackupArchive ρ σ}
    (h : sealTenantBackupArchive manifest objects = .ok archive) : archive.Intact ∧ archive.manifest = manifest := by
  rw [sealTenantBackupArchive] at h
  split at h
  · cases h
  · exact verify_intact h

theorem buildArchive_exported {read : BlobReader} {p : Platform ρ σ} {tenantId : String} {createdAt : Instant}
    {archive : TenantBackupArchive ρ σ} (h : buildArchive read p tenantId createdAt = .ok archive) :
    TenantExport read p tenantId createdAt archive := by
  rw [buildArchive] at h
  split at h
  · cases h
  · rename_i row hrow
    split at h
    · cases h
    · rename_i hactive
      split at h
      · cases h
      · rename_i hquiet
        obtain ⟨reproductions, hreproductions, h⟩ := except_bind_ok.mp h
        obtain ⟨evidence, hevidence, h⟩ := except_bind_ok.mp h
        obtain ⟨artifacts, hartifacts, h⟩ := except_bind_ok.mp h
        obtain ⟨objects, hobjects, h⟩ := except_bind_ok.mp h
        dsimp only at h
        split at h
        · split at h
          · rename_i sealed hsealed
            obtain rfl := Except.ok.inj h
            have hmanifest := (seal_ok hsealed).2
            exact
              { tenant := ⟨row, hrow, not_not.mp hactive, by rw [hmanifest]⟩
                quiescent := by simpa using hquiet
                reproductions := by rw [hmanifest, hreproductions]
                evidence := by rw [hmanifest, hevidence]
                artifacts := by rw [hmanifest, hartifacts]
                version := by rw [hmanifest]
                createdAt := by rw [hmanifest]
                objects := by
                  rw [hmanifest]
                  exact ⟨objects, hobjects, hsealed⟩ }
          · cases h
        · cases h

theorem TenantExport.intact {read : BlobReader} {p : Platform ρ σ} {tenantId : String} {createdAt : Instant}
    {archive : TenantBackupArchive ρ σ} (h : TenantExport read p tenantId createdAt archive) : archive.Intact := by
  obtain ⟨objects, -, hsealed⟩ := h.objects
  exact (seal_ok hsealed).1

theorem TenantExport.buildArchive {read : BlobReader} {p : Platform ρ σ} {tenantId : String} {createdAt : Instant}
    {archive : TenantBackupArchive ρ σ} (h : TenantExport read p tenantId createdAt archive) :
    buildArchive read p tenantId createdAt = .ok archive := by
  obtain ⟨row, hrow, hactive, htenant⟩ := h.tenant
  obtain ⟨objects, hobjects, hsealed⟩ := h.objects
  have hmanifest : (⟨archive.manifest.artifacts, createdAt, archive.manifest.evidence, archive.manifest.reproductions,
      "1.0", backupTenant tenantId row⟩ : TenantBackupManifest ρ σ) = archive.manifest := by
    rw [← htenant, ← h.version, ← h.createdAt]
  have hvalid : archive.manifest.valid = true := h.intact.valid
  rw [ReproForge.buildArchive, hrow]
  simp only [hactive, h.quiescent, h.reproductions, h.evidence, h.artifacts, hobjects, Bind.bind, Except.bind, hmanifest,
    hvalid, hsealed, ne_eq, not_true_eq_false, if_false, Bool.not_true, Bool.false_eq_true, if_true]

/-- An archive that was exported is in the order of the queries. -/
theorem TenantExport.canonical {read : BlobReader} {p : Platform ρ σ} {tenantId : String} {createdAt : Instant}
    {archive : TenantBackupArchive ρ σ} (h : TenantExport read p tenantId createdAt archive) :
    archive.manifest.Canonical := by
  obtain ⟨row, -, hactive, htenant⟩ := h.tenant
  have hreproductions : (reproductionRows p tenantId).map reproductionColumns =
      archive.manifest.reproductions.map reproductionOrder := by
    refine mapM_kept ?_ h.reproductions
    intro row _ r hr
    obtain ⟨failure, -, -, -, -, -, -, rfl⟩ := mapReproduction_ok.mp hr
    rfl
  have hevidence : (evidenceRows p tenantId).map evidenceColumns = archive.manifest.evidence.map evidenceOrder := by
    refine mapM_kept ?_ h.evidence
    intro row _ e he
    obtain ⟨hrow, -⟩ := mapEvidence_ok he
    rw [hrow]
    rfl
  have hartifacts : (artifactRows p tenantId).map artifactColumns = archive.manifest.artifacts.map artifactOrder := by
    refine mapM_kept ?_ h.artifacts
    intro row _ a ha
    obtain ⟨-, hkey, -, -, -, hcase, hkind⟩ := rowDescriptor_some (mapArtifact_ok.mp ha)
    rw [artifactColumns, artifactOrder, hcase, hkind, ← hkey]
    rfl
  exact
    { reproductions := (ordered_iff hreproductions).mp (orderBy_ordered _ _)
      evidence := (ordered_iff hevidence).mp (orderBy_ordered _ _)
      artifacts := (ordered_iff hartifacts).mp (orderBy_ordered _ _)
      unasked := by
        intro r hr
        obtain ⟨row, -, he⟩ := mem_mapM h.reproductions hr
        obtain ⟨failure, -, -, -, -, -, -, rfl⟩ := mapReproduction_ok.mp he
        exact ⟨rfl, rfl⟩
      active := by
        rw [htenant]
        exact hactive }

/-! ## The tenant that a restore wrote -/

/-- The store has the body of each artifact under the metadata that the upload returned. -/
def ReadBack (read : BlobReader) (uploads : Uploads) (archive : TenantBackupArchive ρ σ) : Prop :=
  ∀ a ∈ archive.manifest.artifacts, ∃ body u, archive.objects.get a.objectKey = some body ∧
    uploads.get a.objectKey = some u ∧ read a.objectKey a.byteCount = .ok (some (body, u.metadata)) ∧
    u.metadata.pathname = a.objectKey ∧ u.metadata.size = a.byteCount

omit [Collation] [ContentHash] [ManifestHash ρ σ] [ResultDocument ρ] [RequestDocument σ] in
theorem readObject_stored {read : BlobReader} (h : ReadBack read uploads archive) {a : ArtifactDescriptor}
    (ha : a ∈ archive.manifest.artifacts) :
    readObject read (artifactEntry uploads restoredAt archive.tenantId a, a) = .ok (archive.bodyOf a) := by
  obtain ⟨body, u, hbody, hupload, hread, hpath, hsize⟩ := h a ha
  have hetag : uploads.etag a = u.metadata.etag := by
    rw [Uploads.etag, hupload, Option.map_some, Option.getD_some]
  rw [readObject]
  simp only [hread, hpath, hsize, artifactEntry, restoredArtifact, hetag, TenantBackupArchive.bodyOf, hbody,
    Option.getD_some, and_self, if_true]

/-- What was restored is exported as the archive that it was restored from. -/
theorem Restored.exported (h : Restored archive uploads restoredAt p) (hintact : archive.Intact)
    (hcanonical : archive.manifest.Canonical) {read : BlobReader} (hstored : ReadBack read uploads archive) :
    TenantExport read p archive.tenantId archive.manifest.createdAt archive := by
  have hsound := TenantBackupManifest.sound hintact.valid
  have hreproductions : reproductionRows p archive.tenantId =
      archive.manifest.reproductions.map (restoredRow archive.tenantId) := by
    rw [reproductionRows, h.durableSelect_restored]
    apply orderBy_self
    have hcolumns : (archive.manifest.reproductions.map (restoredRow archive.tenantId)).map reproductionColumns =
        archive.manifest.reproductions.map reproductionOrder := by
      rw [List.map_map]
      rfl
    exact (ordered_iff hcolumns).mpr hcanonical.reproductions
  have hevidence : evidenceRows p archive.tenantId =
      archive.manifest.evidence.map (evidenceEntry archive.tenantId) := by
    rw [evidenceRows, h.runEvidence]
    apply orderBy_self
    have hcolumns : (archive.manifest.evidence.map (evidenceEntry archive.tenantId)).map evidenceColumns =
        archive.manifest.evidence.map evidenceOrder := by
      rw [List.map_map]
      rfl
    exact (ordered_iff hcolumns).mpr hcanonical.evidence
  have hartifacts : artifactRows p archive.tenantId =
      archive.manifest.artifacts.map (artifactEntry uploads restoredAt archive.tenantId) := by
    rw [artifactRows, h.available]
    apply orderBy_self
    have hcolumns : (archive.manifest.artifacts.map (artifactEntry uploads restoredAt archive.tenantId)).map
        artifactColumns = archive.manifest.artifacts.map artifactOrder := by
      rw [List.map_map]
      rfl
    exact (ordered_iff hcolumns).mpr hcanonical.artifacts
  exact
    { tenant := by
        refine ⟨restoredTenant archive.manifest.tenant, ?_, rfl, ?_⟩
        · exact h.tenant
        · rw [backupTenant, restoredTenant, ← hcanonical.active]
      quiescent := h.quiescent_restored hsound
      reproductions := by
        rw [hreproductions]
        apply mapM_made
        intro r hr
        exact mapReproduction_restored (hsound.reproductions r hr).1 (hsound.reproductions r hr).2
          (hcanonical.unasked r hr)
      evidence := by
        rw [hevidence]
        apply mapM_made
        intro e he
        exact mapEvidence_restored (hsound.evidence e he).1 (hsound.evidence e he).2
      artifacts := by
        rw [hartifacts]
        apply mapM_made
        intro a ha
        exact mapArtifact_restored (hsound.artifacts a ha).1 (hsound.artifacts a ha).2
      version := hsound.version
      createdAt := rfl
      objects := by
        refine ⟨archive.objects.rows, ?_, ?_⟩
        · rw [hartifacts, hintact.rows, ← List.map_prod_right_eq_zip, List.mapM_map]
          apply mapM_of_pure
          intro a ha
          exact readObject_stored hstored ha
        · rw [hintact.bodies]
          exact hintact.sealed }

/-- A tenant that was exported, and restored where it was not, is exported as the same archive. -/
theorem restored_exports_again {read read' : BlobReader} {source : Platform ρ σ} {tenantId : String}
    {createdAt : Instant} (hexport : buildArchive read source tenantId createdAt = .ok archive)
    (href : Referenced p) (hstored : ReadBack read' uploads archive)
    (hrestore : restoreTransaction archive requestedBy uploads restoredAt p = (.ok true, p')) :
    buildArchive read' p' tenantId createdAt = .ok archive := by
  have hexported := buildArchive_exported hexport
  have hcreated := hexported.createdAt
  have htenant : archive.tenantId = tenantId := by
    obtain ⟨row, -, -, hrow⟩ := hexported.tenant
    rw [TenantBackupArchive.tenantId, hrow, backupTenant]
  subst hcreated htenant
  have hrestored := (restoreTransaction_true hrestore).restored href
  exact (hrestored.exported hexported.intact hexported.canonical hstored).buildArchive

end restored

end ReproForge
