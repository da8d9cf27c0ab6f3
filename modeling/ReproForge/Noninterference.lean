import ReproForge.AvailableArtifacts
import ReproForge.Lockstep
import ReproForge.TwoRuns

/-!
# Noninterference between tenants and callers

The rows and objects of one caller of one tenant are those that its idempotency
keys lead to. Two databases that agree on them answer the caller alike, however
they differ elsewhere, and what the caller does changes nothing elsewhere.
-/
namespace ReproForge

open KeyedTable Transactions Transactions.Tx

variable {ρ σ : Type}

/-! ## The rows of a caller -/

def TenantScope.owns (scope : TenantScope) (key : IdempotencyKey) : Bool :=
  key.tenantId == scope.tenantId && key.callerId == scope.callerId

/-- Some idempotency key of the caller leads to the case. -/
def LinkedCase (keys : Table IdempotencyKey IdempotencyRow) (scope : TenantScope) (caseId : String) : Prop :=
  ∃ key i, keys.get key = some i ∧ scope.owns key = true ∧ i.caseId = caseId

def LinkedJob (keys : Table IdempotencyKey IdempotencyRow) (scope : TenantScope) (jobId : String) : Prop :=
  ∃ key i, keys.get key = some i ∧ scope.owns key = true ∧ i.jobId = jobId

/-- No two keys of the caller lead to one case or to one job. -/
def Unambiguous (keys : Table IdempotencyKey IdempotencyRow) (scope : TenantScope) : Prop :=
  ∀ key i key' i', keys.get key = some i → keys.get key' = some i' → scope.owns key = true →
    scope.owns key' = true → i.caseId = i'.caseId ∨ i.jobId = i'.jobId → key = key'

/-- The ledger row was reserved for a job of the caller. -/
def LinkedQuota (keys : Table IdempotencyKey IdempotencyRow) (scope : TenantScope) (key : Key) (q : QuotaRow) : Prop :=
  key.tenantId = scope.tenantId ∧ ∃ jobId, q.jobId = some jobId ∧ LinkedJob keys scope jobId

def LinkedArtifact (keys : Table IdempotencyKey IdempotencyRow) (scope : TenantScope) (key : Key) (a : ArtifactRow) :
    Prop :=
  key.tenantId = scope.tenantId ∧ LinkedCase keys scope a.caseId

/-- The caller's rows are the same in both. `LIMIT 1` without an order may take any of the rows
that match; where several keys of the caller lead to one case or job, they lie in the same order. -/
structure Agree (scope : TenantScope) (db db' : Db ρ σ) : Prop where
  keys : ∀ key, scope.owns key = true → db.idempotencyKeys.get key = db'.idempotencyKeys.get key
  order : db.idempotencyKeys.select (fun key _ => scope.owns key) =
      db'.idempotencyKeys.select (fun key _ => scope.owns key) ∨ Unambiguous db.idempotencyKeys scope
  tenant : db.tenants.get scope.tenantId = db'.tenants.get scope.tenantId
  cases : ∀ caseId, LinkedCase db.idempotencyKeys scope caseId →
    db.cases.get ⟨scope.tenantId, caseId⟩ = db'.cases.get ⟨scope.tenantId, caseId⟩
  jobs : ∀ jobId, LinkedJob db.idempotencyKeys scope jobId →
    db.jobs.get ⟨scope.tenantId, jobId⟩ = db'.jobs.get ⟨scope.tenantId, jobId⟩
  quotas : ∀ key q, LinkedQuota db.idempotencyKeys scope key q →
    (db.quotaLedger.get key = some q ↔ db'.quotaLedger.get key = some q)
  artifacts : ∀ key a, LinkedArtifact db.idempotencyKeys scope key a →
    (db.artifacts.get key = some a ↔ db'.artifacts.get key = some a)

/-- Only rows of the caller differ between the two databases. -/
structure OwnRows (scope : TenantScope) (db db' : Db ρ σ) : Prop where
  rest : db' = { db with
    cases := db'.cases
    jobs := db'.jobs
    quotaLedger := db'.quotaLedger
    artifacts := db'.artifacts }
  cases : ∀ key, ¬ (key.tenantId = scope.tenantId ∧ LinkedCase db.idempotencyKeys scope key.id) →
    db'.cases.get key = db.cases.get key
  jobs : ∀ key, ¬ (key.tenantId = scope.tenantId ∧ LinkedJob db.idempotencyKeys scope key.id) →
    db'.jobs.get key = db.jobs.get key
  quotas : ∀ key, (∀ q, db.quotaLedger.get key = some q → ¬ LinkedQuota db.idempotencyKeys scope key q) →
    db'.quotaLedger.get key = db.quotaLedger.get key
  artifacts : ∀ key, (∀ a, db.artifacts.get key = some a → ¬ LinkedArtifact db.idempotencyKeys scope key a) →
    db'.artifacts.get key = db.artifacts.get key

namespace OwnRows

variable {scope : TenantScope} {s t u : Db ρ σ}

theorem refl (scope : TenantScope) (db : Db ρ σ) : OwnRows scope db db :=
  ⟨rfl, fun _ _ => rfl, fun _ _ => rfl, fun _ _ => rfl, fun _ _ => rfl⟩

theorem idempotencyKeys (h : OwnRows scope s t) : t.idempotencyKeys = s.idempotencyKeys := by
  rw [h.rest]

theorem trans (hst : OwnRows scope s t) (htu : OwnRows scope t u) : OwnRows scope s u := by
  have hkeys := hst.idempotencyKeys
  constructor
  case rest =>
    rw [htu.rest, hst.rest]
  case cases => exact fun key hk => (htu.cases key (hkeys ▸ hk)).trans (hst.cases key hk)
  case jobs => exact fun key hk => (htu.jobs key (hkeys ▸ hk)).trans (hst.jobs key hk)
  case quotas =>
    intro key hk
    have hold := hst.quotas key hk
    exact (htu.quotas key (by rw [hkeys, hold]; exact hk)).trans hold
  case artifacts =>
    intro key hk
    have hold := hst.artifacts key hk
    exact (htu.artifacts key (by rw [hkeys, hold]; exact hk)).trans hold

end OwnRows

/-- Two runs that began in `start` and `start'`. -/
structure Twins (scope : TenantScope) (start start' db db' : Db ρ σ) : Prop where
  agree : Agree scope db db'
  left : OwnRows scope start db
  right : OwnRows scope start' db'

theorem Twins.refl {scope : TenantScope} {db db' : Db ρ σ} (h : Agree scope db db') :
    Twins scope db db' db db' :=
  ⟨h, .refl scope db, .refl scope db'⟩

section agree

variable {scope : TenantScope} {db db' : Db ρ σ}

/-- Whatever a key of the caller leads to, it leads to in both. -/
theorem Agree.linked (h : Agree scope db db') (leads : IdempotencyRow → Prop) :
    (∃ key i, db.idempotencyKeys.get key = some i ∧ scope.owns key = true ∧ leads i) ↔
      ∃ key i, db'.idempotencyKeys.get key = some i ∧ scope.owns key = true ∧ leads i := by
  constructor
  · rintro ⟨key, i, hi, howns, he⟩
    exact ⟨key, i, (h.keys key howns).symm.trans hi, howns, he⟩
  · rintro ⟨key, i, hi, howns, he⟩
    exact ⟨key, i, (h.keys key howns).trans hi, howns, he⟩

theorem Agree.linkedCase (h : Agree scope db db') {caseId : String} :
    LinkedCase db.idempotencyKeys scope caseId ↔ LinkedCase db'.idempotencyKeys scope caseId :=
  h.linked (fun i => i.caseId = caseId)

theorem Agree.linkedJob (h : Agree scope db db') {jobId : String} :
    LinkedJob db.idempotencyKeys scope jobId ↔ LinkedJob db'.idempotencyKeys scope jobId :=
  h.linked (fun i => i.jobId = jobId)

theorem Agree.symm (h : Agree scope db db') : Agree scope db' db where
  keys := fun key howns => (h.keys key howns).symm
  order := by
    rcases h.order with hsame | hone
    · exact .inl hsame.symm
    · refine .inr ?_
      intro key i key' i' hi hi' howns howns'
      exact hone key i key' i' ((h.keys key howns).trans hi) ((h.keys key' howns').trans hi') howns howns'
  tenant := h.tenant.symm
  cases := fun caseId hlinked => (h.cases caseId (h.linkedCase.mpr hlinked)).symm
  jobs := fun jobId hlinked => (h.jobs jobId (h.linkedJob.mpr hlinked)).symm
  quotas := fun key q hlinked => (h.quotas key q
    ⟨hlinked.1, hlinked.2.imp fun _ hj => ⟨hj.1, h.linkedJob.mpr hj.2⟩⟩).symm
  artifacts := fun key a hlinked => (h.artifacts key a ⟨hlinked.1, h.linkedCase.mpr hlinked.2⟩).symm

end agree

/-! ## Lookups -/

/-- A search that only kept elements can end passes over the others. -/
theorem find?_filterMap_filter {α β : Type} {f : α → Option β} {p : β → Bool} {q : α → Bool}
    (h : ∀ a b, f a = some b → p b = true → q a = true) (items : List α) :
    (items.filterMap f).find? p = ((items.filter q).filterMap f).find? p := by
  induction items with
  | nil => rfl
  | cons a rest ih =>
    cases hf : f a with
    | none => by_cases hq : q a = true <;> simp [hf, hq, ih]
    | some b =>
      by_cases hq : q a = true
      · simp [hf, hq, List.find?_cons, ih]
      · have hp : p b = false := by
          by_contra hp
          exact hq (h a b hf (by simpa using hp))
        simp [hf, hq, hp, ih]

section lookups

variable {scope : TenantScope} {db db' : Db ρ σ}

theorem Agree.joinRow (h : Agree scope db db') {entry : IdempotencyKey × IdempotencyRow}
    (hentry : db.idempotencyKeys.get entry.1 = some entry.2) (howns : scope.owns entry.1 = true) :
    joinRow db entry = joinRow db' entry := by
  have htenant : entry.1.tenantId = scope.tenantId := by
    simp only [TenantScope.owns, Bool.and_eq_true, beq_iff_eq] at howns
    exact howns.1
  have hcase := h.cases entry.2.caseId ⟨_, _, hentry, howns, rfl⟩
  have hjob := h.jobs entry.2.jobId ⟨_, _, hentry, howns, rfl⟩
  rw [ReproForge.joinRow, ReproForge.joinRow, htenant, hcase, hjob]

theorem Agree.joined (h : Agree scope db db') {row : DurableRow ρ σ} (howns : scope.owns row.key = true)
    (hrow : Joined db row) : Joined db' row := by
  have htenant : row.key.tenantId = scope.tenantId := by
    simp only [TenantScope.owns, Bool.and_eq_true, beq_iff_eq] at howns
    exact howns.1
  have hcase := h.cases row.idempotency.caseId ⟨_, _, hrow.idempotency, howns, rfl⟩
  have hjob := h.jobs row.idempotency.jobId ⟨_, _, hrow.idempotency, howns, rfl⟩
  refine ⟨(h.keys _ howns).symm.trans hrow.idempotency, ?_, ?_, hrow.caseId⟩
  · have hold := hrow.case
    rw [DurableRow.caseKey, htenant] at hold ⊢
    exact hcase.symm.trans hold
  · have hold := hrow.job
    rw [DurableRow.jobKey, htenant] at hold ⊢
    exact hjob.symm.trans hold

/-- A condition that at most one row of a caller with unambiguous keys meets. -/
def Selective (scope : TenantScope) (condition : DurableRow ρ σ → Bool) : Prop :=
  (∀ row, condition row = true → scope.owns row.key = true) ∧
    ∀ row row', condition row = true → condition row' = true →
      row.key = row'.key ∨ row.idempotency.caseId = row'.idempotency.caseId ∨
        row.idempotency.jobId = row'.idempotency.jobId

theorem Agree.find? (h : Agree scope db db') {condition : DurableRow ρ σ → Bool} (hcond : Selective scope condition) :
    (durableSelect db).find? condition = (durableSelect db').find? condition := by
  rcases h.order with hsame | hone
  · have howned : ∀ (db : Db ρ σ) entry row, ReproForge.joinRow db entry = some row → condition row = true →
        scope.owns entry.1 = true := by
      intro db entry row hrow hc
      simp only [ReproForge.joinRow] at hrow
      split at hrow
      · split at hrow
        · cases hrow
          exact hcond.1 _ hc
        · cases hrow
      · cases hrow
    rw [durableSelect, durableSelect, find?_filterMap_filter (howned db), find?_filterMap_filter (howned db')]
    simp only [Table.select] at hsame
    rw [← hsame]
    congr 1
    refine List.filterMap_congr ?_
    intro entry hentry
    obtain ⟨hmem, howns⟩ := List.mem_filter.mp hentry
    exact h.joinRow (Table.get_eq_some.mpr hmem) howns
  · -- at most one row matches, and it is in both
    have hunique : ∀ row row', Joined db row → condition row = true → Joined db row' → condition row' = true →
        row = row' := by
      intro row row' hrow hc hrow' hc'
      have hkey : row.key = row'.key := by
        rcases hcond.2 row row' hc hc' with he | he
        · exact he
        · exact hone _ _ _ _ hrow.idempotency hrow'.idempotency (hcond.1 row hc) (hcond.1 row' hc') he
      have hi : row.idempotency = row'.idempotency :=
        Option.some.inj (hrow.idempotency.symm.trans (hkey ▸ hrow'.idempotency))
      have hcase : row.case = row'.case := by
        have hold := hrow.case
        rw [DurableRow.caseKey, hkey, hi] at hold
        exact Option.some.inj (hold.symm.trans hrow'.case)
      have hjob : row.job = row'.job := by
        have hold := hrow.job
        rw [DurableRow.jobKey, hkey, hi] at hold
        exact Option.some.inj (hold.symm.trans hrow'.job)
      cases row
      cases row'
      simp_all
    cases hf : (durableSelect db).find? condition with
    | none =>
      refine (List.find?_eq_none.mpr ?_).symm
      intro row' hrow' hc'
      have hold := h.symm.joined (hcond.1 row' hc') (mem_durableSelect.mp hrow')
      exact List.find?_eq_none.mp hf row' (mem_durableSelect.mpr hold) hc'
    | some row =>
      have hc := List.find?_some hf
      have hrow := mem_durableSelect.mp (List.mem_of_find?_eq_some hf)
      have hmem := mem_durableSelect.mpr (h.joined (hcond.1 row hc) hrow)
      cases hf' : (durableSelect db').find? condition with
      | none => exact absurd hc (List.find?_eq_none.mp hf' row hmem)
      | some row' =>
        have hc' := List.find?_some hf'
        have hrow' := h.symm.joined (hcond.1 row' hc') (mem_durableSelect.mp (List.mem_of_find?_eq_some hf'))
        rw [hunique row row' hrow hc hrow' hc']

end lookups

/-! ## Statements -/

section statements

variable {scope : TenantScope} {start start' db db' : Db ρ σ}

/-- An update of one row that both runs see. -/
theorem alike_updateRow {κ τ : Type} [DecidableEq κ] {R : Db ρ σ → Db ρ σ → Prop} {rows : Db ρ σ → Table κ τ}
    {store : Table κ τ → Db ρ σ → Db ρ σ} {allowed : κ → τ → τ → Bool} {key : κ} {condition : τ → Bool}
    {assign : τ → τ} (hrow : (rows db).get key = (rows db').get key) (hR : R db db')
    (hset : ∀ row, (rows db).get key = some row →
      R (store ((rows db).set key (assign row)) db) (store ((rows db').set key (assign row)) db')) :
    Alike R (fun result => ∀ row', result = some row' → ∃ row, (rows db).get key = some row ∧ row' = assign row)
      (updateRow rows store allowed key condition assign) (updateRow rows store allowed key condition assign)
      db db' := by
  unfold updateRow
  cases hget : (rows db).get key with
  | none =>
    refine ⟨.ok none, db, db', by simp only [hget], by simp only [← hrow, hget], hR, ?_⟩
    intro result hresult row' he
    cases hresult
    cases he
  | some row =>
    by_cases hcond : condition row = true
    · by_cases hallowed : allowed key row (assign row) = true
      · refine ⟨.ok (some (assign row)), _, _, by simp only [hget, hcond, hallowed, if_true],
          by simp only [← hrow, hget, hcond, hallowed, if_true], hset row hget, ?_⟩
        intro result hresult row' he
        cases hresult
        cases he
        exact ⟨row, rfl, rfl⟩
      · refine ⟨.error .constraint, db, db', by simp [hget, hcond, hallowed],
          by simp [← hrow, hget, hcond, hallowed], hR, ?_⟩
        intro result hresult
        cases hresult
    · refine ⟨.ok none, db, db', by simp [hget, hcond], by simp [← hrow, hget, hcond], hR, ?_⟩
      intro result hresult row' he
      cases hresult
      cases he

theorem get_set_congr {κ τ : Type} [DecidableEq κ] {t t' : Table κ τ} {key k : κ} {row : τ}
    (h : t.get key = t'.get key) (hk : t.get k = t'.get k) : (t.set key row).get k = (t'.set key row).get k := by
  rw [Table.get_set, Table.get_set, h, hk]

theorem twins_setJob (h : Twins scope start start' db db') {jobId : String}
    (hlinked : LinkedJob db.idempotencyKeys scope jobId) (j : JobRow) :
    Twins scope start start' { db with jobs := db.jobs.set ⟨scope.tenantId, jobId⟩ j }
      { db' with jobs := db'.jobs.set ⟨scope.tenantId, jobId⟩ j } := by
  have hconfined : ∀ db : Db ρ σ, LinkedJob db.idempotencyKeys scope jobId →
      OwnRows scope db { db with jobs := db.jobs.set ⟨scope.tenantId, jobId⟩ j } := by
    intro db hlinked
    refine ⟨rfl, fun _ _ => rfl, ?_, fun _ _ => rfl, fun _ _ => rfl⟩
    intro key hk
    refine Table.get_set_other _ _ ?_
    rintro rfl
    exact hk ⟨rfl, hlinked⟩
  refine ⟨?_, h.left.trans (hconfined db hlinked), h.right.trans (hconfined db' (h.agree.linkedJob.mp hlinked))⟩
  exact { h.agree with
    jobs := fun id hid => get_set_congr (h.agree.jobs jobId hlinked) (h.agree.jobs id hid) }

theorem twins_setCase (h : Twins scope start start' db db') {caseId : String}
    (hlinked : LinkedCase db.idempotencyKeys scope caseId) (c : CaseRow ρ σ) :
    Twins scope start start' { db with cases := db.cases.set ⟨scope.tenantId, caseId⟩ c }
      { db' with cases := db'.cases.set ⟨scope.tenantId, caseId⟩ c } := by
  have hconfined : ∀ db : Db ρ σ, LinkedCase db.idempotencyKeys scope caseId →
      OwnRows scope db { db with cases := db.cases.set ⟨scope.tenantId, caseId⟩ c } := by
    intro db hlinked
    refine ⟨rfl, ?_, fun _ _ => rfl, fun _ _ => rfl, fun _ _ => rfl⟩
    intro key hk
    refine Table.get_set_other _ _ ?_
    rintro rfl
    exact hk ⟨rfl, hlinked⟩
  refine ⟨?_, h.left.trans (hconfined db hlinked), h.right.trans (hconfined db' (h.agree.linkedCase.mp hlinked))⟩
  exact { h.agree with
    cases := fun id hid => get_set_congr (h.agree.cases caseId hlinked) (h.agree.cases id hid) }

/-- The idempotency keys of a run stay those that it began with. -/
theorem Twins.keys (h : Twins scope start start' db db') : db.idempotencyKeys = start.idempotencyKeys :=
  h.left.idempotencyKeys

theorem alike_updateJob (h : Twins scope start start' db db') {jobId : String}
    (hlinked : LinkedJob start.idempotencyKeys scope jobId) (condition : JobRow → Bool) (assign : JobRow → JobRow) :
    Alike (Twins scope start start') (fun _ => True) (updateJob ⟨scope.tenantId, jobId⟩ condition assign)
      (updateJob ⟨scope.tenantId, jobId⟩ condition assign) db db' := by
  rw [← h.keys] at hlinked
  refine (alike_updateRow (h.agree.jobs jobId hlinked) h ?_).weaken fun _ _ => trivial
  exact fun row _ => twins_setJob h hlinked (assign row)

theorem alike_updateCase (h : Twins scope start start' db db') {caseId : String}
    (hlinked : LinkedCase start.idempotencyKeys scope caseId) (condition : CaseRow ρ σ → Bool)
    (assign : CaseRow ρ σ → CaseRow ρ σ) :
    Alike (Twins scope start start') (fun _ => True) (updateCase ⟨scope.tenantId, caseId⟩ condition assign)
      (updateCase ⟨scope.tenantId, caseId⟩ condition assign) db db' := by
  rw [← h.keys] at hlinked
  refine (alike_updateRow (h.agree.cases caseId hlinked) h ?_).weaken fun _ _ => trivial
  exact fun row _ => twins_setCase h hlinked (assign row)

theorem alike_saveJob (h : Twins scope start start' db db') {jobId : String}
    (hlinked : LinkedJob start.idempotencyKeys scope jobId) (condition : JobRow → Bool) (assign : JobRow → JobRow)
    (expected : Nat) (e : DurableError) :
    Alike (Twins scope start start') (fun _ => True)
      (saveJob ⟨scope.tenantId, jobId⟩ condition assign expected e)
      (saveJob ⟨scope.tenantId, jobId⟩ condition assign expected e) db db' := by
  refine alike_bind (alike_updateJob h hlinked condition assign) fun saved t t' ht _ => ?_
  refine alike_bind (alike_demand ht _ _) fun version u u' hu _ => ?_
  exact (alike_require hu _ _).weaken fun _ _ => trivial

theorem alike_saveCase (h : Twins scope start start' db db') {caseId : String}
    (hlinked : LinkedCase start.idempotencyKeys scope caseId) (condition : CaseRow ρ σ → Bool)
    (assign : CaseRow ρ σ → CaseRow ρ σ) (expected : Nat) (e : DurableError) :
    Alike (Twins scope start start') (fun _ => True)
      (saveCase ⟨scope.tenantId, caseId⟩ condition assign expected e)
      (saveCase ⟨scope.tenantId, caseId⟩ condition assign expected e) db db' := by
  refine alike_bind (alike_updateCase h hlinked condition assign) fun saved t t' ht _ => ?_
  refine alike_bind (alike_demand ht _ _) fun version u u' hu _ => ?_
  exact (alike_require hu _ _).weaken fun _ _ => trivial

theorem linkedQuota_of_active {keys : Table IdempotencyKey IdempotencyRow} {jobId : String}
    (hlinked : LinkedJob keys scope jobId) {key : Key} {q : QuotaRow}
    (hq : activeJobReservation scope.tenantId jobId key q = true) : LinkedQuota keys scope key q := by
  simp only [activeJobReservation, Bool.and_eq_true, beq_iff_eq] at hq
  exact ⟨hq.1.1.1, jobId, hq.1.1.2, hlinked⟩

theorem confined_releasedQuotas {jobId : String} (hlinked : LinkedJob db.idempotencyKeys scope jobId)
    (at' : Instant) :
    OwnRows scope db { db with quotaLedger := releasedQuotas scope.tenantId jobId at' db.quotaLedger } := by
  refine ⟨rfl, fun _ _ => rfl, fun _ _ => rfl, ?_, fun _ _ => rfl⟩
  intro key hk
  simp only [releasedQuotas, Table.get_update]
  cases hq : db.quotaLedger.get key with
  | none => rfl
  | some q =>
    have hnot : ¬ activeJobReservation scope.tenantId jobId key q = true :=
      fun hactive => hk q hq (linkedQuota_of_active hlinked hactive)
    simp [hnot]

/-- A row after the release comes from a row of the same job before it. -/
theorem released_transfer (h : Agree scope db db') {jobId : String} {at' : Instant} {key : Key} {q : QuotaRow}
    (hlinked : LinkedQuota db.idempotencyKeys scope key q)
    (hq : (releasedQuotas scope.tenantId jobId at' db.quotaLedger).get key = some q) :
    (releasedQuotas scope.tenantId jobId at' db'.quotaLedger).get key = some q := by
  rw [releasedQuotas, Table.get_update] at hq ⊢
  obtain ⟨old, hold, he⟩ := Option.map_eq_some_iff.mp hq
  have hjob : old.jobId = q.jobId := by
    rw [← he]
    split <;> rfl
  rw [(h.quotas key old ⟨hlinked.1, by rw [hjob]; exact hlinked.2⟩).mp hold]
  exact congrArg some he

/-- The ledger rows that a release selects are the caller's, before and after it. -/
theorem alike_releaseActiveJobQuota (h : Twins scope start start' db db') {jobId : String}
    (hlinked : LinkedJob start.idempotencyKeys scope jobId) (at' : Instant) :
    Alike (Twins scope start start') (fun _ => True) (releaseActiveJobQuota scope.tenantId jobId at')
      (releaseActiveJobQuota scope.tenantId jobId at') db db' := by
  rw [← h.keys] at hlinked
  have hlinked' := h.agree.linkedJob.mp hlinked
  have hall : ∀ db : Db ρ σ, ((db.quotaLedger.select (activeJobReservation scope.tenantId jobId)).all
      (fun row => (row.2.released at').checks row.1) = true) ↔ ∀ key q, db.quotaLedger.get key = some q →
        activeJobReservation scope.tenantId jobId key q = true → (q.released at').checks key = true := by
    intro db
    rw [List.all_eq_true]
    constructor
    · exact fun hr key q hq hc => hr (key, q) (Table.mem_select.mpr ⟨hq, hc⟩)
    · rintro hr ⟨key, q⟩ hmem
      obtain ⟨hq, hc⟩ := Table.mem_select.mp hmem
      exact hr key q hq hc
  have hsame : (db.quotaLedger.select (activeJobReservation scope.tenantId jobId)).all
      (fun row => (row.2.released at').checks row.1) =
      (db'.quotaLedger.select (activeJobReservation scope.tenantId jobId)).all
        (fun row => (row.2.released at').checks row.1) := by
    rw [Bool.eq_iff_iff, hall, hall]
    constructor
    · exact fun hr key q hq hc => hr key q ((h.agree.quotas key q (linkedQuota_of_active hlinked hc)).mpr hq) hc
    · exact fun hr key q hq hc => hr key q ((h.agree.quotas key q (linkedQuota_of_active hlinked hc)).mp hq) hc
  unfold releaseActiveJobQuota updateQuotas
  cases hchecks : (db.quotaLedger.select (activeJobReservation scope.tenantId jobId)).all
      (fun row => (row.2.released at').checks row.1) with
  | false =>
    refine ⟨.error .constraint, db, db', by simp only [hchecks, Bool.false_eq_true, if_false],
      by simp only [← hsame, hchecks, Bool.false_eq_true, if_false], h, ?_⟩
    intro _ he
    cases he
  | true =>
    refine ⟨.ok (), { db with quotaLedger := releasedQuotas scope.tenantId jobId at' db.quotaLedger },
      { db' with quotaLedger := releasedQuotas scope.tenantId jobId at' db'.quotaLedger },
      by simp only [hchecks, if_true]; rfl, by simp only [← hsame, hchecks, if_true]; rfl, ?_,
      fun _ _ => trivial⟩
    refine ⟨?_, h.left.trans (confined_releasedQuotas hlinked at'), h.right.trans (confined_releasedQuotas hlinked' at')⟩
    exact { h.agree with
      quotas := fun key q hq => ⟨released_transfer h.agree hq, released_transfer h.agree.symm
        ⟨hq.1, hq.2.imp fun _ hj => ⟨hj.1, h.agree.linkedJob.mp hj.2⟩⟩⟩ }

variable [ResultDocument ρ] [RequestDocument σ]

theorem alike_find (h : Twins scope start start' db db') {condition : DurableRow ρ σ → Bool}
    (hcond : Selective scope condition) :
    Alike (Twins scope start start')
      (fun found => ∀ record, found = some record → ∃ row, Joined db row ∧ condition row = true ∧
        rowToRecord row = some record) (find condition) (find condition) db db' := by
  have hsame := h.agree.find? hcond
  refine ⟨(find condition db).1, db, db', ?_, ?_, h, ?_⟩
  · exact Prod.ext rfl (find_db condition db)
  · refine Prod.ext ?_ (find_db condition db')
    simp only [find, ← hsame]
    split
    · rfl
    · split <;> rfl
  · intro found hfound record he
    subst he
    have hreply : find condition db = (.ok (some record), db) := Prod.ext hfound (find_db condition db)
    exact (find_some hreply).2

/-! ## The operations -/

omit [ResultDocument ρ] [RequestDocument σ] in
theorem selective_caseId (scope : TenantScope) (caseId : String) :
    Selective scope (fun row : DurableRow ρ σ => row.key.tenantId == scope.tenantId &&
      row.key.callerId == scope.callerId && row.caseKey.id == caseId) := by
  constructor
  · intro row hrow
    simp only [Bool.and_eq_true] at hrow
    simp only [TenantScope.owns, Bool.and_eq_true]
    exact hrow.1
  · intro row row' hrow hrow'
    simp only [Bool.and_eq_true, beq_iff_eq, DurableRow.caseKey] at hrow hrow'
    exact .inr (.inl (hrow.2.trans hrow'.2.symm))

omit [ResultDocument ρ] [RequestDocument σ] in
theorem selective_idempotencyKey (scope : TenantScope) (idempotencyKey : String) :
    Selective scope (fun row : DurableRow ρ σ => row.key.tenantId == scope.tenantId &&
      row.key.callerId == scope.callerId && row.key.idempotencyKey == idempotencyKey) := by
  constructor
  · intro row hrow
    simp only [Bool.and_eq_true] at hrow
    simp only [TenantScope.owns, Bool.and_eq_true]
    exact hrow.1
  · intro row row' hrow hrow'
    simp only [Bool.and_eq_true, beq_iff_eq] at hrow hrow'
    obtain ⟨⟨htenant, hcaller⟩, hkey⟩ := hrow
    obtain ⟨⟨htenant', hcaller'⟩, hkey'⟩ := hrow'
    left
    cases hk : row.key
    cases hk' : row'.key
    simp_all

omit [ResultDocument ρ] [RequestDocument σ] in
theorem selective_jobId (scope : TenantScope) (jobId : String) :
    Selective scope (fun row : DurableRow ρ σ => row.key.tenantId == scope.tenantId &&
      row.key.callerId == scope.callerId && row.jobKey.id == jobId) := by
  constructor
  · intro row hrow
    simp only [Bool.and_eq_true] at hrow
    simp only [TenantScope.owns, Bool.and_eq_true]
    exact hrow.1
  · intro row row' hrow hrow'
    simp only [Bool.and_eq_true, beq_iff_eq, DurableRow.jobKey] at hrow hrow'
    exact .inr (.inr (hrow.2.trans hrow'.2.symm))

theorem alike_findByCaseId (h : Twins scope start start' db db') (caseId : String) :
    Alike (Twins scope start start') (fun _ => True)
      (findByCaseId scope caseId : Statement ρ σ (Option (DurableReproductionRecord ρ σ)))
      (findByCaseId scope caseId) db db' := by
  refine alike_bind (alike_require h _ _) fun _ t t' ht _ => ?_
  exact (alike_find ht (selective_caseId scope caseId)).weaken fun _ _ => trivial

theorem alike_findByIdempotencyKey (h : Twins scope start start' db db') (idempotencyKey : String) :
    Alike (Twins scope start start') (fun _ => True)
      (findByIdempotencyKey scope idempotencyKey : Statement ρ σ (Option (DurableReproductionRecord ρ σ)))
      (findByIdempotencyKey scope idempotencyKey) db db' := by
  refine alike_bind (alike_require h _ _) fun _ t t' ht _ => ?_
  exact (alike_find ht (selective_idempotencyKey scope idempotencyKey)).weaken fun _ _ => trivial

/-- The record of a job of the caller is of a case of the caller. -/
theorem alike_findByJobId (h : Twins scope start start' db db') (jobId : String) :
    Alike (Twins scope start start')
      (fun found => ∀ record, found = some record → LinkedCase start.idempotencyKeys scope record.caseId)
      (findByJobId scope jobId : Statement ρ σ (Option (DurableReproductionRecord ρ σ)))
      (findByJobId scope jobId) db db' := by
  refine alike_bind (alike_require h _ _) fun _ t t' ht _ => ?_
  refine (alike_find ht (selective_jobId scope jobId)).weaken ?_
  intro found hfound record he
  obtain ⟨row, hrow, hcond, hrecord⟩ := hfound record he
  have howns := (selective_jobId scope jobId).1 row hcond
  rw [(rowToRecord_caseId hrecord).1]
  exact ⟨row.key, row.idempotency, ht.keys ▸ hrow.idempotency, howns, rfl⟩

omit [ResultDocument ρ] [RequestDocument σ] in
theorem alike_requestRunningCancellation (h : Twins scope start start' db db') {jobId : String}
    (hjob : LinkedJob start.idempotencyKeys scope jobId) {record : DurableReproductionRecord ρ σ}
    (hcase : LinkedCase start.idempotencyKeys scope record.caseId) (at' : Instant) :
    Alike (Twins scope start start') (fun _ => True) (requestRunningCancellation scope jobId record at')
      (requestRunningCancellation scope jobId record at') db db' := by
  refine alike_bind (alike_saveJob h hjob _ _ _ _) fun _ t t' ht _ => ?_
  refine alike_bind (alike_saveCase ht hcase _ _ _ _) fun _ u u' hu _ => ?_
  exact alike_pure hu trivial

omit [ResultDocument ρ] [RequestDocument σ] in
theorem alike_cancelQueuedJob (h : Twins scope start start' db db') {jobId : String}
    (hjob : LinkedJob start.idempotencyKeys scope jobId) {record : DurableReproductionRecord ρ σ}
    (hcase : LinkedCase start.idempotencyKeys scope record.caseId) (at' : Instant) :
    Alike (Twins scope start start') (fun _ => True) (cancelQueuedJob scope jobId record at')
      (cancelQueuedJob scope jobId record at') db db' := by
  refine alike_bind (alike_demand h _ _) fun cancelled t t' ht _ => ?_
  refine alike_bind (alike_saveCase ht hcase _ _ _ _) fun _ u u' hu _ => ?_
  refine alike_bind (alike_saveJob hu hjob _ _ _ _) fun _ v v' hv _ => ?_
  refine alike_bind (alike_releaseActiveJobQuota hv hjob at') fun _ w w' hw _ => ?_
  exact alike_pure hw trivial

theorem alike_cancelActiveJob (h : Twins scope start start' db db') {jobId : String}
    (hjob : LinkedJob start.idempotencyKeys scope jobId) (selected : JobRow) (at' : Instant) :
    Alike (Twins scope start start') (fun _ => True)
      (cancelActiveJob scope jobId selected at' : Statement ρ σ (Option CancellationRequestResult))
      (cancelActiveJob scope jobId selected at') db db' := by
  refine alike_bind (alike_findByJobId h jobId) fun found t t' ht hfound => ?_
  refine alike_bind (alike_demand ht _ _) fun record u u' hu hrecord => ?_
  refine alike_bind (alike_demand hu _ _) fun version v v' hv _ => ?_
  refine alike_bind (alike_require hv _ _) fun _ w w' hw _ => ?_
  refine alike_bind (alike_require hw _ _) fun _ x x' hx _ => ?_
  split
  · exact alike_requestRunningCancellation hx hjob (hfound record hrecord) at'
  · exact alike_cancelQueuedJob hx hjob (hfound record hrecord) at'

omit [ResultDocument ρ] [RequestDocument σ] in
theorem callerOwnsJob_iff {jobId : String} :
    callerOwnsJob db scope jobId = true ↔ LinkedJob db.idempotencyKeys scope jobId := by
  rw [callerOwnsJob, Table.find?_isSome_iff, LinkedJob]
  simp only [TenantScope.owns, Bool.and_eq_true, beq_iff_eq, and_assoc]

omit [ResultDocument ρ] [RequestDocument σ] in
theorem Agree.selectForCancellation (h : Agree scope db db') (jobId : String) :
    selectForCancellation db scope jobId = selectForCancellation db' scope jobId := by
  have howned : callerOwnsJob db scope jobId = callerOwnsJob db' scope jobId := by
    rw [Bool.eq_iff_iff, callerOwnsJob_iff, callerOwnsJob_iff]
    exact h.linkedJob
  cases hmine : callerOwnsJob db scope jobId with
  | true =>
    rw [ReproForge.selectForCancellation, ReproForge.selectForCancellation, ← howned,
      h.jobs jobId (callerOwnsJob_iff.mp hmine)]
  | false =>
    have hnone : ∀ o : Option JobRow, o.filter (fun _ => false) = none := by
      intro o
      cases o <;> rfl
    rw [ReproForge.selectForCancellation, ReproForge.selectForCancellation, ← howned, hmine, hnone, hnone]

theorem alike_requestCancellation (h : Twins scope start start' db db') (jobId : String) (at' : Instant) :
    Alike (Twins scope start start') (fun _ => True)
      (requestCancellation scope jobId at' : Statement ρ σ (Option CancellationRequestResult))
      (requestCancellation scope jobId at') db db' := by
  refine alike_bind (alike_require h _ _) fun _ t t' ht _ => ?_
  refine alike_bind (alike_require ht _ _) fun _ u u' hu _ => alike_read ?_
  rw [← hu.agree.selectForCancellation jobId]
  cases hsel : selectForCancellation u scope jobId with
  | none => exact alike_pure hu trivial
  | some selected =>
    have hjob : LinkedJob start.idempotencyKeys scope jobId := by
      rw [← hu.keys, ← callerOwnsJob_iff]
      exact (Option.filter_eq_some_iff.mp hsel).2
    dsimp only
    split
    · exact alike_pure hu trivial
    · split
      · exact alike_pure hu trivial
      · exact alike_cancelActiveJob hu hjob selected at'
    · exact alike_cancelActiveJob hu hjob selected at'
    · exact alike_pure hu trivial
    · exact alike_pure hu trivial

end statements

/-! ## Calls -/

section calls

variable {R : Db ρ σ → Db ρ σ → Prop} {α : Type} {P : α → Prop} {db db' : Db ρ σ}

/-- The fate of an attempt is decided outside of the two databases. -/
theorem alike_transaction {x : Statement ρ σ α} (hR : R db db') (h : Alike R P x x db db') (attempt : Attempt) :
    Alike R P (attempt.transaction x) (attempt.transaction x) db db' := by
  obtain ⟨reply, t, t', hx, hy, hRt, hP⟩ := alike_atomically hR h
  cases attempt with
  | runs => exact ⟨reply, t, t', hx, hy, hRt, hP⟩
  | serializationFailure => exact ⟨.error .serialization, db, db', rfl, rfl, hR, fun _ he => by cases he⟩
  | failsBefore => exact ⟨.error .connection, db, db', rfl, rfl, hR, fun _ he => by cases he⟩
  | failsAfter =>
    cases reply with
    | ok a =>
      exact ⟨.error .connection, t, t', by simp only [Attempt.transaction, hx],
        by simp only [Attempt.transaction, hy], hRt, fun _ he => by cases he⟩
    | error e =>
      exact ⟨.error e, t, t', by simp only [Attempt.transaction, hx], by simp only [Attempt.transaction, hy], hRt,
        fun _ he => by cases he⟩

theorem alike_runSerializableTransaction {x : Statement ρ σ α} (h : ∀ s s', R s s' → Alike R P x x s s')
    (hR : R db db') (maxAttempts : Nat) (attempts : List Attempt) :
    Alike R P (runSerializableTransaction maxAttempts attempts x)
      (runSerializableTransaction maxAttempts attempts x) db db' := by
  induction maxAttempts generalizing attempts db db' with
  | zero => exact ⟨.error .serialization, db, db', rfl, rfl, hR, fun _ he => by cases he⟩
  | succ n ih =>
    obtain ⟨reply, t, t', hx, hy, hRt, hP⟩ := alike_transaction hR (h db db' hR) (attempts.headD .runs)
    cases reply with
    | ok a =>
      exact ⟨.ok a, t, t', by simp only [runSerializableTransaction, hx],
        by simp only [runSerializableTransaction, hy], hRt, hP⟩
    | error e =>
      by_cases hlast : (n == 0 || !isRetryableTransactionError e) = true
      · exact ⟨.error e, t, t', by simp only [runSerializableTransaction, hx, hlast, if_true],
          by simp only [runSerializableTransaction, hy, hlast, if_true], hRt, fun _ he => by cases he⟩
      · obtain ⟨reply', u, u', hu, hu', hRu, hP'⟩ := ih hRt attempts.tail
        refine ⟨reply', u, u', ?_, ?_, hRu, hP'⟩
        · simp only [runSerializableTransaction, hx, hlast]
          exact hu
        · simp only [runSerializableTransaction, hy, hlast]
          exact hu'

end calls

/-! ## Artifacts and their objects -/

/-- What no status change of an artifact moves. -/
def ArtifactRow.place (a : ArtifactRow) : String × String := (a.caseId, a.objectKey)

def SamePlaces (start db : Db ρ σ) : Prop :=
  ∀ key, (db.artifacts.get key).map ArtifactRow.place = (start.artifacts.get key).map ArtifactRow.place

/-- The object of an artifact of the caller lies there. -/
def CallerPath (scope : TenantScope) (db : Db ρ σ) (path : String) : Prop :=
  ∃ key a, db.artifacts.get key = some a ∧ LinkedArtifact db.idempotencyKeys scope key a ∧ a.objectKey = path

/-- The descriptor was read from a row of the caller. -/
def ReadFrom (scope : TenantScope) (db : Db ρ σ) (d : ArtifactDescriptor) : Prop :=
  ∃ a, db.artifacts.get d.key = some a ∧ LinkedArtifact db.idempotencyKeys scope d.key a ∧ a.objectKey = d.objectKey

theorem ReadFrom.callerPath {scope : TenantScope} {db : Db ρ σ} {d : ArtifactDescriptor} (h : ReadFrom scope db d) :
    CallerPath scope db d.objectKey := by
  obtain ⟨a, ha, hlinked, hpath⟩ := h
  exact ⟨d.key, a, ha, hlinked, hpath⟩

/-- Two runs over rows, artifacts staying at their places. -/
structure TwinRows (scope : TenantScope) (start start' db db' : Db ρ σ) : Prop where
  twins : Twins scope start start' db db'
  left : SamePlaces start db
  right : SamePlaces start' db'

/-- Two runs over objects: the caller's are the same, the others are those of the beginning. -/
structure TwinObjects (mine : String → Prop) (start start' blobs blobs' : Objects.Store String) : Prop where
  same : ∀ path, mine path → blobs.get path = blobs'.get path
  left : ∀ path, ¬ mine path → blobs.get path = start.get path
  right : ∀ path, ¬ mine path → blobs'.get path = start'.get path

section artifacts

variable {scope : TenantScope} {start start' db db' : Db ρ σ}

/-- The row behind a descriptor is the caller's still, and the same in both runs. -/
theorem TwinRows.row (h : TwinRows scope start start' db db') {d : ArtifactDescriptor}
    (hd : ReadFrom scope start d) :
    db.artifacts.get d.key = db'.artifacts.get d.key ∧
      ∀ a, db.artifacts.get d.key = some a → LinkedArtifact db.idempotencyKeys scope d.key a := by
  obtain ⟨a₀, ha₀, hlinked, -⟩ := hd
  have hplace := h.left d.key
  rw [ha₀] at hplace
  obtain ⟨a, ha, hsame⟩ := Option.map_eq_some_iff.mp hplace
  have hmine : LinkedArtifact db.idempotencyKeys scope d.key a := by
    refine ⟨hlinked.1, ?_⟩
    have hcase : a.caseId = a₀.caseId := congrArg Prod.fst hsame
    rw [hcase, h.twins.keys]
    exact hlinked.2
  refine ⟨?_, ?_⟩
  · rw [ha, (h.twins.agree.artifacts d.key a hmine).mp ha]
  · intro b hb
    rw [ha] at hb
    exact Option.some.inj hb ▸ hmine

theorem samePlaces_set (h : SamePlaces start db) {key : Key} {a a' : ArtifactRow} (ha : db.artifacts.get key = some a)
    (hplace : a'.place = a.place) : SamePlaces start { db with artifacts := db.artifacts.set key a' } := by
  intro k
  rw [← h k, Table.get_set]
  split
  · rename_i he
    subst he
    simp [ha, hplace]
  · rfl

theorem confined_setArtifact {key : Key} {a a' : ArtifactRow} (ha : db.artifacts.get key = some a)
    (hlinked : LinkedArtifact db.idempotencyKeys scope key a) :
    OwnRows scope db { db with artifacts := db.artifacts.set key a' } := by
  refine ⟨rfl, fun _ _ => rfl, fun _ _ => rfl, fun _ _ => rfl, ?_⟩
  intro k hk
  refine Table.get_set_other _ _ ?_
  rintro rfl
  exact hk a ha hlinked

theorem alike_updateArtifact (h : TwinRows scope start start' db db') {d : ArtifactDescriptor}
    (hd : ReadFrom scope start d) {condition : ArtifactRow → Bool} {assign : ArtifactRow → ArtifactRow}
    (hplace : ∀ a, (assign a).place = a.place) :
    Alike (TwinRows scope start start') (fun _ => True) (updateArtifact d.key condition assign)
      (updateArtifact d.key condition assign) db db' := by
  obtain ⟨hrow, hmine⟩ := h.row hd
  refine (alike_updateRow hrow h ?_).weaken fun _ _ => trivial
  intro a ha
  have ha' : db'.artifacts.get d.key = some a := hrow ▸ ha
  have hlinked' : LinkedArtifact db'.idempotencyKeys scope d.key a :=
    ⟨(hmine a ha).1, h.twins.agree.linkedCase.mp (hmine a ha).2⟩
  refine ⟨⟨?_, h.twins.left.trans (confined_setArtifact ha (hmine a ha)),
    h.twins.right.trans (confined_setArtifact ha' hlinked')⟩, samePlaces_set h.left ha (hplace a),
    samePlaces_set h.right ha' (hplace a)⟩
  refine { h.twins.agree with artifacts := ?_ }
  intro key b hb
  by_cases hk : key = d.key
  · subst hk
    rw [Table.get_set_self ha, Table.get_set_self ha']
  · rw [Table.get_set_other _ _ hk, Table.get_set_other _ _ hk]
    exact h.twins.agree.artifacts key b hb

theorem authorized_iff {a : ArtifactRow} {keys : Table IdempotencyKey IdempotencyRow} :
    (keys.find? (fun key i => key.tenantId == scope.tenantId && i.caseId == a.caseId &&
      key.callerId == scope.callerId)).isSome = true ↔ LinkedCase keys scope a.caseId := by
  rw [Table.find?_isSome_iff, LinkedCase]
  simp only [TenantScope.owns, Bool.and_eq_true, beq_iff_eq]
  constructor
  · rintro ⟨key, i, hi, ⟨htenant, hcase⟩, hcaller⟩
    exact ⟨key, i, hi, ⟨htenant, hcaller⟩, hcase⟩
  · rintro ⟨key, i, hi, ⟨htenant, hcaller⟩, hcase⟩
    exact ⟨key, i, hi, ⟨htenant, hcase⟩, hcaller⟩

/-- The row that an authorized lookup finds is the caller's, in both runs or in neither. -/
theorem alike_findAuthorized (h : TwinRows scope start start' db db') (artifactId : String)
    (status : ArtifactStatus) :
    Alike (TwinRows scope start start')
      (fun found => ∀ a, found = some a → db.artifacts.get ⟨scope.tenantId, artifactId⟩ = some a ∧
        LinkedArtifact db.idempotencyKeys scope ⟨scope.tenantId, artifactId⟩ a)
      (findAuthorized scope artifactId status) (findAuthorized scope artifactId status) db db' := by
  -- what the lookup of one run finds, the other finds as well
  have hfinds : ∀ (s : Db ρ σ) a, (s.artifacts.get ⟨scope.tenantId, artifactId⟩).filter (fun a =>
      a.status == status && (s.idempotencyKeys.find? (fun key i => key.tenantId == scope.tenantId &&
        i.caseId == a.caseId && key.callerId == scope.callerId)).isSome) = some a ↔
      s.artifacts.get ⟨scope.tenantId, artifactId⟩ = some a ∧ a.status = status ∧
        LinkedArtifact s.idempotencyKeys scope ⟨scope.tenantId, artifactId⟩ a := by
    intro s a
    rw [Option.filter_eq_some_iff, Bool.and_eq_true, authorized_iff, beq_iff_eq]
    exact ⟨fun hf => ⟨hf.1, hf.2.1, rfl, hf.2.2⟩, fun hf => ⟨hf.1, hf.2.1, hf.2.2.2⟩⟩
  have hagree := h.twins.agree
  refine ⟨_, db, db', rfl, ?_, h, ?_⟩
  · refine Prod.ext (congrArg Except.ok (Option.ext ?_)) rfl
    intro a
    rw [hfinds, hfinds]
    constructor
    · rintro ⟨ha, hs, hlinked⟩
      have hlinked' : LinkedArtifact db.idempotencyKeys scope ⟨scope.tenantId, artifactId⟩ a :=
        ⟨rfl, hagree.linkedCase.mpr hlinked.2⟩
      exact ⟨(hagree.artifacts _ a hlinked').mpr ha, hs, hlinked'⟩
    · rintro ⟨ha, hs, hlinked⟩
      exact ⟨(hagree.artifacts _ a hlinked).mp ha, hs, rfl, hagree.linkedCase.mp hlinked.2⟩
  · intro found hfound a he
    subst he
    obtain ⟨ha, -, hlinked⟩ := (hfinds db a).mp (Except.ok.inj hfound)
    exact ⟨ha, hlinked⟩

theorem TwinRows.readFrom (h : TwinRows scope start start' db db') {key : Key} {a : ArtifactRow}
    (ha : db.artifacts.get key = some a) (hlinked : LinkedArtifact db.idempotencyKeys scope key a)
    {d : ArtifactDescriptor} (hd : rowDescriptor key a = some d) : ReadFrom scope start d := by
  obtain ⟨-, hkey, hpath, -⟩ := rowDescriptor_some hd
  have hplace := h.left key
  rw [ha] at hplace
  obtain ⟨a₀, ha₀, hsame⟩ := Option.map_eq_some_iff.mp hplace.symm
  have hcase : a₀.caseId = a.caseId := congrArg Prod.fst hsame
  have hobject : a₀.objectKey = a.objectKey := congrArg Prod.snd hsame
  rw [ReadFrom, hkey]
  refine ⟨a₀, ha₀, ⟨hlinked.1, ?_⟩, hobject.trans hpath.symm⟩
  rw [hcase, ← h.twins.keys]
  exact hlinked.2

end artifacts

section objects

variable {mine : String → Prop} {start start' blobs blobs' : Objects.Store String}

theorem alike_call {σ' ε' α : Type} {R : σ' → σ' → Prop} {P : α → Prop} (failure : ε')
    {operation : σ' → Except ε' α × σ'} {s s' : σ'} (hR : R s s') (h : Alike R P operation operation s s')
    (fate : Objects.Fate) : Alike R P (fate.call failure operation) (fate.call failure operation) s s' := by
  obtain ⟨reply, t, t', hx, hy, hRt, hP⟩ := h
  cases fate with
  | runs => exact ⟨reply, t, t', hx, hy, hRt, hP⟩
  | failsBefore => exact ⟨.error failure, s, s', rfl, rfl, hR, fun _ he => by cases he⟩
  | failsAfter =>
    exact ⟨.error failure, t, t', by simp only [Objects.Fate.call, hx], by simp only [Objects.Fate.call, hy], hRt,
      fun _ he => by cases he⟩

theorem alike_head {ε' : Type} (h : TwinObjects mine start start' blobs blobs') {path : String} (hpath : mine path) :
    Alike (TwinObjects mine start start') (fun _ => True)
      (Objects.head path : Objects.Store String → Except ε' _ × _) (Objects.head path) blobs blobs' := by
  refine ⟨_, blobs, blobs', rfl, ?_, h, fun _ _ => trivial⟩
  simp only [Objects.head, h.same path hpath]

theorem alike_get {ε' : Type} (h : TwinObjects mine start start' blobs blobs') (failure : ε') {path : String}
    (hpath : mine path) (size : Nat) :
    Alike (TwinObjects mine start start') (fun _ => True) (Objects.get failure path size)
      (Objects.get failure path size) blobs blobs' := by
  have hsame := h.same path hpath
  refine ⟨(Objects.get failure path size blobs).1, blobs, blobs', ?_, ?_, h, fun _ _ => trivial⟩
  · exact Prod.ext rfl (Objects.get_store failure path size blobs)
  · refine Prod.ext ?_ (Objects.get_store failure path size blobs')
    simp only [Objects.get, ← hsame]
    split
    · rfl
    · split <;> rfl

theorem alike_delete {ε' : Type} (h : TwinObjects mine start start' blobs blobs') (absent : Bool) {path : String}
    (hpath : mine path) (etag : Option String) :
    Alike (TwinObjects mine start start') (fun _ => True)
      (Objects.delete absent path etag : Objects.Store String → Except ε' Bool × _)
      (Objects.delete absent path etag) blobs blobs' := by
  have hsame := h.same path hpath
  have hremoved : TwinObjects mine start start' (Table.delete blobs (fun k _ => k = path))
      (Table.delete blobs' (fun k _ => k = path)) := by
    constructor
    case same =>
      intro k hk
      by_cases he : k = path
      · subst he
        rw [Table.get_delete_self, Table.get_delete_self]
      · rw [Table.get_delete_other _ he, Table.get_delete_other _ he]
        exact h.same k hk
    case left =>
      intro k hk
      have he : k ≠ path := fun he => hk (he ▸ hpath)
      exact (Table.get_delete_other _ he).trans (h.left k hk)
    case right =>
      intro k hk
      have he : k ≠ path := fun he => hk (he ▸ hpath)
      exact (Table.get_delete_other _ he).trans (h.right k hk)
  unfold Objects.delete
  cases hget : blobs.get path with
  | none =>
    exact ⟨.ok absent, blobs, blobs', by simp only [hget], by simp only [← hsame, hget], h, fun _ _ => trivial⟩
  | some o =>
    by_cases hmatch : o.matches etag = true
    · exact ⟨.ok true, _, _, by simp only [hget, hmatch, if_true], by simp only [← hsame, hget, hmatch, if_true],
        hremoved, fun _ _ => trivial⟩
    · exact ⟨.ok false, blobs, blobs', by simp only [hget, hmatch]; rfl,
        by simp only [← hsame, hget, hmatch]; rfl, h, fun _ _ => trivial⟩

end objects

/-! ## Reading and deleting -/

/-- Two runs of one call, over rows and objects. -/
structure TwinVaults (scope : TenantScope) (start start' now now' : Db ρ σ × Objects.Store String) : Prop where
  rows : TwinRows scope start.1 start'.1 now.1 now'.1
  objects : TwinObjects (CallerPath scope start.1) start.2 start'.2 now.2 now'.2

/-- The descriptor that a read holds was read from a row of the caller. -/
def ReadState.Owned (scope : TenantScope) (db : Db ρ σ) : ReadState → Prop
  | .finding scope' _ => scope' = scope
  | .fetching d _ => ReadFrom scope db d
  | .done _ => True

def DeleteState.Owned (scope : TenantScope) (db : Db ρ σ) : DeleteState → Prop
  | .finding scope' _ => scope' = scope
  | .claiming d _ _ | .removing d _ _ | .checking d _ | .completing d _ | .restoring d _ _ => ReadFrom scope db d
  | .done _ => True

/-- Two steps end in one state of the call and in related stores. -/
def SameStep (scope : TenantScope) (start start' : Db ρ σ × Objects.Store String) {τ : Type}
    (owned : τ → Prop) (r r' : τ × Db ρ σ × Objects.Store String) : Prop :=
  r.1 = r'.1 ∧ owned r.1 ∧ TwinVaults scope start start' r.2 r'.2

section steps

variable [ContentHash] {scope : TenantScope} {start start' now now' : Db ρ σ × Objects.Store String}

theorem ReadState.sameStep (h : TwinVaults scope start start' now now') {s : ReadState}
    (hs : s.Owned scope start.1) (env : Outside) :
    SameStep scope start start' (ReadState.Owned scope start.1) (s.step env now.1 now.2)
      (s.step env now'.1 now'.2) := by
  cases s with
  | finding scope' artifactId =>
    obtain rfl : scope' = scope := hs
    obtain ⟨reply, t, t', hx, hy, hR, hP⟩ :=
      alike_transaction h.rows (alike_findAuthorized h.rows artifactId .available) env.attempt
    simp only [ReadState.step, hx, hy]
    cases reply with
    | error e => exact ⟨rfl, trivial, hR, h.objects⟩
    | ok found =>
      cases found with
      | none => exact ⟨rfl, trivial, hR, h.objects⟩
      | some a =>
        obtain ⟨ha, hlinked⟩ := hP (some a) rfl a rfl
        dsimp only
        cases hd : rowDescriptor ⟨scope'.tenantId, artifactId⟩ a with
        | none => exact ⟨rfl, trivial, hR, h.objects⟩
        | some d => exact ⟨rfl, h.rows.readFrom ha hlinked hd, hR, h.objects⟩
  | fetching d etag =>
    have hd : ReadFrom scope start.1 d := hs
    obtain ⟨reply, t, t', hx, hy, hR, -⟩ := alike_call ArtifactFailure.blob h.objects
      (alike_get h.objects ArtifactFailure.blob hd.callerPath d.byteCount) env.fate
    simp only [ReadState.step, hx, hy]
    cases reply with
    | error e => exact ⟨rfl, trivial, h.rows, hR⟩
    | ok found =>
      cases found with
      | none => exact ⟨rfl, trivial, h.rows, hR⟩
      | some stored => exact ⟨rfl, trivial, h.rows, hR⟩
  | done result => exact ⟨rfl, trivial, h⟩

omit [ContentHash] in
theorem DeleteState.found_owned (h : TwinRows scope start.1 start'.1 now.1 now'.1) {key : Key} {a : ArtifactRow}
    (ha : now.1.artifacts.get key = some a) (hlinked : LinkedArtifact now.1.idempotencyKeys scope key a) :
    (DeleteState.found key a).Owned scope start.1 := by
  unfold DeleteState.found
  split
  · trivial
  · split
    · trivial
    · split
      · rename_i d version hd _
        exact h.readFrom ha hlinked hd
      · trivial

omit [ContentHash] in
theorem DeleteState.sameStep (h : TwinVaults scope start start' now now') {s : DeleteState}
    (hs : s.Owned scope start.1) (env : Outside) :
    SameStep scope start start' (DeleteState.Owned scope start.1) (s.step env now.1 now.2)
      (s.step env now'.1 now'.2) := by
  -- a statement on the row behind the descriptor
  have hrow : ∀ (d : ArtifactDescriptor) (condition : ArtifactRow → Bool) (assign : ArtifactRow → ArtifactRow),
      ReadFrom scope start.1 d → (∀ a, (assign a).place = a.place) →
      Alike (TwinRows scope start.1 start'.1) (fun _ => True)
        (env.attempt.transaction (updateArtifact d.key condition assign))
        (env.attempt.transaction (updateArtifact d.key condition assign)) now.1 now'.1 :=
    fun d condition assign hd hplace =>
      alike_transaction h.rows (alike_updateArtifact h.rows hd hplace) env.attempt
  cases s with
  | finding scope' artifactId =>
    obtain rfl : scope' = scope := hs
    obtain ⟨reply, t, t', hx, hy, hR, hP⟩ :=
      alike_transaction h.rows (alike_findAuthorized h.rows artifactId .available) env.attempt
    simp only [DeleteState.step, hx, hy]
    cases reply with
    | error e => exact ⟨rfl, trivial, hR, h.objects⟩
    | ok found =>
      cases found with
      | none => exact ⟨rfl, trivial, hR, h.objects⟩
      | some a =>
        obtain ⟨ha, hlinked⟩ := hP (some a) rfl a rfl
        exact ⟨rfl, DeleteState.found_owned h.rows ha hlinked, hR, h.objects⟩
  | claiming d version etag =>
    obtain ⟨reply, t, t', hx, hy, hR, -⟩ := hrow d
      (fun a => a.status == .available && a.version == version) (ArtifactRow.deletionClaimed env.now) hs (fun _ => rfl)
    simp only [DeleteState.step, claimArtifactDeletion, hx, hy]
    cases reply with
    | error e => exact ⟨rfl, trivial, hR, h.objects⟩
    | ok claimed =>
      cases claimed with
      | none => exact ⟨rfl, trivial, hR, h.objects⟩
      | some a => exact ⟨rfl, hs, hR, h.objects⟩
  | removing d version etag =>
    have hd : ReadFrom scope start.1 d := hs
    obtain ⟨reply, t, t', hx, hy, hR, -⟩ := alike_call ArtifactFailure.blob h.objects
      (alike_delete h.objects env.absent hd.callerPath (some etag)) env.fate
    simp only [DeleteState.step, hx, hy]
    cases reply with
    | error e => exact ⟨rfl, hd, h.rows, hR⟩
    | ok deleted => cases deleted <;> exact ⟨rfl, hd, h.rows, hR⟩
  | checking d version =>
    have hd : ReadFrom scope start.1 d := hs
    obtain ⟨reply, t, t', hx, hy, hR, -⟩ := alike_call ArtifactFailure.blob h.objects
      (alike_head h.objects hd.callerPath) env.fate
    simp only [DeleteState.step, hx, hy]
    cases reply with
    | error e => exact ⟨rfl, hd, h.rows, hR⟩
    | ok found => cases found <;> exact ⟨rfl, hd, h.rows, hR⟩
  | completing d version =>
    simp only [DeleteState.step]
    cases hversion : integer version with
    | none => exact ⟨rfl, hs, h⟩
    | some n =>
      obtain ⟨reply, t, t', hx, hy, hR, -⟩ := hrow d
        (fun a => a.status == .deleting && a.version == n) (ArtifactRow.deletionCompleted env.now) hs (fun _ => rfl)
      simp only [completeArtifactDeletion, hx, hy]
      cases reply with
      | error e => exact ⟨rfl, hs, hR, h.objects⟩
      | ok completed =>
        cases completed with
        | none => exact ⟨rfl, hs, hR, h.objects⟩
        | some a => exact ⟨rfl, trivial, hR, h.objects⟩
  | restoring d version code =>
    simp only [DeleteState.step]
    cases hversion : integer version with
    | none => exact ⟨rfl, trivial, h⟩
    | some n =>
      obtain ⟨reply, t, t', hx, hy, hR, -⟩ := hrow d
        (fun a => a.status == .deleting && a.version == n) (ArtifactRow.restored env.now) hs (fun _ => rfl)
      simp only [restoreArtifact, hx, hy]
      cases reply with
      | error e => exact ⟨rfl, trivial, hR, h.objects⟩
      | ok restored => exact ⟨rfl, trivial, hR, h.objects⟩
  | done result => exact ⟨rfl, trivial, h⟩

end steps

/-! ## The guarantees -/

/-- The steps of a call, from its start on. -/
def callRun {τ : Type} (step : Outside → Db ρ σ → Objects.Store String → τ → τ × Db ρ σ × Objects.Store String)
    (envs : List Outside) (s : τ) (now : Db ρ σ × Objects.Store String) : τ × Db ρ σ × Objects.Store String :=
  Runs.run (fun env r => step env r.2.1 r.2.2 r.1) envs (s, now)

/-- What the caller can see is the same. -/
structure SameView (scope : TenantScope) (now now' : Db ρ σ × Objects.Store String) : Prop where
  rows : Agree scope now.1 now'.1
  objects : ∀ path, CallerPath scope now.1 path → now.2.get path = now'.2.get path

/-- Nothing but rows and objects of the caller changed. -/
structure OwnStores (scope : TenantScope) (now later : Db ρ σ × Objects.Store String) : Prop where
  rows : OwnRows scope now.1 later.1
  objects : ∀ path, ¬ CallerPath scope now.1 path → later.2.get path = now.2.get path

/-- A call replies the same in both databases and keeps to the caller's rows in each. -/
structure SameCall {α : Type} (scope : TenantScope) (x : Statement ρ σ α) (db db' : Db ρ σ) : Prop where
  reply : (x db).1 = (x db').1
  left : OwnRows scope db (x db).2
  right : OwnRows scope db' (x db').2
  later : Agree scope (x db).2 (x db').2

/-- After any number of steps a call stands at the same point, its reply included. -/
structure SameRun {τ : Type} (scope : TenantScope)
    (step : Outside → Db ρ σ → Objects.Store String → τ → τ × Db ρ σ × Objects.Store String) (s : τ)
    (envs : List Outside) (now now' : Db ρ σ × Objects.Store String) : Prop where
  reply : (callRun step envs s now).1 = (callRun step envs s now').1
  left : OwnStores scope now (callRun step envs s now).2
  right : OwnStores scope now' (callRun step envs s now').2

structure Noninterference [ResultDocument ρ] [RequestDocument σ] [ContentHash] (scope : TenantScope)
    (now now' : Db ρ σ × Objects.Store String) : Prop where
  findByCaseId : ∀ caseId (attempt : Attempt),
    SameCall scope (attempt.transaction (ReproForge.findByCaseId scope caseId)) now.1 now'.1
  findByIdempotencyKey : ∀ idempotencyKey (attempt : Attempt),
    SameCall scope (attempt.transaction (ReproForge.findByIdempotencyKey scope idempotencyKey)) now.1 now'.1
  findByJobId : ∀ jobId (attempt : Attempt),
    SameCall scope (attempt.transaction (ReproForge.findByJobId scope jobId)) now.1 now'.1
  requestCancellation : ∀ jobId at' attempts,
    SameCall scope (runSerializableTransaction 3 attempts (ReproForge.requestCancellation scope jobId at')) now.1 now'.1
  read : ∀ artifactId envs, SameRun scope ReadState.step (ReadState.start scope artifactId) envs now now'
  delete : ∀ artifactId envs, SameRun scope DeleteState.step (DeleteState.start scope artifactId) envs now now'

section guarantees

variable {scope : TenantScope} {now now' : Db ρ σ × Objects.Store String}

theorem SameCall.of_alike {α : Type} {P : α → Prop} {x : Statement ρ σ α} {db db' : Db ρ σ}
    (h : Alike (Twins scope db db') P x x db db') : SameCall scope x db db' := by
  obtain ⟨reply, t, t', hx, hy, hR, -⟩ := h
  constructor
  case reply => rw [hx, hy]
  case left =>
    rw [hx]
    exact hR.left
  case right =>
    rw [hy]
    exact hR.right
  case later =>
    rw [hx, hy]
    exact hR.agree

theorem SameView.callerPath (h : SameView scope now now') {path : String} :
    CallerPath scope now.1 path ↔ CallerPath scope now'.1 path := by
  constructor
  · rintro ⟨key, a, ha, hlinked, hpath⟩
    exact ⟨key, a, (h.rows.artifacts key a hlinked).mp ha, ⟨hlinked.1, h.rows.linkedCase.mp hlinked.2⟩, hpath⟩
  · rintro ⟨key, a, ha, hlinked, hpath⟩
    have hmine : LinkedArtifact now.1.idempotencyKeys scope key a := ⟨hlinked.1, h.rows.linkedCase.mpr hlinked.2⟩
    exact ⟨key, a, (h.rows.artifacts key a hmine).mpr ha, hmine, hpath⟩

theorem SameView.twins (h : SameView scope now now') : TwinVaults scope now now' now now' :=
  ⟨⟨.refl h.rows, fun _ => rfl, fun _ => rfl⟩, h.objects, fun _ _ => rfl, fun _ _ => rfl⟩

/-- What one step keeps, a call keeps. -/
theorem SameRun.of_steps {τ : Type} {owned : τ → Prop}
    {step : Outside → Db ρ σ → Objects.Store String → τ → τ × Db ρ σ × Objects.Store String} {s : τ}
    (h : SameView scope now now')
    (hstep : ∀ env s t t', TwinVaults scope now now' t t' → owned s →
      SameStep scope now now' owned (step env t.1 t.2 s) (step env t'.1 t'.2 s)) (hs : owned s)
    (envs : List Outside) : SameRun scope step s envs now now' := by
  have hrun : ∀ (envs : List Outside) r r', SameStep scope now now' owned r r' →
      SameStep scope now now' owned (Runs.run (fun env r => step env r.2.1 r.2.2 r.1) envs r)
        (Runs.run (fun env r => step env r.2.1 r.2.2 r.1) envs r') := by
    intro envs
    induction envs with
    | nil => exact fun _ _ hr => hr
    | cons env rest ih =>
      rintro ⟨s, t⟩ ⟨s', t'⟩ ⟨he, howned, ht⟩
      obtain rfl : s = s' := he
      exact ih _ _ (hstep env s t t' ht howned)
  obtain ⟨hreply, -, hlater⟩ := hrun envs (s, now) (s, now') ⟨rfl, hs, h.twins⟩
  refine ⟨hreply, ⟨hlater.rows.twins.left, hlater.objects.left⟩, hlater.rows.twins.right, ?_⟩
  intro path hpath
  exact hlater.objects.right path (h.callerPath.not.mpr hpath)

theorem readStart_owned (scope : TenantScope) (artifactId : String) (db : Db ρ σ) :
    (ReadState.start scope artifactId).Owned scope db := by
  unfold ReadState.start
  split
  · rfl
  · trivial

theorem deleteStart_owned (scope : TenantScope) (artifactId : String) (db : Db ρ σ) :
    (DeleteState.start scope artifactId).Owned scope db := by
  unfold DeleteState.start
  split
  · rfl
  · trivial

/-- The caller of a tenant sees and changes nothing but its own rows and objects. -/
theorem tenant_caller_noninterference [ResultDocument ρ] [RequestDocument σ] [ContentHash]
    (h : SameView scope now now') : Noninterference scope now now' := by
  have htwins := Twins.refl h.rows
  constructor
  case findByCaseId =>
    exact fun caseId attempt => .of_alike (alike_transaction htwins (alike_findByCaseId htwins caseId) attempt)
  case findByIdempotencyKey =>
    exact fun idempotencyKey attempt =>
      .of_alike (alike_transaction htwins (alike_findByIdempotencyKey htwins idempotencyKey) attempt)
  case findByJobId =>
    exact fun jobId attempt => .of_alike (alike_transaction htwins (alike_findByJobId htwins jobId) attempt)
  case requestCancellation =>
    intro jobId at' attempts
    exact .of_alike (alike_runSerializableTransaction (R := Twins scope now.1 now'.1)
      (fun _ _ hs => alike_requestCancellation hs jobId at') htwins 3 attempts)
  case read =>
    exact fun artifactId envs => .of_steps h (fun env _ _ _ ht howned => ReadState.sameStep ht howned env)
      (readStart_owned scope artifactId now.1) envs
  case delete =>
    exact fun artifactId envs => .of_steps h (fun env _ _ _ ht howned => DeleteState.sameStep ht howned env)
      (deleteStart_owned scope artifactId now.1) envs

end guarantees

theorem step_start_artifacts [ResultDocument ρ] [RequestDocument σ] [Sha256] (attempts : List Attempt)
    (limits : QuotaLimits) (input : DurableStartInput ρ σ) (db : Db ρ σ) :
    (step (.call attempts (.start limits input)) db).artifacts = db.artifacts := by
  rcases step_start attempts limits input db with hd | hw
  · rw [hd]
  · rw [hw.result]

/-- The keys of a caller are unambiguous in every database whose cases and jobs have one key each. -/
theorem Lockstep.unambiguous [ResultDocument ρ] [RequestDocument σ] {db : Db ρ σ} (h : Lockstep db)
    (scope : TenantScope) : Unambiguous db.idempotencyKeys scope := by
  intro key i key' i' hi hi' howns howns' hsame
  obtain ⟨row, hrow, rfl⟩ := h.joined key i hi
  obtain ⟨row', hrow', rfl⟩ := h.joined key' i' hi'
  obtain rfl := Option.some.inj (hrow.idempotency.symm.trans hi)
  obtain rfl := Option.some.inj (hrow'.idempotency.symm.trans hi')
  simp only [TenantScope.owns, Bool.and_eq_true, beq_iff_eq] at howns howns'
  have htenant : row.key.tenantId = row'.key.tenantId := howns.1.trans howns'.1.symm
  rcases hsame with he | he
  · exact h.caseUnique row row' hrow hrow' (by rw [DurableRow.caseKey, DurableRow.caseKey, htenant, he])
  · exact h.jobUnique row row' hrow hrow' (by rw [DurableRow.jobKey, DurableRow.jobKey, htenant, he])

end ReproForge

namespace ReproForge

open KeyedTable Sample

def Sample.caller : TenantScope := ⟨"caller", "caller", "acme"⟩

/-- Another tenant, another clock, no audit and an object of someone else. -/
def Sample.elsewhere (db : Db Empty Empty) : Db Empty Empty × Objects.Store String :=
  ({ db with
      now := db.now + 1
      tenants := db.tenants.insert "globex" ⟨.active, opening, opening, none, none⟩
      auditEvents := Table.empty },
    (Table.empty : Objects.Store String).insert "tenants/globex/cases/case-9/bundle/0" ⟨"etag", [1]⟩)

theorem Sample.sameView {db : Db Empty Empty} (h : db.artifacts = Table.empty) :
    SameView caller (db, Table.empty) (elsewhere db) where
  rows :=
    { keys := fun _ _ => rfl
      order := .inl rfl
      tenant := (Table.get_insert_other (by decide)).symm
      cases := fun _ _ => rfl
      jobs := fun _ _ => rfl
      quotas := fun _ _ _ => Iff.rfl
      artifacts := fun _ _ _ => Iff.rfl }
  objects := by
    rintro path ⟨key, a, ha, -⟩
    simp only [h] at ha
    cases ha

/-- A reproduction of the caller, and the same one beside the rows of others. -/
theorem tenant_caller_noninterference_sample :
    Noninterference caller (step first (Db.initial opening tenants), Table.empty)
      (elsewhere (step first (Db.initial opening tenants))) :=
  tenant_caller_noninterference (sameView (step_start_artifacts [] .default _ _))

end ReproForge
