import ReproForge.Hosted

/-!
# Suspended tenants

A deletion request cancels the unfinished jobs of its tenant, found through their
idempotency keys, and closes the tenant in the same transaction. From then on
nothing of the tenant starts, and what was running can only end as cancelled.
-/
namespace ReproForge

open KeyedTable Transactions Transactions.Tx Relation

variable {ρ σ : Type}

/-! ## Frozen tenants -/

/-- No worker may take the job, and one that holds it is told to stop. -/
def JobRow.frozen (j : JobRow) : Prop :=
  j.state ≠ .queued ∧ (j.state = .running → j.cancellationRequestedAt.isSome = true)

structure Frozen (db : Db ρ σ) (id : String) : Prop where
  closed : Closed db id
  jobs : ∀ key j, db.jobs.get key = some j → key.tenantId = id → j.frozen

/-- Jobs of the tenant are as they were or become cancelled, and nothing is added. -/
structure Remains (db db' : Db ρ σ) (id : String) : Prop where
  jobs : ∀ key j', key.tenantId = id → db'.jobs.get key = some j' →
    ∃ j, db.jobs.get key = some j ∧ (j'.state = j.state ∨ j'.state = .cancelled)
  cases' : ∀ key, key.tenantId = id → (db'.cases.get key).isSome → (db.cases.get key).isSome
  artifacts : ∀ key, key.tenantId = id → (db'.artifacts.get key).isSome → (db.artifacts.get key).isSome

theorem Remains.refl (db : Db ρ σ) (id : String) : Remains db db id :=
  ⟨fun _ j' _ hj' => ⟨j', hj', .inl rfl⟩, fun _ _ h => h, fun _ _ h => h⟩

theorem Remains.trans {s t u : Db ρ σ} {id : String} (hst : Remains s t id) (htu : Remains t u id) :
    Remains s u id where
  jobs key l hid hl := by
    obtain ⟨k, hk, hkl⟩ := htu.jobs key l hid hl
    obtain ⟨j, hj, hjk⟩ := hst.jobs key k hid hk
    refine ⟨j, hj, ?_⟩
    rcases hkl with he | hc
    · rw [he]
      exact hjk
    · exact .inr hc
  cases' key hid h := hst.cases' key hid (htu.cases' key hid h)
  artifacts key hid h := hst.artifacts key hid (htu.artifacts key hid h)

theorem JobRow.frozen_iff {j : JobRow} : j.frozen ↔ j.state.terminal = true ∨ j.cancelling := by
  rw [JobRow.frozen, JobRow.cancelling]
  cases j.state <;> simp [JobState.terminal]

/-- A frozen job stays as it is or becomes cancelled. -/
theorem JobRow.frozen.progress {j j' : JobRow} (h : j.frozen) (hp : JobProgress j j') :
    j'.frozen ∧ (j'.state = j.state ∨ j'.state = .cancelled) := by
  rcases JobRow.frozen_iff.mp h with ht | hc
  · rw [hp.terminal ht]
    exact ⟨h, .inl rfl⟩
  · have hc' := hp.cancelling hc
    refine ⟨JobRow.frozen_iff.mpr (.inr hc'), ?_⟩
    rcases hc with ⟨hs, -⟩ | hs
    · exact hc'.imp (fun hr => hr.1.trans hs.symm) (fun hs' => hs')
    · rw [hp.terminal (by simp [hs, JobState.terminal])]
      exact .inl rfl

theorem Closed.not_active {db : Db ρ σ} {id : String} (h : Closed db id) : tenantStatus db id ≠ some .active := by
  obtain ⟨s, hs, hclosed⟩ := h
  rw [hs]
  simpa using hclosed

theorem tenantActive_iff {db : Db ρ σ} {id : String} : tenantActive db id = true ↔ tenantStatus db id = some .active := by
  rw [tenantActive, tenantStatus]
  cases db.tenants.get id with
  | none => simp
  | some t => simp

section turns

variable [ResultDocument ρ] [RequestDocument σ] [Sha256] {db db' : Db ρ σ} {id : String}

/-- Step lemma. -/
theorem Turn.frozen (h : Turn db db') (hf : Frozen db id) : Frozen db' id ∧ Remains db db' id := by
  cases h with
  | change hedits hc horderly =>
    have hjobs : ∀ key j', key.tenantId = id → db'.jobs.get key = some j' →
        j'.frozen ∧ ∃ j, db.jobs.get key = some j ∧ (j'.state = j.state ∨ j'.state = .cancelled) := by
      intro key j' hid hj'
      obtain ⟨j, hj, hp⟩ := hc.job_back hj'
      obtain ⟨hfrozen, hstate⟩ := (hf.jobs key j hj hid).progress hp
      exact ⟨hfrozen, j, hj, hstate⟩
    refine ⟨⟨horderly.closed id hf.closed, fun key j' hj' hid => (hjobs key j' hid hj').1⟩,
      fun key j' hid hj' => (hjobs key j' hid hj').2, fun key _ hcase => ?_, fun key hid hartifact => ?_⟩
    · rw [← hc.sameKeys.cases key]
      exact hcase
    · refine (horderly.artifacts key hartifact).resolve_right ?_
      rw [hid]
      exact hf.closed.not_active
  | start hw =>
    rename_i limits input
    have hother : input.record.tenantId ≠ id := by
      rintro rfl
      exact hf.closed.not_active (tenantActive_iff.mp hw.active)
    have hold : ∀ key j', key.tenantId = id → db'.jobs.get key = some j' → db.jobs.get key = some j' := by
      intro key j' hid hj'
      rw [hw.result] at hj'
      have hkey : key ≠ recordJobKey input.record := by
        rintro rfl
        exact hother hid
      exact (Table.get_insert_other hkey).symm.trans hj'
    have hclosed : Closed db' id := by
      rw [hw.result]
      exact hf.closed
    refine ⟨⟨hclosed, fun key j' hj' hid => hf.jobs key j' (hold key j' hid hj') hid⟩,
      fun key j' hid hj' => ⟨j', hold key j' hid hj', .inl rfl⟩, fun key hid hcase => ?_, fun key _ hartifact => ?_⟩
    · rw [hw.result] at hcase
      have hkey : key ≠ recordCaseKey input.record := by
        rintro rfl
        exact hother hid
      simp only [Table.get_insert_other hkey] at hcase
      exact hcase
    · rw [hw.result] at hartifact
      exact hartifact
  | purged hp =>
    rename_i claim r
    have hkept : ∀ {κ α : Type} [DecidableEq κ] {t : Table κ α} {tenant : κ → String} {k : κ} {r : α},
        (t.delete (fun k _ => tenant k == claim.tenantId)).get k = some r → t.get k = some r := by
      intro κ α _ t tenant k r hr
      rw [Table.get_delete, Option.filter_eq_some_iff] at hr
      exact hr.1
    have hold : ∀ key j', db'.jobs.get key = some j' → db.jobs.get key = some j' := by
      intro key j' hj'
      rw [hp.rest] at hj'
      exact hkept hj'
    have hclosed : Closed db' id := by
      by_cases hid : id = claim.tenantId
      · rw [hid]
        exact ⟨.deleted, hp.status, by simp⟩
      · rw [Closed, hp.others id hid]
        exact hf.closed
    refine ⟨⟨hclosed, fun key j' hj' hid => hf.jobs key j' (hold key j' hj') hid⟩,
      fun key j' _ hj' => ⟨j', hold key j' hj', .inl rfl⟩, fun key _ hcase => ?_, fun key _ hartifact => ?_⟩
    · rw [hp.rest] at hcase
      obtain ⟨c, hc⟩ := Option.isSome_iff_exists.mp hcase
      exact Option.isSome_iff_exists.mpr ⟨c, hkept hc⟩
    · rw [hp.artifacts] at hartifact
      obtain ⟨a, ha⟩ := Option.isSome_iff_exists.mp hartifact
      exact Option.isSome_iff_exists.mpr ⟨a, hkept ha⟩

theorem turns_frozen (h : ReflTransGen Turn db db') (hf : Frozen db id) : Frozen db' id ∧ Remains db db' id := by
  induction h with
  | refl => exact ⟨hf, .refl db id⟩
  | tail _ ht ih =>
    obtain ⟨hfrozen, hremains⟩ := ih
    obtain ⟨hfrozen', hremains'⟩ := ht.frozen hfrozen
    exact ⟨hfrozen', hremains.trans hremains'⟩

end turns

/-! ## The suspending transaction -/

section suspending

variable [ResultDocument ρ] [RequestDocument σ] [Sha256] {db db' : Db ρ σ}

/-- The idempotency keys are as they were, and the jobs were there and made progress. -/
structure Progressed (db db' : Db ρ σ) : Prop where
  idempotencyKeys : db'.idempotencyKeys = db.idempotencyKeys
  jobs : ∀ key j', db'.jobs.get key = some j' → ∃ j, db.jobs.get key = some j ∧ JobProgress j j'

omit [ResultDocument ρ] [RequestDocument σ] [Sha256] in
theorem Progressed.refl (db : Db ρ σ) : Progressed db db := ⟨rfl, fun _ j' hj' => ⟨j', hj', .refl j'⟩⟩

omit [ResultDocument ρ] [RequestDocument σ] [Sha256] in
theorem Progressed.trans {s t u : Db ρ σ} (hst : Progressed s t) (htu : Progressed t u) : Progressed s u where
  idempotencyKeys := htu.idempotencyKeys.trans hst.idempotencyKeys
  jobs key l hl := by
    obtain ⟨k, hk, hkl⟩ := htu.jobs key l hl
    obtain ⟨j, hj, hjk⟩ := hst.jobs key k hk
    exact ⟨j, hj, hjk.trans hkl⟩

/-- A cancellation request reaches a job that its caller owns. -/
structure Cancelled (scope : TenantScope) (jobId : String) (db db' : Db ρ σ) : Prop where
  turns : ReflTransGen Turn db db'
  progressed : Progressed db db'
  frozen : callerOwnsJob db scope jobId = true → ∀ j, db'.jobs.get ⟨scope.tenantId, jobId⟩ = some j → j.frozen

theorem requestCancellation_cancelled {scope : TenantScope} {jobId : String} {at' : Instant}
    {reply : Option CancellationRequestResult} (h : requestCancellation scope jobId at' db = (.ok reply, db')) :
    Cancelled scope jobId db db' := by
  have hchanges : ReflTransGen (Change (.call [] (.requestCancellation scope jobId at'))) db db' := by
    refine Op.statement_changes (u := ()) rfl ?_
    exact bind_ok.mpr ⟨reply, db', h, rfl⟩
  have hboth : ReflTransGen Turn db db' ∧ Progressed db db' := by
    clear h
    induction hchanges with
    | refl => exact ⟨.refl, .refl db⟩
    | tail _ hc ih =>
      obtain ⟨hturns, hprogressed⟩ := ih
      have hedits : ∀ record, ¬ (Event.call [] (.requestCancellation scope jobId at') : Event ρ σ).edits record :=
        fun _ he => he
      exact ⟨hturns.tail (.change (fun record he => absurd he (hedits record)) hc hc.untouched.orderly), hprogressed.trans ⟨hc.sameKeys.idempotencyKeys, fun _ _ hj' => hc.job_back hj'⟩⟩
  refine ⟨hboth.1, hboth.2, fun howns j hj => ?_⟩
  cases reply with
  | some result =>
    obtain ⟨j', hj', hc⟩ := requestCancellation_cancelling h
    obtain rfl := Option.some.inj (hj.symm.trans hj')
    exact JobRow.frozen_iff.mpr (.inr hc)
  | none =>
    -- only a job that is over is left alone without an answer
    obtain ⟨j₀, hj₀, hp⟩ := hboth.2.jobs _ j hj
    have hselected : selectForCancellation db scope jobId = some j₀ := by
      rw [selectForCancellation, hj₀]
      simp [howns]
    have hover : j₀.state.terminal = true := by
      simp only [requestCancellation, bind_ok, require_ok, read_ok] at h
      obtain ⟨_, _, ⟨-, rfl⟩, _, _, ⟨hat, rfl⟩, _, _, ⟨rfl, rfl⟩, h⟩ := h
      simp only [Bool.and_eq_true] at hat
      simp only [hselected] at h
      have hactive : ∀ {e}, cancelActiveJob scope jobId j₀ at' e = (.ok none, db') → False := by
        intro e hcancel
        obtain ⟨caseId, disposition, he, -⟩ := cancelActiveJob_ok hat.1 hcancel
        cases he
      cases hstate : j₀.state with
      | queued =>
        simp only [hstate] at h
        exact (hactive h).elim
      | running =>
        simp only [hstate] at h
        split at h
        · cases (pure_ok.mp h).1
        · exact (hactive h).elim
      | _ => rfl
    rw [hp.terminal hover]
    exact JobRow.frozen_iff.mpr (.inl hover)

/-- Every job on the list that its caller owns ends up frozen. -/
theorem cancellations_frozen {actorId tenantId : String} {at' : Instant} {jobs : List (String × String)}
    {replies : List (Option CancellationRequestResult)}
    (h : forEach (fun job => requestCancellation ⟨job.2, actorId, tenantId⟩ job.1 at') jobs db = (.ok replies, db')) :
    ReflTransGen Turn db db' ∧ Progressed db db' ∧
      ∀ job ∈ jobs, callerOwnsJob db ⟨job.2, actorId, tenantId⟩ job.1 = true →
        ∀ j, db'.jobs.get ⟨tenantId, job.1⟩ = some j → j.frozen := by
  induction jobs generalizing db replies with
  | nil =>
    obtain ⟨-, rfl⟩ := forEach_nil_ok.mp h
    exact ⟨.refl, .refl _, fun job hjob => absurd hjob List.not_mem_nil⟩
  | cons first rest ih =>
    obtain ⟨reply, t, replies', hone, hrest, -⟩ := forEach_cons_ok.mp h
    have hfirst := requestCancellation_cancelled hone
    obtain ⟨hturns, hprogressed, hfrozen⟩ := ih hrest
    refine ⟨hfirst.turns.trans hturns, hfirst.progressed.trans hprogressed, fun job hjob howns j hj => ?_⟩
    rcases List.mem_cons.mp hjob with rfl | hjob
    · obtain ⟨k, hk, hp⟩ := hprogressed.jobs _ j hj
      exact ((hfirst.frozen howns k hk).progress hp).1
    · refine hfrozen job hjob ?_ j hj
      rw [callerOwnsJob, hfirst.progressed.idempotencyKeys]
      exact howns

omit [ResultDocument ρ] [RequestDocument σ] [Sha256] in
/-- Every unfinished job is on the list, under the caller that started it. -/
theorem mem_unfinishedJobs {row : DurableRow ρ σ} (hrow : Joined db row) (hjob : row.job.state.terminal = false) :
    (row.idempotency.jobId, row.key.callerId) ∈ unfinishedJobs db row.key.tenantId := by
  refine List.mem_mergeSort.mpr (List.mem_eraseDups.mpr (List.mem_filterMap.mpr ?_))
  refine ⟨(row.key, row.idempotency), Table.get_eq_some.mp hrow.idempotency, ?_⟩
  have hget : db.jobs.get ⟨row.key.tenantId, row.idempotency.jobId⟩ = some row.job := hrow.job
  have hstate : row.job.state = .queued ∨ row.job.state = .running := by
    cases hs : row.job.state <;> simp [hs, JobState.terminal] at hjob ⊢
  simp [hget, hstate]

omit [ResultDocument ρ] [RequestDocument σ] [Sha256] in
theorem callerOwnsJob_joined {row : DurableRow ρ σ} (hrow : Joined db row) (principalId : String) :
    callerOwnsJob db ⟨row.key.callerId, principalId, row.key.tenantId⟩ row.idempotency.jobId = true := by
  obtain ⟨found, hfound⟩ := Table.find?_isSome (p := fun key i => key.tenantId == row.key.tenantId &&
    key.callerId == row.key.callerId && i.jobId == row.idempotency.jobId) hrow.idempotency (by simp)
  rw [callerOwnsJob, hfound]
  rfl

theorem appendRequestAudit_turns {actorId requestId tenantId : String}
    {at' : Instant} {reason : DeletionReason} {u : Unit}
    (h : appendRequestAudit actorId at' reason requestId tenantId db = (.ok u, db')) : ReflTransGen Turn db db' := by
  simp only [appendRequestAudit, insertRetainedAuditOrIgnore] at h
  split at h
  · rw [(Prod.mk.inj h).2]
  · have hd := (insertRetainedAudit_ok h).2
    refine .single (.change (e := .clock db.now) (fun _ he => he.elim) (.audit _ _ hd) ?_)
    exact Untouched.orderly (hd ▸ ⟨rfl, rfl, rfl⟩)

/-- The row of a tenant that is suspended unless it was closed before. -/
theorem suspend_turns {tenantId : String} {at' : Instant} {found : Option TenantRow}
    (h : updateTenant tenantId (fun t => t.status == .active) (TenantRow.moved .suspended at') db = (.ok found, db'))
    (hknown : (db.tenants.get tenantId).isSome) :
    ReflTransGen Turn db db' ∧ Closed db' tenantId ∧ db'.jobs = db.jobs := by
  rcases updateTenant_ok .suspended (fun t => rfl) h with
    ⟨rfl, hskip⟩ | ⟨tenant, ht, hactive, hstatus, hother, -, hframe⟩
  · obtain ⟨t, ht⟩ := Option.isSome_iff_exists.mp hknown
    refine ⟨.refl, ⟨t.status, by rw [tenantStatus, ht, Option.map_some], ?_⟩, rfl⟩
    simpa using hskip t ht
  · have hbefore : tenantStatus db tenantId = some .active := by
      rw [tenantStatus, ht, Option.map_some]
      simpa using hactive
    refine ⟨?_, ⟨.suspended, hstatus, by simp⟩, by rw [hframe]⟩
    rw [hframe]
    refine .single (turn_tenants ?_)
    exact orderly_of_move (s := .active) (t := .suspended) hbefore hstatus (by simp) (by simp) (by simp)
      (fun id hid => tenantStatus_congr (hother id hid)) rfl

/-- What a request that was inserted does to the database. -/
structure Suspension (db db' : Db ρ σ) (tenantId : String) : Prop where
  turns : ReflTransGen Turn db db'
  frozen : ∀ found, Intact db found → Frozen db' tenantId

theorem scheduleDeletion_suspension {tenantId requestId requestedBy : String} {scheduledAt at' : Instant}
    {reason : DeletionReason} {reply : Bool}
    (h : scheduleDeletion tenantId requestId requestedBy scheduledAt at' reason db = (.ok reply, db')) :
    (reply = false ∧ db' = db) ∨ (reply = true ∧ Suspension db db' tenantId) := by
  simp only [scheduleDeletion, bind_ok, require_ok] at h
  obtain ⟨_, _, ⟨-, rfl⟩, inserted, t₁, hinsert, h⟩ := h
  rcases insertDeletion_ok hinsert with ⟨rfl, rfl⟩ | ⟨rfl, -, -, hknown, rfl⟩
  · simp only [Bool.false_eq_true, if_false, pure_ok] at h
    exact .inl h
  · simp only [if_true, suspendAndCancelTenant, bind_ok, read_ok, pure_ok] at h
    obtain ⟨_, t₂, haudit, _, t₅, ⟨_, _, ⟨rfl, rfl⟩, replies, t₃, hcancel, found, t₄, hsuspend, -, rfl⟩, rfl, rfl⟩ := h
    have hrequest : Turn db { db with deletionRequests := _ } := turn_deletionRequests
      (db.deletionRequests.insert ⟨tenantId, requestId⟩ (scheduledRequest requestedBy scheduledAt at'))
    have hbefore := (ReflTransGen.single hrequest).trans (appendRequestAudit_turns haudit)
    obtain ⟨hturns, hprogressed, hfrozen⟩ := cancellations_frozen hcancel
    have hknown₃ : (t₃.tenants.get tenantId).isSome := by
      rw [(forEach_cancellations_untouched hcancel).tenants, (appendRequestAudit_untouched haudit).tenants]
      exact hknown
    obtain ⟨hlast, hclosed, hjobs⟩ := suspend_turns hsuspend hknown₃
    refine .inr ⟨rfl, (hbefore.trans hturns).trans hlast, fun found hi => ⟨hclosed, fun key j hj hid => ?_⟩⟩
    rw [hjobs] at hj
    obtain ⟨j₂, hj₂, hp⟩ := hprogressed.jobs key j hj
    by_cases hover : j₂.state.terminal = true
    · rw [hp.terminal hover]
      exact JobRow.frozen_iff.mpr (.inl hover)
    · -- an unfinished job is reached through the key of the caller that started it
      obtain ⟨row, hrow, rfl⟩ := (turns_intact hbefore hi).lockstep.jobOwned key j₂ hj₂
      obtain rfl := Option.some.inj (hrow.job.symm.trans hj₂)
      have htenant : row.key.tenantId = tenantId := hid
      have hmem := mem_unfinishedJobs hrow (by simpa using hover)
      have howns := callerOwnsJob_joined hrow requestedBy
      rw [htenant] at hmem howns
      refine hfrozen _ hmem howns j ?_
      rw [DurableRow.jobKey, htenant] at hj
      exact hj

theorem requestDeletion_suspension {input : DeletionInput} {reply : Bool}
    (h : requestDeletion input db = (.ok reply, db')) :
    (reply = false ∧ db' = db) ∨ (reply = true ∧ Suspension db db' input.scope.tenantId) := by
  simp only [requestDeletion, bind_ok, require_ok, read_ok] at h
  obtain ⟨_, _, ⟨-, rfl⟩, _, _, ⟨-, rfl⟩, _, _, ⟨rfl, rfl⟩, h⟩ := h
  split at h
  · exact .inl (pure_ok.mp h)
  · split at h
    · exact .inl (pure_ok.mp h)
    · exact scheduleDeletion_suspension h

/-- One tenant of a schedule pass: its request, and its suspension. -/
structure Pass (db db' : Db ρ σ) : Prop where
  suspended : ∃ key row, Suspension db db' key.tenantId ∧
    db'.deletionRequests = db.deletionRequests.insert key row

theorem scheduleDue_passes {input : ScheduleInput} {locked ids : List String}
    (h : scheduleDue input locked db = (.ok ids, db')) : ReflTransGen Pass db db' := by
  refine scheduleDue_steps ?_ h
  intro tenantId requestId at' inserted s s' hs
  rcases scheduleDeletion_suspension hs with ⟨-, rfl⟩ | ⟨-, hsuspension⟩
  · exact .refl
  · rcases scheduleDeletion_ok hs with rfl | hscheduled
    · exact .refl
    · exact .single ⟨_, _, hsuspension, hscheduled.requests⟩

theorem passes_turns (h : ReflTransGen Pass db db') : ReflTransGen Turn db db' := by
  induction h with
  | refl => exact .refl
  | tail _ hpass ih =>
    obtain ⟨_, _, hs, -⟩ := hpass.suspended
    exact ih.trans hs.turns

/-- A tenant for which a pass added a request is frozen at its end. -/
theorem passes_frozen {found : List (DurableReproductionRecord ρ σ)} (hi : Intact db found) {key : Key}
    (hfresh : db.deletionRequests.get key = none) (h : ReflTransGen Pass db db')
    (hadded : (db'.deletionRequests.get key).isSome) : Frozen db' key.tenantId := by
  induction h with
  | refl =>
    rw [hfresh] at hadded
    cases hadded
  | tail hbefore hpass ih =>
    obtain ⟨scheduled, row, hs, hrequests⟩ := hpass.suspended
    by_cases hkey : key = scheduled
    · rw [hkey]
      exact hs.frozen found (turns_intact (passes_turns hbefore) hi)
    · rw [hrequests, Table.get_insert_other hkey] at hadded
      exact (turns_frozen hs.turns (ih hadded)).1

end suspending

/-! ## Runs -/

section runs

variable [ContentHash] [ResultDocument ρ] [RequestDocument σ] [Sha256]

theorem Custody.step_turns {w : Custody ρ σ} {action : CustodyAction ρ σ} (hothers : ∀ db, action ≠ .vault (.others db)) :
    ReflTransGen Turn w.vault.db (Custody.step action w).vault.db := by
  cases action with
  | vault action =>
    cases action with
    | start n request => exact .refl
    | advance n env => exact .single ((w.vault.calls n).step_effect env w.vault.db w.vault.blobs).turn
    | others db => exact absurd rfl (hothers db)
  | tenant name createdAt retentionUntil => exact signUp_turns name rfl
  | request attempts input =>
    dsimp only [Custody.step, Custody.withDb]
    rcases runSerializableTransaction_cases 3 attempts (requestDeletion input) w.vault.db with
      ⟨e, hrun⟩ | ⟨reply, db', hbody, hrun⟩
    · rw [hrun]
    · have hturns : ReflTransGen Turn w.vault.db db' := by
        rcases requestDeletion_suspension hbody with ⟨-, rfl⟩ | ⟨-, hs⟩
        · exact .refl
        · exact hs.turns
      rcases hrun with hrun | hrun <;> rw [hrun] <;> exact hturns
  | scheduleDue attempts input locked =>
    dsimp only [Custody.step, Custody.withDb]
    rcases runSerializableTransaction_cases 3 attempts (ReproForge.scheduleDue input locked) w.vault.db with
      ⟨e, hrun⟩ | ⟨reply, db', hbody, hrun⟩
    · rw [hrun]
    · rcases hrun with hrun | hrun <;> rw [hrun] <;> exact passes_turns (scheduleDue_passes hbody)
  | execute n at' ownerId locked => exact .refl
  | advance n env => exact ((w.executors n).step_commits env w.vault.db w.vault.blobs).turns

namespace Hosted

variable {w : Hosted ρ σ} {action : HostedAction ρ σ}

theorem step_turns (hs : w.Sound) (hp : w.Permitted action) : ReflTransGen Turn w.db (step action w).db := by
  cases action with
  | call attempts op =>
    refine call_turns hs.lockstep (fun record j he hj => ?_)
    obtain ⟨found, hfound, edit, rfl⟩ := hp record he
    refine (hs.anchored found hfound).resolve_right ?_
    exact hs.vacant (recordJobKey (found.edited edit)) j hj
  | clock now => exact .single (turn_now now)
  | find query =>
    rw [step]
    split <;> exact .refl
  | custody action =>
    refine Custody.step_turns ?_
    rintro db rfl
    exact hp

theorem Sound.step (hs : w.Sound) (hp : w.Permitted action) : (Hosted.step action w).Sound := by
  have hi := turns_intact (step_turns hs hp) hs
  cases action with
  | find query =>
    rw [Hosted.step] at hi ⊢
    split
    · rename_i record db' hq
      obtain ⟨row, hrow, hrecord⟩ := query.statement_some hq
      refine ⟨hs.lockstep, fun r hr => ?_, hs.vacant⟩
      rcases List.mem_cons.mp hr with rfl | hr
      · exact .inl ⟨row, hrow, (rowToRecord_anchor hrecord).symm⟩
      · exact hs.anchored r hr
    · exact hs
  | _ => exact hi

/-- The transaction of the action committed a new deletion request of the tenant. -/
inductive Suspends (id : String) (db : Db ρ σ) : HostedAction ρ σ → Db ρ σ → Prop where
  | request {attempts input db'} : requestDeletion input db = (.ok true, db') → input.scope.tenantId = id →
      Suspends id db (.custody (.request attempts input)) db'
  | scheduleDue {attempts input locked ids db' key} : ReproForge.scheduleDue input locked db = (.ok ids, db') →
      key.tenantId = id → db.deletionRequests.get key = none → (db'.deletionRequests.get key).isSome →
      Suspends id db (.custody (.scheduleDue attempts input locked)) db'

omit [ContentHash] in
theorem Suspends.frozen {id : String} {db db' : Db ρ σ} {found : List (DurableReproductionRecord ρ σ)}
    (h : Suspends id db action db') (hi : Intact db found) : Frozen db' id := by
  cases h with
  | request hrequest hid =>
    rcases requestDeletion_suspension hrequest with ⟨hreply, -⟩ | ⟨-, hs⟩
    · cases hreply
    · exact hid ▸ hs.frozen found hi
  | scheduleDue hpass hid hfresh hadded => exact hid ▸ passes_frozen hi hfresh (scheduleDue_passes hpass) hadded

end Hosted

omit [ContentHash] [ResultDocument ρ] [RequestDocument σ] [Sha256] in
/-- No worker takes a job of a closed tenant. -/
theorem Closed.not_claimed {db : Db ρ σ} {input : ClaimInput} (h : Closed db input.tenantId) (attempts : List Attempt)
    (lease : JobLease) : (runSerializableTransaction 3 attempts (claimLease input) db).1 ≠ .ok (some lease) := by
  intro hreply
  have hclaim := runSerializableTransaction_ok (Prod.ext hreply rfl)
  have hinactive : tenantActive db input.tenantId = false := by
    rw [← Bool.not_eq_true, tenantActive_iff]
    exact h.not_active
  simp only [claimLease, bind_ok, require_ok, read_ok] at hclaim
  obtain ⟨_, _, ⟨-, rfl⟩, _, _, ⟨rfl, rfl⟩, hclaim⟩ := hclaim
  rw [hinactive] at hclaim
  cases (pure_ok.mp hclaim).1

/-- What no later step of a run undoes. -/
structure Suspended (w : Hosted ρ σ) (id : String) : Prop where
  frozen : Frozen w.db id
  next : ∀ action, w.Permitted action → Remains w.db (Hosted.step action w).db id
  unclaimed : ∀ attempts (input : ClaimInput) lease, input.tenantId = id →
    (runSerializableTransaction 3 attempts (claimLease input) w.db).1 ≠ .ok (some lease)

/-- In every interleaving of starts, workers, consumers, recoveries, artifact calls and deletions: once
a transaction has committed a deletion request of a tenant, the tenant is frozen, now and later. -/
theorem suspension_freezes (now : Instant) (actions later : List (HostedAction ρ σ)) (action : HostedAction ρ σ)
    (id : String) (h : Runs.Guarded Hosted.step Hosted.Permitted (actions ++ action :: later) (Hosted.initial now))
    (hsuspends : Hosted.Suspends id (Runs.run Hosted.step actions (Hosted.initial now)).db action
      (Runs.run Hosted.step (actions ++ [action]) (Hosted.initial now)).db) :
    Suspended (Runs.run Hosted.step (actions ++ action :: later) (Hosted.initial now)) id := by
  obtain ⟨hfirst, haction, hlater⟩ := Runs.guarded_append.mp h
  have hstep : ∀ (w : Hosted ρ σ) action, w.Sound → w.Permitted action → (Hosted.step action w).Sound :=
    fun w action hw hp => hw.step hp
  have hsound := Runs.run_invariant hstep (Hosted.sound_initial now) hfirst
  rw [Runs.run_append] at hsuspends ⊢
  have hfrozen := hsuspends.frozen hsound
  have hkept : ∀ (w : Hosted ρ σ) action, w.Sound ∧ Frozen w.db id → w.Permitted action →
      (Hosted.step action w).Sound ∧ Frozen (Hosted.step action w).db id :=
    fun w action hw hp => ⟨hw.1.step hp, (turns_frozen (Hosted.step_turns hw.1 hp) hw.2).1⟩
  obtain ⟨hend, hends⟩ := Runs.run_invariant hkept ⟨hsound.step haction, hfrozen⟩ hlater
  refine ⟨hends, fun next hp => (turns_frozen (Hosted.step_turns hend hp) hends).2, ?_⟩
  rintro attempts input lease rfl
  exact hends.closed.not_claimed attempts lease

end runs

end ReproForge

/-! ## A sample suspension -/

namespace ReproForge.Sample.Suspension

/-- The digests of the case of the first start and of the deletion request. -/
scoped instance (priority := 2000) suspensionDigests : Sha256 where
  hex text :=
    if text = "acme\u0000case-1" then "a523b6117c5475090b2c429e2384b13bd1704ef948f5ad0e091ad668b197f517"
    else if text = "acme:delete-1" then "f0115a144b84116ec60dbae04fd3a5b67ef08a51063a714365c67724b09f615b"
    else ""

/-- A tenant signs up, and its first job is queued. -/
def enlisted : List (HostedAction Empty Empty) :=
  [.custody (.tenant "acme" opening none),
    .call [] (.start .default ((startInput (ρ := Empty) reservationLifetime
      (command "case-1" "job-1" "key-1" opening)).get (by decide +kernel)))]

/-- A worker comes too late. -/
def belatedClaim : List (HostedAction Empty Empty) :=
  [.call [] (.claimLease ⟨opening + 2000, "job-1", 60, "worker", "acme"⟩)]

end ReproForge.Sample.Suspension

namespace ReproForge

open Sample Sample.Suspension

theorem suspends_erasure {w : Hosted Empty Empty}
    (h : (runSerializableTransaction 3 [] (requestDeletion erasure) w.db).1 = .ok true) :
    Hosted.Suspends "acme" w.db (.custody (.request [] erasure))
      (Hosted.step (.custody (.request [] erasure)) w).db :=
  .request (runSerializableTransaction_ok (Prod.ext h rfl)) rfl

theorem suspension_freezes_sample :
    (∃ j, (Runs.run Hosted.step enlisted (Hosted.initial opening)).db.jobs.get ⟨"acme", "job-1"⟩ = some j ∧
        j.state = .queued) ∧
      Suspended (Runs.run Hosted.step (enlisted ++ .custody (.request [] erasure) :: belatedClaim)
        (Hosted.initial opening)) "acme" := by
  have hrun : ((Runs.run Hosted.step enlisted (Hosted.initial opening)).db.jobs.get ⟨"acme", "job-1"⟩).map
        JobRow.state = some .queued ∧
      (runSerializableTransaction 3 [] (requestDeletion erasure)
        (Runs.run Hosted.step enlisted (Hosted.initial opening)).db).1 = .ok true := by
    decide +kernel
  refine ⟨Option.map_eq_some_iff.mp hrun.1, ?_⟩
  refine suspension_freezes opening enlisted belatedClaim (.custody (.request [] erasure)) "acme" ?_ ?_
  · exact ⟨trivial, fun _ h => h.elim, trivial, fun _ h => h.elim, trivial⟩
  · rw [Runs.run_append]
    exact suspends_erasure hrun.2

end ReproForge
