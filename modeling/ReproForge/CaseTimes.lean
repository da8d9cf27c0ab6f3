import ReproForge.System

/-!
# The creation times of cases

Of all the operations only `save` and `completeLease` replace the document of a
case, by the record of their caller. Every other operation leaves each stored
case as old as it is, through any number of attempts.
-/
namespace ReproForge

open KeyedTable Transactions Transactions.Tx Relation

variable {ρ σ : Type}

/-- `domain_state.case.createdAt` of a stored case. -/
def caseCreatedAt (db : Db ρ σ) (key : Key) : Option Instant :=
  (db.cases.get key).map (fun c => c.domainState.case.createdAt)

/-- Every stored case is still stored, and as old as before. -/
def TimesKept (db db' : Db ρ σ) : Prop :=
  ∀ key t, caseCreatedAt db key = some t → caseCreatedAt db' key = some t

namespace TimesKept

theorem of_eq {db db' : Db ρ σ} (h : db'.cases = db.cases) : TimesKept db db' := by
  intro key t ht
  rw [caseCreatedAt, h]
  exact ht

theorem refl (db : Db ρ σ) : TimesKept db db := of_eq rfl

theorem trans {s t u : Db ρ σ} (hst : TimesKept s t) (htu : TimesKept t u) : TimesKept s u :=
  fun key at' h => htu key at' (hst key at' h)

theorem steps {db db' : Db ρ σ} (h : ReflTransGen TimesKept db db') : TimesKept db db' := by
  induction h with
  | refl => exact .refl db
  | tail _ hlast ih => exact ih.trans hlast

end TimesKept

theorem transitionCase_createdAt {current moved : ReproCase} {target : CaseState} {reason : String} {at' : Instant}
    (h : transitionCase current target reason at' = some moved) : moved.createdAt = current.createdAt := by
  obtain ⟨-, -, rfl⟩ := transitionCase_some h
  rfl

variable [ResultDocument ρ] [RequestDocument σ]

/-- The case of a record that is read and then cancelled is as old as the stored one. -/
theorem cancelled_createdAt {row : DurableRow ρ σ} {record cancelled : DurableReproductionRecord ρ σ}
    {at' : Instant} (hrecord : rowToRecord row = some record) (hcancel : cancelRecord record at' = some cancelled) :
    cancelled.snapshot.case.createdAt = row.case.domainState.case.createdAt := by
  obtain ⟨failure, -, -, -, -, -, -, -, rfl, -⟩ := rowToRecord_some.mp hrecord
  obtain ⟨case, job, hcase, rfl⟩ := cancelRecord_some hcancel
  exact transitionCase_createdAt hcase

/-- A step that cancels a job is one of the two that read its record first. -/
theorem JobStep.createdAt_of_cancelled {db : Db ρ σ} {key caseKey : Key} {j j' : JobRow} {c c' : CaseRow ρ σ}
    (h : JobStep db key caseKey j c j' c') (hj' : j'.state = .cancelled) :
    c'.domainState.case.createdAt = c.domainState.case.createdAt := by
  cases h with
  | claim => cases hj'
  | renew lease at' expiresAt _ _ hs =>
    rw [JobRow.renewed, hs] at hj'
    cases hj'
  | complete lease record _ _ _ _ _ _ _ _ _ _ hs =>
    rw [JobRow.completed] at hj'
    rcases hs with hs | hs <;> (rw [hs] at hj'; cases hj')
  | requeue => cases hj'
  | exhaust => cases hj'
  | request at' _ hs =>
    rw [JobRow.cancellationRequested, hs] at hj'
    cases hj'
  | cancelQueued row record cancelled at' _ _ _ _ _ hcase hrecord hcancel _ =>
    subst hcase
    exact cancelled_createdAt hrecord hcancel
  | cancelRunning lease row record cancelled at' _ _ _ _ _ _ _ _ hcase hrecord hcancel _ =>
    subst hcase
    exact cancelled_createdAt hrecord hcancel
  | save record _ _ _ _ _ hs =>
    rw [JobRow.saved, hs] at hj'
    cases hj'

variable [Sha256]

theorem JobWrite.timesKept {db db' : Db ρ σ} {key caseKey : Key} {j j' : JobRow} {c c' : CaseRow ρ σ}
    (h : JobWrite db db' key caseKey j j' c c')
    (hc : c'.domainState.case.createdAt = c.domainState.case.createdAt) : TimesKept db db' := by
  intro k t ht
  have hget : db'.cases.get k = (db.cases.set caseKey c').get k := by rw [h.result]
  rw [caseCreatedAt, hget]
  by_cases hk : k = caseKey
  · subst hk
    rw [caseCreatedAt, h.case] at ht
    rw [Table.get_set_self h.case]
    simpa [hc] using ht
  · rw [Table.get_set_other _ _ hk]
    exact ht

theorem JobWrite.timesKept_of_advanced {db db' : Db ρ σ} {key caseKey : Key} {j j' : JobRow} {c : CaseRow ρ σ}
    {at' : Instant} (h : JobWrite db db' key caseKey j j' c (c.advanced at')) : TimesKept db db' :=
  h.timesKept rfl

theorem JobWrite.timesKept_of_cancelled {db db' : Db ρ σ} {key caseKey : Key} {j j' : JobRow} {c c' : CaseRow ρ σ}
    (h : JobWrite db db' key caseKey j j' c c') (hj' : j'.state = .cancelled) : TimesKept db db' :=
  h.timesKept (h.step.createdAt_of_cancelled hj')

/-- A record that replaces the document of its case keeps the times if it is as old as that. -/
theorem JobWrite.timesKept_of_rewritten {db db' : Db ρ σ} {key : Key} {j j' : JobRow} {c : CaseRow ρ σ}
    {record : DurableReproductionRecord ρ σ}
    (h : JobWrite db db' key (recordCaseKey record) j j' c (c.rewritten record))
    (hold : ∀ t, caseCreatedAt db (recordCaseKey record) = some t → record.snapshot.case.createdAt = t) :
    TimesKept db db' := by
  refine h.timesKept (hold _ ?_)
  rw [caseCreatedAt, h.case, Option.map_some]

theorem FailWrite.timesKept {lease : JobLease} {failure : LeaseFailure} {db db' : Db ρ σ}
    {disposition : LeaseFailureDisposition} (h : FailWrite lease failure db db' disposition) :
    TimesKept db db' := by
  cases h with
  | cancelled _ _ hw => exact hw.timesKept_of_cancelled rfl
  | requeued _ hw => exact hw.timesKept_of_advanced
  | exhausted _ hw => exact hw.timesKept_of_advanced

theorem recoverExpiredLeases_timesKept {input : RecoverInput} {locked : List Key} {summary : LeaseRecoverySummary}
    {db db' : Db ρ σ} (h : recoverExpiredLeases input locked db = (.ok summary, db')) : TimesKept db db' := by
  simp only [recoverExpiredLeases, bind_ok, require_ok, read_ok, pure_ok] at h
  obtain ⟨_, _, ⟨-, rfl⟩, _, _, ⟨rfl, rfl⟩, dispositions, t, hloop, -, rfl⟩ := h
  apply TimesKept.steps
  refine forEach_steps ?_ hloop
  intro row disposition s s' hrow
  obtain ⟨lease, s₁, key, audit, hfail, -, hd⟩ := recoverLease_ok hrow
  refine .single (hfail.timesKept.trans (.of_eq ?_))
  rw [hd]

omit [ResultDocument ρ] [RequestDocument σ] [Sha256] in
theorem OutboxWrite.timesKept {db db' : Db ρ σ} {key : Key} {o o' : OutboxRow} (h : OutboxWrite db db' key o o') :
    TimesKept db db' := .of_eq (by rw [h.result])

omit [ResultDocument ρ] [RequestDocument σ] [Sha256] in
theorem claimPending_timesKept {input : ClaimPendingInput} {locked : List Key} {claims : List OutboxClaim}
    {db db' : Db ρ σ} (h : claimPending input locked db = (.ok claims, db')) : TimesKept db db' := by
  simp only [claimPending] at h
  split at h
  · simp only [bind_ok, require_ok, read_ok] at h
    obtain ⟨_, _, ⟨-, rfl⟩, _, _, ⟨rfl, rfl⟩, hloop⟩ := h
    apply TimesKept.steps
    refine forEach_steps ?_ hloop
    intro event claim s s' hevent
    obtain ⟨o, hw, -⟩ := claimEvent_ok hevent
    exact .single hw.timesKept
  · obtain ⟨-, rfl⟩ := pure_ok.mp h
    exact .refl db'

omit [Sha256] in
theorem StartWrite.timesKept {limits : QuotaLimits} {input : DurableStartInput ρ σ} {db db' : Db ρ σ}
    (h : StartWrite limits input db db') : TimesKept db db' := by
  intro key t ht
  obtain ⟨c, hc, rfl⟩ := Option.map_eq_some_iff.mp ht
  rw [caseCreatedAt, h.result]
  simp only
  rw [Table.get_insert_some hc, Option.map_some]

/-- The records that an event stores are as old as the cases that they replace. -/
def Event.Preserves (event : Event ρ σ) (db : Db ρ σ) : Prop :=
  ∀ record t, event.edits record → caseCreatedAt db (recordCaseKey record) = some t →
    record.snapshot.case.createdAt = t

theorem completeLease_timesKept {lease : JobLease} {record reply : DurableReproductionRecord ρ σ} {db db' : Db ρ σ}
    (h : completeLease lease record db = (.ok reply, db'))
    (hold : ∀ t, caseCreatedAt db (recordCaseKey record) = some t → record.snapshot.case.createdAt = t) :
    TimesKept db db' := by
  obtain ⟨-, j, c, -, -, hkey, hw⟩ := completeLease_ok h
  rw [hkey] at hw
  exact hw.timesKept_of_rewritten hold

/-- Every operation keeps the times, those that store a record on that condition. -/
theorem Op.statement_timesKept {attempts : List Attempt} {op : Op ρ σ} {db db' : Db ρ σ} {u : Unit}
    (hop : op.isStart = false) (hedits : (Event.call attempts op).Preserves db)
    (h : op.statement db = (.ok u, db')) : TimesKept db db' := by
  cases op with
  | start limits input => cases hop
  | save record expectedVersion =>
    obtain ⟨reply, hr⟩ := discard_ok h
    obtain ⟨-, j, c, hw⟩ := save_ok hr
    exact hw.timesKept_of_rewritten (fun t => hedits record t rfl)
  | claimLease input =>
    obtain ⟨reply, hr⟩ := discard_ok h
    rcases claimLease_ok hr with ⟨-, rfl⟩ | ⟨j, c, -, hw⟩
    · exact .refl db'
    · exact hw.timesKept_of_advanced
  | renewLease lease input =>
    obtain ⟨reply, hr⟩ := discard_ok h
    obtain ⟨-, j, c, -, hw⟩ := renewLease_ok hr
    exact hw.timesKept_of_advanced
  | completeLease lease record =>
    obtain ⟨reply, hr⟩ := discard_ok h
    exact completeLease_timesKept hr (fun t => hedits record t rfl)
  | failLease lease failure =>
    obtain ⟨reply, hr⟩ := discard_ok h
    exact (failLease_ok hr).timesKept
  | releaseLease lease input =>
    obtain ⟨disposition, hfail⟩ := releaseLease_ok h
    exact hfail.timesKept
  | recoverExpiredLeases input locked =>
    obtain ⟨reply, hr⟩ := discard_ok h
    exact recoverExpiredLeases_timesKept hr
  | requestCancellation scope jobId at' =>
    obtain ⟨reply, hr⟩ := discard_ok h
    rcases requestCancellation_ok hr with ⟨-, rfl⟩ | ⟨-, -, -, rfl, -⟩ | ⟨caseId, disposition, -, hw⟩
    · exact .refl db'
    · exact .refl db'
    · cases hw with
      | requested _ hw => exact hw.timesKept_of_advanced
      | cancelled _ hw => exact hw.timesKept_of_cancelled rfl
  | cancelLease lease at' =>
    obtain ⟨reply, hr⟩ := discard_ok h
    obtain ⟨j, c, cancelled, -, -, hw⟩ := cancelLease_ok hr
    exact hw.timesKept_of_cancelled rfl
  | claimPending input locked =>
    obtain ⟨reply, hr⟩ := discard_ok h
    exact claimPending_timesKept hr
  | markDelivered claim input =>
    obtain ⟨reply, hr⟩ := discard_ok h
    rcases markDelivered_ok hr with ⟨-, rfl⟩ | ⟨o, -, -, hw⟩
    · exact .refl db'
    · exact hw.timesKept
  | recordFailure claim input =>
    obtain ⟨reply, hr⟩ := discard_ok h
    rcases recordFailure_ok hr with rfl | ⟨o, -, hw⟩
    · exact .refl db'
    · exact hw.timesKept

theorem step_timesKept {event : Event ρ σ} {db : Db ρ σ} (hedits : event.Preserves db) :
    TimesKept db (step event db) := by
  cases event with
  | call attempts op =>
    cases hop : op.isStart with
    | true =>
      cases op with
      | start limits input =>
        rcases step_start attempts limits input db with hd | hw
        · rw [hd]
          exact .refl db
        · exact hw.timesKept
      | _ => cases hop
    | false =>
      rcases step_call attempts op db with hd | ⟨u, hu⟩
      · rw [hd]
        exact .refl db
      · exact Op.statement_timesKept hop hedits hu
  | clock now => exact .of_eq rfl
  | tenants t => exact .of_eq rfl
  | artifacts t => exact .of_eq rfl
  | deletionRequests t => exact .of_eq rfl

end ReproForge
