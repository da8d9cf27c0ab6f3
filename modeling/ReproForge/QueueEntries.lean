import ReproForge.Delivery

/-!
# Entering the queue

A job enters the queue together with the event of its wake-up, under a name
that no event had before. `Sound` collects what holds of the rows behind the
wake-ups, and `Advance` what the queue can rely on when the database changes.
-/
namespace ReproForge

open KeyedTable Transactions Transactions.Tx Relation

variable {ρ σ : Type} [ResultDocument ρ] [RequestDocument σ]

/-! ## How a job enters the queue -/

/-- A step that leaves a job in the queue found it there or requeued it. -/
theorem JobStep.queued {db : Db ρ σ} {key caseKey : Key} {j j' : JobRow} {c c' : CaseRow ρ σ}
    (h : JobStep db key caseKey j c j' c') (hs : j'.state = .queued) :
    j'.attempt = j.attempt ∧ (j.state = .queued ∨ j.state = .running ∧ 0 < j.attempt ∧ j.attempt < j.maxAttempts) := by
  cases h with
  | claim ownerId acquiredAt expiresAt _ _ _ _ => simp [JobRow.claimed] at hs
  | renew lease at' expiresAt _ _ hrunning _ _ _ _ _ _ _ _ => simp [JobRow.renewed, hrunning] at hs
  | complete lease record _ _ _ _ _ _ _ _ _ _ hterminal _ =>
    rcases hterminal with ht | ht <;> simp [JobRow.completed, ht] at hs
  | requeue lease nextAttemptAt at' _ hlease hl _ hattempts _ _ _ _ =>
    obtain ⟨hrunning, -, hattempt, -, -⟩ := JobRow.leasedBy_iff.mp hl
    simp only [JobLease.valid, Bool.and_eq_true, decide_eq_true_eq] at hlease
    refine ⟨rfl, .inr ⟨hrunning, ?_, hattempts⟩⟩
    omega
  | exhaust lease failure nextAttemptAt at' _ _ _ _ _ _ _ _ => simp [JobRow.failed] at hs
  | request at' _ hrunning _ _ => simp [JobRow.cancellationRequested, hrunning] at hs
  | cancelQueued row record cancelled at' _ _ _ _ _ _ _ _ _ => simp [JobRow.cancelledQueued] at hs
  | cancelRunning lease row record cancelled at' _ _ _ _ _ _ _ _ _ _ _ _ => simp [JobRow.cancelledRunning] at hs
  | save record _ _ _ _ _ _ hqueued _ hattempt _ => exact ⟨hattempt, .inl hqueued⟩

/-- A step that leaves a job running found it running, or began a new attempt. -/
theorem JobStep.running {db : Db ρ σ} {key caseKey : Key} {j j' : JobRow} {c c' : CaseRow ρ σ}
    (h : JobStep db key caseKey j c j' c') (hs : j'.state = .running) :
    j.state = .running ∨ j.attempt < j'.attempt := by
  cases h with
  | claim ownerId acquiredAt expiresAt _ _ _ _ => exact .inr (Nat.lt_succ_self _)
  | renew lease at' expiresAt _ _ hrunning _ _ _ _ _ _ _ _ => exact .inl hrunning
  | complete lease record _ _ _ _ _ _ _ hl _ _ _ _ => exact .inl (JobRow.leasedBy_iff.mp hl).1
  | requeue lease nextAttemptAt at' _ _ hl _ _ _ _ _ _ => exact .inl (JobRow.leasedBy_iff.mp hl).1
  | exhaust lease failure nextAttemptAt at' _ _ hl _ _ _ _ _ => exact .inl (JobRow.leasedBy_iff.mp hl).1
  | request at' _ hrunning _ _ => exact .inl hrunning
  | cancelQueued row record cancelled at' _ _ _ _ _ _ _ _ _ => simp [JobRow.cancelledQueued] at hs
  | cancelRunning lease row record cancelled at' _ _ _ _ _ _ _ _ _ _ _ _ => simp [JobRow.cancelledRunning] at hs
  | save record _ _ _ _ _ hqueued _ _ _ _ => simp [JobRow.saved, hqueued] at hs

theorem OutboxStep.payload {key : Key} {o o' : OutboxRow} (h : OutboxStep key o o') : o'.payload = o.payload := by
  cases h <;> rfl

/-! ## The database -/

variable [Sha256]

/-- The message is the payload of its event. -/
def Recorded (db : Db ρ σ) (message : QueueMessage) : Prop :=
  ∃ o, db.outboxEvents.get (messageKey message) = some o ∧ o.payload = message

/-- The rows behind the wake-ups. -/
structure Sound (db : Db ρ σ) : Prop where
  lockstep : Lockstep db
  jobsChecked : JobsChecked db
  casesChecked : ∀ key c, db.cases.get key = some c → c.checks key = true
  maxAttempts : ∀ key j, db.jobs.get key = some j → j.maxAttempts = 3
  tenants : ∀ key j, db.jobs.get key = some j → ∃ t, db.tenants.get key.tenantId = some t
  /-- A queued job has its event. -/
  events : ∀ key j, db.jobs.get key = some j → j.state = .queued → Recorded db (wakeUp key j)
  /-- An event is the first one of a case or names an attempt that is over. -/
  named : ∀ key o, db.outboxEvents.get key = some o → (∃ caseId, key.id = "outbox_" ++ caseId) ∨
    ∃ jobKey j n, db.jobs.get jobKey = some j ∧ jobKey.tenantId = key.tenantId ∧
      key.id = recoveryEventId jobKey.tenantId jobKey.id n ∧ 0 < n ∧ n < j.maxAttempts ∧ n ≤ j.attempt ∧
      (j.state = .running → n < j.attempt)

/-- What the queue can rely on across a change of the database. -/
structure Advance (event : Event ρ σ) (db db' : Db ρ σ) : Prop where
  rows : ∀ key o, db.outboxEvents.get key = some o →
    ∃ o', db'.outboxEvents.get key = some o' ∧ o'.payload = o.payload
  /-- A job that enters the queue has a wake-up that was never an event before. -/
  entries : ∀ key j', db'.jobs.get key = some j' → j'.state = .queued →
    (∃ j, db.jobs.get key = some j ∧ j.state = .queued ∧ j'.caseId = j.caseId ∧ j'.attempt = j.attempt ∧
      j'.maxAttempts = j.maxAttempts) ∨
    db.outboxEvents.get (messageKey (wakeUp key j')) = none
  tenants : TenantsKept db db'.tenants
  delivered : ∀ key o', db'.outboxEvents.get key = some o' → o'.status = .delivered →
    (∃ o, db.outboxEvents.get key = some o ∧ o.payload = o'.payload ∧ o.status = .delivered) ∨
      ∃ claim, event.delivers claim ∧ key = messageKey claim.message

omit [ResultDocument ρ] [RequestDocument σ] [Sha256] in
theorem TenantsKept.refl (db : Db ρ σ) : TenantsKept db db.tenants := fun _ t ht => ⟨t, ht, id⟩

omit [ResultDocument ρ] [RequestDocument σ] in
theorem wakeUp_congr {key : Key} {j j' : JobRow} (hcase : j'.caseId = j.caseId) (hattempt : j'.attempt = j.attempt) :
    wakeUp key j' = wakeUp key j := by
  simp only [wakeUp, recoveryMessage, hcase, hattempt]

omit [ResultDocument ρ] [RequestDocument σ] in
theorem Advance.refl (event : Event ρ σ) (db : Db ρ σ) : Advance event db db where
  rows := fun _ o ho => ⟨o, ho, rfl⟩
  entries := fun _ j hj hs => .inl ⟨j, hj, hs, rfl, rfl, rfl⟩
  tenants := .refl db
  delivered := fun _ o ho hs => .inl ⟨o, ho, rfl, hs⟩

omit [ResultDocument ρ] [RequestDocument σ] in
theorem Advance.trans {event : Event ρ σ} {s t u : Db ρ σ} (hst : Advance event s t) (htu : Advance event t u) :
    Advance event s u where
  rows := by
    intro key o ho
    obtain ⟨o', ho', hp⟩ := hst.rows key o ho
    obtain ⟨o'', ho'', hp'⟩ := htu.rows key o' ho'
    exact ⟨o'', ho'', hp'.trans hp⟩
  entries := by
    intro key j'' hj'' hs
    have hfresh : t.outboxEvents.get (messageKey (wakeUp key j'')) = none →
        s.outboxEvents.get (messageKey (wakeUp key j'')) = none := by
      intro hn
      cases ho : s.outboxEvents.get (messageKey (wakeUp key j'')) with
      | none => rfl
      | some o =>
        obtain ⟨o', ho', -⟩ := hst.rows _ o ho
        rw [hn] at ho'
        cases ho'
    rcases htu.entries key j'' hj'' hs with ⟨j', hj', hs', hc', ha', hm'⟩ | hn
    · rcases hst.entries key j' hj' hs' with ⟨j, hj, hsj, hc, ha, hm⟩ | hn
      · exact .inl ⟨j, hj, hsj, hc'.trans hc, ha'.trans ha, hm'.trans hm⟩
      · right
        rw [wakeUp_congr hc' ha']
        exact hn
    · exact .inr (hfresh hn)
  tenants := by
    intro id row hrow
    obtain ⟨row', hrow', hactive⟩ := hst.tenants id row hrow
    obtain ⟨row'', hrow'', hactive'⟩ := htu.tenants id row' hrow'
    exact ⟨row'', hrow'', fun h => hactive (hactive' h)⟩
  delivered := by
    intro key o'' ho'' hs
    rcases htu.delivered key o'' ho'' hs with ⟨o', ho', hp', hd⟩ | hclaim
    · rcases hst.delivered key o' ho' hd with ⟨o, ho, hp, hd'⟩ | hclaim
      · exact .inl ⟨o, ho, hp.trans hp', hd'⟩
      · exact .inr hclaim
    · exact .inr hclaim

section changes

variable {event : Event ρ σ} {db db' : Db ρ σ}

/-- A running attempt has no recovery event yet. -/
theorem Sound.recovery_fresh (hdb : Sound db) (hdigests : DistinctDigests db)
    {key : Key} {j : JobRow} (hj : db.jobs.get key = some j) (hrunning : j.state = .running) (hpos : 0 < j.attempt)
    (hmax : j.attempt < j.maxAttempts) :
    db.outboxEvents.get ⟨key.tenantId, recoveryEventId key.tenantId key.id j.attempt⟩ = none := by
  cases ho : db.outboxEvents.get ⟨key.tenantId, recoveryEventId key.tenantId key.id j.attempt⟩ with
  | none => rfl
  | some o =>
    exfalso
    rcases hdb.named _ o ho with ⟨caseId, he⟩ | ⟨jobKey, j', n, hj', htenant, hid, hn, hnmax, -, hover⟩
    · have hchars := congrArg String.toList he
      simp [recoveryEventId] at hchars
    · obtain ⟨rfl, rfl⟩ := hdigests key j jobKey j' j.attempt n hj hj' htenant.symm hpos hmax hn hnmax hid
      obtain rfl := Option.some.inj (hj.symm.trans hj')
      exact absurd (hover hrunning) (lt_irrefl _)

/-- The event of the job that a write leaves in the queue: kept, or new. -/
theorem wakeUp_of_jobWrite {key caseKey : Key} {j j' : JobRow} {c c' : CaseRow ρ σ}
    (hw : JobWrite db db' key caseKey j j' c c') (hs : j'.state = .queued) :
    (j.state = .queued ∧ j'.attempt = j.attempt ∧ wakeUp key j' = wakeUp key j) ∨
      (j.state = .running ∧ 0 < j.attempt ∧ j.attempt < j.maxAttempts ∧ wakeUp key j' = recoveryMessage key j ∧
        db'.outboxEvents = db.outboxEvents.insert (messageKey (recoveryMessage key j))
          (recoveryEvent key j j'.nextAttemptAt j'.updatedAt)) := by
  have hp := hw.step.progress
  obtain ⟨hattempt, hqueued | ⟨hrunning, hpos, hmax⟩⟩ := hw.step.queued hs
  · exact .inl ⟨hqueued, hattempt, wakeUp_congr hp.caseId hattempt⟩
  · refine .inr ⟨hrunning, hpos, hmax, ?_, ?_⟩
    · rw [wakeUp_congr hp.caseId hattempt, wakeUp, if_neg (by omega)]
    · rw [hw.result]
      simp only [recoveredOutbox, hrunning, hs, and_self, if_true]
      rfl

/-- An outbox row stays through a job write, and a new one belongs to the job. -/
theorem outbox_of_jobWrite {key caseKey : Key} {j j' : JobRow} {c c' : CaseRow ρ σ}
    (hw : JobWrite db db' key caseKey j j' c c') :
    (∀ k o, db.outboxEvents.get k = some o → db'.outboxEvents.get k = some o) ∧
      ∀ k o, db'.outboxEvents.get k = some o → db.outboxEvents.get k = some o ∨
        (j.state = .running ∧ j'.state = .queued ∧ k = messageKey (recoveryMessage key j) ∧
          o = recoveryEvent key j j'.nextAttemptAt j'.updatedAt) := by
  have houtbox : db'.outboxEvents = recoveredOutbox key j j' db.outboxEvents := by rw [hw.result]
  rw [houtbox]
  unfold recoveredOutbox
  split
  · rename_i hs
    refine ⟨fun k o ho => Table.get_insert_some ho, ?_⟩
    intro k o ho
    by_cases hk : k = messageKey (recoveryMessage key j)
    · cases hold : db.outboxEvents.get k with
      | some o₀ =>
        have hkept : (db.outboxEvents.insert (messageKey (recoveryMessage key j))
            (recoveryEvent key j j'.nextAttemptAt j'.updatedAt)).get k = some o₀ := Table.get_insert_some hold
        exact .inl (hkept.symm.trans ho)
      | none =>
        subst hk
        exact .inr ⟨hs.1, hs.2, rfl, (Option.some.inj ((Table.get_insert_self hold).symm.trans ho)).symm⟩
    · exact .inl ((Table.get_insert_other hk).symm.trans ho)
  · exact ⟨fun _ _ ho => ho, fun _ _ ho => .inl ho⟩

theorem JobWrite.advance (hdb : Sound db) (hdigests : DistinctDigests db) {key caseKey : Key} {j j' : JobRow}
    {c c' : CaseRow ρ σ} (hw : JobWrite db db' key caseKey j j' c c') : Advance event db db' := by
  obtain ⟨hold, hnew⟩ := outbox_of_jobWrite hw
  constructor
  · exact fun k o ho => ⟨o, hold k o ho, rfl⟩
  · intro k j₁ hj₁ hs
    by_cases hk : k = key
    · subst hk
      obtain rfl := Option.some.inj (hj₁.symm.trans hw.job_get)
      have hp := hw.step.progress
      rcases wakeUp_of_jobWrite hw hs with ⟨hqueued, hattempt, -⟩ | ⟨hrunning, hpos, hmax, hwake, -⟩
      · exact .inl ⟨j, hw.job, hqueued, hp.caseId, hattempt, hp.maxAttempts⟩
      · right
        rw [hwake]
        exact hdb.recovery_fresh hdigests hw.job hrunning hpos hmax
    · exact .inl ⟨j₁, (hw.job_get_other hk) ▸ hj₁, hs, rfl, rfl, rfl⟩
  · rw [hw.result]
    exact .refl db
  · intro k o ho hs
    rcases hnew k o ho with ho | ⟨-, -, -, rfl⟩
    · exact .inl ⟨o, ho, rfl, hs⟩
    · simp [recoveryEvent, pendingEvent] at hs

theorem JobWrite.sound (hdb : Sound db) (hdigests : DistinctDigests db) (hlock : Lockstep db') {key caseKey : Key}
    {j j' : JobRow} {c c' : CaseRow ρ σ} (hw : JobWrite db db' key caseKey j j' c c')
    (hwrite : Write db db') : Sound db' := by
  have hp := hw.step.progress
  obtain ⟨hold, hnew⟩ := outbox_of_jobWrite hw
  constructor
  · exact hlock
  · exact hwrite.jobsChecked hdb.jobsChecked
  · intro k c₁ hc₁
    rw [hw.result, Table.get_set] at hc₁
    split at hc₁
    · rename_i hk
      subst hk
      rw [hw.case] at hc₁
      cases hc₁
      have hallowed := hw.caseAllowed
      simp only [caseUpdateAllowed, Bool.and_eq_true] at hallowed
      exact hallowed.2
    · exact hdb.casesChecked k c₁ hc₁
  · intro k j₁ hj₁
    by_cases hk : k = key
    · subst hk
      obtain rfl := Option.some.inj (hj₁.symm.trans hw.job_get)
      exact hp.maxAttempts.trans (hdb.maxAttempts _ j hw.job)
    · exact hdb.maxAttempts k j₁ ((hw.job_get_other hk) ▸ hj₁)
  · intro k j₁ hj₁
    rw [hw.result]
    by_cases hk : k = key
    · subst hk
      exact hdb.tenants _ j hw.job
    · exact hdb.tenants k j₁ ((hw.job_get_other hk) ▸ hj₁)
  · intro k j₁ hj₁ hs
    by_cases hk : k = key
    · subst hk
      obtain rfl := Option.some.inj (hj₁.symm.trans hw.job_get)
      rcases wakeUp_of_jobWrite hw hs with ⟨hqueued, -, hwake⟩ | ⟨hrunning, hpos, hmax, hwake, hins⟩
      · obtain ⟨o, ho, hpay⟩ := hdb.events _ j hw.job hqueued
        rw [hwake]
        exact ⟨o, hold _ o ho, hpay⟩
      · rw [hwake, Recorded, hins]
        exact ⟨_, Table.get_insert_self (hdb.recovery_fresh hdigests hw.job hrunning hpos hmax), rfl⟩
    · obtain ⟨o, ho, hpay⟩ := hdb.events k j₁ ((hw.job_get_other hk) ▸ hj₁) hs
      exact ⟨o, hold _ o ho, hpay⟩
  · intro k o ho
    rcases hnew k o ho with ho | ⟨hrunning, hs, rfl, rfl⟩
    · rcases hdb.named k o ho with hstart | ⟨jobKey, i, n, hi, htenant, hid, hn, hmax, hle, hover⟩
      · exact .inl hstart
      · right
        by_cases hk : jobKey = key
        · subst hk
          obtain rfl := Option.some.inj (hi.symm.trans hw.job)
          refine ⟨_, j', n, hw.job_get, htenant, hid, hn, hp.maxAttempts ▸ hmax, hle.trans hp.attempt_le, ?_⟩
          intro hs'
          rcases hw.step.running hs' with hr | hlt
          · exact (hover hr).trans_le hp.attempt_le
          · exact hle.trans_lt hlt
        · exact ⟨jobKey, i, n, (hw.job_get_other hk).trans hi, htenant, hid, hn, hmax, hle, hover⟩
    · right
      obtain ⟨hattempt, hq | ⟨-, hpos, hmax⟩⟩ := hw.step.queued hs
      · rw [hrunning] at hq
        cases hq
      · refine ⟨key, j', j.attempt, hw.job_get, rfl, rfl, hpos, hp.maxAttempts ▸ hmax, hattempt.ge, ?_⟩
        intro hs'
        rw [hs] at hs'
        cases hs'

/-- A change that leaves jobs, cases and events alone. -/
theorem Sound.of_same (hdb : Sound db) (hlock : Lockstep db') (hcases : db'.cases = db.cases)
    (hjobs : db'.jobs = db.jobs) (houtbox : db'.outboxEvents = db.outboxEvents)
    (htenants : TenantsKept db db'.tenants) : Sound db' ∧ Advance event db db' := by
  refine ⟨⟨hlock, ?_, ?_, ?_, ?_, ?_, ?_⟩, ?_, ?_, htenants, ?_⟩
  · simpa only [JobsChecked, hjobs] using hdb.jobsChecked
  · simpa only [hcases] using hdb.casesChecked
  · simpa only [hjobs] using hdb.maxAttempts
  · intro key j hj
    obtain ⟨t, ht⟩ := hdb.tenants key j (hjobs ▸ hj)
    obtain ⟨t', ht', -⟩ := htenants _ t ht
    exact ⟨t', ht'⟩
  · simpa only [hjobs, houtbox, Recorded] using hdb.events
  · simpa only [hjobs, houtbox] using hdb.named
  · exact fun key o ho => ⟨o, houtbox ▸ ho, rfl⟩
  · exact fun key j hj hs => .inl ⟨j, hjobs ▸ hj, hs, rfl, rfl, rfl⟩
  · exact fun key o ho hs => .inl ⟨o, houtbox ▸ ho, rfl, hs⟩

omit [ResultDocument ρ] [RequestDocument σ] [Sha256] in
/-- An event of the outbox keeps its message. -/
theorem OutboxWrite.rows {key : Key} {o o' : OutboxRow} (hw : OutboxWrite db db' key o o') {k : Key}
    {o₁ : OutboxRow} (ho₁ : db.outboxEvents.get k = some o₁) :
    ∃ o₂, db'.outboxEvents.get k = some o₂ ∧ o₂.payload = o₁.payload := by
  rw [hw.result]
  by_cases hk : k = key
  · subst hk
    obtain rfl := Option.some.inj (hw.event.symm.trans ho₁)
    exact ⟨o', Table.get_set_self hw.event, hw.step.payload⟩
  · exact ⟨o₁, (Table.get_set_other _ _ hk).trans ho₁, rfl⟩

theorem OutboxWrite.sound (hdb : Sound db) (hlock : Lockstep db') {key : Key} {o o' : OutboxRow}
    (hw : OutboxWrite db db' key o o') (hsource : DeliverySource event key o o') :
    Sound db' ∧ Advance event db db' := by
  have hcases : db'.cases = db.cases := by rw [hw.result]
  have hjobs : db'.jobs = db.jobs := by rw [hw.result]
  have htenants : db'.tenants = db.tenants := by rw [hw.result]
  have hback : ∀ k o₂, db'.outboxEvents.get k = some o₂ →
      (k = key ∧ o₂ = o') ∨ db.outboxEvents.get k = some o₂ := by
    intro k o₂ ho₂
    rw [hw.result] at ho₂
    by_cases hk : k = key
    · subst hk
      exact .inl ⟨rfl, (Option.some.inj ((Table.get_set_self hw.event).symm.trans ho₂)).symm⟩
    · exact .inr ((Table.get_set_other _ _ hk).symm.trans ho₂)
  refine ⟨⟨hlock, ?_, ?_, ?_, ?_, ?_, ?_⟩, fun _ _ ho => hw.rows ho, ?_, htenants ▸ .refl db, ?_⟩
  · simpa only [JobsChecked, hjobs] using hdb.jobsChecked
  · simpa only [hcases] using hdb.casesChecked
  · simpa only [hjobs] using hdb.maxAttempts
  · simpa only [hjobs, htenants] using hdb.tenants
  · intro k j hj hs
    obtain ⟨o₁, ho₁, hp₁⟩ := hdb.events k j (hjobs ▸ hj) hs
    obtain ⟨o₂, ho₂, hp₂⟩ := hw.rows ho₁
    exact ⟨o₂, ho₂, hp₂.trans hp₁⟩
  · intro k o₂ ho₂
    rw [hjobs]
    rcases hback k o₂ ho₂ with ⟨rfl, -⟩ | ho₁
    · exact hdb.named _ o hw.event
    · exact hdb.named k o₂ ho₁
  · exact fun k j hj hs => .inl ⟨j, hjobs ▸ hj, hs, rfl, rfl, rfl⟩
  · intro k o₂ ho₂ hs
    rcases hback k o₂ ho₂ with ⟨rfl, rfl⟩ | ho₁
    · obtain ⟨claim, hclaim, hkey, -⟩ := hsource hs
      exact .inr ⟨claim, hclaim, hkey⟩
    · exact .inl ⟨o₂, ho₁, rfl, hs⟩

theorem Change.sound (hdb : Sound db) (hdigests : DistinctDigests db)
    (hedits : ∀ record, event.edits record → Anchored db record)
    (htenants : ∀ t, event = .tenants t → TenantsKept db t) (h : Change event db db') :
    Sound db' ∧ Advance event db db' := by
  have hlock := (h.lockstep hdb.lockstep hedits).1
  cases h with
  | job hw hsource => exact ⟨hw.sound hdb hdigests hlock (.change (.job hw hsource)), hw.advance hdb hdigests⟩
  | audit key row hd => exact hdb.of_same hlock (by rw [hd]) (by rw [hd]) (by rw [hd]) (by rw [hd]; exact .refl db)
  | outbox hw hsource => exact hw.sound hdb hlock hsource
  | environment now tenants artifacts deletions hd hsame =>
    refine hdb.of_same hlock (by rw [hd]) (by rw [hd]) (by rw [hd]) ?_
    rw [hd]
    rcases hsame.1 with rfl | he
    · exact .refl db
    · exact htenants tenants he

omit [ResultDocument ρ] [RequestDocument σ] in
theorem DistinctDigests.of_jobs (h : DistinctDigests db)
    (hjobs : ∀ key j', db'.jobs.get key = some j' → ∃ j, db.jobs.get key = some j ∧ j'.maxAttempts = j.maxAttempts) :
    DistinctDigests db' := by
  intro key j' key' k' n n' hj' hk' htenant hn hmax hn' hmax' hid
  obtain ⟨j, hj, hm⟩ := hjobs key j' hj'
  obtain ⟨k, hk, hm'⟩ := hjobs key' k' hk'
  exact h key j key' k n n' hj hk htenant hn (hm ▸ hmax) hn' (hm' ▸ hmax') hid

theorem Change.digests (hdigests : DistinctDigests db) (h : Change event db db') : DistinctDigests db' := by
  refine hdigests.of_jobs ?_
  intro key j' hj'
  cases h with
  | @job key' caseKey j k c c' hw _ =>
    by_cases hk : key = key'
    · subst hk
      obtain rfl := Option.some.inj (hj'.symm.trans hw.job_get)
      exact ⟨j, hw.job, hw.step.progress.maxAttempts⟩
    · exact ⟨j', (hw.job_get_other hk) ▸ hj', rfl⟩
  | audit key' row hd => exact ⟨j', by simpa [hd] using hj', rfl⟩
  | outbox hw _ => exact ⟨j', by simpa [hw.result] using hj', rfl⟩
  | environment now tenants artifacts deletions hd _ => exact ⟨j', by simpa [hd] using hj', rfl⟩

/-- A start that a service issues puts its job in the queue with the event of its wake-up. -/
theorem StartWrite.sound (hdb : Sound db) {limits : QuotaLimits} {lifetime : Int} {input : DurableStartInput ρ σ}
    (hservice : ServiceStart lifetime input) (h : StartWrite limits input db db') :
    Sound db' ∧ Advance event db db' := by
  obtain ⟨command, hcommand⟩ := hservice
  obtain ⟨-, hmessage, -, -, -, -, -, hattempt⟩ := startInput_some hcommand
  have hlock := h.lockstep hdb.lockstep
  have hwrite : Write db db' := .start h
  have hwake : wakeUp (recordJobKey input.record) (newJob input.record db.now) = input.outboxMessage := by
    have hzero : (newJob input.record db.now).attempt = 0 := hattempt
    rw [hmessage, wakeUp, if_pos hzero]
    rfl
  have hjob : ∀ key j, db'.jobs.get key = some j →
      (key = recordJobKey input.record ∧ j = newJob input.record db.now) ∨ db.jobs.get key = some j := by
    intro key j hj
    rw [h.result] at hj
    by_cases hk : key = recordJobKey input.record
    · subst hk
      exact .inl ⟨rfl, (Option.some.inj ((Table.get_insert_self h.job).symm.trans hj)).symm⟩
    · exact .inr ((Table.get_insert_other hk).symm.trans hj)
  have hevent : ∀ key o, db'.outboxEvents.get key = some o →
      (key = messageKey input.outboxMessage ∧ o = pendingEvent input.outboxMessage db.now db.now db.now) ∨
        db.outboxEvents.get key = some o := by
    intro key o ho
    rw [h.result] at ho
    by_cases hk : key = messageKey input.outboxMessage
    · subst hk
      exact .inl ⟨rfl, (Option.some.inj ((Table.get_insert_self h.outbox).symm.trans ho)).symm⟩
    · exact .inr ((Table.get_insert_other hk).symm.trans ho)
  have hkept : ∀ key o, db.outboxEvents.get key = some o → db'.outboxEvents.get key = some o := by
    intro key o ho
    rw [h.result]
    exact Table.get_insert_some ho
  refine ⟨⟨hlock, hwrite.jobsChecked hdb.jobsChecked, ?_, ?_, ?_, ?_, ?_⟩, ?_, ?_, ?_, ?_⟩
  · intro key c hc
    rw [h.result] at hc
    by_cases hk : key = recordCaseKey input.record
    · subst hk
      obtain rfl := Option.some.inj ((Table.get_insert_self h.case).symm.trans hc)
      exact h.caseChecks
    · exact hdb.casesChecked key c ((Table.get_insert_other hk).symm.trans hc)
  · intro key j hj
    rcases hjob key j hj with ⟨-, rfl⟩ | hj
    · rfl
    · exact hdb.maxAttempts key j hj
  · intro key j hj
    rw [h.result]
    rcases hjob key j hj with ⟨rfl, -⟩ | hj
    · have hactive := h.active
      obtain ⟨t, ht, -⟩ := Option.any_eq_true .. |>.mp hactive
      exact ⟨t, ht⟩
    · exact hdb.tenants key j hj
  · intro key j hj hs
    rcases hjob key j hj with ⟨rfl, rfl⟩ | hj
    · rw [hwake, Recorded, h.result]
      exact ⟨_, Table.get_insert_self h.outbox, rfl⟩
    · obtain ⟨o, ho, hp⟩ := hdb.events key j hj hs
      exact ⟨o, hkept _ o ho, hp⟩
  · intro key o ho
    rcases hevent key o ho with ⟨rfl, -⟩ | ho
    · exact .inl ⟨input.record.caseId, by rw [hmessage]; rfl⟩
    · rcases hdb.named key o ho with hstart | ⟨jobKey, j, n, hj, hrest⟩
      · exact .inl hstart
      · refine .inr ⟨jobKey, j, n, ?_, hrest⟩
        rw [h.result]
        exact Table.get_insert_some hj
  · exact fun key o ho => ⟨o, hkept key o ho, rfl⟩
  · intro key j hj hs
    rcases hjob key j hj with ⟨rfl, rfl⟩ | hj
    · right
      rw [hwake]
      exact h.outbox
    · exact .inl ⟨j, hj, hs, rfl, rfl, rfl⟩
  · rw [h.result]
    exact .refl db
  · intro key o ho hs
    rcases hevent key o ho with ⟨-, rfl⟩ | ho
    · simp [pendingEvent] at hs
    · exact .inl ⟨o, ho, rfl, hs⟩

theorem changes_sound (hdb : Sound db) (hdigests : DistinctDigests db)
    (hedits : ∀ record, event.edits record → Anchored db record) (hcall : ∀ t, event ≠ .tenants t)
    (h : ReflTransGen (Change event) db db') : Sound db' ∧ Advance event db db' := by
  have hall : Sound db' ∧ Advance event db db' ∧ DistinctDigests db' ∧ RowsKept db db' := by
    induction h with
    | refl => exact ⟨hdb, .refl event db, hdigests, .refl db⟩
    | tail _ hc ih =>
      obtain ⟨hs, ha, hd, hkept⟩ := ih
      have hedits' := fun record he => (hedits record he).kept hkept
      obtain ⟨hs', ha'⟩ := hc.sound hs hd hedits' (fun t ht => absurd ht (hcall t))
      exact ⟨hs', ha.trans ha', hc.digests hd, hkept.trans (hc.lockstep hs.lockstep hedits').2⟩
  exact ⟨hall.1, hall.2.1⟩

theorem step_sound (event : Event ρ σ) (hdb : Sound db) (hdigests : DistinctDigests db)
    (hedits : ∀ record, event.edits record → Anchored db record)
    (hstarts : ∀ attempts limits input, event = .call attempts (.start limits input) →
      ServiceStart reservationLifetime input)
    (htenants : ∀ t, event = .tenants t → TenantsKept db t) :
    Sound (step event db) ∧ Advance event db (step event db) := by
  cases event with
  | call attempts op =>
    cases hop : op.isStart with
    | false =>
      have hevent : (Event.call attempts op).isStart = false := hop
      exact changes_sound hdb hdigests hedits (fun t => by simp) (step_changes hevent db)
    | true =>
      cases op with
      | start limits input =>
        rcases step_start attempts limits input db with hd | hw
        · rw [hd]
          exact ⟨hdb, .refl _ db⟩
        · exact hw.sound hdb (hstarts attempts limits input rfl)
      | _ => simp [Op.isStart] at hop
  | clock now =>
    exact Change.sound hdb hdigests hedits htenants
      (.environment now db.tenants db.artifacts db.deletionRequests rfl ⟨.inl rfl, .inl rfl, .inl rfl⟩)
  | tenants t =>
    exact Change.sound hdb hdigests hedits htenants
      (.environment db.now t db.artifacts db.deletionRequests rfl ⟨.inr rfl, .inl rfl, .inl rfl⟩)
  | artifacts t =>
    exact Change.sound hdb hdigests hedits htenants
      (.environment db.now db.tenants t db.deletionRequests rfl ⟨.inl rfl, .inr rfl, .inl rfl⟩)
  | deletionRequests t =>
    exact Change.sound hdb hdigests hedits htenants
      (.environment db.now db.tenants db.artifacts t rfl ⟨.inl rfl, .inl rfl, .inr rfl⟩)

end changes

end ReproForge
