import ReproForge.Publishers

/-!
# Safety of the outbox

Publishers race for the events of the outbox by three guarded updates. The
version of a row rises with each of them, so a claim that was settled or taken
over matches its row never again, and the counter of a row counts its claims.
-/
namespace ReproForge

open KeyedTable Transactions Transactions.Tx

variable {ρ σ : Type}

def OutboxClaim.key (claim : OutboxClaim) : Key := messageKey claim.message

/-! ## Claiming a batch -/

/-- The claim that a publisher gets on a row. -/
def OutboxRow.claimFor (ownerId : String) (at' claimExpiresAt : Instant) (o : OutboxRow) : OutboxClaim :=
  ⟨at', claimExpiresAt, ownerId, o.deliveryCount + 1, o.payload, o.version + 1⟩

theorem OutboxRow.checks_key {key : Key} {o : OutboxRow} (h : o.checks key = true) : messageKey o.payload = key := by
  simp only [checks, Bool.and_eq_true, beq_iff_eq] at h
  obtain ⟨⟨⟨⟨⟨⟨⟨-, hid⟩, htenant⟩, -⟩, -⟩, -⟩, -⟩, -⟩ := h
  cases key
  simp_all [messageKey]

theorem outboxUpdateAllowed_checks {key : Key} {o o' : OutboxRow} (h : outboxUpdateAllowed key o o' = true) :
    o'.checks key = true := by
  simp only [outboxUpdateAllowed, Bool.and_eq_true] at h
  exact h.2

theorem claimEvents_ok {at' claimExpiresAt : Instant} {ownerId : String} {events : List (Key × OutboxRow)}
    {claims : List OutboxClaim} {db db' : Db ρ σ} (hnodup : (events.map Prod.fst).Nodup)
    (hrows : ∀ event ∈ events, db.outboxEvents.get event.1 = some event.2)
    (h : forEach (claimEvent at' claimExpiresAt ownerId) events db = (.ok claims, db')) :
    claims = events.map (fun event => event.2.claimFor ownerId at' claimExpiresAt) ∧
      (∀ event ∈ events,
        outboxUpdateAllowed event.1 event.2 (event.2.claimed ownerId at' claimExpiresAt) = true ∧
          db'.outboxEvents.get event.1 = some (event.2.claimed ownerId at' claimExpiresAt)) ∧
      ∀ key, key ∉ events.map Prod.fst → db'.outboxEvents.get key = db.outboxEvents.get key := by
  induction events generalizing db claims with
  | nil =>
    obtain ⟨rfl, rfl⟩ := forEach_nil_ok.mp h
    exact ⟨rfl, fun _ he => absurd he List.not_mem_nil, fun _ _ => rfl⟩
  | cons event rest ih =>
    obtain ⟨claim, t, claims', hclaim, hrest, rfl⟩ := forEach_cons_ok.mp h
    rw [List.map_cons, List.nodup_cons] at hnodup
    obtain ⟨o, hw, rfl⟩ := claimEvent_ok hclaim
    have ho : o = event.2 :=
      Option.some.inj (hw.event.symm.trans (hrows event List.mem_cons_self))
    subst ho
    have hother : ∀ key, key ≠ event.1 → t.outboxEvents.get key = db.outboxEvents.get key := by
      intro key hk
      rw [hw.result]
      exact Table.get_set_other _ _ hk
    have hself : t.outboxEvents.get event.1 = some (event.2.claimed ownerId at' claimExpiresAt) := by
      rw [hw.result]
      exact Table.get_set_self hw.event
    have hrows' : ∀ e ∈ rest, t.outboxEvents.get e.1 = some e.2 := by
      intro e he
      rw [hother e.1]
      · exact hrows e (List.mem_cons_of_mem _ he)
      · rintro hk
        exact hnodup.1 (hk ▸ List.mem_map.mpr ⟨e, he, rfl⟩)
    obtain ⟨rfl, hmade, hkept⟩ := ih hnodup.2 hrows' hrest
    refine ⟨rfl, ?_, ?_⟩
    · intro e he
      rcases List.mem_cons.mp he with rfl | he
      · exact ⟨hw.allowed, (hkept e.1 hnodup.1).trans hself⟩
      · exact hmade e he
    · intro key hk
      rw [List.map_cons, List.mem_cons, not_or] at hk
      exact (hkept key hk.2).trans (hother key hk.1)

theorem dueEvents_nodup (db : Db ρ σ) (at' : Instant) (limit : Nat) (locked : List Key) :
    ((dueEvents db at' limit locked).map Prod.fst).Nodup := by
  have hsorted := (List.mergeSort_perm (db.outboxEvents.select (fun key o =>
    o.claimable at' && !locked.contains key)) dueBefore).map Prod.fst
  exact (hsorted.nodup_iff.mpr (Table.select_keys_nodup _ _)).sublist ((List.take_sublist _ _).map _)

theorem mem_dueEvents {db : Db ρ σ} {at' : Instant} {limit : Nat} {locked : List Key} {event : Key × OutboxRow}
    (h : event ∈ dueEvents db at' limit locked) :
    db.outboxEvents.get event.1 = some event.2 ∧ event.2.claimable at' = true := by
  have hmem := List.mem_mergeSort.mp (List.mem_of_mem_take h)
  obtain ⟨hrow, hcond⟩ := Table.mem_select.mp hmem
  simp only [Bool.and_eq_true] at hcond
  exact ⟨hrow, hcond.1⟩

/-- What a batch of claims did to the outbox. -/
structure ClaimedBatch (db db' : Db ρ σ) (claims : List OutboxClaim) : Prop where
  keys : (claims.map OutboxClaim.key).Nodup
  rows : ∀ claim ∈ claims, ∃ o, db.outboxEvents.get claim.key = some o ∧ o.claimable claim.claimedAt = true ∧
    claim = o.claimFor claim.claimOwnerId claim.claimedAt claim.claimExpiresAt ∧
    outboxUpdateAllowed claim.key o (o.claimed claim.claimOwnerId claim.claimedAt claim.claimExpiresAt) = true ∧
    db'.outboxEvents.get claim.key =
      some (o.claimed claim.claimOwnerId claim.claimedAt claim.claimExpiresAt)
  others : ∀ key, key ∉ claims.map OutboxClaim.key → db'.outboxEvents.get key = db.outboxEvents.get key

theorem claimPending_claimed {input : ClaimPendingInput} {locked : List Key} {claims : List OutboxClaim}
    {db db' : Db ρ σ} (h : claimPending input locked db = (.ok claims, db')) : ClaimedBatch db db' claims := by
  simp only [claimPending] at h
  split at h
  · simp only [bind_ok, require_ok, read_ok] at h
    obtain ⟨_, _, ⟨-, rfl⟩, _, _, ⟨rfl, rfl⟩, hloop⟩ := h
    obtain ⟨rfl, hmade, hkept⟩ :=
      claimEvents_ok (dueEvents_nodup _ _ _ _) (fun e he => (mem_dueEvents he).1) hloop
    -- a row that passes its checks lies under the key that its payload names
    have hkey : ∀ e ∈ dueEvents db input.at' input.limit locked, messageKey e.2.payload = e.1 := fun e he =>
      OutboxRow.checks_key (o := e.2.claimed input.ownerId input.at' (input.at' + input.claimSeconds * 1000))
        (outboxUpdateAllowed_checks (hmade e he).1)
    have hkeys : ((dueEvents db input.at' input.limit locked).map (fun e => e.2.claimFor input.ownerId input.at'
        (input.at' + input.claimSeconds * 1000))).map OutboxClaim.key =
        (dueEvents db input.at' input.limit locked).map Prod.fst := by
      rw [List.map_map]
      exact List.map_congr_left hkey
    refine ⟨hkeys ▸ dueEvents_nodup _ _ _ _, ?_, hkeys ▸ hkept⟩
    intro claim hclaim
    obtain ⟨e, he, rfl⟩ := List.mem_map.mp hclaim
    have hk : (e.2.claimFor input.ownerId input.at' (input.at' + input.claimSeconds * 1000)).key = e.1 := hkey e he
    rw [hk]
    exact ⟨e.2, (mem_dueEvents he).1, (mem_dueEvents he).2, rfl, (hmade e he).1, (hmade e he).2⟩
  · obtain ⟨rfl, rfl⟩ := pure_ok.mp h
    exact ⟨List.nodup_nil, fun _ hc => absurd hc List.not_mem_nil, fun _ _ => rfl⟩

/-! ## What one step does -/

/-- What the settlement of a claim makes of its row. -/
inductive SettledBy (policy : PublisherPolicy) (o : OutboxRow) : Publisher → OutboxRow → Prop where
  | delivered (summary : OutboxPublishSummary) (claim : OutboxClaim) (messageId : Option String)
      (rest : List OutboxClaim) (deliveredAt : Instant) :
      SettledBy policy o (.marking summary claim messageId rest) (o.delivered deliveredAt messageId)
  | failed (summary : OutboxPublishSummary) (claim : OutboxClaim) (rest : List OutboxClaim)
      (next failedAt : Instant) :
      SettledBy policy o (.failing summary claim rest)
        (o.failedDelivery "QUEUE_PUBLISH_FAILED" policy.maxAttempts next failedAt)

def Publisher.marks : Publisher → Bool
  | .marking _ _ _ _ => true
  | _ => false

theorem Publisher.marks_loop (summary : OutboxPublishSummary) (claims : List OutboxClaim) :
    (loop summary claims).marks = false := by
  cases claims <;> rfl

theorem Publisher.settling_mem {p : Publisher} {claim : OutboxClaim} (h : p.settling = some claim) :
    claim ∈ p.claims := by
  cases p with
  | idle => cases h
  | sending => cases h
  | marking =>
    cases h
    exact List.mem_cons_self
  | failing =>
    cases h
    exact List.mem_cons_self

variable [ResultDocument ρ] [RequestDocument σ] [Sha256]

def PublishingAction.claims : PublishingAction ρ σ → Bool
  | .publish _ _ _ _ => true
  | _ => false

inductive PublishingStep (policy : Nat → PublisherPolicy) (action : PublishingAction ρ σ)
    (w w' : Publishing ρ σ) : Prop where
  | other : action.claims = false → OutboxGrows w.db w'.db → w'.publishers = w.publishers → w'.sent = w.sent →
      PublishingStep policy action w w'
  | claims (n : Nat) (batch : List OutboxClaim) (p : Publisher) : action.claims = true →
      ClaimedBatch w.db w'.db batch → p.claims = batch ∨ p.claims = [] → p.settling = none →
      w'.publishers = Function.update w.publishers n p → w'.sent = w.sent → PublishingStep policy action w w'
  | moves (n : Nat) (p : Publisher) : w'.db = w.db → p.claims ⊆ (w.publishers n).claims →
      w'.publishers = Function.update w.publishers n p → w.sent ⊆ w'.sent →
      (p.marks = true → ∀ claim, p.settling = some claim → claim.message ∈ w'.sent) →
      PublishingStep policy action w w'
  | settles (n : Nat) (attempt : Attempt) (at' : Instant) (p : Publisher) (claim : OutboxClaim)
      (o o' : OutboxRow) : action = .settle n attempt at' → (w.publishers n).settling = some claim →
      o.heldBy claim = true → SettledBy (policy n) o (w.publishers n) o' → OutboxWrite w.db w'.db claim.key o o' →
      p.claims ⊆ (w.publishers n).claims → p.marks = false →
      w'.publishers = Function.update w.publishers n p → w'.sent = w.sent → PublishingStep policy action w w'

variable {policy : Nat → PublisherPolicy} {action : PublishingAction ρ σ} {w w' : Publishing ρ σ}

theorem PublishingStep.idle (policy : Nat → PublisherPolicy) (action : PublishingAction ρ σ)
    (hmarks : ∀ n, (w.publishers n).marks = true → ∀ claim, (w.publishers n).settling = some claim →
      claim.message ∈ w.sent) : PublishingStep policy action w w :=
  .moves 0 (w.publishers 0) rfl (List.Subset.refl _) (Function.update_eq_self 0 w.publishers).symm
    (List.Subset.refl _) (hmarks 0)

theorem publish_cases {n : Nat} {attempts : List Attempt} {claimedAt : Instant} {locked : List Key}
    (haction : action.claims = true) :
    PublishingStep policy action w (w.publish (policy n) n attempts claimedAt locked) := by
  unfold Publishing.publish
  rcases runSerializableTransaction_cases 3 attempts
    (claimPending ⟨claimedAt, (policy n).claimSeconds, (policy n).maxBatchSize, (policy n).ownerId⟩ locked) w.db with
    ⟨e, he⟩ | ⟨claims, db', ho, hr | hr⟩
  · rw [he]
    exact .moves n (.idle none) rfl (List.nil_subset _) rfl (List.Subset.refl _) (by simp [Publisher.marks])
  · rw [hr]
    exact .claims n claims _ haction (claimPending_claimed ho) (.inl (Publisher.claims_loop _ _))
      (Publisher.settling_loop _ _) rfl rfl
  · rw [hr]
    exact .claims n claims _ haction (claimPending_claimed ho) (.inr rfl) rfl rfl rfl

/-- A publisher that moves on without an effect on the database. -/
theorem PublishingStep.quiet {n : Nat} {p : Publisher} (hclaims : p.claims ⊆ (w.publishers n).claims)
    (hmarks : p.marks = false) : PublishingStep policy action w (w.withPublisher n p) :=
  .moves n p rfl hclaims rfl (List.Subset.refl _) (by simp [hmarks])

theorem markDelivered_cases {n : Nat} {summary : OutboxPublishSummary} {claim : OutboxClaim}
    {messageId : Option String} {rest : List OutboxClaim} {attempt : Attempt} {at' : Instant}
    (haction : action = .settle n attempt at') (hp : w.publishers n = .marking summary claim messageId rest) :
    PublishingStep policy action w (w.markDelivered n summary claim messageId rest attempt at') := by
  have hrest : rest ⊆ (w.publishers n).claims := by
    rw [hp]
    exact List.subset_cons_self claim rest
  have hall : (Publisher.failing summary claim rest).claims ⊆ (w.publishers n).claims := by
    rw [hp]
    exact List.Subset.refl _
  unfold Publishing.markDelivered
  rcases transaction_cases attempt (markDelivered claim ⟨at', messageId⟩) w.db with
    ⟨e, he⟩ | ⟨reply, db', ho, hr⟩
  · rw [he]
    exact .quiet hall rfl
  · rcases markDelivered_ok ho with ⟨rfl, rfl⟩ | ⟨o, rfl, hheld, hw⟩
    · rcases hr with hr | hr
      · rw [hr]
        exact .quiet (by simpa using hrest) (Publisher.marks_loop _ _)
      · rw [hr]
        exact .quiet hall rfl
    · have hsettled : SettledBy (policy n) o (w.publishers n) (o.delivered at' messageId) := by
        rw [hp]
        exact .delivered summary claim messageId rest at'
      rcases hr with hr | hr
      · rw [hr]
        exact .settles n attempt at' _ claim o _ haction (by rw [hp]; rfl) hheld hsettled hw
          (by simpa using hrest) (Publisher.marks_loop _ _) rfl rfl
      · rw [hr]
        exact .settles n attempt at' _ claim o _ haction (by rw [hp]; rfl) hheld hsettled hw hall rfl rfl rfl

theorem recordFailure_cases {n : Nat} {summary : OutboxPublishSummary} {claim : OutboxClaim}
    {rest : List OutboxClaim} {attempt : Attempt} {at' : Instant} (haction : action = .settle n attempt at')
    (hp : w.publishers n = .failing summary claim rest) :
    PublishingStep policy action w (w.recordFailure (policy n) n summary claim rest attempt at') := by
  have hrest : rest ⊆ (w.publishers n).claims := by
    rw [hp]
    exact List.subset_cons_self claim rest
  unfold Publishing.recordFailure
  split
  · exact .quiet (List.nil_subset _) rfl
  · rename_i next _
    rcases transaction_cases attempt (recordFailure claim ⟨"QUEUE_PUBLISH_FAILED", at', (policy n).maxAttempts, next⟩)
      w.db with ⟨e, he⟩ | ⟨reply, db', ho, hr⟩
    · rw [he]
      exact .quiet (List.nil_subset _) rfl
    · rcases recordFailure_ok ho with rfl | ⟨o, hheld, hw⟩
      · rcases hr with hr | hr
        · rw [hr]
          exact .quiet (by simpa using hrest) (Publisher.marks_loop _ _)
        · rw [hr]
          exact .quiet (List.nil_subset _) rfl
      · have hsettled : SettledBy (policy n) o (w.publishers n)
            (o.failedDelivery "QUEUE_PUBLISH_FAILED" (policy n).maxAttempts next at') := by
          rw [hp]
          exact .failed summary claim rest next at'
        rcases hr with hr | hr
        · rw [hr]
          exact .settles n attempt at' _ claim o _ haction (by rw [hp]; rfl) hheld hsettled hw
            (by simpa using hrest) (Publisher.marks_loop _ _) rfl rfl
        · rw [hr]
          exact .settles n attempt at' _ claim o _ haction (by rw [hp]; rfl) hheld hsettled hw
            (List.nil_subset _) rfl rfl rfl

theorem publishing_cases (policy : Nat → PublisherPolicy) (action : PublishingAction ρ σ)
    (hmarks : ∀ n, (w.publishers n).marks = true → ∀ claim, (w.publishers n).settling = some claim →
      claim.message ∈ w.sent) : PublishingStep policy action w (w.step policy action) := by
  cases action with
  | event event hevent => exact .other rfl (step_outboxGrows hevent w.db) rfl rfl
  | publish n attempts claimedAt locked =>
    rw [Publishing.step]
    split
    · exact publish_cases rfl
    · exact .idle policy _ hmarks
  | send n reply =>
    unfold Publishing.step
    dsimp only
    split
    · rename_i summary claim rest messageId hp
      refine .moves n _ rfl ?_ rfl (List.subset_cons_self _ _) ?_
      · rw [hp]
        exact List.Subset.refl _
      · rintro - c hc
        cases hc
        exact List.mem_cons_self
    · rename_i summary claim rest hp
      refine .quiet ?_ rfl
      rw [hp]
      exact List.Subset.refl _
    · exact .idle policy _ hmarks
  | settle n attempt at' =>
    rw [Publishing.step]
    split
    · rename_i summary claim messageId rest hp
      exact markDelivered_cases rfl hp
    · rename_i summary claim rest hp
      exact recordFailure_cases rfl hp
    · exact .idle policy _ hmarks
  | crash n => exact .quiet (List.nil_subset _) rfl

/-! ## What one step does to one event -/

inductive RowStep (policy : Nat → PublisherPolicy) (action : PublishingAction ρ σ) (w : Publishing ρ σ)
    (key : Key) (o : OutboxRow) : OutboxRow → Prop where
  | kept : RowStep policy action w key o o
  | claimed (ownerId : String) (at' claimExpiresAt : Instant) : action.claims = true → o.claimable at' = true →
      RowStep policy action w key o (o.claimed ownerId at' claimExpiresAt)
  | settled (n : Nat) (attempt : Attempt) (at' : Instant) (claim : OutboxClaim) (o' : OutboxRow) :
      action = .settle n attempt at' → (w.publishers n).settling = some claim → claim.key = key →
      o.heldBy claim = true → SettledBy (policy n) o (w.publishers n) o' → RowStep policy action w key o o'

section rows

variable {key : Key} {o o' : OutboxRow} {p : Publisher} {q : PublisherPolicy}

omit [ResultDocument ρ] [RequestDocument σ] [Sha256] in
theorem OutboxRow.heldBy_iff {claim : OutboxClaim} : o.heldBy claim = true ↔
    o.status = .sending ∧ o.claimOwner = some claim.claimOwnerId ∧ o.claimExpiresAt = some claim.claimExpiresAt ∧
      o.deliveryCount = claim.deliveryAttempt ∧ o.version = claim.version := by
  simp [OutboxRow.heldBy, and_assoc]

omit [ResultDocument ρ] [RequestDocument σ] [Sha256] in
theorem SettledBy.fields (h : SettledBy q o p o') : o'.payload = o.payload ∧ o'.version = o.version + 1 ∧
    o'.deliveryCount = o.deliveryCount ∧ o'.status ≠ .sending := by
  cases h with
  | delivered => exact ⟨rfl, rfl, rfl, by simp [OutboxRow.delivered]⟩
  | failed summary claim rest next failedAt =>
    refine ⟨rfl, rfl, rfl, ?_⟩
    simp only [OutboxRow.failedDelivery]
    split <;> simp

theorem RowStep.payload (h : RowStep policy action w key o o') : o'.payload = o.payload := by
  cases h with
  | kept => rfl
  | claimed => rfl
  | settled _ _ _ _ _ _ _ _ _ hs => exact hs.fields.1

/-- The version of a row that changes rises. -/
theorem RowStep.version (h : RowStep policy action w key o o') : o' = o ∨ o'.version = o.version + 1 := by
  cases h with
  | kept => exact .inl rfl
  | claimed => exact .inr rfl
  | settled _ _ _ _ _ _ _ _ _ hs => exact .inr hs.fields.2.1

theorem RowStep.version_le (h : RowStep policy action w key o o') : o.version ≤ o'.version := by
  rcases h.version with rfl | hv
  · exact le_refl _
  · omega

def OutboxStatus.final : OutboxStatus → Bool
  | .delivered | .dead => true
  | .pending | .sending => false

theorem RowStep.final (h : RowStep policy action w key o o') (hfinal : o.status.final = true) : o' = o := by
  cases h with
  | kept => rfl
  | claimed ownerId at' claimExpiresAt _ hclaimable =>
    simp only [OutboxRow.claimable, Bool.or_eq_true, Bool.and_eq_true, beq_iff_eq] at hclaimable
    rcases hclaimable with ⟨hs, -⟩ | ⟨hs, -⟩ <;> simp [hs, OutboxStatus.final] at hfinal
  | settled _ _ _ claim _ _ _ _ hheld _ =>
    simp [(OutboxRow.heldBy_iff.mp hheld).1, OutboxStatus.final] at hfinal

theorem PublishingStep.row (h : PublishingStep policy action w w') (ho : w.db.outboxEvents.get key = some o) :
    ∃ o', w'.db.outboxEvents.get key = some o' ∧ RowStep policy action w key o o' ∧
      (o' = o ∨ outboxUpdateAllowed key o o' = true) := by
  cases h with
  | other _ hgrows _ _ => exact ⟨o, hgrows.kept key o ho, .kept, .inl rfl⟩
  | claims n batch p haction hclaimed _ _ _ _ =>
    by_cases hk : key ∈ batch.map OutboxClaim.key
    · obtain ⟨claim, hclaim, rfl⟩ := List.mem_map.mp hk
      obtain ⟨o₀, ho₀, hclaimable, -, hallowed, hrow⟩ := hclaimed.rows claim hclaim
      obtain rfl := Option.some.inj (ho.symm.trans ho₀)
      exact ⟨_, hrow, .claimed _ _ _ haction hclaimable, .inr hallowed⟩
    · exact ⟨o, (hclaimed.others key hk).trans ho, .kept, .inl rfl⟩
  | moves n p hdb _ _ _ _ => exact ⟨o, by rw [hdb]; exact ho, .kept, .inl rfl⟩
  | settles n attempt at' p claim o₀ o' haction hsettling hheld hsettled hw _ _ _ _ =>
    by_cases hk : key = claim.key
    · subst hk
      obtain rfl := Option.some.inj (ho.symm.trans hw.event)
      refine ⟨o', ?_, .settled n attempt at' claim o' haction hsettling rfl hheld hsettled, .inr hw.allowed⟩
      rw [hw.result]
      exact Table.get_set_self hw.event
    · refine ⟨o, ?_, .kept, .inl rfl⟩
      rw [hw.result]
      exact (Table.get_set_other _ _ hk).trans ho

/-- An event that was not there is pending and untried. -/
theorem PublishingStep.row_new (h : PublishingStep policy action w w')
    (hnone : w.db.outboxEvents.get key = none) (ho' : w'.db.outboxEvents.get key = some o') :
    o'.status = .pending ∧ o'.deliveryCount = 0 ∧ o'.checks key = true ∧ action.claims = false := by
  cases h with
  | other haction hgrows _ _ =>
    rcases hgrows.added key o' ho' with hold | ⟨-, hnew⟩
    · rw [hnone] at hold
      cases hold
    · exact ⟨hnew.1, hnew.2.1, hnew.2.2, haction⟩
  | claims n batch p haction hclaimed _ _ _ _ =>
    by_cases hk : key ∈ batch.map OutboxClaim.key
    · obtain ⟨claim, hclaim, rfl⟩ := List.mem_map.mp hk
      obtain ⟨o₀, ho₀, -⟩ := hclaimed.rows claim hclaim
      rw [hnone] at ho₀
      cases ho₀
    · rw [hclaimed.others key hk, hnone] at ho'
      cases ho'
  | moves n p hdb _ _ _ _ =>
    rw [hdb, hnone] at ho'
    cases ho'
  | settles n attempt at' p claim o₀ o₁ _ _ _ _ hw _ _ _ _ =>
    have hkept := Table.isSome_get_set w.db.outboxEvents claim.key key o₁
    rw [hw.result] at ho'
    simp only at ho'
    simp [ho', hnone] at hkept

end rows

/-! ## The invariant -/

structure PublishingInv (policy : Nat → PublisherPolicy) (w : Publishing ρ σ) : Prop where
  checked : ∀ key o, w.db.outboxEvents.get key = some o → o.checks key = true
  /-- A claim names an event, at a version that the event has reached. -/
  held : ∀ n, ∀ claim ∈ (w.publishers n).claims, ∃ o, w.db.outboxEvents.get claim.key = some o ∧
    o.payload = claim.message ∧ claim.version ≤ o.version
  disjoint : ∀ n m, n ≠ m → ∀ a ∈ (w.publishers n).claims, ∀ b ∈ (w.publishers m).claims,
    a.key = b.key → a.version ≠ b.version
  marks : ∀ n, (w.publishers n).marks = true → ∀ claim, (w.publishers n).settling = some claim →
    claim.message ∈ w.sent
  delivered : ∀ key o, w.db.outboxEvents.get key = some o → o.status = .delivered → o.payload ∈ w.sent
  dead : ∀ key o, w.db.outboxEvents.get key = some o → o.status = .dead →
    ∃ n, (policy n).maxAttempts ≤ o.deliveryCount

omit [ResultDocument ρ] [RequestDocument σ] [Sha256] in
theorem Publishing.initial_inv (policy : Nat → PublisherPolicy) (now : Instant) (tenants : Table String TenantRow) :
    PublishingInv policy (Publishing.initial now tenants : Publishing ρ σ) where
  checked := by
    intro key o ho
    cases ho
  held := fun _ _ hc => absurd hc List.not_mem_nil
  disjoint := fun _ _ _ _ ha => absurd ha List.not_mem_nil
  marks := by
    intro n hm
    cases hm
  delivered := by
    intro key o ho
    cases ho
  dead := by
    intro key o ho
    cases ho

/-- A claim on the version that the step gave to a row. -/
def FreshClaim (w w' : Publishing ρ σ) (claim : OutboxClaim) : Prop :=
  ∃ o o', w.db.outboxEvents.get claim.key = some o ∧ w'.db.outboxEvents.get claim.key = some o' ∧
    claim.version = o.version + 1 ∧ o'.version = claim.version ∧ o'.payload = claim.message

omit [ResultDocument ρ] [RequestDocument σ] [Sha256] in
theorem ClaimedBatch.fresh {batch : List OutboxClaim} (h : ClaimedBatch w.db w'.db batch) {claim : OutboxClaim}
    (hclaim : claim ∈ batch) : FreshClaim w w' claim := by
  obtain ⟨o, ho, -, hmade, -, hrow⟩ := h.rows claim hclaim
  have hversion : claim.version = o.version + 1 := by
    rw [hmade]
    rfl
  have hmessage : claim.message = o.payload := by
    rw [hmade]
    rfl
  exact ⟨o, _, ho, hrow, hversion, hversion.symm, hmessage.symm⟩

/-- One publisher moves in a step; what it holds afterwards it held before, or has just claimed. -/
theorem PublishingStep.claims_cases (h : PublishingStep policy action w w') :
    ∃ actor, (∀ n, n ≠ actor → w'.publishers n = w.publishers n) ∧
      ∀ claim ∈ (w'.publishers actor).claims, claim ∈ (w.publishers actor).claims ∨ FreshClaim w w' claim := by
  have hactor : ∀ n p, w'.publishers = Function.update w.publishers n p →
      (∀ m, m ≠ n → w'.publishers m = w.publishers m) ∧ w'.publishers n = p := by
    intro n p hp
    rw [hp]
    exact ⟨fun m hm => Function.update_of_ne hm p w.publishers, Function.update_self n p w.publishers⟩
  cases h with
  | other _ _ hp _ => exact ⟨0, fun _ _ => by rw [hp], fun claim hc => .inl (by rw [← hp]; exact hc)⟩
  | claims n batch p _ hclaimed hbatch _ hp _ =>
    obtain ⟨hothers, hself⟩ := hactor n p hp
    refine ⟨n, hothers, ?_⟩
    intro claim hc
    rw [hself] at hc
    rcases hbatch with he | he
    · exact .inr (hclaimed.fresh (he ▸ hc))
    · rw [he] at hc
      cases hc
  | moves n p _ hsub hp _ _ =>
    obtain ⟨hothers, hself⟩ := hactor n p hp
    exact ⟨n, hothers, fun claim hc => .inl (hsub (hself ▸ hc))⟩
  | settles n attempt at' p claim o o' _ _ _ _ _ hsub _ hp _ =>
    obtain ⟨hothers, hself⟩ := hactor n p hp
    exact ⟨n, hothers, fun claim hc => .inl (hsub (hself ▸ hc))⟩

theorem PublishingStep.sent_mono (h : PublishingStep policy action w w') : w.sent ⊆ w'.sent := by
  cases h with
  | other _ _ _ hsent => exact hsent ▸ List.Subset.refl _
  | claims _ _ _ _ _ _ _ _ hsent => exact hsent ▸ List.Subset.refl _
  | moves _ _ _ _ _ hsent _ => exact hsent
  | settles _ _ _ _ _ _ _ _ _ _ _ _ _ _ _ hsent => exact hsent ▸ List.Subset.refl _

theorem PublishingStep.marks (h : PublishingStep policy action w w') (hinv : PublishingInv policy w) (n : Nat)
    (hm : (w'.publishers n).marks = true) (claim : OutboxClaim)
    (hc : (w'.publishers n).settling = some claim) : claim.message ∈ w'.sent := by
  have hold : w'.publishers n = w.publishers n → claim.message ∈ w'.sent := by
    intro he
    rw [he] at hm hc
    exact h.sent_mono (hinv.marks n hm claim hc)
  cases h with
  | other _ _ hp _ => exact hold (by rw [hp])
  | claims actor batch p _ _ _ hsettling hp _ =>
    by_cases hn : n = actor
    · subst hn
      rw [hp, Function.update_self, hsettling] at hc
      cases hc
    · exact hold (by rw [hp, Function.update_of_ne hn])
  | moves actor p _ _ hp _ hsent =>
    by_cases hn : n = actor
    · subst hn
      rw [hp, Function.update_self] at hm hc
      exact hsent hm claim hc
    · exact hold (by rw [hp, Function.update_of_ne hn])
  | settles actor attempt at' p claim' o o' _ _ _ _ _ _ hmarks hp _ =>
    by_cases hn : n = actor
    · subst hn
      rw [hp, Function.update_self, hmarks] at hm
      cases hm
    · exact hold (by rw [hp, Function.update_of_ne hn])

theorem PublishingStep.held (h : PublishingStep policy action w w') (hinv : PublishingInv policy w) (n : Nat)
    (claim : OutboxClaim) (hc : claim ∈ (w'.publishers n).claims) :
    ∃ o, w'.db.outboxEvents.get claim.key = some o ∧ o.payload = claim.message ∧ claim.version ≤ o.version := by
  have hold : claim ∈ (w.publishers n).claims → ∃ o, w'.db.outboxEvents.get claim.key = some o ∧
      o.payload = claim.message ∧ claim.version ≤ o.version := by
    intro hmem
    obtain ⟨o, ho, hp, hv⟩ := hinv.held n claim hmem
    obtain ⟨o', ho', hrow, -⟩ := h.row ho
    exact ⟨o', ho', hrow.payload.trans hp, hv.trans hrow.version_le⟩
  obtain ⟨actor, hothers, hactor⟩ := h.claims_cases
  by_cases hn : n = actor
  · subst hn
    rcases hactor claim hc with hmem | ⟨o, o', -, ho', -, hv, hp⟩
    · exact hold hmem
    · exact ⟨o', ho', hp, hv.ge⟩
  · rw [hothers n hn] at hc
    exact hold hc

theorem PublishingStep.disjoint (h : PublishingStep policy action w w') (hinv : PublishingInv policy w) (n m : Nat)
    (hne : n ≠ m) (a : OutboxClaim) (ha : a ∈ (w'.publishers n).claims) (b : OutboxClaim)
    (hb : b ∈ (w'.publishers m).claims) (hkey : a.key = b.key) : a.version ≠ b.version := by
  obtain ⟨actor, hothers, hactor⟩ := h.claims_cases
  -- a fresh claim is above every claim that was held on its event
  have hfresh : ∀ k c d, FreshClaim w w' c → d ∈ (w.publishers k).claims → c.key = d.key → d.version < c.version := by
    intro k c d hc hd he
    obtain ⟨o, -, ho, -, hv, -, -⟩ := hc
    obtain ⟨o₂, ho₂, -, hle⟩ := hinv.held k d hd
    rw [he, ho₂] at ho
    obtain rfl := Option.some.inj ho
    omega
  by_cases hn : n = actor
  · subst hn
    rw [hothers m hne.symm] at hb
    rcases hactor a ha with hold | hnew
    · exact hinv.disjoint n m hne a hold b hb hkey
    · exact (hfresh m a b hnew hb hkey).ne'
  · rw [hothers n hn] at ha
    by_cases hm : m = actor
    · subst hm
      rcases hactor b hb with hold | hnew
      · exact hinv.disjoint n m hne a ha b hold hkey
      · exact (hfresh n b a hnew ha hkey.symm).ne
    · rw [hothers m hm] at hb
      exact hinv.disjoint n m hne a ha b hb hkey

theorem PublishingStep.inv (h : PublishingStep policy action w w') (hinv : PublishingInv policy w) :
    PublishingInv policy w' where
  checked := by
    intro key o' ho'
    cases ho : w.db.outboxEvents.get key with
    | none => exact (h.row_new ho ho').2.2.1
    | some o =>
      obtain ⟨o₂, ho₂, -, hallowed⟩ := h.row ho
      obtain rfl := Option.some.inj (ho'.symm.trans ho₂)
      rcases hallowed with rfl | hallowed
      · exact hinv.checked key o' ho
      · exact outboxUpdateAllowed_checks hallowed
  held := h.held hinv
  disjoint := h.disjoint hinv
  marks := h.marks hinv
  delivered := by
    intro key o' ho' hstatus
    cases ho : w.db.outboxEvents.get key with
    | none => simp [(h.row_new ho ho').1] at hstatus
    | some o =>
      obtain ⟨o₂, ho₂, hrow, -⟩ := h.row ho
      obtain rfl := Option.some.inj (ho'.symm.trans ho₂)
      cases hrow with
      | kept => exact h.sent_mono (hinv.delivered key o' ho hstatus)
      | claimed => simp [OutboxRow.claimed] at hstatus
      | settled n attempt at' claim o' haction hsettling hkey hheld hsettled =>
        obtain ⟨o₃, ho₃, hpayload, -⟩ := hinv.held n claim (Publisher.settling_mem hsettling)
        rw [hkey, ho] at ho₃
        obtain rfl := Option.some.inj ho₃
        rw [hsettled.fields.1, hpayload]
        refine h.sent_mono (hinv.marks n ?_ claim hsettling)
        generalize w.publishers n = p at hsettled
        cases hsettled with
        | delivered => rfl
        | failed => exact absurd hstatus (OutboxRow.failedDelivery_status _ _ _ _ _)
  dead := by
    intro key o' ho' hstatus
    cases ho : w.db.outboxEvents.get key with
    | none => simp [(h.row_new ho ho').1] at hstatus
    | some o =>
      obtain ⟨o₂, ho₂, hrow, -⟩ := h.row ho
      obtain rfl := Option.some.inj (ho'.symm.trans ho₂)
      cases hrow with
      | kept => exact hinv.dead key o' ho hstatus
      | claimed => simp [OutboxRow.claimed] at hstatus
      | settled n attempt at' claim o' haction hsettling hkey hheld hsettled =>
        refine ⟨n, ?_⟩
        generalize w.publishers n = p at hsettled
        cases hsettled with
        | delivered => simp [OutboxRow.delivered] at hstatus
        | failed summary claim rest next failedAt =>
          simp only [OutboxRow.failedDelivery] at hstatus ⊢
          split at hstatus
          · assumption
          · cases hstatus

theorem step_publishing (hinv : PublishingInv policy w) (action : PublishingAction ρ σ) :
    PublishingStep policy action w (w.step policy action) := publishing_cases policy action hinv.marks

theorem run_publishingInv (actions : List (PublishingAction ρ σ)) (hinv : PublishingInv policy w) :
    PublishingInv policy (Runs.run (Publishing.step policy) actions w) := by
  refine Runs.run_keeps ?_ hinv
  exact fun w a hi => (step_publishing hi a).inv hi

/-! ## Counting claims and settlements -/

/-- How many steps of a run claim the event. -/
def claimings (policy : Nat → PublisherPolicy) (key : Key) : List (PublishingAction ρ σ) → Publishing ρ σ → Nat
  | [], _ => 0
  | action :: rest, w =>
    (if action.claims && (w.step policy action).db.outboxEvents.get key != w.db.outboxEvents.get key then 1
      else 0) + claimings policy key rest (w.step policy action)

/-- The step takes the row out of SENDING while the claim holds it. -/
def settlesClaim (claim : OutboxClaim) (w w' : Publishing ρ σ) : Bool :=
  (w.db.outboxEvents.get claim.key).any (fun o => o.heldBy claim) &&
    (w'.db.outboxEvents.get claim.key).any (fun o => o.status != .sending)

/-- How many steps of a run settle the claim. -/
def settlements (policy : Nat → PublisherPolicy) (claim : OutboxClaim) :
    List (PublishingAction ρ σ) → Publishing ρ σ → Nat
  | [], _ => 0
  | action :: rest, w =>
    (if settlesClaim claim w (w.step policy action) then 1 else 0) +
      settlements policy claim rest (w.step policy action)

def deliveryCountAt (w : Publishing ρ σ) (key : Key) : Nat :=
  ((w.db.outboxEvents.get key).map OutboxRow.deliveryCount).getD 0

/-- The counter of a row counts the steps that claimed it. -/
theorem deliveryCount_run (key : Key) (actions : List (PublishingAction ρ σ)) (hinv : PublishingInv policy w) :
    deliveryCountAt (Runs.run (Publishing.step policy) actions w) key =
      deliveryCountAt w key + claimings policy key actions w := by
  induction actions generalizing w with
  | nil => rfl
  | cons action rest ih =>
    have hs := step_publishing hinv action
    rw [Runs.run, ih (hs.inv hinv), claimings]
    have hone : deliveryCountAt (w.step policy action) key = deliveryCountAt w key +
        (if action.claims && (w.step policy action).db.outboxEvents.get key != w.db.outboxEvents.get key then 1
          else 0) := by
      cases ho : w.db.outboxEvents.get key with
      | none =>
        cases ho' : (w.step policy action).db.outboxEvents.get key with
        | none => simp [deliveryCountAt, ho, ho']
        | some o' =>
          obtain ⟨-, hcount, -, hclaims⟩ := hs.row_new ho ho'
          simp [deliveryCountAt, ho, ho', hcount, hclaims]
      | some o =>
        obtain ⟨o', ho', hrow, -⟩ := hs.row ho
        cases hrow with
        | kept => simp [deliveryCountAt, ho, ho']
        | claimed ownerId at' claimExpiresAt hclaims _ =>
          have hne : o.claimed ownerId at' claimExpiresAt ≠ o := by
            intro he
            have hversion := congrArg OutboxRow.version he
            simp [OutboxRow.claimed] at hversion
          have hcount : (o.claimed ownerId at' claimExpiresAt).deliveryCount = o.deliveryCount + 1 := rfl
          simp [deliveryCountAt, ho, ho', hclaims, hne, hcount]
        | settled n attempt at' claim o' haction _ _ _ hsettled =>
          subst haction
          simp [deliveryCountAt, ho, ho', PublishingAction.claims, hsettled.fields.2.2.1]
    omega

/-- A claim that its row has outgrown is settled no more. -/
theorem settlements_of_lt {claim : OutboxClaim} {o : OutboxRow} (actions : List (PublishingAction ρ σ))
    (hinv : PublishingInv policy w) (ho : w.db.outboxEvents.get claim.key = some o)
    (hv : claim.version < o.version) : settlements policy claim actions w = 0 := by
  induction actions generalizing w o with
  | nil => rfl
  | cons action rest ih =>
    have hs := step_publishing hinv action
    obtain ⟨o', ho', hrow, -⟩ := hs.row ho
    have hnot : o.heldBy claim = false := by
      by_contra hheld
      have := (OutboxRow.heldBy_iff.mp (by simpa using hheld)).2.2.2.2
      omega
    have hrest := ih (hs.inv hinv) ho' (hv.trans_le hrow.version_le)
    simp [settlements, settlesClaim, ho, hnot, hrest]

theorem settlements_le_one (claim : OutboxClaim) (actions : List (PublishingAction ρ σ))
    (hinv : PublishingInv policy w) : settlements policy claim actions w ≤ 1 := by
  induction actions generalizing w with
  | nil => simp [settlements]
  | cons action rest ih =>
    have hs := step_publishing hinv action
    rw [settlements]
    split
    · rename_i hsettles
      simp only [settlesClaim, Bool.and_eq_true, Option.any_eq_true] at hsettles
      obtain ⟨⟨o, ho, hheld⟩, o₂, ho₂, hstatus⟩ := hsettles
      obtain ⟨hsending, -, -, -, hversion⟩ := OutboxRow.heldBy_iff.mp hheld
      obtain ⟨o', ho', hrow, -⟩ := hs.row ho
      obtain rfl := Option.some.inj (ho₂.symm.trans ho')
      have hrises : claim.version < o₂.version := by
        rcases hrow.version with rfl | hv
        · simp [hsending] at hstatus
        · omega
      rw [settlements_of_lt rest (hs.inv hinv) ho' hrises]
    · simpa using ih (hs.inv hinv)

/-! ## The guarantees -/

omit [Sha256] in
/-- An open row has neither been delivered nor has it a provider's id. -/
theorem OutboxRow.open_state {key : Key} {o : OutboxRow} (h : o.checks key = true) (hopen : o.status.final = false) :
    o.deliveredAt = none ∧ o.providerMessageId = none ∧
      (o.status = .pending ∨ o.status = .sending ∧ ∃ e, o.claimExpiresAt = some e) := by
  simp only [checks, Bool.and_eq_true] at h
  have hstate := h.2
  unfold deliveryState at hstate
  cases hs : o.status with
  | pending =>
    simp only [hs, Bool.and_eq_true, Option.isNone_iff_eq_none] at hstate
    exact ⟨hstate.1.1.1, hstate.2, .inl rfl⟩
  | sending =>
    simp only [hs, Bool.and_eq_true, Option.isNone_iff_eq_none, Option.isSome_iff_exists] at hstate
    exact ⟨hstate.1.1.1.1, hstate.2, .inr ⟨rfl, hstate.1.1.2⟩⟩
  | delivered => simp [hs, OutboxStatus.final] at hopen
  | dead => simp [hs, OutboxStatus.final] at hopen

omit [Sha256] in
theorem OutboxRow.claim_allowed {key : Key} {o : OutboxRow} (h : o.checks key = true) (hopen : o.status.final = false)
    {ownerId : String} {at' claimExpiresAt : Instant} (howner : opaqueId ownerId = true) (hat : o.updatedAt ≤ at')
    (hlater : at' < claimExpiresAt) : outboxUpdateAllowed key o (o.claimed ownerId at' claimExpiresAt) = true := by
  obtain ⟨hdelivered, hprovider, -⟩ := open_state h hopen
  simp only [checks, Bool.and_eq_true, beq_iff_eq, decide_eq_true_eq] at h
  obtain ⟨⟨⟨⟨⟨⟨⟨hid, hevent⟩, htenant⟩, hschema⟩, -⟩, hversion⟩, hcreated⟩, -⟩ := h
  have hcreated' : o.createdAt ≤ at' := hcreated.trans hat
  simp [outboxUpdateAllowed, successorVersion, checks, deliveryState, claimed, hid, hevent, htenant, hschema,
    howner, hat, hlater, hdelivered, hprovider, hcreated']

omit [Sha256] in
/-- An event that is neither delivered nor dead can be claimed at every time from some time on. -/
theorem OutboxRow.claimable_late {key : Key} {o : OutboxRow} (h : o.checks key = true)
    (hopen : o.status.final = false) : ∃ late, ∀ at', late ≤ at' → o.claimable at' = true ∧
      ∀ ownerId claimExpiresAt, opaqueId ownerId = true → at' < claimExpiresAt →
        outboxUpdateAllowed key o (o.claimed ownerId at' claimExpiresAt) = true := by
  obtain ⟨-, -, hs | ⟨hs, e, he⟩⟩ := open_state h hopen
  · refine ⟨max o.nextAttemptAt o.updatedAt, ?_⟩
    intro at' hat
    refine ⟨?_, fun _ _ howner hlater => claim_allowed h hopen howner (le_of_max_le_right hat) hlater⟩
    simp [claimable, hs, le_of_max_le_left hat]
  · refine ⟨max e o.updatedAt, ?_⟩
    intro at' hat
    refine ⟨?_, fun _ _ howner hlater => claim_allowed h hopen howner (le_of_max_le_right hat) hlater⟩
    simp [claimable, hs, he, le_of_max_le_left hat]

/-- The row changed and is not in a publisher's hands. -/
def Settles (o o' : OutboxRow) : Prop := o' ≠ o ∧ o'.status ≠ .sending

/-- The safety of the outbox in a state that a run reaches, and in all that follows. -/
structure OutboxSafety (policy : Nat → PublisherPolicy) (history : List (PublishingAction ρ σ))
    (start w : Publishing ρ σ) : Prop where
  /-- Events stay, with the message that they were recorded with. -/
  kept : ∀ key o, w.db.outboxEvents.get key = some o → ∀ later, ∃ o',
    (Runs.run (Publishing.step policy) later w).db.outboxEvents.get key = some o' ∧ o'.payload = o.payload
  absorbing : ∀ key o, w.db.outboxEvents.get key = some o → o.status.final = true → ∀ later,
    (Runs.run (Publishing.step policy) later w).db.outboxEvents.get key = some o
  /-- Only the publisher that holds the current claim settles an event. -/
  holder : ∀ action key o o', w.db.outboxEvents.get key = some o →
    (w.step policy action).db.outboxEvents.get key = some o' → Settles o o' →
    ∃ n attempt at' claim, action = .settle n attempt at' ∧ (w.publishers n).settling = some claim ∧
      claim.key = key ∧ o.heldBy claim = true
  /-- No two publishers hold the same claim. -/
  exclusive : ∀ n m, n ≠ m → ∀ a ∈ (w.publishers n).claims, ∀ b ∈ (w.publishers m).claims,
    a.key = b.key → a.version ≠ b.version
  once : ∀ claim later, settlements policy claim later w ≤ 1
  sent : ∀ key o, w.db.outboxEvents.get key = some o → o.status = .delivered → o.payload ∈ w.sent
  dead : ∀ key o, w.db.outboxEvents.get key = some o → o.status = .dead →
    ∃ n, (policy n).maxAttempts ≤ claimings policy key history start
  claimable : ∀ key o, w.db.outboxEvents.get key = some o → o.status.final = false →
    ∃ late, ∀ at', late ≤ at' → o.claimable at' = true ∧
      ∀ ownerId claimExpiresAt, opaqueId ownerId = true → at' < claimExpiresAt →
        outboxUpdateAllowed key o (o.claimed ownerId at' claimExpiresAt) = true

/-- What later steps keep of an event. -/
structure EventKept (o o' : OutboxRow) : Prop where
  payload : o'.payload = o.payload
  final : o.status.final = true → o' = o

theorem run_eventKept {key : Key} {o : OutboxRow} (later : List (PublishingAction ρ σ)) (hinv : PublishingInv policy w)
    (ho : w.db.outboxEvents.get key = some o) : ∃ o',
      (Runs.run (Publishing.step policy) later w).db.outboxEvents.get key = some o' ∧ EventKept o o' := by
  induction later generalizing w o with
  | nil => exact ⟨o, ho, rfl, fun _ => rfl⟩
  | cons action rest ih =>
    have hs := step_publishing hinv action
    obtain ⟨o', ho', hrow, -⟩ := hs.row ho
    obtain ⟨o'', ho'', hkept⟩ := ih (hs.inv hinv) ho'
    refine ⟨o'', ho'', hkept.payload.trans hrow.payload, ?_⟩
    intro hfinal
    obtain rfl := hrow.final hfinal
    exact hkept.final hfinal

/-- Whatever the publishers, their clocks and their crashes do, the outbox is safe. -/
theorem outbox_safety (policy : Nat → PublisherPolicy) (now : Instant) (tenants : Table String TenantRow)
    (history : List (PublishingAction ρ σ)) :
    OutboxSafety policy history (Publishing.initial now tenants)
      (Runs.run (Publishing.step policy) history (Publishing.initial now tenants)) := by
  have hstart : PublishingInv policy (Publishing.initial now tenants : Publishing ρ σ) :=
    Publishing.initial_inv policy now tenants
  have hinv := run_publishingInv history hstart
  constructor
  case kept =>
    intro key o ho later
    obtain ⟨o', ho', hkept⟩ := run_eventKept later hinv ho
    exact ⟨o', ho', hkept.payload⟩
  case absorbing =>
    intro key o ho hfinal later
    obtain ⟨o', ho', hkept⟩ := run_eventKept later hinv ho
    exact hkept.final hfinal ▸ ho'
  case holder =>
    intro action key o o' ho ho' hsettles
    obtain ⟨o₂, ho₂, hrow, -⟩ := (step_publishing hinv action).row ho
    obtain rfl := Option.some.inj (ho'.symm.trans ho₂)
    cases hrow with
    | kept => exact absurd rfl hsettles.1
    | claimed => exact absurd rfl hsettles.2
    | settled n attempt at' claim o' haction hsettling hkey hheld _ =>
      exact ⟨n, attempt, at', claim, haction, hsettling, hkey, hheld⟩
  case exclusive => exact hinv.disjoint
  case once => exact fun claim later => settlements_le_one claim later hinv
  case sent => exact hinv.delivered
  case dead =>
    intro key o ho hstatus
    obtain ⟨n, hn⟩ := hinv.dead key o ho hstatus
    refine ⟨n, ?_⟩
    have hcount := deliveryCount_run key history hstart
    have hnone : deliveryCountAt (Publishing.initial now tenants : Publishing ρ σ) key = 0 := rfl
    rw [hnone, deliveryCountAt, ho] at hcount
    simp only [Option.map_some, Option.getD_some] at hcount
    omega
  case claimable => exact fun key o ho hopen => OutboxRow.claimable_late (hinv.checked key o ho) hopen

/-! ## Summaries -/

def OutboxPublishSummary.settled (summary : OutboxPublishSummary) : Nat :=
  summary.conflicted + summary.dead + summary.delivered + summary.retryScheduled

/-- Every claim of the batch is counted or still to be settled. -/
def Publisher.Tallied : Publisher → Prop
  | .idle none => True
  | .idle (some summary) => summary.settled = summary.claimed
  | .sending summary _ rest | .marking summary _ _ rest | .failing summary _ rest =>
    summary.settled + rest.length + 1 = summary.claimed

omit [ResultDocument ρ] [RequestDocument σ] [Sha256] in
theorem Publisher.tallied_loop {summary : OutboxPublishSummary} {rest : List OutboxClaim}
    (h : summary.settled + rest.length = summary.claimed) : (loop summary rest).Tallied := by
  cases rest with
  | nil => exact h
  | cons claim rest => exact h

omit [Sha256] in
theorem OutboxPublishSummary.settled_count (summary : OutboxPublishSummary)
    (disposition : OutboxFailureDisposition) :
    (summary.count disposition).settled = summary.settled + 1 ∧
      (summary.count disposition).claimed = summary.claimed := by
  cases disposition <;> simp only [count, settled, and_true] <;> omega

theorem Publishing.step_tallied (policy : Nat → PublisherPolicy) (action : PublishingAction ρ σ)
    (h : ∀ n, (w.publishers n).Tallied) (n : Nat) : ((w.step policy action).publishers n).Tallied := by
  have hone : ∀ (w' : Publishing ρ σ) (m : Nat) (p : Publisher), w'.publishers = w.publishers → p.Tallied →
      ((w'.withPublisher m p).publishers n).Tallied := by
    intro w' m p hw hp
    by_cases hn : n = m
    · subst hn
      simpa [withPublisher] using hp
    · simpa [withPublisher, Function.update_of_ne hn, hw] using h n
  cases action with
  | event event hevent => exact h n
  | publish m attempts claimedAt locked =>
    unfold step publish
    dsimp only
    split
    · split
      · refine hone _ m _ rfl (Publisher.tallied_loop ?_)
        simp [OutboxPublishSummary.settled]
      · exact hone _ m _ rfl trivial
    · exact h n
  | send m reply =>
    unfold step
    dsimp only
    split
    · rename_i summary claim rest messageId hp
      have hold := h m
      rw [hp] at hold
      exact hone _ m _ rfl hold
    · rename_i summary claim rest hp
      have hold := h m
      rw [hp] at hold
      exact hone _ m _ rfl hold
    · exact h n
  | settle m attempt at' =>
    unfold step
    dsimp only
    split
    · rename_i summary claim messageId rest hp
      have hold := h m
      rw [hp] at hold
      simp only [Publisher.Tallied, OutboxPublishSummary.settled] at hold
      unfold markDelivered
      split
      · refine hone _ m _ rfl (Publisher.tallied_loop ?_)
        simp only [OutboxPublishSummary.settled]
        omega
      · refine hone _ m _ rfl (Publisher.tallied_loop ?_)
        simp only [OutboxPublishSummary.settled]
        omega
      · exact hone _ m _ rfl hold
    · rename_i summary claim rest hp
      have hold := h m
      rw [hp] at hold
      simp only [Publisher.Tallied] at hold
      unfold recordFailure
      split
      · exact hone _ m _ rfl trivial
      · split
        · rename_i disposition _ _
          obtain ⟨hsettled, hclaimed⟩ := summary.settled_count disposition
          refine hone _ m _ rfl (Publisher.tallied_loop ?_)
          omega
        · exact hone _ m _ rfl trivial
    · exact h n
  | crash m => exact hone _ m _ rfl trivial

def Publishing.Tallied (w : Publishing ρ σ) : Prop := ∀ n, (w.publishers n).Tallied

/-- The summary that a call returns accounts for every claim of its batch. -/
theorem publishBatch_tallied (policy : Nat → PublisherPolicy) (now : Instant) (tenants : Table String TenantRow)
    (history : List (PublishingAction ρ σ)) :
    (Runs.run (Publishing.step policy) history (Publishing.initial now tenants)).Tallied := by
  refine Runs.run_keeps ?_ (fun _ => trivial)
  exact fun _ action h n => Publishing.step_tallied policy action h n

end ReproForge
