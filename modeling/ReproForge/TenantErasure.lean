import ReproForge.DeletionRecovery
import ReproForge.Linkage

/-!
# What a completed deletion leaves

The last transaction of an account deletion over every table of the schema. It
leaves restore sessions and other deletion requests of the tenant in place.
-/
namespace ReproForge

open KeyedTable Transactions Transactions.Tx

variable {ρ σ : Type}

/-! ## The transaction -/

/-- The rows of a tenant beside those of the durable services. Repositories go with their
installations and installation states with their principals. -/
def Platform.purge (tenantId : String) (p : Platform ρ σ) : Platform ρ σ :=
  { p with
    runEvidence := p.runEvidence.delete (fun key _ => key.tenantId == tenantId)
    webhookDeliveries := p.webhookDeliveries.delete (fun _ d => d.tenantId == some tenantId)
    installationStates := p.installationStates.delete (fun _ s => s.tenantId == tenantId)
    installations := p.installations.delete (fun key _ => key.tenantId == tenantId)
    repositories := p.repositories.delete (fun key _ => key.tenantId == tenantId)
    principals := p.principals.delete (fun key _ => key.tenantId == tenantId) }

/-- `complete` on all tables. -/
def eraseTenant [Sha256] (claim : DeletionClaim) (at' : Instant) : PlatformStatement ρ σ Unit := do
  Platform.lift (complete claim at')
  modify (Platform.purge claim.tenantId)

/-! ## The system -/

structure Tenancy (ρ σ : Type) where
  platform : Platform ρ σ
  blobs : Objects.Store String
  calls : Nat → StoreCall
  executors : Nat → Executor

inductive TenancyAction (ρ σ : Type) where
  | custody : CustodyAction ρ σ → TenancyAction ρ σ
  /-- GitHub links, webhooks, sign-ins and restores: the tables beside those of the services. -/
  | others : Platform ρ σ → TenancyAction ρ σ

namespace Tenancy

def custody (w : Tenancy ρ σ) : Custody ρ σ := ⟨⟨w.platform.db, w.blobs, w.calls⟩, w.executors⟩

def withCustody (w : Tenancy ρ σ) (c : Custody ρ σ) : Tenancy ρ σ :=
  ⟨{ w.platform with db := c.vault.db }, c.vault.blobs, c.vault.calls, c.executors⟩

variable [Sha256]

def completing (w : Tenancy ρ σ) (n : Nat) (env : Outside) (at' : Instant) (claim : DeletionClaim) : Tenancy ρ σ :=
  match commit env.fate (eraseTenant claim at') w.platform with
  | (some _, p) =>
    { w with
      platform := p
      executors := Function.update w.executors n
        (.done (.deleted claim.requestId claim.tenantId (ownTombstone claim))) }
  | (none, p) =>
    { w with
      platform := p
      executors := Function.update w.executors n (.done (.error .connection)) }

variable [ContentHash] [ResultDocument ρ] [RequestDocument σ]

def step : TenancyAction ρ σ → Tenancy ρ σ → Tenancy ρ σ
  | .custody (.advance n env), w =>
    match w.executors n with
    | .removing at' claim [] => w.completing n env at' claim
    | _ => w.withCustody (Custody.step (.advance n env) w.custody)
  | .custody action, w => w.withCustody (Custody.step action w.custody)
  | .others p, w => { w with platform := { p with db := w.platform.db } }

omit [Sha256] [ContentHash] [ResultDocument ρ] [RequestDocument σ] in
/-- No tenant, no object, no call. -/
def initial (db : Db ρ σ) : Tenancy ρ σ :=
  ⟨Platform.initial (Custody.initial db).vault.db .empty, .empty, fun _ => .idle, fun _ => .idle⟩

end Tenancy

/-! ## The promise -/

section tables

variable {κ α : Type} [DecidableEq κ]

/-- No row of the table is about the tenant. -/
def Free (t : Table κ α) (about : κ → α → Prop) : Prop := ∀ k r, t.get k = some r → ¬ about k r

/-- The rows that are not about the tenant are as they were. -/
def Kept (t t' : Table κ α) (about : κ → α → Prop) : Prop :=
  ∀ k r, ¬ about k r → (t'.get k = some r ↔ t.get k = some r)

theorem get_deleted {t : Table κ α} {p : κ → α → Bool} {k : κ} {r : α} :
    (t.delete p).get k = some r ↔ t.get k = some r ∧ p k r = false := by
  rw [Table.get_delete, Option.filter_eq_some_iff, Bool.not_eq_true']

theorem free_delete {t : Table κ α} {p : κ → α → Bool} {about : κ → α → Prop}
    (h : ∀ k r, about k r → p k r = true) : Free (t.delete p) about := by
  intro k r hr habout
  have hfalse := (get_deleted.mp hr).2
  rw [h k r habout] at hfalse
  cases hfalse

theorem kept_delete {t : Table κ α} {p : κ → α → Bool} {about : κ → α → Prop}
    (h : ∀ k r, p k r = true → about k r) : Kept t (t.delete p) about := by
  intro k r hnot
  rw [get_deleted]
  constructor
  · exact And.left
  · intro hr
    exact ⟨hr, Bool.eq_false_iff.mpr (fun hp => hnot (h k r hp))⟩

theorem kept_refl (t : Table κ α) (about : κ → α → Prop) : Kept t t about := fun _ _ _ => .rfl

end tables

/-- The rows of every table that refer to the tenant: its own row, deleted, and one tombstone. -/
structure OnlyTombstone (p : Platform ρ σ) (id : String) : Prop where
  tenant : tenantStatus p.db id = some .deleted
  tombstone : ∃ key row, key.tenantId = id ∧ row.action = "account.deleted" ∧
    p.db.auditEvents.get key = some row ∧ Free p.db.auditEvents (fun k _ => k.tenantId = id ∧ k ≠ key)
  principals : Free p.principals (fun k _ => k.tenantId = id)
  cases' : Free p.db.cases (fun k _ => k.tenantId = id)
  jobs : Free p.db.jobs (fun k _ => k.tenantId = id)
  idempotencyKeys : Free p.db.idempotencyKeys (fun k _ => k.tenantId = id)
  runEvidence : Free p.runEvidence (fun k _ => k.tenantId = id)
  artifacts : Free p.db.artifacts (fun k _ => k.tenantId = id)
  outboxEvents : Free p.db.outboxEvents (fun k _ => k.tenantId = id)
  quotaLedger : Free p.db.quotaLedger (fun k _ => k.tenantId = id)
  deletionRequests : Free p.db.deletionRequests (fun k _ => k.tenantId = id)
  restoreSessions : Free p.restoreSessions (fun k _ => k = id)
  installationStates : Free p.installationStates (fun _ s => s.tenantId = id)
  installations : Free p.installations (fun k _ => k.tenantId = id)
  repositories : Free p.repositories (fun k _ => k.tenantId = id)
  webhookDeliveries : Free p.webhookDeliveries (fun _ d => d.tenantId = some id)

/-- The rows of every other tenant. -/
structure OthersKept (p p' : Platform ρ σ) (id : String) : Prop where
  tenants : Kept p.db.tenants p'.db.tenants (fun k _ => k = id)
  auditEvents : Kept p.db.auditEvents p'.db.auditEvents (fun k _ => k.tenantId = id)
  principals : Kept p.principals p'.principals (fun k _ => k.tenantId = id)
  cases' : Kept p.db.cases p'.db.cases (fun k _ => k.tenantId = id)
  jobs : Kept p.db.jobs p'.db.jobs (fun k _ => k.tenantId = id)
  idempotencyKeys : Kept p.db.idempotencyKeys p'.db.idempotencyKeys (fun k _ => k.tenantId = id)
  runEvidence : Kept p.runEvidence p'.runEvidence (fun k _ => k.tenantId = id)
  artifacts : Kept p.db.artifacts p'.db.artifacts (fun k _ => k.tenantId = id)
  outboxEvents : Kept p.db.outboxEvents p'.db.outboxEvents (fun k _ => k.tenantId = id)
  quotaLedger : Kept p.db.quotaLedger p'.db.quotaLedger (fun k _ => k.tenantId = id)
  deletionRequests : Kept p.db.deletionRequests p'.db.deletionRequests (fun k _ => k.tenantId = id)
  restoreSessions : Kept p.restoreSessions p'.restoreSessions (fun k _ => k = id)
  installationStates : Kept p.installationStates p'.installationStates (fun _ s => s.tenantId = id)
  installations : Kept p.installations p'.installations (fun k _ => k.tenantId = id)
  repositories : Kept p.repositories p'.repositories (fun k _ => k.tenantId = id)
  webhookDeliveries : Kept p.webhookDeliveries p'.webhookDeliveries (fun _ d => d.tenantId = some id)

/-- What `complete` does not look for. -/
structure NothingOverlooked (p : Platform ρ σ) (id : String) : Prop where
  restoreSession : p.restoreSessions.get id = none
  oneRequest : ∀ key key' r r', p.db.deletionRequests.get key = some r → p.db.deletionRequests.get key' = some r' →
    key.tenantId = id → key'.tenantId = id → key = key'

section erased

variable {p p' : Platform ρ σ} {claim : DeletionClaim} {r : DeletionRow} {db' : Db ρ σ}

theorem Purged.othersKept (h : Purged p.db db' claim r) :
    OthersKept p (Platform.purge claim.tenantId { p with db := db' }) claim.tenantId := by
  have hdelete : ∀ {κ α : Type} [DecidableEq κ] (t : Table κ α) (tenant : κ → String),
      Kept t (t.delete (fun k _ => tenant k == claim.tenantId)) (fun k _ => tenant k = claim.tenantId) :=
    fun t tenant => kept_delete (fun k r hp => beq_iff_eq.mp hp)
  obtain ⟨key, row, hkey, -, haudit⟩ := h.audit
  rw [h.rest]
  exact {
    tenants := fun k t hk => by
      change db'.tenants.get k = some t ↔ _
      rw [h.tenantRows k hk]
    auditEvents := fun k a hk => by
      change db'.auditEvents.get k = some a ↔ _
      have hne : k ≠ key := by
        rintro rfl
        exact hk hkey
      rw [haudit, Table.get_insert_other hne]
      exact hdelete p.db.auditEvents Key.tenantId k a hk
    principals := hdelete _ Key.tenantId
    cases' := hdelete _ Key.tenantId
    jobs := hdelete _ Key.tenantId
    idempotencyKeys := hdelete _ IdempotencyKey.tenantId
    runEvidence := hdelete _ EvidenceKey.tenantId
    artifacts := hdelete _ Key.tenantId
    outboxEvents := hdelete _ Key.tenantId
    quotaLedger := hdelete _ Key.tenantId
    deletionRequests := fun k x hk => by
      change db'.deletionRequests.get k = some x ↔ _
      rw [h.requests, if_neg (fun he => hk (by rw [he]; rfl))]
    restoreSessions := kept_refl _ _
    installationStates := kept_delete (fun _ s hp => beq_iff_eq.mp hp)
    installations := hdelete _ InstallationKey.tenantId
    repositories := hdelete _ Key.tenantId
    webhookDeliveries := kept_delete (fun _ d hp => beq_iff_eq.mp hp) }

/-- Restore sessions and further deletion requests are all that `complete` overlooks. -/
theorem Purged.onlyTombstone_iff (h : Purged p.db db' claim r) :
    OnlyTombstone (Platform.purge claim.tenantId { p with db := db' }) claim.tenantId ↔
      NothingOverlooked p claim.tenantId := by
  have hdelete : ∀ {κ α : Type} [DecidableEq κ] (t : Table κ α) (tenant : κ → String),
      Free (t.delete (fun k _ => tenant k == claim.tenantId)) (fun k _ => tenant k = claim.tenantId) :=
    fun t tenant => free_delete (fun k r hp => beq_iff_eq.mpr hp)
  constructor
  · intro ho
    constructor
    · cases hsession : p.restoreSessions.get claim.tenantId with
      | none => rfl
      | some s => exact absurd rfl (ho.restoreSessions claim.tenantId s hsession)
    · have hself : ∀ key x, p.db.deletionRequests.get key = some x → key.tenantId = claim.tenantId →
          key = claim.key := by
        intro key x hx htenant
        by_contra hne
        refine ho.deletionRequests key x ?_ htenant
        change db'.deletionRequests.get key = some x
        rw [h.requests, if_neg hne]
        exact hx
      intro key key' x x' hx hx' htenant htenant'
      rw [hself key x hx htenant, hself key' x' hx' htenant']
  · intro hn
    obtain ⟨key, row, hkey, haction, haudit⟩ := h.audit
    have hempty : Free (p.db.auditEvents.delete (fun k _ => k.tenantId == claim.tenantId))
        (fun k _ => k.tenantId = claim.tenantId) := hdelete _ Key.tenantId
    have hnone : (p.db.auditEvents.delete (fun k _ => k.tenantId == claim.tenantId)).get key = none := by
      cases hrow : (p.db.auditEvents.delete (fun k _ => k.tenantId == claim.tenantId)).get key with
      | none => rfl
      | some x => exact absurd hkey (hempty key x hrow)
    rw [h.rest]
    exact {
      tenant := h.status
      tombstone := by
        refine ⟨key, row, hkey, haction, ?_, fun k x hx habout => ?_⟩
        · change db'.auditEvents.get key = some row
          rw [haudit]
          exact Table.get_insert_self hnone
        · change db'.auditEvents.get k = some x at hx
          rw [haudit, Table.get_insert_other habout.2] at hx
          exact hempty k x hx habout.1
      principals := hdelete _ Key.tenantId
      cases' := hdelete _ Key.tenantId
      jobs := hdelete _ Key.tenantId
      idempotencyKeys := hdelete _ IdempotencyKey.tenantId
      runEvidence := hdelete _ EvidenceKey.tenantId
      artifacts := hdelete _ Key.tenantId
      outboxEvents := hdelete _ Key.tenantId
      quotaLedger := hdelete _ Key.tenantId
      deletionRequests := fun k x hx htenant => by
        change db'.deletionRequests.get k = some x at hx
        rw [h.requests] at hx
        split at hx
        · cases hx
        · rename_i hne
          exact hne (hn.oneRequest k claim.key x r hx h.request htenant rfl)
      restoreSessions := fun k s hs htenant => by
        change p.restoreSessions.get k = some s at hs
        rw [htenant, hn.restoreSession] at hs
        cases hs
      installationStates := free_delete (fun _ s hs => beq_iff_eq.mpr hs)
      installations := hdelete _ InstallationKey.tenantId
      repositories := hdelete _ Key.tenantId
      webhookDeliveries := free_delete (fun _ d hd => beq_iff_eq.mpr hd) }

variable [Sha256]

theorem eraseTenant_ok {at' : Instant} {u : Unit} (h : eraseTenant claim at' p = (.ok u, p')) :
    ∃ db' r, Purged p.db db' claim r ∧ p' = Platform.purge claim.tenantId { p with db := db' } := by
  simp only [eraseTenant, bind_ok, modify_ok] at h
  obtain ⟨_, p₁, hlift, hp⟩ := h
  cases hrun : complete claim at' p.db with
  | mk reply db' =>
    simp only [Platform.lift, hrun] at hlift
    cases reply with
    | error e => cases hlift
    | ok u =>
      obtain ⟨r, hpurged⟩ := complete_ok hrun
      rw [← (Prod.mk.inj hlift).2] at hp
      exact ⟨db', r, hpurged, hp⟩

end erased

/-! ## The step that deletes a tenant -/

section runs

variable [ContentHash] [Sha256] [ResultDocument ρ] [RequestDocument σ] {id : String}

omit [ContentHash] [Sha256] [ResultDocument ρ] [RequestDocument σ] in
theorem scheduled_deleted {db db' : Db ρ σ}
    (h : Relation.ReflTransGen (fun s s' => ∃ key row, Scheduled s s' key row) db db')
    (hdeleted : tenantStatus db' id = some .deleted) : tenantStatus db id = some .deleted := by
  induction h with
  | refl => exact hdeleted
  | tail _ hs ih =>
    obtain ⟨key, row, hs⟩ := hs
    rcases hs.status id with hsame | ⟨-, hsuspended⟩
    · exact ih (hsame ▸ hdeleted)
    · rw [hsuspended] at hdeleted
      cases hdeleted

/-- Only the last transaction of an executor deletes a tenant. -/
theorem Custody.step_deleted {w : Custody ρ σ} {action : CustodyAction ρ σ}
    (hbefore : tenantStatus w.vault.db id ≠ some .deleted)
    (hafter : tenantStatus (Custody.step action w).vault.db id = some .deleted) :
    ∃ n env at' claim, action = .advance n env ∧ w.executors n = .removing at' claim [] := by
  cases action with
  | vault action =>
    cases action with
    | start n request => exact absurd hafter hbefore
    | others db => exact absurd hafter hbefore
    | advance n env =>
      have hstatus := ((w.vault.calls n).step_effect env w.vault.db w.vault.blobs).status id
      exact absurd (hstatus.symm.trans hafter) hbefore
  | tenant name createdAt retentionUntil =>
    exfalso
    dsimp only [Custody.step, Custody.withDb, Custody.signUp] at hafter
    split at hafter
    · by_cases hname : id = name ∧ w.vault.db.tenants.get id = none
      · obtain ⟨rfl, hnone⟩ := hname
        rw [tenantStatus, Table.get_insert_self hnone] at hafter
        cases hafter
      · refine hbefore (Eq.trans (tenantStatus_congr ?_).symm hafter)
        by_cases hid : id = name
        · subst hid
          cases ht : w.vault.db.tenants.get id with
          | none => exact absurd ⟨rfl, ht⟩ hname
          | some t => exact Table.get_insert_some ht
        · exact Table.get_insert_other hid
    · exact hbefore hafter
  | request attempts input =>
    exfalso
    dsimp only [Custody.step, Custody.withDb] at hafter
    rcases runSerializableTransaction_cases 3 attempts (requestDeletion input) w.vault.db with
      ⟨e, hrun⟩ | ⟨reply, db', hbody, hrun⟩
    · rw [hrun] at hafter
      exact hbefore hafter
    · have hsteps : Relation.ReflTransGen (fun s s' => ∃ key row, Scheduled s s' key row) w.vault.db db' := by
        rcases requestDeletion_ok hbody with rfl | hone
        · exact .refl
        · exact .single hone
      rcases hrun with hrun | hrun <;> rw [hrun] at hafter <;> exact hbefore (scheduled_deleted hsteps hafter)
  | scheduleDue attempts input locked =>
    exfalso
    dsimp only [Custody.step, Custody.withDb] at hafter
    rcases runSerializableTransaction_cases 3 attempts (ReproForge.scheduleDue input locked) w.vault.db with
      ⟨e, hrun⟩ | ⟨reply, db', hbody, hrun⟩
    · rw [hrun] at hafter
      exact hbefore hafter
    · rcases hrun with hrun | hrun <;> rw [hrun] at hafter <;>
        exact hbefore (scheduled_deleted (scheduleDue_ok hbody) hafter)
  | execute n at' ownerId locked => exact absurd hafter hbefore
  | advance n env =>
    have hcommit := (w.executors n).step_commits env w.vault.db w.vault.blobs
    change tenantStatus ((w.executors n).step env w.vault.db w.vault.blobs).2.1 id = _ at hafter
    cases hcommit with
    | nothing hd =>
      rw [hd] at hafter
      exact absurd hafter hbefore
    | claimed claim r r' hc =>
      exfalso
      by_cases hid : id = claim.tenantId
      · rw [hid, hc.status] at hafter
        cases hafter
      · exact hbefore ((hc.others id hid).symm.trans hafter)
    | failed at' claim failure r r' he hf =>
      exfalso
      by_cases hid : id = claim.tenantId
      · subst hid
        rcases hf.status with hsame | ⟨-, hsuspended⟩
        · exact hbefore (hsame.symm.trans hafter)
        · rw [hsuspended] at hafter
          cases hafter
      · exact hbefore ((hf.others id hid).symm.trans hafter)
    | purged at' claim r he hp => exact ⟨n, env, at', claim, rfl, he⟩

theorem Tenancy.step_deleted {w : Tenancy ρ σ} {action : TenancyAction ρ σ}
    (hbefore : tenantStatus w.platform.db id ≠ some .deleted)
    (hafter : tenantStatus (Tenancy.step action w).platform.db id = some .deleted) :
    ∃ claim db' r, claim.tenantId = id ∧ Purged w.platform.db db' claim r ∧
      (Tenancy.step action w).platform = Platform.purge claim.tenantId { w.platform with db := db' } := by
  cases action with
  | others p => exact absurd hafter hbefore
  | custody action =>
    by_cases hcompleting : ∃ n env at' claim, action = .advance n env ∧ w.executors n = .removing at' claim []
    · obtain ⟨n, env, at', claim, rfl, hn⟩ := hcompleting
      have hstep : Tenancy.step (.custody (.advance n env)) w = w.completing n env at' claim := by
        rw [Tenancy.step, hn]
      rw [hstep] at hafter ⊢
      unfold Tenancy.completing at hafter ⊢
      rcases commit_cases env.fate (eraseTenant claim at') w.platform with hnone | ⟨u, p, hok, hsome⟩
      · rw [hnone] at hafter
        exact absurd hafter hbefore
      · rw [hsome] at hafter ⊢
        obtain ⟨db', r, hp, rfl⟩ := eraseTenant_ok hok
        refine ⟨claim, db', r, ?_, hp, rfl⟩
        by_contra hne
        exact hbefore ((hp.others id (fun he => hne he.symm)).symm.trans hafter)
    · exfalso
      have hstep : Tenancy.step (.custody action) w = w.withCustody (Custody.step action w.custody) := by
        cases action with
        | advance n env =>
          rw [Tenancy.step]
          split
          · rename_i at' claim hn
            exact absurd ⟨n, env, at', claim, rfl, hn⟩ hcompleting
          · rfl
        | _ => rfl
      rw [hstep] at hafter
      exact hcompleting (Custody.step_deleted (w := w.custody) hbefore hafter)

/-- In every reachable state, the step that deletes a tenant leaves the rows of the others as they
were, and of the tenant its own row and one tombstone, exactly when the tenant has no restore
session and no deletion request but the one completed. -/
theorem deletion_complete (db : Db ρ σ) (actions : List (TenancyAction ρ σ)) (action : TenancyAction ρ σ) (id : String)
    (hbefore : tenantStatus (Runs.run Tenancy.step actions (Tenancy.initial db)).platform.db id ≠ some .deleted)
    (hafter : tenantStatus (Runs.run Tenancy.step (actions ++ [action]) (Tenancy.initial db)).platform.db id =
      some .deleted) :
    (OnlyTombstone (Runs.run Tenancy.step (actions ++ [action]) (Tenancy.initial db)).platform id ∧
      OthersKept (Runs.run Tenancy.step actions (Tenancy.initial db)).platform
        (Runs.run Tenancy.step (actions ++ [action]) (Tenancy.initial db)).platform id) ↔
      NothingOverlooked (Runs.run Tenancy.step actions (Tenancy.initial db)).platform id := by
  rw [Runs.run_append] at hafter ⊢
  obtain ⟨claim, db', r, rfl, hp, hplatform⟩ := Tenancy.step_deleted hbefore hafter
  rw [Runs.run, Runs.run, hplatform]
  constructor
  · intro h
    exact hp.onlyTombstone_iff.mp h.1
  · intro h
    exact ⟨hp.onlyTombstone_iff.mpr h, hp.othersKept⟩

end runs

end ReproForge

/-! ## A deletion after one that failed -/

namespace ReproForge.Sample

/-- The first deletion of the tenant fails, its user requests another, and an executor removes the object. -/
def retried : List (TenancyAction Empty Empty) :=
  List.map .custody (abandoned ++ [.request [] { erasure with requestId := "delete-2" },
    .execute 1 opening "executor-1" [], .advance 1 calm, .advance 1 calm])

/-- An executor has removed the object of a tenant that requested its deletion once. -/
def emptied : List (TenancyAction Empty Empty) := List.map .custody (interrupted ++ [.advance 0 calm])

end ReproForge.Sample

namespace ReproForge

open Sample Sample.Deletion KeyedTable

/-- The failed request outlives the tenant. -/
theorem failed_request_left :
    tenantStatus (Runs.run Tenancy.step (retried ++ [.custody (.advance 1 calm)])
        (Tenancy.initial (Db.initial opening .empty))).platform.db "acme" = some .deleted ∧
      ¬ OnlyTombstone (Runs.run Tenancy.step (retried ++ [.custody (.advance 1 calm)])
        (Tenancy.initial (Db.initial opening .empty))).platform "acme" := by
  have hstate : tenantStatus (Runs.run Tenancy.step (retried ++ [.custody (.advance 1 calm)])
        (Tenancy.initial (Db.initial opening .empty))).platform.db "acme" = some .deleted ∧
      (Runs.run Tenancy.step (retried ++ [.custody (.advance 1 calm)])
        (Tenancy.initial (Db.initial opening .empty))).platform.db.deletionRequests.rows.map
          (fun row => (row.1, row.2.state)) = [(⟨"acme", "delete-1"⟩, .failed)] := by
    decide +kernel
  generalize (Runs.run Tenancy.step (retried ++ [.custody (.advance 1 calm)])
    (Tenancy.initial (Db.initial opening .empty))).platform = p at hstate ⊢
  refine ⟨hstate.1, fun h => ?_⟩
  obtain ⟨row, hrow, he⟩ := List.mem_map.mp (hstate.2 ▸ List.mem_singleton_self _)
  exact h.deletionRequests row.1 row.2 (Table.get_eq_some.mpr hrow) (congrArg (Key.tenantId ∘ Prod.fst) he)

theorem deletion_complete_sample :
    OnlyTombstone (Runs.run Tenancy.step (emptied ++ [.custody (.advance 0 calm)])
        (Tenancy.initial (Db.initial opening .empty))).platform "acme" ∧
      OthersKept (Runs.run Tenancy.step emptied (Tenancy.initial (Db.initial opening .empty))).platform
        (Runs.run Tenancy.step (emptied ++ [.custody (.advance 0 calm)])
          (Tenancy.initial (Db.initial opening .empty))).platform "acme" := by
  obtain ⟨hdeleting, hnone, hrequests, hafter⟩ : tenantStatus (Runs.run Tenancy.step emptied
        (Tenancy.initial (Db.initial opening .empty))).platform.db "acme" = some .deleting ∧
      (Runs.run Tenancy.step emptied (Tenancy.initial (Db.initial opening .empty))).platform.restoreSessions.get "acme" =
        none ∧
      (Runs.run Tenancy.step emptied
        (Tenancy.initial (Db.initial opening .empty))).platform.db.deletionRequests.rows.map Prod.fst =
          [⟨"acme", "delete-1"⟩] ∧
      tenantStatus (Runs.run Tenancy.step (emptied ++ [.custody (.advance 0 calm)])
        (Tenancy.initial (Db.initial opening .empty))).platform.db "acme" = some .deleted := by
    decide +kernel
  have hcomplete := deletion_complete (Db.initial opening .empty) emptied (.custody (.advance 0 calm)) "acme"
    (by rw [hdeleting]; decide) hafter
  refine hcomplete.mpr ⟨hnone, fun key key' r r' hr hr' _ _ => ?_⟩
  have honly : ∀ {k x}, (Runs.run Tenancy.step emptied
      (Tenancy.initial (Db.initial opening .empty))).platform.db.deletionRequests.get k = some x →
      k = ⟨"acme", "delete-1"⟩ := by
    intro k x hx
    have hmem := List.mem_map_of_mem (f := Prod.fst) (Table.get_eq_some.mp hx)
    rw [hrequests] at hmem
    exact List.mem_singleton.mp hmem
  rw [honly hr, honly hr']

end ReproForge
