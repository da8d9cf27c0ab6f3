import ReproForge.Retention

/-!
# Deletion leaves no private object

Executors of account deletions beside the artifact store. Once an executor has
listed the artifacts of a tenant, every object of the tenant and every row that
may still receive one is on its list, so nothing is left when the list is done.
-/
namespace ReproForge

open KeyedTable Transactions Transactions.Tx

variable {ρ σ : Type}

section model

variable [ContentHash] [Sha256] [ResultDocument ρ] [RequestDocument σ]

/-! ## Executors -/

inductive ExecutionResult where
  | nothing
  | deleted (requestId tenantId tombstoneId : String)
  | failed (failure : RetentionFailure)
  | error (e : DurableError)
  deriving DecidableEq, Repr

inductive Executor where
  | idle
  | claiming (at' : Instant) (ownerId : String) (locked : List Key)
  /-- The artifacts that are still to be removed; without any, the rows are purged. -/
  | removing (at' : Instant) (claim : DeletionClaim) (rest : List ArtifactReference)
  | checking (at' : Instant) (claim : DeletionClaim) (a : ArtifactReference) (rest : List ArtifactReference)
  | failing (at' : Instant) (claim : DeletionClaim) (failure : RetentionFailure)
  | done (result : ExecutionResult)

def Executor.start (at' : Instant) (ownerId : String) (locked : List Key) : Executor :=
  if datetime at' && opaqueId ownerId then .claiming at' ownerId locked
  else .done (.error (.retention .invalidExecution))

def Executor.step (env : Outside) (db : Db ρ σ) (blobs : Objects.Store String) :
    Executor → Executor × Db ρ σ × Objects.Store String
  | .idle => (.idle, db, blobs)
  | .claiming at' ownerId locked =>
    match runSerializableTransaction 3 env.attempts (claimNext at' ownerId locked) db with
    | (.ok (some claim), db') => (.removing at' claim claim.artifacts, db', blobs)
    | (.ok none, db') => (.done .nothing, db', blobs)
    | (.error e, db') => (.done (.error e), db', blobs)
  | .removing at' claim [] =>
    match runSerializableTransaction 3 env.attempts (complete claim at') db with
    | (.ok _, db') => (.done (.deleted claim.requestId claim.tenantId (ownTombstone claim)), db', blobs)
    | (.error e, db') => (.done (.error e), db', blobs)
  | .removing at' claim (a :: rest) =>
    if a.status = .pending ∨ a.status = .deleting then (.failing at' claim .artifactNotSettled, db, blobs)
    else
      match env.fate.call ArtifactFailure.blob (Objects.delete env.absent a.objectKey a.providerEtag) blobs with
      | (.ok true, blobs') => (.removing at' claim rest, db, blobs')
      | (.ok false, blobs') => (.checking at' claim a rest, db, blobs')
      | (.error _, blobs') => (.failing at' claim .providerFailure, db, blobs')
  | .checking at' claim a rest =>
    match env.fate.call ArtifactFailure.blob (Objects.head a.objectKey) blobs with
    | (.ok none, blobs') => (.removing at' claim rest, db, blobs')
    | (.ok (some _), blobs') => (.failing at' claim .providerFailure, db, blobs')
    | (.error _, blobs') => (.failing at' claim .providerFailure, db, blobs')
  | .failing at' claim failure =>
    match runSerializableTransaction 3 env.attempts (markFailed claim at' failure) db with
    | (.ok _, db') => (.done (.failed failure), db', blobs)
    | (.error e, db') => (.done (.error e), db', blobs)
  | .done result => (.done result, db, blobs)

structure Custody (ρ σ : Type) where
  vault : Vault ρ σ
  executors : Nat → Executor

inductive CustodyAction (ρ σ : Type) where
  | vault : VaultAction ρ σ → CustodyAction ρ σ
  /-- A tenant signs up. -/
  | tenant : String → (createdAt : Instant) → (retentionUntil : Option Instant) → CustodyAction ρ σ
  | request : List Attempt → DeletionInput → CustodyAction ρ σ
  | scheduleDue : List Attempt → ScheduleInput → List String → CustodyAction ρ σ
  | execute : Nat → Instant → String → List Key → CustodyAction ρ σ
  | advance : Nat → Outside → CustodyAction ρ σ

namespace Custody

def withDb (w : Custody ρ σ) (db : Db ρ σ) : Custody ρ σ := { w with vault := { w.vault with db := db } }

def signUp (id : String) (row : TenantRow) (db : Db ρ σ) : Db ρ σ :=
  if opaqueId id && row.checks then { db with tenants := db.tenants.insert id row } else db

def advance (n : Nat) (env : Outside) (w : Custody ρ σ) : Custody ρ σ :=
  let r := (w.executors n).step env w.vault.db w.vault.blobs
  ⟨{ w.vault with db := r.2.1, blobs := r.2.2 }, Function.update w.executors n r.1⟩

def step : CustodyAction ρ σ → Custody ρ σ → Custody ρ σ
  | .vault action, w => { w with vault := Vault.step action w.vault }
  | .tenant id createdAt retentionUntil, w =>
    w.withDb (signUp id ⟨.active, createdAt, createdAt, none, retentionUntil⟩ w.vault.db)
  | .request attempts input, w =>
    w.withDb (runSerializableTransaction 3 attempts (requestDeletion input) w.vault.db).2
  | .scheduleDue attempts input locked, w =>
    w.withDb (runSerializableTransaction 3 attempts (ReproForge.scheduleDue input locked) w.vault.db).2
  | .execute n at' ownerId locked, w =>
    { w with executors := Function.update w.executors n (.start at' ownerId locked) }
  | .advance n env, w => w.advance n env

/-- No tenant, no artifact, no object, no call. -/
def initial (db : Db ρ σ) : Custody ρ σ :=
  ⟨Vault.initial { db with tenants := .empty }, fun _ => .idle⟩

end Custody

end model

/-! ## What one step of a call does to rows and objects -/

section effects

variable {c c' : StoreCall} {db db' : Db ρ σ} {blobs blobs' : Objects.Store String}

theorem Effect.untouched (h : Effect c db blobs c' db' blobs') :
    db'.tenants = db.tenants ∧ db'.deletionRequests = db.deletionRequests := by
  cases h with
  | reserved _ hinsert _ =>
    rw [hinsert.result]
    exact ⟨rfl, rfl⟩
  | reclaimed _ _ _ _ hw _ =>
    rw [hw.result]
    exact ⟨rfl, rfl⟩
  | deletionClaimed _ _ _ hw _ =>
    rw [hw.result]
    exact ⟨rfl, rfl⟩
  | settled _ _ hw _ _ =>
    rw [hw.result]
    exact ⟨rfl, rfl⟩
  | _ => exact ⟨rfl, rfl⟩

theorem Settled.not_pending {a a' : ArtifactRow} (h : Settled a a') : a'.status ≠ .pending := by
  cases h <;> simp [ArtifactRow.finalized, ArtifactRow.failedWrite, ArtifactRow.deletionCompleted,
    ArtifactRow.restored]

/-- A failed row of this identity and version is there to be taken over. -/
def Reclaimable (rows : Table Key ArtifactRow) (d : ArtifactDescriptor) (version : Nat) : Prop :=
  ∃ key a, rows.get key = some a ∧ d.identifies key a = true ∧ a.status = .failed ∧ a.version = version

theorem ArtifactInsertion.status {d : ArtifactDescriptor} (h : ArtifactInsertion db db' d) :
    tenantStatus db d.tenantId = some .active := by
  have hactive := h.active
  simp only [tenantActive, Option.any_eq_true, beq_iff_eq] at hactive
  obtain ⟨t, ht, hs⟩ := hactive
  rw [tenantStatus, ht, Option.map_some, hs]

/-- A row becomes pending by an insertion for an active tenant, or by a call that takes over a
failed row of the same tenant. -/
theorem Effect.pending_from (h : Effect c db blobs c' db' blobs') {key : Key} {a : ArtifactRow}
    (ha : db'.artifacts.get key = some a) (hpending : a.status = .pending) :
    db.artifacts.get key = some a ∨ tenantStatus db key.tenantId = some .active ∨
      ∃ bytes d version, c = .put (.reclaiming bytes d version) ∧ d.tenantId = key.tenantId ∧
        Reclaimable db.artifacts d version := by
  have hupdate : ∀ {k b b'}, ArtifactUpdate db db' k b b' → b'.status ≠ .pending →
      db.artifacts.get key = some a := by
    intro k b b' hw hb
    rcases hw.row_cases ha with ⟨rfl, rfl⟩ | hold
    · exact absurd hpending hb
    · exact hold
  cases h with
  | quiet => exact .inl ha
  | reserved _ hinsert _ =>
    rcases hinsert.row_cases ha with ⟨rfl, -⟩ | hold
    · exact .inr (.inl hinsert.status)
    · exact .inl hold
  | reclaimed hc hidentifies hfailed hversion hw _ =>
    rcases hw.row_cases ha with ⟨rfl, -⟩ | hold
    · have htenant := hidentifies
      simp only [ArtifactDescriptor.identifies, Bool.and_eq_true, beq_iff_eq] at htenant
      exact .inr (.inr ⟨_, _, _, hc, htenant.1.1.1.symm, _, _, hw.row, hidentifies, hfailed, hversion⟩)
    · exact .inl hold
  | deletionClaimed _ _ _ hw _ => exact .inl (hupdate hw (by simp [ArtifactRow.deletionClaimed]))
  | settled _ hsettled hw _ _ => exact .inl (hupdate hw hsettled.not_pending)
  | uploaded => exact .inl ha
  | removed => exact .inl ha

/-- Every row was there under the same path, or was inserted for an active tenant. -/
theorem Effect.path_from (h : Effect c db blobs c' db' blobs') {key : Key} {a : ArtifactRow}
    (ha : db'.artifacts.get key = some a) :
    (∃ b, db.artifacts.get key = some b ∧ b.objectKey = a.objectKey) ∨
      (tenantStatus db key.tenantId = some .active ∧ a.status = .pending) := by
  cases h with
  | quiet => exact .inl ⟨a, ha, rfl⟩
  | reserved _ hinsert _ =>
    rcases hinsert.row_cases ha with ⟨rfl, rfl⟩ | hold
    · exact .inr ⟨hinsert.status, rfl⟩
    · exact .inl ⟨a, hold, rfl⟩
  | reclaimed _ _ _ _ hw _ => exact .inl (hw.from_row rfl ha).2
  | deletionClaimed _ _ _ hw _ => exact .inl (hw.from_row rfl ha).2
  | settled _ hsettled hw _ _ => exact .inl (hw.from_row hsettled.objectKey ha).2
  | uploaded => exact .inl ⟨a, ha, rfl⟩
  | removed => exact .inl ⟨a, ha, rfl⟩

/-- A row keeps its path. -/
theorem Effect.path_kept (h : Effect c db blobs c' db' blobs') {key : Key} {a : ArtifactRow}
    (ha : db.artifacts.get key = some a) :
    ∃ a', db'.artifacts.get key = some a' ∧ a'.objectKey = a.objectKey := by
  obtain ⟨a', ha', -⟩ := h.rows_kept ha
  rcases h.path_from ha' with ⟨b, hb, hpath⟩ | ⟨-, hpending⟩
  · obtain rfl := Option.some.inj (ha.symm.trans hb)
    exact ⟨a', ha', hpath.symm⟩
  · cases h with
    | reserved _ hinsert _ =>
      rcases hinsert.row_cases ha' with ⟨rfl, -⟩ | hold
      · rw [hinsert.fresh] at ha
        cases ha
      · obtain rfl := Option.some.inj (ha.symm.trans hold)
        exact ⟨a, ha', rfl⟩
    | quiet =>
      obtain rfl := Option.some.inj (ha.symm.trans ha')
      exact ⟨a, ha', rfl⟩
    | reclaimed _ _ _ _ hw _ =>
      rcases hw.row_cases ha' with ⟨rfl, rfl⟩ | hold
      · obtain rfl := Option.some.inj (ha.symm.trans hw.row)
        exact ⟨_, ha', rfl⟩
      · obtain rfl := Option.some.inj (ha.symm.trans hold)
        exact ⟨a, ha', rfl⟩
    | deletionClaimed _ _ _ hw _ =>
      rcases hw.row_cases ha' with ⟨rfl, rfl⟩ | hold
      · obtain rfl := Option.some.inj (ha.symm.trans hw.row)
        exact ⟨_, ha', rfl⟩
      · obtain rfl := Option.some.inj (ha.symm.trans hold)
        exact ⟨a, ha', rfl⟩
    | settled _ hsettled hw _ _ =>
      rcases hw.row_cases ha' with ⟨rfl, rfl⟩ | hold
      · obtain rfl := Option.some.inj (ha.symm.trans hw.row)
        exact ⟨_, ha', hsettled.objectKey⟩
      · obtain rfl := Option.some.inj (ha.symm.trans hold)
        exact ⟨a, ha', rfl⟩
    | uploaded =>
      obtain rfl := Option.some.inj (ha.symm.trans ha')
      exact ⟨a, ha', rfl⟩
    | removed =>
      obtain rfl := Option.some.inj (ha.symm.trans ha')
      exact ⟨a, ha', rfl⟩

/-- An object was there before, or a call uploaded it. -/
theorem Effect.object_from (h : Effect c db blobs c' db' blobs') {path : String} {o : Objects.Object}
    (ho : blobs'.get path = some o) :
    blobs.get path = some o ∨ (db' = db ∧ ∃ d version, c.uploading? = some (d, version) ∧ path = d.objectKey) := by
  cases h with
  | uploaded hc hclaim hnone =>
    rename_i d version bytes etag
    by_cases hp : path = d.objectKey
    · exact .inr ⟨rfl, d, version, by rw [hc]; rfl, hp⟩
    · exact .inl ((Table.get_insert_other hp).symm.trans ho)
  | removed =>
    exact .inl (Objects.delete_some ho)
  | _ => exact .inl ho

/-- A call about to upload holds a row that is pending. -/
theorem Effect.uploads (h : Effect c db blobs c' db' blobs') {d : ArtifactDescriptor} {version : Nat}
    (hu : c'.uploading? = some (d, version)) :
    Holds db'.artifacts d version (fun a => a.status = .pending) := by
  have hacquired : ∀ {bytes key a}, db'.artifacts.get key = some a → a.status = .pending →
      (StoreCall.put (.acquired bytes key a)).uploading? = some (d, version) →
      Holds db'.artifacts d version (fun a => a.status = .pending) := by
    intro bytes key a ha hpending hu
    unfold PutState.acquired at hu
    split at hu
    · cases hu
    · rename_i stored hd
      simp only [StoreCall.uploading?, Option.some.injEq, Prod.mk.injEq] at hu
      obtain ⟨rfl, rfl⟩ := hu
      have hkey := (rowDescriptor_some hd).2.1
      exact ⟨a, by rw [hkey]; exact ha, rfl, by rw [hkey]; exact hd, hpending⟩
  cases h with
  | reserved _ hinsert hc =>
    rcases hc with hc | ⟨bytes, rfl⟩
    · rw [StoreCall.uploading_claim hc] at hu
      cases hu
    · refine hacquired ?_ rfl hu
      rw [hinsert.result]
      exact Table.get_insert_self hinsert.fresh
  | reclaimed _ _ _ _ hw hc =>
    rcases hc with hc | rfl
    · rw [StoreCall.uploading_claim hc] at hu
      cases hu
    · exact hacquired hw.get_self rfl hu
  | deletionClaimed _ _ _ _ hc =>
    rcases hc with hc | rfl
    · rw [StoreCall.uploading_claim hc] at hu
      cases hu
    · cases hu
  | quiet _ hnone =>
    rw [hnone] at hu
    cases hu
  | settled _ _ _ _ hnone =>
    rw [hnone] at hu
    cases hu
  | uploaded _ _ hnone =>
    rw [hnone] at hu
    cases hu
  | removed _ _ hnone =>
    rw [hnone] at hu
    cases hu

/-- Another call leaves a pending row alone that it does not hold. -/
theorem Effect.held_kept (h : Effect c db blobs c' db' blobs') {d : ArtifactDescriptor} {version : Nat}
    (hh : Holds db.artifacts d version (fun a => a.status = .pending))
    (hclaim : c.claim? ≠ some (d.key, version)) :
    Holds db'.artifacts d version (fun a => a.status = .pending) := by
  obtain ⟨a, ha, hv, hd, hpending⟩ := hh
  have hupdate : ∀ {k b b'}, ArtifactUpdate db db' k b b' → (k = d.key → b = a → False) →
      Holds db'.artifacts d version (fun a => a.status = .pending) := by
    intro k b b' hw hne
    by_cases hk : d.key = k
    · subst hk
      exact (hne rfl (Option.some.inj (hw.row.symm.trans ha))).elim
    · exact ⟨a, (hw.get_other hk).trans ha, hv, hd, hpending⟩
  cases h with
  | reserved _ hinsert _ =>
    refine ⟨a, ?_, hv, hd, hpending⟩
    rw [hinsert.result]
    exact Table.get_insert_some ha
  | reclaimed _ _ hfailed _ hw _ =>
    refine hupdate hw (fun _ hb => ?_)
    rw [hb, hpending] at hfailed
    cases hfailed
  | deletionClaimed _ hav _ hw _ =>
    refine hupdate hw (fun _ hb => ?_)
    rw [hb, hpending] at hav
    cases hav
  | settled hown _ hw _ _ =>
    refine hupdate hw (fun hk hb => hclaim ?_)
    rw [hown, hk, hb, hv]
  | _ => exact ⟨a, ha, hv, hd, hpending⟩

end effects

/-! ## The paths of a tenant -/

/-- The paths of a tenant's objects. -/
def Under (tenantId path : String) : Prop := ∃ rest, path = tenantPrefix tenantId ++ rest

/-- No object lies under the prefixes of two tenants. -/
theorem under_unique {id id' path : String} (hid : opaqueId id = true) (hid' : opaqueId id' = true)
    (h : Under id path) (h' : Under id' path) : id = id' := by
  obtain ⟨rest, rfl⟩ := h
  obtain ⟨rest', he⟩ := h'
  have hlist := congrArg String.toList he
  simp only [tenantPrefix, String.toList_append, List.append_assoc, List.append_cancel_left_eq] at hlist
  exact String.toList_inj.mp (split_at_slash (opaque_no_slash hid) (opaque_no_slash hid') hlist)

/-! ## What an executor knows -/

section custody

/-- The request is still the one that the executor took over. -/
def Owns (db : Db ρ σ) (claim : DeletionClaim) : Prop :=
  ∃ r, db.deletionRequests.get claim.key = some r ∧ r.version = claim.version ∧ r.state = .running

/-- The request was taken over at this version, unless it is purged. -/
def Bound (db : Db ρ σ) (claim : DeletionClaim) : Prop :=
  (∃ r, db.deletionRequests.get claim.key = some r ∧ claim.version ≤ r.version) ∨
    tenantStatus db claim.tenantId = some .deleted

/-- The rest of the list names every object of the tenant, and every row that may
still receive one. -/
structure Covers (rows : Table Key ArtifactRow) (blobs : Objects.Store String) (tenantId : String)
    (rest : List ArtifactReference) : Prop where
  pending : ∀ key a, rows.get key = some a → key.tenantId = tenantId → a.status = .pending →
    ∃ ref ∈ rest, ref.status = .pending ∧ ref.objectKey = a.objectKey
  objects : ∀ key a, rows.get key = some a → key.tenantId = tenantId → (blobs.get a.objectKey).isSome = true →
    ∃ ref ∈ rest, ref.objectKey = a.objectKey

def Executor.Sound (db : Db ρ σ) (blobs : Objects.Store String) : Executor → Prop
  | .removing _ claim rest =>
    Bound db claim ∧ (Owns db claim → Covers db.artifacts blobs claim.tenantId rest)
  | .checking _ claim a rest =>
    Bound db claim ∧ a.status ≠ .pending ∧
      (Owns db claim → Covers db.artifacts blobs claim.tenantId (a :: rest))
  | .idle | .claiming _ _ _ | .failing _ _ _ | .done _ => True

/-- No row and no request of a tenant that is deleted, and one active request of a tenant at most. -/
structure Registry (db : Db ρ σ) : Prop where
  living : ∀ key a, db.artifacts.get key = some a → tenantStatus db key.tenantId ≠ some .deleted
  enrolled : ∀ key a, db.artifacts.get key = some a → (db.tenants.get key.tenantId).isSome = true
  known : ∀ id t, db.tenants.get id = some t → opaqueId id = true
  running : ∀ key r, db.deletionRequests.get key = some r → r.state = .running →
    tenantStatus db key.tenantId = some .deleting
  single : ∀ key key' r r', db.deletionRequests.get key = some r → db.deletionRequests.get key' = some r' →
    r.active = true → r'.active = true → key.tenantId = key'.tenantId → key = key'

/-- Rows, objects and the calls that hold them. -/
structure Holdings (db : Db ρ σ) (blobs : Objects.Store String) (calls : Nat → StoreCall) : Prop where
  claims : Claims (fun key => tenantStatus db key.tenantId = some .deleted) db.artifacts calls
  paths : ∀ key key' a a', db.artifacts.get key = some a → db.artifacts.get key' = some a' →
    a.objectKey = a'.objectKey → key = key'
  checked : ∀ key a, db.artifacts.get key = some a → a.checks key = true
  uploads : ∀ n d version, (calls n).uploading? = some (d, version) →
    Holds db.artifacts d version (fun a => a.status = .pending)
  owned : ∀ path o, blobs.get path = some o → ∃ key a, db.artifacts.get key = some a ∧ a.objectKey = path

structure Custody.Sound (w : Custody ρ σ) : Prop where
  registry : Registry w.vault.db
  holdings : Holdings w.vault.db w.vault.blobs w.vault.calls
  executors : ∀ n, (w.executors n).Sound w.vault.db w.vault.blobs

variable {db db' : Db ρ σ} {blobs blobs' : Objects.Store String} {calls : Nat → StoreCall}

theorem Registry.owns (h : Registry db) {claim : DeletionClaim} (ho : Owns db claim) :
    tenantStatus db claim.tenantId = some .deleting := by
  obtain ⟨r, hr, -, hstate⟩ := ho
  exact h.running claim.key r hr hstate

/-! ## Steps of the calls -/

theorem StoreCall.uploading_held {c : StoreCall} {d : ArtifactDescriptor} {version : Nat}
    (h : c.uploading? = some (d, version)) : c.claim? = some (d.key, version) := by
  cases c with
  | put s =>
    cases s <;> simp only [uploading?, Option.some.injEq, Prod.mk.injEq, reduceCtorEq] at h
    obtain ⟨rfl, rfl⟩ := h
    rfl
  | _ => cases h

theorem Effect.status {c c' : StoreCall} (h : Effect c db blobs c' db' blobs') (id : String) :
    tenantStatus db' id = tenantStatus db id := by
  rw [tenantStatus, tenantStatus, h.untouched.1]

theorem Registry.effect (hr : Registry db) {c c' : StoreCall} (h : Effect c db blobs c' db' blobs') :
    Registry db' := by
  obtain ⟨htenants, hrequests⟩ := h.untouched
  constructor
  · intro key a ha
    rw [h.status]
    rcases h.path_from ha with ⟨b, hb, -⟩ | ⟨hactive, -⟩
    · exact hr.living key b hb
    · simp [hactive]
  · intro key a ha
    rw [htenants]
    rcases h.path_from ha with ⟨b, hb, -⟩ | ⟨hactive, -⟩
    · exact hr.enrolled key b hb
    · obtain ⟨t, ht, -⟩ := Option.map_eq_some_iff.mp hactive
      rw [ht]
      rfl
  · rw [htenants]
    exact hr.known
  · intro key r hget hstate
    rw [hrequests] at hget
    rw [h.status]
    exact hr.running key r hget hstate
  · rw [hrequests]
    exact hr.single

theorem Holdings.effect (hh : Holdings db blobs calls) (hr : Registry db) {n : Nat} {c' : StoreCall}
    (h : Effect (calls n) db blobs c' db' blobs') : Holdings db' blobs' (Function.update calls n c') := by
  obtain ⟨hpaths, hchecked⟩ := h.constraints hh.paths hh.checked
  have hclaims : Claims (fun key => tenantStatus db' key.tenantId = some .deleted) db'.artifacts
      (Function.update calls n c') := by
    refine hh.claims.update n h (fun key hgone => (h.status key.tenantId).trans hgone) ?_
    intro key a ha
    have hliving := (hr.effect h).living key a ha
    rw [h.status] at hliving
    exact hliving
  refine ⟨hclaims, hpaths, hchecked, ?_, ?_⟩
  · intro m d version hu
    by_cases hm : m = n
    · subst hm
      rw [Function.update_self] at hu
      exact h.uploads hu
    · rw [Function.update_of_ne hm] at hu
      refine h.held_kept (hh.uploads m d version hu) (fun hclaim => hm ?_)
      exact hh.claims.distinct m n _ (StoreCall.uploading_held hu) hclaim
  · intro path o ho
    have howned : ∃ key a, db.artifacts.get key = some a ∧ a.objectKey = path := by
      rcases h.object_from ho with hold | ⟨-, d, version, hu, rfl⟩
      · exact hh.owned path o hold
      · obtain ⟨a, ha, -, hd, -⟩ := hh.uploads n d version hu
        exact ⟨d.key, a, ha, (rowDescriptor_some hd).2.2.1.symm⟩
    obtain ⟨key, a, ha, hpath⟩ := howned
    obtain ⟨a', ha', hkept⟩ := h.path_kept ha
    exact ⟨key, a', ha', hkept.trans hpath⟩

/-- While the tenant is being deleted, a step of a call adds nothing to what is to be removed,
except by a take-over of one of its failed rows. -/
theorem Covers.effect {tenantId : String} {rest : List ArtifactReference}
    (hc : Covers db.artifacts blobs tenantId rest) (hh : Holdings db blobs calls) {n : Nat} {c' : StoreCall}
    (h : Effect (calls n) db blobs c' db' blobs') (hdeleting : tenantStatus db tenantId = some .deleting)
    (hpermitted : ∀ bytes d version, calls n = .put (.reclaiming bytes d version) →
      Reclaimable db.artifacts d version → db'.artifacts ≠ db.artifacts →
        tenantStatus db d.tenantId ≠ some .deleting) :
    Covers db'.artifacts blobs' tenantId rest := by
  have hrow : ∀ key a, db'.artifacts.get key = some a → key.tenantId = tenantId →
      ∃ b, db.artifacts.get key = some b ∧ b.objectKey = a.objectKey := by
    intro key a ha ht
    rcases h.path_from ha with hold | ⟨hactive, -⟩
    · exact hold
    · rw [ht, hdeleting] at hactive
      cases hactive
  constructor
  · intro key a ha ht hpending
    have hold : db.artifacts.get key = some a := by
      by_cases hsame : db'.artifacts = db.artifacts
      · rw [← hsame]
        exact ha
      rcases h.pending_from ha hpending with hold | hactive | ⟨bytes, d, version, hcall, hd, hreclaimable⟩
      · exact hold
      · rw [ht, hdeleting] at hactive
        cases hactive
      · refine absurd ?_ (hpermitted bytes d version hcall hreclaimable hsame)
        rw [hd, ht]
        exact hdeleting
    exact hc.pending key a hold ht hpending
  · intro key a ha ht hsome
    obtain ⟨b, hb, hpath⟩ := hrow key a ha ht
    obtain ⟨o, ho⟩ := Option.isSome_iff_exists.mp hsome
    rw [← hpath]
    rcases h.object_from ho with hobject | ⟨-, d, version, hu, hd⟩
    · refine hc.objects key b hb ht ?_
      rw [hpath, hobject]
      rfl
    · obtain ⟨b', hb', -, hdescribes, hpending⟩ := hh.uploads n d version hu
      have hkey : key = d.key :=
        hh.paths key d.key b b' hb hb' (hpath.trans (hd.trans (rowDescriptor_some hdescribes).2.2.1))
      subst hkey
      obtain rfl := Option.some.inj (hb.symm.trans hb')
      obtain ⟨ref, href, -, hkey⟩ := hc.pending d.key b hb ht hpending
      exact ⟨ref, href, hkey⟩

theorem Executor.Sound.effect {e : Executor} (he : e.Sound db blobs) (hr : Registry db)
    (hh : Holdings db blobs calls) {n : Nat} {c' : StoreCall} (h : Effect (calls n) db blobs c' db' blobs')
    (hpermitted : ∀ bytes d version, calls n = .put (.reclaiming bytes d version) →
      Reclaimable db.artifacts d version → db'.artifacts ≠ db.artifacts →
        tenantStatus db d.tenantId ≠ some .deleting) : e.Sound db' blobs' := by
  obtain ⟨-, hrequests⟩ := h.untouched
  have hbound : ∀ claim, Bound db claim → Bound db' claim := by
    intro claim hb
    rw [Bound, hrequests, h.status]
    exact hb
  have hcovers : ∀ claim rest, (Owns db claim → Covers db.artifacts blobs claim.tenantId rest) →
      Owns db' claim → Covers db'.artifacts blobs' claim.tenantId rest := by
    intro claim rest hc ho
    rw [Owns, hrequests] at ho
    exact (hc ho).effect hh h (hr.owns ho) hpermitted
  cases e with
  | removing at' claim rest => exact ⟨hbound claim he.1, hcovers claim rest he.2⟩
  | checking at' claim a rest => exact ⟨hbound claim he.1, he.2.1, hcovers claim (a :: rest) he.2.2⟩
  | _ => trivial

/-! ## Steps of requests and tenants -/

/-- The artifacts stay, no tenant's deletion is undone or finished, and a request that
is running was taken over under a higher version or was running before. -/
structure Amended (db db' : Db ρ σ) : Prop where
  registry : Registry db'
  artifacts : db'.artifacts = db.artifacts
  deleted : ∀ id, tenantStatus db' id = some .deleted ↔ tenantStatus db id = some .deleted
  kept : ∀ key r, db.deletionRequests.get key = some r →
    ∃ r', db'.deletionRequests.get key = some r' ∧ r.version ≤ r'.version
  taken : ∀ key r', db'.deletionRequests.get key = some r' → r'.state = .running →
    db.deletionRequests.get key = some r' ∨
      ∃ r, db.deletionRequests.get key = some r ∧ r.version < r'.version

theorem Holdings.amended (hh : Holdings db blobs calls) (h : Amended db db') : Holdings db' blobs calls := by
  constructor
  · constructor
    · intro n key version hclaim
      rw [h.artifacts, h.deleted]
      exact hh.claims.bound n key version hclaim
    · exact hh.claims.distinct
  · rw [h.artifacts]
    exact hh.paths
  · rw [h.artifacts]
    exact hh.checked
  · rw [h.artifacts]
    exact hh.uploads
  · rw [h.artifacts]
    exact hh.owned

theorem Executor.Sound.amended {e : Executor} (he : e.Sound db blobs) (h : Amended db db') : e.Sound db' blobs := by
  have hbound : ∀ claim, Bound db claim → Bound db' claim := by
    rintro claim (⟨r, hr, hle⟩ | hgone)
    · obtain ⟨r', hr', hle'⟩ := h.kept claim.key r hr
      exact .inl ⟨r', hr', by omega⟩
    · exact .inr ((h.deleted claim.tenantId).mpr hgone)
  have howns : ∀ claim, Bound db claim → Owns db' claim → Owns db claim := by
    rintro claim hb ⟨r', hr', hversion, hstate⟩
    rcases h.taken claim.key r' hr' hstate with hold | ⟨r, hr, hlt⟩
    · exact ⟨r', hold, hversion, hstate⟩
    · rcases hb with ⟨b, hb, hle⟩ | hgone
      · obtain rfl := Option.some.inj (hr.symm.trans hb)
        omega
      · have hdeleting := h.registry.running claim.key r' hr' hstate
        have hdeleted := (h.deleted claim.tenantId).mpr hgone
        exact absurd (hdeleting.symm.trans hdeleted) nofun
  cases e with
  | removing at' claim rest =>
    refine ⟨hbound claim he.1, fun ho => ?_⟩
    rw [h.artifacts]
    exact he.2 (howns claim he.1 ho)
  | checking at' claim a rest =>
    refine ⟨hbound claim he.1, he.2.1, fun ho => ?_⟩
    rw [h.artifacts]
    exact he.2.2 (howns claim he.1 ho)
  | _ => trivial

theorem tenantStatus_known {id : String} (h : (db'.tenants.get id).isSome = (db.tenants.get id).isSome)
    (hknown : ∀ id t, db.tenants.get id = some t → opaqueId id = true) {t : TenantRow}
    (ht : db'.tenants.get id = some t) : opaqueId id = true := by
  rw [ht, Option.isSome_some] at h
  obtain ⟨t', ht'⟩ := Option.isSome_iff_exists.mp h.symm
  exact hknown id t' ht'

/-- A change that leaves the artifacts, the tenants and who is deleted alone needs to be looked at
only for its requests. -/
theorem Registry.of_requests (hr : Registry db) (hartifacts : db'.artifacts = db.artifacts)
    (htenants : ∀ id, (db'.tenants.get id).isSome = (db.tenants.get id).isSome)
    (hdeleted : ∀ id, tenantStatus db' id = some .deleted ↔ tenantStatus db id = some .deleted)
    (hrunning : ∀ key r, db'.deletionRequests.get key = some r → r.state = .running →
      tenantStatus db' key.tenantId = some .deleting)
    (hsingle : ∀ key key' r r', db'.deletionRequests.get key = some r → db'.deletionRequests.get key' = some r' →
      r.active = true → r'.active = true → key.tenantId = key'.tenantId → key = key') : Registry db' where
  living := by
    intro k a ha
    rw [hartifacts] at ha
    rw [Ne, hdeleted]
    exact hr.living k a ha
  enrolled := by
    intro k a ha
    rw [hartifacts] at ha
    rw [htenants]
    exact hr.enrolled k a ha
  known := fun id _ ht => tenantStatus_known (htenants id) hr.known ht
  running := hrunning
  single := hsingle

theorem versions_kept {key : Key} {r r' : DeletionRow} (hrequest : db.deletionRequests.get key = some r)
    (hrequests : db'.deletionRequests = db.deletionRequests.set key r') (hversion : r.version ≤ r'.version)
    (k : Key) (x : DeletionRow) (hx : db.deletionRequests.get k = some x) :
    ∃ x', db'.deletionRequests.get k = some x' ∧ x.version ≤ x'.version := by
  by_cases hk : k = key
  · subst hk
    obtain rfl := Option.some.inj (hx.symm.trans hrequest)
    refine ⟨r', ?_, hversion⟩
    rw [hrequests]
    exact Table.get_set_self hrequest
  · refine ⟨x, ?_, Nat.le_refl _⟩
    rw [hrequests, Table.get_set_other _ _ hk]
    exact hx

theorem Scheduled.amended (hr : Registry db) {key : Key} {row : DeletionRow} (h : Scheduled db db' key row) :
    Amended db db' := by
  have hcases : ∀ k r, db'.deletionRequests.get k = some r →
      (k = key ∧ r = row) ∨ db.deletionRequests.get k = some r := by
    intro k r hget
    rw [h.requests] at hget
    exact Table.get_insert_cases h.fresh hget
  have hnone : ∀ k r, db.deletionRequests.get k = some r → r.active = true → k.tenantId ≠ key.tenantId := by
    intro k r hget hactive ht
    obtain ⟨row, hrow⟩ := Table.find?_isSome (p := fun key' r => key'.tenantId == key.tenantId && r.active) hget
      (by simp [ht, hactive])
    have hinactive := h.inactive
    rw [activeRequest, hrow] at hinactive
    cases hinactive
  have hdeleted : ∀ id, tenantStatus db' id = some .deleted ↔ tenantStatus db id = some .deleted := by
    intro id
    rcases h.status id with he | ⟨hb, ha⟩
    · rw [he]
    · rw [hb, ha]
      simp
  refine ⟨hr.of_requests h.artifacts h.tenants hdeleted ?_ ?_, h.artifacts, hdeleted, ?_, ?_⟩
  · intro k r hget hstate
    rcases hcases k r hget with ⟨-, rfl⟩ | hold
    · rw [h.state] at hstate
      cases hstate
    · have hdeleting := hr.running k r hold hstate
      rcases h.status k.tenantId with he | ⟨hb, -⟩
      · exact he.trans hdeleting
      · rw [hdeleting] at hb
        cases hb
  · intro k k' r r' hget hget' hactive hactive' ht
    rcases hcases k r hget with ⟨rfl, rfl⟩ | hold <;> rcases hcases k' r' hget' with ⟨rfl, rfl⟩ | hold'
    · rfl
    · exact absurd ht.symm (hnone k' r' hold' hactive')
    · exact absurd ht (hnone k r hold hactive)
    · exact hr.single k k' r r' hold hold' hactive hactive' ht
  · intro k r hget
    refine ⟨r, ?_, Nat.le_refl _⟩
    rw [h.requests]
    exact Table.get_insert_some hget
  · intro k r hget hstate
    rcases hcases k r hget with ⟨-, rfl⟩ | hold
    · rw [h.state] at hstate
      cases hstate
    · exact .inl hold

theorem Claimed.amended (hr : Registry db) {claim : DeletionClaim} {r r' : DeletionRow}
    (h : Claimed db db' claim r r') : Amended db db' := by
  have hcases : ∀ k x, db'.deletionRequests.get k = some x →
      (k = claim.key ∧ x = r') ∨ db.deletionRequests.get k = some x := by
    intro k x hget
    rw [h.requests] at hget
    exact Table.get_set_cases h.request hget
  have hactive : ∀ k x, db'.deletionRequests.get k = some x → x.active = true →
      ∃ y, db.deletionRequests.get k = some y ∧ y.active = true := by
    intro k x hget hx
    rcases hcases k x hget with ⟨rfl, rfl⟩ | hold
    · exact ⟨r, h.request, h.active⟩
    · exact ⟨x, hold, hx⟩
  have hdeleted : ∀ id, tenantStatus db' id = some .deleted ↔ tenantStatus db id = some .deleted := by
    intro id
    by_cases hid : id = claim.tenantId
    · subst hid
      rw [h.status]
      rcases h.before with hb | hb | hb <;> rw [hb] <;> simp
    · rw [h.others id hid]
  refine ⟨hr.of_requests h.artifacts h.tenants hdeleted ?_ ?_, h.artifacts, hdeleted, ?_, ?_⟩
  · intro k x hget hstate
    by_cases hid : k.tenantId = claim.tenantId
    · rw [hid]
      exact h.status
    · rcases hcases k x hget with ⟨rfl, -⟩ | hold
      · exact absurd rfl hid
      · rw [h.others _ hid]
        exact hr.running k x hold hstate
  · intro k k' x x' hget hget' hx hx' ht
    obtain ⟨y, hy, hya⟩ := hactive k x hget hx
    obtain ⟨y', hy', hya'⟩ := hactive k' x' hget' hx'
    exact hr.single k k' y y' hy hy' hya hya' ht
  · refine versions_kept h.request h.requests ?_
    rw [h.taken.1, h.version]
    omega
  · intro k x hget hstate
    rcases hcases k x hget with ⟨rfl, rfl⟩ | hold
    · refine .inr ⟨r, h.request, ?_⟩
      rw [h.taken.1, h.version]
      omega
    · exact .inl hold

theorem Failed.amended (hr : Registry db) {claim : DeletionClaim} {r r' : DeletionRow}
    (h : Failed db db' claim r r') : Amended db db' := by
  have hcases : ∀ k x, db'.deletionRequests.get k = some x →
      (k = claim.key ∧ x = r') ∨ db.deletionRequests.get k = some x := by
    intro k x hget
    rw [h.requests] at hget
    exact Table.get_set_cases h.request hget
  have hinactive : r'.active = false := by simp [DeletionRow.active, h.given.2]
  have hheld := h.held
  simp only [DeletionRow.heldBy, Bool.and_eq_true, beq_iff_eq] at hheld
  have hactive : r.active = true := by simp [DeletionRow.active, hheld.1.1.2]
  have hdeleted : ∀ id, tenantStatus db' id = some .deleted ↔ tenantStatus db id = some .deleted := by
    intro id
    by_cases hid : id = claim.tenantId
    · subst hid
      rcases h.status with he | ⟨hb, ha⟩
      · rw [he]
      · rw [hb, ha]
        simp
    · rw [h.others id hid]
  refine ⟨hr.of_requests h.artifacts h.tenants hdeleted ?_ ?_, h.artifacts, hdeleted, ?_, ?_⟩
  · intro k x hget hstate
    rcases hcases k x hget with ⟨-, rfl⟩ | hold
    · rw [h.given.2] at hstate
      cases hstate
    · -- Another request of the tenant cannot be running beside the one that failed.
      have hid : k.tenantId ≠ claim.tenantId := by
        intro hid
        have hx : x.active = true := by simp [DeletionRow.active, hstate]
        have hk := hr.single k claim.key x r hold h.request hx hactive hid
        subst hk
        rw [h.requests, Table.get_set_self h.request] at hget
        obtain rfl := Option.some.inj hget
        rw [hinactive] at hx
        cases hx
      rw [h.others _ hid]
      exact hr.running k x hold hstate
  · intro k k' x x' hget hget' hx hx' ht
    rcases hcases k x hget with ⟨-, rfl⟩ | hold
    · rw [hinactive] at hx
      cases hx
    · rcases hcases k' x' hget' with ⟨-, rfl⟩ | hold'
      · rw [hinactive] at hx'
        cases hx'
      · exact hr.single k k' x x' hold hold' hx hx' ht
  · refine versions_kept h.request h.requests ?_
    rw [h.given.1]
    omega
  · intro k x hget hstate
    rcases hcases k x hget with ⟨rfl, rfl⟩ | hold
    · rw [h.given.2] at hstate
      cases hstate
    · exact .inl hold

/-! ## Steps of the executors -/

theorem Holdings.shrink (hh : Holdings db blobs calls)
    (hless : ∀ path o, blobs'.get path = some o → blobs.get path = some o) : Holdings db blobs' calls :=
  ⟨hh.claims, hh.paths, hh.checked, hh.uploads, fun path o ho => hh.owned path o (hless path o ho)⟩

theorem Covers.shrink {rows : Table Key ArtifactRow} {tenantId : String} {rest : List ArtifactReference}
    (hc : Covers rows blobs tenantId rest)
    (hless : ∀ path o, blobs'.get path = some o → blobs.get path = some o) : Covers rows blobs' tenantId rest := by
  refine ⟨hc.pending, fun key a ha ht hsome => hc.objects key a ha ht ?_⟩
  obtain ⟨o, ho⟩ := Option.isSome_iff_exists.mp hsome
  rw [hless _ o ho]
  rfl

theorem Executor.Sound.shrink {e : Executor} (he : e.Sound db blobs)
    (hless : ∀ path o, blobs'.get path = some o → blobs.get path = some o) : e.Sound db blobs' := by
  cases e with
  | removing at' claim rest => exact ⟨he.1, fun ho => (he.2 ho).shrink hless⟩
  | checking at' claim a rest => exact ⟨he.1, he.2.1, fun ho => (he.2.2 ho).shrink hless⟩
  | _ => trivial

/-- Once its object is gone, an artifact without an upload under way is off the list. -/
theorem Covers.removed {rows : Table Key ArtifactRow} {tenantId : String} {a : ArtifactReference}
    {rest : List ArtifactReference} (hc : Covers rows blobs tenantId (a :: rest)) (hstatus : a.status ≠ .pending)
    (hgone : blobs.get a.objectKey = none) : Covers rows blobs tenantId rest := by
  constructor
  · intro key row hrow ht hpending
    obtain ⟨ref, href, hs, hkey⟩ := hc.pending key row hrow ht hpending
    rcases List.mem_cons.mp href with rfl | href
    · exact absurd hs hstatus
    · exact ⟨ref, href, hs, hkey⟩
  · intro key row hrow ht hsome
    obtain ⟨ref, href, hkey⟩ := hc.objects key row hrow ht hsome
    rcases List.mem_cons.mp href with rfl | href
    · rw [← hkey, hgone] at hsome
      cases hsome
    · exact ⟨ref, href, hkey⟩

theorem heldBy_owns {claim : DeletionClaim} {r : DeletionRow} (hr : db.deletionRequests.get claim.key = some r)
    (hheld : r.heldBy claim = true) : Owns db claim := by
  simp only [DeletionRow.heldBy, Bool.and_eq_true, beq_iff_eq] at hheld
  exact ⟨r, hr, hheld.1.1.1, hheld.1.1.2⟩

section purged

variable {claim : DeletionClaim} {r : DeletionRow}

theorem Purged.row_kept (h : Purged db db' claim r) {key : Key} {a : ArtifactRow} :
    db'.artifacts.get key = some a ↔ db.artifacts.get key = some a ∧ key.tenantId ≠ claim.tenantId := by
  rw [h.artifacts, Table.get_delete, Option.filter_eq_some_iff]
  simp

theorem Purged.request_kept (h : Purged db db' claim r) {key : Key} {x : DeletionRow}
    (hget : db'.deletionRequests.get key = some x) :
    key ≠ claim.key ∧ db.deletionRequests.get key = some x := by
  rw [h.requests] at hget
  split at hget
  · cases hget
  · rename_i hk
    exact ⟨hk, hget⟩

theorem Purged.running (hr : Registry db) (h : Purged db db' claim r) {key : Key} {x : DeletionRow}
    (hget : db'.deletionRequests.get key = some x) (hstate : x.state = .running) :
    key.tenantId ≠ claim.tenantId := by
  intro ht
  obtain ⟨hk, hold⟩ := h.request_kept hget
  have hheld := h.held
  simp only [DeletionRow.heldBy, Bool.and_eq_true, beq_iff_eq] at hheld
  exact hk (hr.single key claim.key x r hold h.request (by simp [DeletionRow.active, hstate])
    (by simp [DeletionRow.active, hheld.1.1.2]) ht)

theorem Purged.registry (hr : Registry db) (h : Purged db db' claim r) : Registry db' := by
  constructor
  · intro key a ha
    obtain ⟨hold, ht⟩ := h.row_kept.mp ha
    rw [h.others _ ht]
    exact hr.living key a hold
  · intro key a ha
    rw [h.tenants]
    exact hr.enrolled key a (h.row_kept.mp ha).1
  · exact fun id t ht => tenantStatus_known (h.tenants id) hr.known ht
  · intro key x hget hstate
    rw [h.others _ (h.running hr hget hstate)]
    exact hr.running key x (h.request_kept hget).2 hstate
  · intro key key' x x' hget hget' hx hx' ht
    exact hr.single key key' x x' (h.request_kept hget).2 (h.request_kept hget').2 hx hx' ht

theorem Purged.holdings (hh : Holdings db blobs calls) (h : Purged db db' claim r)
    (hc : Covers db.artifacts blobs claim.tenantId []) : Holdings db' blobs calls := by
  constructor
  · constructor
    · intro n key version hclaim
      by_cases ht : key.tenantId = claim.tenantId
      · rw [ht]
        exact .inr h.status
      · rw [h.others _ ht]
        rcases hh.claims.bound n key version hclaim with ⟨a, ha, hle⟩ | hgone
        · exact .inl ⟨a, h.row_kept.mpr ⟨ha, ht⟩, hle⟩
        · exact .inr hgone
    · exact hh.claims.distinct
  · intro key key' a a' ha ha'
    exact hh.paths key key' a a' (h.row_kept.mp ha).1 (h.row_kept.mp ha').1
  · exact fun key a ha => hh.checked key a (h.row_kept.mp ha).1
  · intro n d version hu
    obtain ⟨a, ha, hv, hd, hpending⟩ := hh.uploads n d version hu
    refine ⟨a, h.row_kept.mpr ⟨ha, fun ht => ?_⟩, hv, hd, hpending⟩
    obtain ⟨ref, href, -⟩ := hc.pending d.key a ha ht hpending
    exact absurd href List.not_mem_nil
  · intro path o ho
    obtain ⟨key, a, ha, rfl⟩ := hh.owned path o ho
    refine ⟨key, a, h.row_kept.mpr ⟨ha, fun ht => ?_⟩, rfl⟩
    obtain ⟨ref, href, -⟩ := hc.objects key a ha ht (by rw [ho]; rfl)
    exact absurd href List.not_mem_nil

theorem Purged.executor (h : Purged db db' claim r) {e : Executor} (he : e.Sound db blobs) :
    e.Sound db' blobs := by
  have hbound : ∀ c, Bound db c → Bound db' c := by
    intro c hb
    by_cases ht : c.tenantId = claim.tenantId
    · right
      rw [ht]
      exact h.status
    · rcases hb with ⟨x, hx, hle⟩ | hgone
      · refine .inl ⟨x, ?_, hle⟩
        rw [h.requests, if_neg (fun hk => ht (congrArg Key.tenantId hk))]
        exact hx
      · exact .inr ((h.others _ ht).trans hgone)
  have hcovers : ∀ c rest, (Owns db c → Covers db.artifacts blobs c.tenantId rest) →
      Owns db' c → Covers db'.artifacts blobs c.tenantId rest := by
    rintro c rest hc ⟨x, hx, hv, hs⟩
    have hc := hc ⟨x, (h.request_kept hx).2, hv, hs⟩
    exact ⟨fun key a ha => hc.pending key a (h.row_kept.mp ha).1,
      fun key a ha => hc.objects key a (h.row_kept.mp ha).1⟩
  cases e with
  | removing at' c rest => exact ⟨hbound c he.1, hcovers c rest he.2⟩
  | checking at' c a rest => exact ⟨hbound c he.1, he.2.1, hcovers c (a :: rest) he.2.2⟩
  | _ => trivial

theorem Purged.deleted (h : Purged db db' claim r) {id : String} (hid : tenantStatus db id = some .deleted) :
    tenantStatus db' id = some .deleted := by
  by_cases ht : id = claim.tenantId
  · rw [ht]
    exact h.status
  · exact (h.others id ht).trans hid

end purged

/-- A step that keeps the invariant and undoes no deletion. -/
structure Custody.Carried (w w' : Custody ρ σ) : Prop where
  sound : w'.Sound
  deleted : ∀ id, tenantStatus w.vault.db id = some .deleted → tenantStatus w'.vault.db id = some .deleted

namespace Custody.Sound

variable {w : Custody ρ σ}

theorem replace (hs : w.Sound) (n : Nat) {e : Executor} (hr : Registry db')
    (hh : Holdings db' blobs' w.vault.calls)
    (hexecutors : ∀ m, (w.executors m).Sound w.vault.db w.vault.blobs → (w.executors m).Sound db' blobs')
    (hdeleted : ∀ id, tenantStatus w.vault.db id = some .deleted → tenantStatus db' id = some .deleted)
    (he : e.Sound db' blobs') :
    Carried w ⟨{ w.vault with db := db', blobs := blobs' }, Function.update w.executors n e⟩ := by
  refine ⟨⟨hr, hh, fun m => ?_⟩, hdeleted⟩
  by_cases hm : m = n
  · subst hm
    simp only [Function.update_self]
    exact he
  · simp only [Function.update_of_ne hm]
    exact hexecutors m (hs.executors m)

theorem amended (hs : w.Sound) (h : Amended w.vault.db db') (n : Nat) {e : Executor}
    (he : e.Sound db' w.vault.blobs) :
    Carried w ⟨{ w.vault with db := db' }, Function.update w.executors n e⟩ :=
  hs.replace n h.registry (hs.holdings.amended h) (fun _ hm => hm.amended h) (fun id => (h.deleted id).mpr) he

theorem shrink (hs : w.Sound) (hless : ∀ path o, blobs'.get path = some o → w.vault.blobs.get path = some o)
    (n : Nat) {e : Executor} (he : e.Sound w.vault.db blobs') :
    Carried w ⟨{ w.vault with blobs := blobs' }, Function.update w.executors n e⟩ :=
  hs.replace n hs.registry (hs.holdings.shrink hless) (fun _ hm => hm.shrink hless) (fun _ => id) he

theorem rest (hs : w.Sound) (n : Nat) {e : Executor} (he : e.Sound w.vault.db w.vault.blobs) :
    Carried w ⟨w.vault, Function.update w.executors n e⟩ :=
  hs.shrink (fun _ _ => id) n he

variable [ContentHash] [Sha256] [ResultDocument ρ] [RequestDocument σ]

omit [ContentHash] [ResultDocument ρ] [RequestDocument σ] in
/-- Step lemma, for the executors. -/
theorem advance (hs : w.Sound) (n : Nat) (env : Outside) : Carried w (w.advance n env) := by
  have he := hs.executors n
  unfold Custody.advance
  generalize w.executors n = e at he ⊢
  cases e with
  | idle => exact hs.rest n trivial
  | done result => exact hs.rest n trivial
  | claiming at' ownerId locked =>
    dsimp only [Executor.step]
    rcases runSerializableTransaction_cases 3 env.attempts (claimNext at' ownerId locked) w.vault.db with
      ⟨e, hrun⟩ | ⟨reply, db', hbody, hrun⟩
    · rw [hrun]
      exact hs.rest n trivial
    · rcases claimNext_ok hbody with ⟨rfl, rfl⟩ | ⟨claim, r, r', rfl, hc⟩
      · rcases hrun with hrun | hrun <;> rw [hrun] <;> exact hs.rest n trivial
      · have ha := hc.amended hs.registry
        rcases hrun with hrun | hrun <;> rw [hrun]
        · refine hs.amended ha n ⟨?_, fun _ => ?_⟩
          · refine .inl ⟨r', ?_, Nat.le_of_eq hc.taken.1.symm⟩
            rw [hc.requests]
            exact Table.get_set_self hc.request
          · rw [hc.listed]
            constructor
            · intro key a hrow ht hpending
              exact ⟨_, ht ▸ mem_tenantArtifacts hrow, hpending, rfl⟩
            · intro key a hrow ht _
              exact ⟨_, ht ▸ mem_tenantArtifacts hrow, rfl⟩
        · exact hs.amended ha n trivial
  | removing at' claim rest =>
    cases rest with
    | nil =>
      dsimp only [Executor.step]
      rcases runSerializableTransaction_cases 3 env.attempts (complete claim at') w.vault.db with
        ⟨e, hrun⟩ | ⟨reply, db', hbody, hrun⟩
      · rw [hrun]
        exact hs.rest n trivial
      · obtain ⟨r, hp⟩ := complete_ok hbody
        have hcovers := he.2 (heldBy_owns hp.request hp.held)
        have hsound : ∀ e : Executor, e.Sound db' w.vault.blobs →
            Carried w ⟨{ w.vault with db := db' }, Function.update w.executors n e⟩ := fun e he =>
          hs.replace n (hp.registry hs.registry) (hp.holdings hs.holdings hcovers)
            (fun _ hm => hp.executor hm) (fun id => hp.deleted) he
        rcases hrun with hrun | hrun <;> rw [hrun] <;> exact hsound _ trivial
    | cons a rest =>
      dsimp only [Executor.step]
      split
      · exact hs.rest n trivial
      · rename_i hstatus
        have hpending : a.status ≠ .pending := fun h => hstatus (.inl h)
        have hless : ∀ path o,
            (env.fate.call ArtifactFailure.blob (Objects.delete env.absent a.objectKey a.providerEtag)
              w.vault.blobs).2.get path = some o → w.vault.blobs.get path = some o := by
          intro path o ho
          rcases Objects.call_store env.fate ArtifactFailure.blob
            (Objects.delete env.absent a.objectKey a.providerEtag) w.vault.blobs with hsame | hsame
          · rw [hsame] at ho
            exact ho
          · rw [hsame] at ho
            exact Objects.delete_some ho
        split
        · rename_i blobs' hcall
          rw [hcall] at hless
          have hgone := Objects.delete_true (Objects.call_ok hcall)
          exact hs.shrink hless n ⟨he.1, fun ho => ((he.2 ho).shrink hless).removed hpending hgone⟩
        · rename_i blobs' hcall
          rw [hcall] at hless
          exact hs.shrink hless n ⟨he.1, hpending, fun ho => (he.2 ho).shrink hless⟩
        · rename_i blobs' hcall
          rw [hcall] at hless
          exact hs.shrink hless n trivial
  | checking at' claim a rest =>
    have hsame := Objects.call_store env.fate ArtifactFailure.blob (Objects.head a.objectKey) w.vault.blobs
    rw [Objects.head_store, or_self] at hsame
    dsimp only [Executor.step]
    split
    · rename_i blobs' hcall
      rw [hcall] at hsame
      obtain rfl : blobs' = w.vault.blobs := hsame
      have hgone : w.vault.blobs.get a.objectKey = none := by
        simpa [Objects.head] using Objects.call_ok hcall
      exact hs.rest n ⟨he.1, fun ho => (he.2.2 ho).removed he.2.1 hgone⟩
    · rename_i hcall
      rw [hcall] at hsame
      obtain rfl := hsame
      exact hs.rest n trivial
    · rename_i hcall
      rw [hcall] at hsame
      obtain rfl := hsame
      exact hs.rest n trivial
  | failing at' claim failure =>
    dsimp only [Executor.step]
    rcases runSerializableTransaction_cases 3 env.attempts (markFailed claim at' failure) w.vault.db with
      ⟨e, hrun⟩ | ⟨reply, db', hbody, hrun⟩
    · rw [hrun]
      exact hs.rest n trivial
    · obtain ⟨r, r', hf⟩ := markFailed_ok hbody
      have ha := hf.amended hs.registry
      rcases hrun with hrun | hrun <;> rw [hrun] <;> exact hs.amended ha n trivial

omit [ContentHash] [Sha256] [ResultDocument ρ] [RequestDocument σ] in
theorem vault_amended (hs : w.Sound) (h : Amended w.vault.db db') : Carried w (w.withDb db') :=
  ⟨⟨h.registry, hs.holdings.amended h, fun m => (hs.executors m).amended h⟩, fun id => (h.deleted id).mpr⟩

omit [ContentHash] [Sha256] [ResultDocument ρ] [RequestDocument σ] in
theorem same (hs : w.Sound) : Carried w w := ⟨hs, fun _ => id⟩

omit [ContentHash] [Sha256] [ResultDocument ρ] [RequestDocument σ] in
/-- Any number of scheduled requests. -/
theorem scheduled (hs : w.Sound)
    (h : Relation.ReflTransGen (fun s s' => ∃ key row, Scheduled s s' key row) w.vault.db db') :
    Carried w (w.withDb db') := by
  induction h with
  | refl => exact hs.same
  | tail _ hlast ih =>
    obtain ⟨key, row, hlast⟩ := hlast
    have hstep := ih.sound.vault_amended (hlast.amended ih.sound.registry)
    exact ⟨hstep.sound, fun id hid => hstep.deleted id (ih.deleted id hid)⟩

omit [ContentHash] [Sha256] [ResultDocument ρ] [RequestDocument σ] in
theorem signUp_amended (hr : Registry db) (id : String) {row : TenantRow} (hrow : row.status ≠ .deleted) :
    Amended db (signUp id row db) := by
  have hrefl : Amended db db :=
    ⟨hr, rfl, fun _ => .rfl, fun _ r hget => ⟨r, hget, Nat.le_refl _⟩, fun _ _ hget _ => .inl hget⟩
  unfold signUp
  split
  · rename_i hvalid
    simp only [Bool.and_eq_true] at hvalid
    cases hid : db.tenants.get id with
    | some t =>
      rw [Table.insert_existing hid]
      exact hrefl
    | none =>
      have hstatus : ∀ id' s, tenantStatus db id' = some s →
          tenantStatus { db with tenants := db.tenants.insert id row } id' = some s := by
        intro id' s hs
        obtain ⟨t, ht, rfl⟩ := Option.map_eq_some_iff.mp hs
        rw [tenantStatus, Table.get_insert_some ht, Option.map_some]
      have hdeleted : ∀ id', tenantStatus { db with tenants := db.tenants.insert id row } id' = some .deleted ↔
          tenantStatus db id' = some .deleted := by
        intro id'
        refine ⟨fun h => ?_, hstatus id' _⟩
        obtain ⟨t, ht, hs⟩ := Option.map_eq_some_iff.mp h
        rcases Table.get_insert_cases hid ht with ⟨-, rfl⟩ | hold
        · exact absurd hs hrow
        · rw [tenantStatus, hold, Option.map_some, hs]
      refine ⟨⟨?_, ?_, ?_, ?_, hr.single⟩, rfl, hdeleted, hrefl.kept, hrefl.taken⟩
      · intro key a ha
        rw [Ne, hdeleted]
        exact hr.living key a ha
      · intro key a ha
        obtain ⟨t, ht⟩ := Option.isSome_iff_exists.mp (hr.enrolled key a ha)
        rw [Table.get_insert_some ht]
        rfl
      · intro id' t ht
        rcases Table.get_insert_cases hid ht with ⟨rfl, -⟩ | hold
        · exact hvalid.1
        · exact hr.known id' t hold
      · intro key r hget hstate
        exact hstatus key.tenantId _ (hr.running key r hget hstate)
  · exact hrefl

end Custody.Sound

/-- A take-over of a failed row that reaches the database while its tenant is being deleted. -/
def Custody.Permitted (w : Custody ρ σ) : CustodyAction ρ σ → Prop
  | .vault (.advance n env) =>
    match w.vault.calls n with
    | .put (.reclaiming _ d version) =>
      env.attempt = .runs ∨ env.attempt = .failsAfter → Reclaimable w.vault.db.artifacts d version →
        tenantStatus w.vault.db d.tenantId ≠ some .deleting
    | _ => True
  | _ => True

variable [ContentHash] [Sha256] [ResultDocument ρ] [RequestDocument σ]

omit [Sha256] [ResultDocument ρ] [RequestDocument σ] in
theorem Custody.Permitted.reclaims {w : Custody ρ σ} {n : Nat} {env : Outside}
    (h : w.Permitted (.vault (.advance n env))) {bytes : List UInt8} {d : ArtifactDescriptor} {version : Nat}
    (hcall : w.vault.calls n = .put (.reclaiming bytes d version))
    (hreclaimable : Reclaimable w.vault.db.artifacts d version)
    (hchanged : ((w.vault.calls n).step env w.vault.db w.vault.blobs).2.1.artifacts ≠ w.vault.db.artifacts) :
    tenantStatus w.vault.db d.tenantId ≠ some .deleting := by
  simp only [Permitted, hcall] at h
  refine h ?_ hreclaimable
  by_contra hfails
  refine hchanged ?_
  rw [hcall, StoreCall.step, PutState.step]
  cases hattempt : env.attempt with
  | runs => exact absurd (.inl hattempt) hfails
  | failsAfter => exact absurd (.inr hattempt) hfails
  | serializationFailure => rfl
  | failsBefore => rfl

/-- Step lemma. -/
theorem Custody.Sound.step {w : Custody ρ σ} (hs : w.Sound) {action : CustodyAction ρ σ}
    (hpermitted : w.Permitted action) : Carried w (Custody.step action w) := by
  cases action with
  | vault action =>
    cases action with
    | start n request =>
      refine ⟨⟨hs.registry, ?_, hs.executors⟩, fun _ => id⟩
      have hh := hs.holdings
      refine ⟨hh.claims.start n request.start_claim, hh.paths, hh.checked, fun m d version hu => ?_, hh.owned⟩
      change (Function.update w.vault.calls n request.start m).uploading? = some (d, version) at hu
      by_cases hm : m = n
      · subst hm
        rw [Function.update_self, StoreCall.uploading_claim request.start_claim] at hu
        cases hu
      · rw [Function.update_of_ne hm] at hu
        exact hh.uploads m d version hu
    | advance n env =>
      have heffect := (w.vault.calls n).step_effect env w.vault.db w.vault.blobs
      refine ⟨⟨hs.registry.effect heffect, hs.holdings.effect hs.registry heffect, fun m => ?_⟩, fun id hid => ?_⟩
      · exact (hs.executors m).effect hs.registry hs.holdings heffect
          (fun _ _ _ hcall => hpermitted.reclaims hcall)
      · exact (heffect.status id).trans hid
    | others db =>
      have ha : Amended w.vault.db (w.vault.others db).db :=
        ⟨⟨hs.registry.living, hs.registry.enrolled, hs.registry.known, hs.registry.running, hs.registry.single⟩,
          rfl, fun _ => .rfl, fun _ r hget => ⟨r, hget, Nat.le_refl _⟩, fun _ _ hget _ => .inl hget⟩
      exact hs.vault_amended ha
  | tenant id createdAt retentionUntil => exact hs.vault_amended (signUp_amended hs.registry id (by simp))
  | request attempts input =>
    dsimp only [Custody.step]
    rcases runSerializableTransaction_cases 3 attempts (requestDeletion input) w.vault.db with
      ⟨e, hrun⟩ | ⟨reply, db', hbody, hrun⟩
    · rw [hrun]
      exact hs.same
    · have hsteps : Relation.ReflTransGen (fun s s' => ∃ key row, Scheduled s s' key row) w.vault.db db' := by
        rcases requestDeletion_ok hbody with rfl | hone
        · exact .refl
        · exact .single hone
      rcases hrun with hrun | hrun <;> rw [hrun] <;> exact hs.scheduled hsteps
  | scheduleDue attempts input locked =>
    dsimp only [Custody.step]
    rcases runSerializableTransaction_cases 3 attempts (ReproForge.scheduleDue input locked) w.vault.db with
      ⟨e, hrun⟩ | ⟨reply, db', hbody, hrun⟩
    · rw [hrun]
      exact hs.same
    · rcases hrun with hrun | hrun <;> rw [hrun] <;> exact hs.scheduled (scheduleDue_ok hbody)
  | execute n at' ownerId locked =>
    refine hs.rest n ?_
    simp only [Executor.start]
    split <;> trivial
  | advance n env => exact hs.advance n env

/-! ## Nothing is left -/

/-- The promise of an account deletion. -/
def Erased (w : Custody ρ σ) (id : String) : Prop :=
  ∀ path o, w.vault.blobs.get path = some o → ¬ Under id path

omit [ContentHash] [Sha256] [ResultDocument ρ] [RequestDocument σ] in
theorem Custody.Sound.erased {w : Custody ρ σ} (hs : w.Sound) {id : String}
    (hdeleted : tenantStatus w.vault.db id = some .deleted) : Erased w id := by
  intro path o ho hunder
  obtain ⟨key, a, ha, rfl⟩ := hs.holdings.owned path o ho
  obtain ⟨t, ht, -⟩ := Option.map_eq_some_iff.mp hdeleted
  obtain ⟨t', ht'⟩ := Option.isSome_iff_exists.mp (hs.registry.enrolled key a ha)
  have hchecked := hs.holdings.checked key a ha
  have hkey : Under key.tenantId a.objectKey := by
    simp only [ArtifactRow.checks, Bool.and_eq_true, beq_iff_eq] at hchecked
    refine ⟨"cases/" ++ a.caseId ++ "/" ++ a.kind.text ++ "/" ++ a.sha256, ?_⟩
    rw [hchecked.1.1.1.1.1.1.1.2, objectKey]
    simp only [String.append_assoc]
  obtain rfl := under_unique (hs.registry.known _ t ht) (hs.registry.known _ t' ht') hunder hkey
  exact hs.registry.living key a ha hdeleted

omit [ContentHash] [Sha256] [ResultDocument ρ] [RequestDocument σ] in
theorem Custody.sound_initial (db : Db ρ σ) : (Custody.initial db).Sound where
  registry := {
    living := fun _ _ h => by cases h
    enrolled := fun _ _ h => by cases h
    known := fun _ _ h => by cases h
    running := fun _ _ h => by cases h
    single := fun _ _ _ _ h => by cases h }
  holdings := {
    claims := ⟨fun _ _ _ h => (nomatch h), fun _ _ _ h _ => (nomatch h)⟩
    paths := fun _ _ _ _ h => by cases h
    checked := fun _ _ h => by cases h
    uploads := fun _ _ _ h => by cases h
    owned := fun _ _ h => by cases h }
  executors := fun _ => trivial

/-- In every interleaving of puts, reads, deletions, requests, schedules and executors that meets
the condition: once a tenant is deleted, no object lies under its prefix, then or later. -/
theorem deletion_leaves_nothing (db : Db ρ σ) (actions later : List (CustodyAction ρ σ)) (id : String)
    (h : Runs.Guarded Custody.step Custody.Permitted (actions ++ later) (Custody.initial db))
    (hdeleted : tenantStatus (Runs.run Custody.step actions (Custody.initial db)).vault.db id = some .deleted) :
    Erased (Runs.run Custody.step (actions ++ later) (Custody.initial db)) id := by
  obtain ⟨hfirst, hsecond⟩ := Runs.guarded_append.mp h
  have hsound : (Runs.run Custody.step actions (Custody.initial db)).Sound :=
    Runs.run_invariant (fun w action hw hp => (hw.step hp).sound) (Custody.sound_initial db) hfirst
  have hkept : ∀ (w : Custody ρ σ) action, w.Sound ∧ tenantStatus w.vault.db id = some .deleted →
      w.Permitted action →
        (Custody.step action w).Sound ∧ tenantStatus (Custody.step action w).vault.db id = some .deleted :=
    fun w action hw hp => ⟨(hw.1.step hp).sound, (hw.1.step hp).deleted id hw.2⟩
  have hlater := Runs.run_invariant hkept ⟨hsound, hdeleted⟩ hsecond
  rw [Runs.run_append]
  exact hlater.1.erased hlater.2

end custody

end ReproForge

/-! ## A sample deletion -/

namespace ReproForge.Sample.Deletion

/-- The digest that names the audit entries of the request below. -/
scoped instance (priority := 2000) deletionDigests : Sha256 where
  hex text :=
    if text = "acme:delete-1" then "f0115a144b84116ec60dbae04fd3a5b67ef08a51063a714365c67724b09f615b" else ""

end ReproForge.Sample.Deletion

namespace ReproForge.Sample

/-- A tenant signs up, and its case is created. -/
def joined : List (CustodyAction Empty Empty) := [.tenant "acme" opening none, .vault (.others archive)]

def erasure : DeletionInput := ⟨opening, "delete-1", opening, ⟨"caller", "user-1", "acme"⟩⟩

/-- An executor takes the request over and lists the artifacts. -/
def claimed : List (CustodyAction Empty Empty) :=
  [.request [] erasure, .execute 0 opening "executor-1" [], .advance 0 calm]

/-- A put whose upload fails leaves a failed row, and a second put is about to take it over. -/
def conflicting : List (CustodyAction Empty Empty) :=
  [.vault (.start 0 (.put [123, 125, 10] runLog)), .vault (.advance 0 calm),
    .vault (.advance 0 { calm with fate := .failsBefore }), .vault (.advance 0 calm), .vault (.advance 0 calm),
    .vault (.advance 0 calm), .vault (.start 1 (.put [123, 125, 10] runLog)), .vault (.advance 1 calm),
    .vault (.advance 1 calm)]

/-- The failed row has no object, and the second put takes it over behind the executor's back. -/
def leaking : List (CustodyAction Empty Empty) :=
  joined ++ conflicting ++ claimed ++
    [.advance 0 calm, .advance 0 calm, .vault (.advance 1 calm), .vault (.advance 1 calm), .advance 0 calm]

/-- An artifact is stored, and the executor removes its object and purges the rows. -/
def erasing : List (CustodyAction Empty Empty) :=
  joined ++ [.vault (.start 0 (.put [123, 125, 10] runLog)), .vault (.advance 0 calm), .vault (.advance 0 calm),
    .vault (.advance 0 calm)] ++ claimed ++ [.advance 0 calm, .advance 0 calm]

/-- A put for the tenant that is no more. -/
def belated : List (CustodyAction Empty Empty) :=
  [.vault (.start 1 (.put [123, 125, 10] runLog)), .vault (.advance 1 calm)]

end ReproForge.Sample

namespace ReproForge

open Sample Sample.Deletion KeyedTable

/-- An object is left under the prefix of a tenant that is deleted. -/
theorem deletion_leaves_object :
    tenantStatus (Runs.run Custody.step leaking (Custody.initial (Db.initial opening .empty))).vault.db "acme" =
        some .deleted ∧
      ¬ Erased (Runs.run Custody.step leaking (Custody.initial (Db.initial opening .empty))) "acme" := by
  have hstate : tenantStatus (Runs.run Custody.step leaking
        (Custody.initial (Db.initial opening .empty))).vault.db "acme" = some .deleted ∧
      ((Runs.run Custody.step leaking (Custody.initial (Db.initial opening .empty))).vault.blobs.get
        runLog.objectKey).isSome = true := by
    decide +kernel
  refine ⟨hstate.1, fun herased => ?_⟩
  obtain ⟨o, ho⟩ := Option.isSome_iff_exists.mp hstate.2
  refine herased runLog.objectKey o ho ?_
  exact ⟨"cases/case-1/run-log/ca3d163bab055381827226140568f3bef7eaac187cebd76878e0b63e9e442356", by decide +kernel⟩

/-- Nobody is about to take over a row. -/
def settling (w : Custody Empty Empty) : CustodyAction Empty Empty → Bool
  | .vault (.advance n _) =>
    match w.vault.calls n with
    | .put (.reclaiming _ _ _) => false
    | _ => true
  | _ => true

theorem permitted_settling {w : Custody Empty Empty} {action : CustodyAction Empty Empty}
    (h : settling w action = true) : w.Permitted action := by
  unfold settling at h
  unfold Custody.Permitted
  split
  · split
    · rename_i hcall
      simp only [hcall] at h
      cases h
    · trivial
  · trivial

theorem deletion_leaves_nothing_sample :
    Erased (Runs.run Custody.step (erasing ++ belated) (Custody.initial (Db.initial opening .empty))) "acme" := by
  have hevaluated : (∀ i (hi : i < (erasing ++ belated).length),
      settling (Runs.run Custody.step ((erasing ++ belated).take i) (Custody.initial (Db.initial opening .empty)))
        (erasing ++ belated)[i] = true) ∧
      tenantStatus (Runs.run Custody.step erasing (Custody.initial (Db.initial opening .empty))).vault.db "acme" =
        some .deleted := by
    decide +kernel
  exact deletion_leaves_nothing (Db.initial opening .empty) erasing belated "acme"
    (Runs.guarded_of_take fun i hi => permitted_settling (hevaluated.1 i hi)) hevaluated.2

end ReproForge
