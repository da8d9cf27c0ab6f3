import ReproForge.AccountDeletion

/-!
# Unfinished deletions

A tenant that a deletion request has suspended keeps a request that executors
select, as long as no executor gives the request up.
-/
namespace ReproForge

open KeyedTable Transactions Transactions.Tx

variable {ρ σ : Type}

/-! ## What an executor commits -/

inductive Executor.Commit (e : Executor) (db db' : Db ρ σ) : Prop where
  | nothing : db' = db → Executor.Commit e db db'
  | claimed (claim : DeletionClaim) (r r' : DeletionRow) : Claimed db db' claim r r' → Executor.Commit e db db'
  | failed (at' : Instant) (claim : DeletionClaim) (failure : RetentionFailure) (r r' : DeletionRow) :
      e = .failing at' claim failure → Failed db db' claim r r' → Executor.Commit e db db'
  | purged (at' : Instant) (claim : DeletionClaim) (r : DeletionRow) :
      e = .removing at' claim [] → Purged db db' claim r → Executor.Commit e db db'

section commits

variable [Sha256]

theorem Executor.step_commits (e : Executor) (env : Outside) (db : Db ρ σ) (blobs : Objects.Store String) :
    e.Commit db (e.step env db blobs).2.1 := by
  cases e with
  | idle => exact .nothing rfl
  | done result => exact .nothing rfl
  | claiming at' ownerId locked =>
    dsimp only [Executor.step]
    rcases runSerializableTransaction_cases 3 env.attempts (claimNext at' ownerId locked) db with
      ⟨e, hrun⟩ | ⟨reply, db', hbody, hrun⟩
    · rw [hrun]
      exact .nothing rfl
    · rcases claimNext_ok hbody with ⟨rfl, rfl⟩ | ⟨claim, r, r', rfl, hc⟩
      · rcases hrun with hrun | hrun <;> rw [hrun] <;> exact .nothing rfl
      · rcases hrun with hrun | hrun <;> rw [hrun] <;> exact .claimed claim r r' hc
  | removing at' claim rest =>
    cases rest with
    | nil =>
      dsimp only [Executor.step]
      rcases runSerializableTransaction_cases 3 env.attempts (complete claim at') db with
        ⟨e, hrun⟩ | ⟨reply, db', hbody, hrun⟩
      · rw [hrun]
        exact .nothing rfl
      · obtain ⟨r, hp⟩ := complete_ok hbody
        rcases hrun with hrun | hrun <;> rw [hrun] <;> exact .purged at' claim r rfl hp
    | cons a rest =>
      dsimp only [Executor.step]
      split
      · exact .nothing rfl
      · split <;> exact .nothing rfl
  | checking at' claim a rest =>
    dsimp only [Executor.step]
    split <;> exact .nothing rfl
  | failing at' claim failure =>
    dsimp only [Executor.step]
    rcases runSerializableTransaction_cases 3 env.attempts (markFailed claim at' failure) db with
      ⟨e, hrun⟩ | ⟨reply, db', hbody, hrun⟩
    · rw [hrun]
      exact .nothing rfl
    · obtain ⟨r, r', hf⟩ := markFailed_ok hbody
      rcases hrun with hrun | hrun <;> rw [hrun] <;> exact .failed at' claim failure r r' rfl hf

end commits

/-! ## Requests that executors select -/

/-- A deletion request has suspended the tenant and is not completed. -/
def Unfinished (db : Db ρ σ) (id : String) : Prop :=
  tenantStatus db id = some .suspended ∨ tenantStatus db id = some .deleting

def NoneRunning (db : Db ρ σ) (id : String) : Prop :=
  ∀ key j, db.jobs.get key = some j → key.tenantId = id → j.state ≠ .running

/-- An executor that may take the request selects it. -/
def Selects (db : Db ρ σ) (at' : Instant) (key : Key) (r : DeletionRow) : Prop :=
  executable db at' key r = true ∧
    ∀ locked, key ∉ locked →
      (∀ key' r', db.deletionRequests.get key' = some r' → executable db at' key' r' = true →
        key' = key ∨ key' ∈ locked) →
      nextDeletion db at' locked = some (key, r)

/-- Some request of the tenant is selected at every time that is late enough. -/
def Selectable (db : Db ρ σ) (id : String) : Prop :=
  ∃ key r time, key.tenantId = id ∧ db.deletionRequests.get key = some r ∧ ∀ at', time ≤ at' → Selects db at' key r

/-- A suspended tenant has a request that waits, and a tenant in deletion has one that is claimed. -/
structure Pursued (db : Db ρ σ) (id : String) : Prop where
  waiting : tenantStatus db id = some .suspended → ∃ key r, key.tenantId = id ∧
    db.deletionRequests.get key = some r ∧ (r.state = .requested ∨ r.state = .scheduled)
  claimed : tenantStatus db id = some .deleting → ∃ key r time, key.tenantId = id ∧
    db.deletionRequests.get key = some r ∧ r.state = .running ∧ r.claimExpiresAt = some time

section pursued

variable {db db' : Db ρ σ} {id : String}

theorem head_mergeSort {α : Type} (before : α → α → Bool) {l : List α} {a : α} (ha : a ∈ l) (honly : ∀ b ∈ l, b = a) :
    (l.mergeSort before).head? = some a := by
  have hsorted : a ∈ l.mergeSort before := List.mem_mergeSort.mpr ha
  cases hhead : (l.mergeSort before).head? with
  | none =>
    rw [List.head?_eq_none_iff.mp hhead] at hsorted
    cases hsorted
  | some b => rw [honly b (List.mem_mergeSort.mp (List.mem_of_mem_head? hhead))]

theorem selects_of_executable {at' : Instant} {key : Key} {r : DeletionRow}
    (hr : db.deletionRequests.get key = some r) (he : executable db at' key r = true) : Selects db at' key r := by
  refine ⟨he, fun locked hfree hothers => ?_⟩
  have hmem : (key, r) ∈ db.deletionRequests.select (fun key r => executable db at' key r && !locked.contains key) := by
    refine Table.mem_select.mpr ⟨hr, ?_⟩
    simp [he, hfree]
  have honly : ∀ row ∈ db.deletionRequests.select (fun key r => executable db at' key r && !locked.contains key),
      row = (key, r) := by
    intro row hrow
    obtain ⟨hget, hc⟩ := Table.mem_select.mp hrow
    simp only [Bool.and_eq_true, Bool.not_eq_true', List.contains_eq_mem, decide_eq_false_iff_not] at hc
    rcases hothers row.1 row.2 hget hc.1 with hkey | hlocked
    · exact Prod.ext hkey (Option.some.inj ((hkey ▸ hget).symm.trans hr))
    · exact absurd hlocked hc.2
  exact head_mergeSort deletionBefore hmem honly

theorem Pursued.selectable (h : Pursued db id) (hunfinished : Unfinished db id) (hidle : NoneRunning db id) :
    Selectable db id := by
  have hquiet : (db.jobs.find? (fun k j => k.tenantId == id && j.state == .running)).isNone = true := by
    rw [Option.isNone_iff_eq_none]
    cases hfind : db.jobs.find? (fun k j => k.tenantId == id && j.state == .running) with
    | none => rfl
    | some row =>
      obtain ⟨hget, hc⟩ := Table.find?_some hfind
      simp only [Bool.and_eq_true, beq_iff_eq] at hc
      exact absurd hc.2 (hidle _ _ hget hc.1)
  rcases hunfinished with hsuspended | hdeleting
  · obtain ⟨key, r, rfl, hr, hstate⟩ := h.waiting hsuspended
    refine ⟨key, r, r.dueAt, rfl, hr, fun at' hat => selects_of_executable hr ?_⟩
    have hwaits : (r.state == .requested || r.state == .scheduled) = true := by
      rcases hstate with hs | hs <;> simp [hs]
    simp [executable, hwaits, hat, hsuspended, hquiet]
  · obtain ⟨key, r, time, rfl, hr, hstate, hexpiry⟩ := h.claimed hdeleting
    refine ⟨key, r, time, rfl, hr, fun at' hat => selects_of_executable hr ?_⟩
    simp [executable, hstate, hexpiry, hat, hdeleting, hquiet]

theorem Pursued.same (h : Pursued db id) (htenants : db'.tenants = db.tenants)
    (hrequests : db'.deletionRequests = db.deletionRequests) : Pursued db' id := by
  have hstatus : tenantStatus db' id = tenantStatus db id := by rw [tenantStatus, tenantStatus, htenants]
  constructor
  · rw [hstatus, hrequests]
    exact h.waiting
  · rw [hstatus, hrequests]
    exact h.claimed

/-- The requests of the tenant are as they were. -/
theorem Pursued.apart (h : Pursued db id) (hstatus : tenantStatus db' id = tenantStatus db id)
    (hrequests : ∀ key r, key.tenantId = id → db.deletionRequests.get key = some r →
      db'.deletionRequests.get key = some r) : Pursued db' id := by
  constructor
  · intro hs
    obtain ⟨key, r, hid, hr, hstate⟩ := h.waiting (hstatus ▸ hs)
    exact ⟨key, r, hid, hrequests key r hid hr, hstate⟩
  · intro hs
    obtain ⟨key, r, time, hid, hr, hstate⟩ := h.claimed (hstatus ▸ hs)
    exact ⟨key, r, time, hid, hrequests key r hid hr, hstate⟩

theorem Pursued.scheduled (h : Pursued db id) {key : Key} {row : DeletionRow} (hs : Scheduled db db' key row) :
    Pursued db' id := by
  have hkept : ∀ k r, k.tenantId = id → db.deletionRequests.get k = some r →
      db'.deletionRequests.get k = some r := by
    intro k r _ hr
    rw [hs.requests]
    exact Table.get_insert_some hr
  rcases hs.status id with hsame | ⟨hactive, hsuspended⟩
  · exact h.apart hsame hkept
  · have hid : id = key.tenantId := by
      by_contra hne
      have hother := hs.others id hne
      rw [hactive, hsuspended] at hother
      cases hother
    refine ⟨fun _ => ⟨key, row, hid.symm, ?_, .inr hs.state⟩, fun hdeleting => ?_⟩
    · rw [hs.requests]
      exact Table.get_insert_self hs.fresh
    · rw [hsuspended] at hdeleting
      cases hdeleting

theorem Pursued.executor (h : Pursued db id) {e : Executor} (hc : e.Commit db db')
    (hpersists : ∀ at' claim failure, e = .failing at' claim failure → claim.tenantId ≠ id) : Pursued db' id := by
  -- a request of another tenant is written
  have hother : ∀ {claim : DeletionClaim} {k : Key}, claim.tenantId ≠ id → k.tenantId = id → k ≠ claim.key := by
    rintro claim k hne hk rfl
    exact hne hk
  cases hc with
  | nothing hd => exact hd ▸ h
  | claimed claim r r' hc =>
    by_cases hid : claim.tenantId = id
    · subst hid
      refine ⟨fun hsuspended => ?_, fun _ => ⟨claim.key, r', claim.claimExpiresAt, rfl, ?_, hc.taken.2, hc.expiry⟩⟩
      · rw [hc.status] at hsuspended
        cases hsuspended
      · rw [hc.requests]
        exact Table.get_set_self hc.request
    · refine h.apart (hc.others id (fun he => hid he.symm)) (fun k x hk hx => ?_)
      rw [hc.requests]
      exact (Table.get_set_other _ _ (hother hid hk)).trans hx
  | failed at' claim failure r r' he hf =>
    have hid := hpersists at' claim failure he
    refine h.apart (hf.others id (fun he => hid he.symm)) (fun k x hk hx => ?_)
    rw [hf.requests]
    exact (Table.get_set_other _ _ (hother hid hk)).trans hx
  | purged at' claim r he hp =>
    by_cases hid : claim.tenantId = id
    · subst hid
      constructor
      · intro hs
        rw [hp.status] at hs
        cases hs
      · intro hs
        rw [hp.status] at hs
        cases hs
    · refine h.apart (hp.others id (fun he => hid he.symm)) (fun k x hk hx => ?_)
      rw [hp.requests, if_neg (hother hid hk)]
      exact hx

theorem Pursued.signUp (h : Pursued db id) (name : String) {row : TenantRow} (hrow : row.status = .active) :
    Pursued (Custody.signUp name row db) id := by
  unfold Custody.signUp
  split
  · cases hname : db.tenants.get name with
    | some t => exact h.same (Table.insert_existing hname) rfl
    | none =>
      by_cases hid : id = name
      · subst hid
        have hstatus : tenantStatus { db with tenants := db.tenants.insert id row } id = some .active := by
          rw [tenantStatus, Table.get_insert_self hname, Option.map_some, hrow]
        constructor
        · intro hs
          rw [hstatus] at hs
          cases hs
        · intro hs
          rw [hstatus] at hs
          cases hs
      · refine h.apart ?_ (fun _ _ _ hr => hr)
        exact congrArg (Option.map TenantRow.status) (Table.get_insert_other hid)
  · exact h

end pursued

/-! ## Runs in which no executor gives up -/

section runs

variable [ContentHash] [Sha256] [ResultDocument ρ] [RequestDocument σ]

/-- No executor that failed to delete this tenant records so. -/
def Custody.Persists (id : String) (w : Custody ρ σ) : CustodyAction ρ σ → Prop
  | .advance n _ => ∀ at' claim failure, w.executors n = .failing at' claim failure → claim.tenantId ≠ id
  | _ => True

/-- Step lemma. -/
theorem Pursued.step {w : Custody ρ σ} {id : String} (h : Pursued w.vault.db id) {action : CustodyAction ρ σ}
    (hpersists : w.Persists id action) : Pursued (Custody.step action w).vault.db id := by
  cases action with
  | vault action =>
    cases action with
    | start n request => exact h
    | others db => exact h.same rfl rfl
    | advance n env =>
      obtain ⟨htenants, hrequests⟩ := ((w.vault.calls n).step_effect env w.vault.db w.vault.blobs).untouched
      exact h.same htenants hrequests
  | tenant name createdAt retentionUntil => exact h.signUp name rfl
  | request attempts input =>
    dsimp only [Custody.step, Custody.withDb]
    rcases runSerializableTransaction_cases 3 attempts (requestDeletion input) w.vault.db with
      ⟨e, hrun⟩ | ⟨reply, db', hbody, hrun⟩
    · rw [hrun]
      exact h
    · have hp : Pursued db' id := by
        rcases requestDeletion_ok hbody with rfl | ⟨key, row, hs⟩
        · exact h
        · exact h.scheduled hs
      rcases hrun with hrun | hrun <;> rw [hrun] <;> exact hp
  | scheduleDue attempts input locked =>
    dsimp only [Custody.step, Custody.withDb]
    rcases runSerializableTransaction_cases 3 attempts (ReproForge.scheduleDue input locked) w.vault.db with
      ⟨e, hrun⟩ | ⟨reply, db', hbody, hrun⟩
    · rw [hrun]
      exact h
    · have hp : Pursued db' id := by
        have hsteps := scheduleDue_ok hbody
        clear hrun hbody
        induction hsteps with
        | refl => exact h
        | tail _ hs ih =>
          obtain ⟨key, row, hs⟩ := hs
          exact ih.scheduled hs
      rcases hrun with hrun | hrun <;> rw [hrun] <;> exact hp
  | execute n at' ownerId locked => exact h
  | advance n env => exact h.executor ((w.executors n).step_commits env w.vault.db w.vault.blobs) hpersists

end runs

end ReproForge

/-! ## A sample deletion that fails -/

namespace ReproForge.Sample

/-- The tenant has one artifact, and an executor takes its deletion request over. -/
def interrupted : List (CustodyAction Empty Empty) :=
  joined ++ [.vault (.start 0 (.put [123, 125, 10] runLog)), .vault (.advance 0 calm), .vault (.advance 0 calm),
    .vault (.advance 0 calm)] ++ claimed

/-- The provider does not answer, and the executor records the failure. -/
def abandoned : List (CustodyAction Empty Empty) :=
  interrupted ++ [.advance 0 { calm with fate := .failsBefore }, .advance 0 calm]

end ReproForge.Sample

namespace ReproForge

open Sample Sample.Deletion KeyedTable

theorem persists_advance {w : Custody Empty Empty} {n : Nat} {env : Outside} {id : String}
    (h : (match w.executors n with | .failing _ claim _ => claim.tenantId != id | _ => true) = true) :
    w.Persists id (.advance n env) := by
  intro at' claim failure he
  simp only [he, bne_iff_ne] at h
  exact h

end ReproForge
