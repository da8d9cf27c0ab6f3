import ReproForge.ActiveJobs
import ReproForge.DeletionRecovery
import ReproForge.IdempotentStart

/-!
# The hosted system

The durable services, the artifact store and the account deletions over one
database, in any interleaving. Every step commits a sequence of turns, and every
turn keeps the reproductions in lockstep, those of deleted tenants apart.
-/
namespace ReproForge

open KeyedTable Transactions Transactions.Tx Relation

variable {ρ σ : Type}

/-! ## Turns -/

/-- The tenant has signed up, and is suspended, in deletion or deleted. -/
def Closed (db : Db ρ σ) (id : String) : Prop := ∃ s, tenantStatus db id = some s ∧ s ≠ .active

/-- No tenant is opened again, and artifacts are added for active tenants only. -/
structure Orderly (db db' : Db ρ σ) : Prop where
  closed : ∀ id, Closed db id → Closed db' id
  deleted : ∀ id, tenantStatus db' id = some .deleted ↔ tenantStatus db id = some .deleted
  artifacts : ∀ key, (db'.artifacts.get key).isSome → (db.artifacts.get key).isSome ∨
    tenantStatus db key.tenantId = some .active

theorem orderly_of_status {db db' : Db ρ σ} (hstatus : ∀ id, tenantStatus db' id = tenantStatus db id)
    (hartifacts : ∀ key, (db'.artifacts.get key).isSome → (db.artifacts.get key).isSome ∨
      tenantStatus db key.tenantId = some .active) : Orderly db db' where
  closed := fun id h => by rwa [Closed, hstatus]
  deleted := fun id => by rw [hstatus]
  artifacts := hartifacts

theorem Untouched.orderly {db db' : Db ρ σ} (h : Untouched db db') : Orderly db db' :=
  orderly_of_status h.status (fun _ hkey => .inl (h.artifacts ▸ hkey))

/-- The status of one tenant moves, and it is neither opened nor deleted by that. -/
theorem orderly_of_move {db db' : Db ρ σ} {id : String} {s t : TenantStatus}
    (hbefore : tenantStatus db id = some s) (hafter : tenantStatus db' id = some t) (hopen : t ≠ .active)
    (hs : s ≠ .deleted) (ht : t ≠ .deleted) (hothers : ∀ id', id' ≠ id → tenantStatus db' id' = tenantStatus db id')
    (hartifacts : db'.artifacts = db.artifacts) : Orderly db db' := by
  constructor
  · intro id' hclosed
    by_cases hid : id' = id
    · subst hid
      exact ⟨t, hafter, hopen⟩
    · rwa [Closed, hothers id' hid]
  · intro id'
    by_cases hid : id' = id
    · subst hid
      simp [hbefore, hafter, hs, ht]
    · rw [hothers id' hid]
  · intro key hkey
    rw [hartifacts] at hkey
    exact .inl hkey

section turns

variable [ResultDocument ρ] [RequestDocument σ] [Sha256] {db db' : Db ρ σ}

/-- What one statement or one call of the hosted system commits. -/
inductive Turn (db db' : Db ρ σ) : Prop where
  | change {e} : (∀ record, e.edits record → Anchored db record) → Change e db db' →
      Orderly db db' → Turn db db'
  | start {limits input} : StartWrite limits input db db' → Turn db db'
  | purged {claim r} : Purged db db' claim r → Turn db db'

theorem turn_tenants {tenants : Table String TenantRow} (h : Orderly db { db with tenants := tenants }) :
    Turn db { db with tenants := tenants } :=
  .change (e := .tenants tenants) (fun _ he => he.elim)
    (.environment db.now tenants db.artifacts db.deletionRequests rfl ⟨.inr rfl, .inl rfl, .inl rfl⟩) h

theorem turn_artifacts {artifacts : Table Key ArtifactRow} (h : Orderly db { db with artifacts := artifacts }) :
    Turn db { db with artifacts := artifacts } :=
  .change (e := .artifacts artifacts) (fun _ he => he.elim)
    (.environment db.now db.tenants artifacts db.deletionRequests rfl ⟨.inl rfl, .inr rfl, .inl rfl⟩) h

theorem turn_deletionRequests (requests : Table Key DeletionRow) :
    Turn db { db with deletionRequests := requests } :=
  .change (e := .deletionRequests requests) (fun _ he => he.elim)
    (.environment db.now db.tenants db.artifacts requests rfl ⟨.inl rfl, .inl rfl, .inr rfl⟩)
    (orderly_of_status (fun _ => rfl) (fun _ => .inl))

theorem turn_now (now : Instant) : Turn db { db with now := now } :=
  .change (e := .clock now) (fun _ he => he.elim)
    (.environment now db.tenants db.artifacts db.deletionRequests rfl ⟨.inl rfl, .inl rfl, .inl rfl⟩)
    (orderly_of_status (fun _ => rfl) (fun _ => .inl))

/-! ## What the steps commit -/

theorem Change.untouched {attempts : List Attempt} {op : Op ρ σ} (h : Change (.call attempts op) db db') :
    Untouched db db' := by
  cases h with
  | job hw _ => exact hw.untouched
  | audit key row hd => exact hd ▸ ⟨rfl, rfl, rfl⟩
  | outbox hw _ => exact hw.result ▸ ⟨rfl, rfl, rfl⟩
  | environment now tenants artifacts deletions hd hsame =>
    obtain ⟨ht, ha, hr⟩ := hsame
    refine hd ▸ ⟨?_, ?_, ?_⟩
    · exact ht.resolve_right nofun
    · exact ha.resolve_right nofun
    · exact hr.resolve_right nofun

/-- The changes of one operation, whose record is anchored when it begins, are turns. -/
theorem changes_turns {attempts : List Attempt} {op : Op ρ σ} (hdb : Lockstep db)
    (hedits : ∀ record, (Event.call attempts op).edits record → Anchored db record)
    (h : ReflTransGen (Change (.call attempts op)) db db') : ReflTransGen Turn db db' := by
  induction h with
  | refl => exact .refl
  | tail hbefore hc ih =>
    obtain ⟨-, hkept⟩ := changes_lockstep hdb hedits hbefore
    exact ih.tail (.change (fun record he => (hedits record he).kept hkept) hc hc.untouched.orderly)

/-- An operation that stores a record finds its job. -/
theorem Op.edited_job {attempts : List Attempt} {op : Op ρ σ} {u : Unit} {record : DurableReproductionRecord ρ σ}
    (h : op.statement db = (.ok u, db')) (hedits : (Event.call attempts op).edits record) :
    ∃ j, db.jobs.get (recordJobKey record) = some j := by
  cases op with
  | save stored expectedVersion =>
    obtain rfl : record = stored := hedits
    obtain ⟨reply, hr⟩ := discard_ok h
    obtain ⟨-, j, c, hw⟩ := save_ok hr
    exact ⟨j, hw.job⟩
  | completeLease lease stored =>
    obtain rfl : record = stored := hedits
    obtain ⟨reply, hr⟩ := discard_ok h
    obtain ⟨-, j, c, -, hkey, -, hw⟩ := completeLease_ok hr
    exact ⟨j, hkey ▸ hw.job⟩
  | _ => exact hedits.elim

/-- A call of the durable services. A record whose job is gone is not stored. -/
theorem call_turns (hdb : Lockstep db) {attempts : List Attempt} {op : Op ρ σ}
    (hedits : ∀ record j, (Event.call attempts op).edits record → db.jobs.get (recordJobKey record) = some j →
      Anchored db record) : ReflTransGen Turn db (step (.call attempts op) db) := by
  cases hstart : op.isStart with
  | true =>
    cases op with
    | start limits input =>
      rcases step_start attempts limits input db with hd | hw
      · rw [hd]
      · exact .single (.start hw)
    | _ => cases hstart
  | false =>
    rcases step_call attempts op db with hd | ⟨u, hu⟩
    · rw [hd]
    · have hchanges : ReflTransGen (Change (.call attempts op)) db (step (.call attempts op) db) :=
        Op.statement_changes hstart hu
      refine changes_turns hdb (fun record he => ?_) hchanges
      obtain ⟨j, hj⟩ := Op.edited_job hu he
      exact hedits record j he hj

omit [ResultDocument ρ] [RequestDocument σ] [Sha256] in
theorem Effect.frame {c c' : StoreCall} {blobs blobs' : Objects.Store String} (h : Effect c db blobs c' db' blobs') :
    db' = { db with artifacts := db'.artifacts } := by
  cases h with
  | reserved _ hinsert _ => rw [hinsert.result]
  | reclaimed _ _ _ _ hw _ => rw [hw.result]
  | deletionClaimed _ _ _ hw _ => rw [hw.result]
  | settled _ _ hw _ _ => rw [hw.result]
  | _ => rfl

theorem Effect.turn {c c' : StoreCall} {blobs blobs' : Objects.Store String} (h : Effect c db blobs c' db' blobs') :
    Turn db db' := by
  have hframe := h.frame
  rw [hframe]
  refine turn_artifacts (orderly_of_status (fun _ => rfl) (fun key hkey => ?_))
  obtain ⟨a, ha⟩ := Option.isSome_iff_exists.mp hkey
  rcases h.path_from ha with ⟨b, hb, -⟩ | ⟨hactive, -⟩
  · exact .inl (Option.isSome_iff_exists.mpr ⟨b, hb⟩)
  · exact .inr hactive

theorem signUp_turns (name : String) {row : TenantRow} (hrow : row.status = .active) :
    ReflTransGen Turn db (Custody.signUp name row db) := by
  unfold Custody.signUp
  split
  · cases hname : db.tenants.get name with
    | some t =>
      rw [Table.insert_existing hname]
    | none =>
      refine .single (turn_tenants ?_)
      have hself : tenantStatus { db with tenants := db.tenants.insert name row } name = some .active := by
        rw [tenantStatus, Table.get_insert_self hname, Option.map_some, hrow]
      have hothers : ∀ id, id ≠ name →
          tenantStatus { db with tenants := db.tenants.insert name row } id = tenantStatus db id :=
        fun id hid => tenantStatus_congr (Table.get_insert_other hid)
      have hnone : tenantStatus db name = none := by rw [tenantStatus, hname, Option.map_none]
      constructor
      · rintro id ⟨s, hs, hclosed⟩
        have hid : id ≠ name := by
          rintro rfl
          rw [hnone] at hs
          cases hs
        exact ⟨s, (hothers id hid).trans hs, hclosed⟩
      · intro id
        by_cases hid : id = name
        · subst hid
          simp [hself, hnone]
        · rw [hothers id hid]
      · exact fun _ => .inl
  · exact .refl

/-- The two updates of an executor, of the tenant and of its request. -/
theorem executor_turns (horderly : Orderly db { db with tenants := db'.tenants })
    (hrest : db' = { db with tenants := db'.tenants, deletionRequests := db'.deletionRequests }) :
    ReflTransGen Turn db db' := by
  have hfirst : Turn db { db with tenants := db'.tenants } := turn_tenants horderly
  have hsecond : Turn { db with tenants := db'.tenants }
      { { db with tenants := db'.tenants } with deletionRequests := db'.deletionRequests } := turn_deletionRequests _
  rw [hrest]
  exact (ReflTransGen.single hfirst).tail hsecond

theorem Executor.Commit.turns {e : Executor} (h : e.Commit db db') : ReflTransGen Turn db db' := by
  cases h with
  | nothing hd => rw [hd]
  | claimed claim r r' hc =>
    refine executor_turns ?_ hc.rest
    rcases hc.before with hb | hb | hb
    all_goals exact orderly_of_move hb hc.status (by simp) (by simp) (by simp) hc.others rfl
  | failed at' claim failure r r' _ hf =>
    refine executor_turns ?_ hf.rest
    rcases hf.status with hsame | ⟨hb, ha⟩
    · refine orderly_of_status (fun id => ?_) (fun _ => .inl)
      by_cases hid : id = claim.tenantId
      · rw [hid]
        exact hsame
      · exact hf.others id hid
    · exact orderly_of_move hb ha (by simp) (by simp) (by simp) hf.others rfl
  | purged at' claim r _ hp => exact .single (.purged hp)

end turns

/-! ## What a turn keeps -/

section intact

variable [ResultDocument ρ] [RequestDocument σ] {db db' : Db ρ σ}

omit [ResultDocument ρ] [RequestDocument σ] in
theorem joined_purge {id : String} {row : DurableRow ρ σ} :
    Joined (purge id db) row ↔ Joined db row ∧ row.key.tenantId ≠ id := by
  have hget : ∀ {κ α : Type} [DecidableEq κ] (t : Table κ α) (tenant : κ → String) (k : κ) (r : α),
      (t.delete (fun k _ => tenant k == id)).get k = some r ↔ t.get k = some r ∧ tenant k ≠ id := by
    intro κ α _ t tenant k r
    rw [Table.get_delete, Option.filter_eq_some_iff]
    simp
  constructor
  · rintro ⟨hi, hc, hj, he⟩
    obtain ⟨hi, htenant⟩ := (hget db.idempotencyKeys IdempotencyKey.tenantId _ _).mp hi
    exact ⟨⟨hi, ((hget db.cases Key.tenantId _ _).mp hc).1, ((hget db.jobs Key.tenantId _ _).mp hj).1, he⟩, htenant⟩
  · rintro ⟨⟨hi, hc, hj, he⟩, htenant⟩
    exact ⟨(hget db.idempotencyKeys IdempotencyKey.tenantId _ _).mpr ⟨hi, htenant⟩,
      (hget db.cases Key.tenantId _ _).mpr ⟨hc, htenant⟩, (hget db.jobs Key.tenantId _ _).mpr ⟨hj, htenant⟩, he⟩

/-- What is left of a lockstep database after a tenant is purged. -/
theorem Lockstep.purge (h : Lockstep db) (id : String) : Lockstep (purge id db) := by
  have hkept : ∀ {κ α : Type} [DecidableEq κ] {t : Table κ α} {tenant : κ → String} {k : κ} {r : α},
      (t.delete (fun k _ => tenant k == id)).get k = some r → t.get k = some r ∧ tenant k ≠ id := by
    intro κ α _ t tenant k r hr
    rw [Table.get_delete, Option.filter_eq_some_iff] at hr
    exact ⟨hr.1, by simpa using hr.2⟩
  constructor
  · intro key i hi
    obtain ⟨hi, htenant⟩ := hkept hi
    obtain ⟨row, hrow, rfl⟩ := h.joined key i hi
    exact ⟨row, joined_purge.mpr ⟨hrow, htenant⟩, rfl⟩
  · intro row hrow
    exact h.readable row (joined_purge.mp hrow).1
  · intro row other hrow hother
    exact h.caseUnique row other (joined_purge.mp hrow).1 (joined_purge.mp hother).1
  · intro row other hrow hother
    exact h.jobUnique row other (joined_purge.mp hrow).1 (joined_purge.mp hother).1
  · intro key c hc
    obtain ⟨hc, htenant⟩ := hkept hc
    obtain ⟨row, hrow, rfl⟩ := h.caseOwned key c hc
    exact ⟨row, joined_purge.mpr ⟨hrow, htenant⟩, rfl⟩
  · intro key j hj
    obtain ⟨hj, htenant⟩ := hkept hj
    obtain ⟨row, hrow, rfl⟩ := h.jobOwned key j hj
    exact ⟨row, joined_purge.mpr ⟨hrow, htenant⟩, rfl⟩

/-- Reproductions are in lockstep, and nothing is left of a tenant that is deleted. -/
structure Intact (db : Db ρ σ) (found : List (DurableReproductionRecord ρ σ)) : Prop where
  lockstep : Lockstep db
  anchored : ∀ record ∈ found, Anchored db record ∨ tenantStatus db record.tenantId = some .deleted
  vacant : ∀ key j, db.jobs.get key = some j → tenantStatus db key.tenantId ≠ some .deleted

variable [Sha256] {found : List (DurableReproductionRecord ρ σ)}

omit [Sha256] in
/-- The database of a purge is the purged one beside other tables. -/
theorem Purged.lockstep {claim : DeletionClaim} {r : DeletionRow} (h : Purged db db' claim r)
    (hdb : Lockstep db) : Lockstep db' :=
  ((hdb.purge claim.tenantId).of_same (by rw [h.rest]) (by rw [h.rest]) (by rw [h.rest])).1

omit [ResultDocument ρ] [RequestDocument σ] [Sha256] in
theorem Purged.anchored {claim : DeletionClaim} {r : DeletionRow} (h : Purged db db' claim r)
    {record : DurableReproductionRecord ρ σ} (ha : Anchored db record) :
    Anchored db' record ∨ tenantStatus db' record.tenantId = some .deleted := by
  obtain ⟨row, hrow, hanchor⟩ := ha
  have htenant : row.key.tenantId = record.tenantId := congrArg Anchor.tenantId hanchor
  by_cases hid : record.tenantId = claim.tenantId
  · right
    rw [hid]
    exact h.status
  · left
    obtain ⟨hi, hc, hj, he⟩ := joined_purge.mpr ⟨hrow, fun he => hid (htenant.symm.trans he)⟩
    refine ⟨row, ?_, hanchor⟩
    rw [h.rest]
    exact ⟨hi, hc, hj, he⟩

theorem Turn.intact (h : Turn db db') (hi : Intact db found) : Intact db' found := by
  cases h with
  | change hedits hc horderly =>
    obtain ⟨hlock, hkept⟩ := hc.lockstep hi.lockstep hedits
    refine ⟨hlock, fun record hr => ?_, fun key j' hj' => ?_⟩
    · exact (hi.anchored record hr).imp (fun ha => ha.kept hkept) (horderly.deleted _).mpr
    · obtain ⟨j, hj, -⟩ := hc.job_back hj'
      exact fun hd => hi.vacant key j hj ((horderly.deleted _).mp hd)
  | start hw =>
    rename_i limits input
    have hstatus : ∀ id, tenantStatus db' id = tenantStatus db id := fun id => by rw [hw.result]; rfl
    refine ⟨hw.lockstep hi.lockstep, fun record hr => ?_, fun key j' hj' => ?_⟩
    · rw [hstatus]
      refine (hi.anchored record hr).imp_left ?_
      rintro ⟨row, hrow, hanchor⟩
      exact ⟨row, hw.joined_old hrow, hanchor⟩
    · rw [hstatus]
      rw [hw.result] at hj'
      rcases Table.get_insert_cases hw.job hj' with ⟨rfl, -⟩ | hold
      · have hactive := hw.active
        simp only [tenantActive, Option.any_eq_true, beq_iff_eq] at hactive
        obtain ⟨t, ht, hs⟩ := hactive
        change tenantStatus db input.record.tenantId ≠ _
        rw [tenantStatus, ht, Option.map_some, hs]
        simp
      · exact hi.vacant key j' hold
  | purged hp =>
    rename_i claim r
    refine ⟨hp.lockstep hi.lockstep, fun record hr => ?_, fun key j' hj' => ?_⟩
    · rcases hi.anchored record hr with ha | hd
      · exact hp.anchored ha
      · right
        by_cases hid : record.tenantId = claim.tenantId
        · rw [hid]
          exact hp.status
        · exact (hp.others _ hid).trans hd
    · rw [hp.rest] at hj'
      have hget : db.jobs.get key = some j' ∧ key.tenantId ≠ claim.tenantId := by
        rw [purge, Table.get_delete, Option.filter_eq_some_iff] at hj'
        exact ⟨hj'.1, by simpa using hj'.2⟩
      rw [hp.others _ hget.2]
      exact hi.vacant key j' hget.1

theorem turns_intact (h : ReflTransGen Turn db db') (hi : Intact db found) : Intact db' found := by
  induction h with
  | refl => exact hi
  | tail _ ht ih => exact ht.intact ih

end intact

/-! ## The world -/

/-- The account deletions and the artifact store, and every record that a client has found so far. -/
structure Hosted (ρ σ : Type) where
  custody : Custody ρ σ
  found : List (DurableReproductionRecord ρ σ)

inductive HostedAction (ρ σ : Type) where
  | call : List Attempt → Op ρ σ → HostedAction ρ σ
  | clock : Instant → HostedAction ρ σ
  | find : Query → HostedAction ρ σ
  | custody : CustodyAction ρ σ → HostedAction ρ σ

namespace Hosted

def db (w : Hosted ρ σ) : Db ρ σ := w.custody.vault.db

def initial (now : Instant) : Hosted ρ σ := ⟨Custody.initial (Db.initial now .empty), []⟩

variable [ContentHash] [ResultDocument ρ] [RequestDocument σ] [Sha256]

def step : HostedAction ρ σ → Hosted ρ σ → Hosted ρ σ
  | .call attempts op, w => { w with custody := w.custody.withDb (ReproForge.step (.call attempts op) w.db) }
  | .clock now, w => { w with custody := w.custody.withDb (ReproForge.step (.clock now) w.db) }
  | .find query, w =>
    match query.statement w.db with
    | (.ok (some record), _) => { w with found := record :: w.found }
    | _ => w
  | .custody action, w => { w with custody := Custody.step action w.custody }

/-- The records handed to `save` and `completeLease` are found records, edited, and nobody but
the modelled statements writes to the database. -/
def Permitted (w : Hosted ρ σ) : HostedAction ρ σ → Prop
  | .call attempts op =>
    ∀ record, (Event.call attempts op).edits record → ∃ found ∈ w.found, ∃ edit, record = found.edited edit
  | .custody (.vault (.others _)) => False
  | _ => True

abbrev Sound (w : Hosted ρ σ) : Prop := Intact w.db w.found

omit [ContentHash] [Sha256] in
theorem sound_initial (now : Instant) : (Hosted.initial now : Hosted ρ σ).Sound where
  lockstep := lockstep_initial now .empty
  anchored := fun _ hr => nomatch hr
  vacant := fun _ _ hj => nomatch hj

end Hosted

end ReproForge
