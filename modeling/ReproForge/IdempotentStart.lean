import ReproForge.Lockstep

/-!
# Starts are atomic and idempotent

A start call creates one reproduction as a whole or leaves every table alone.
The idempotency row of a key, once created, is never changed, and it answers
every later call under its key, wherever the job has moved since.
-/
namespace ReproForge

open KeyedTable Transactions Transactions.Tx Relation

variable {ρ σ : Type} [ResultDocument ρ] [RequestDocument σ]

/-! ## One call -/

def startCall (attempts : List Attempt) (limits : QuotaLimits) (input : DurableStartInput ρ σ) (db : Db ρ σ) :
    Except DurableError (DurableReservationResult ρ σ) × Db ρ σ :=
  runSerializableTransaction 3 attempts (reserveDurableStart limits input) db

/-- The checks that a start makes before it looks for its key. -/
structure Admissible (input : DurableStartInput ρ σ) (db : Db ρ σ) : Prop where
  schemas : input.schemas = true
  aligned : input.aligned = true
  valid : validateRecord input.record true = true
  active : tenantActive db input.record.tenantId = true

/-- The lookup of a key that is taken finds its reproduction. -/
theorem findByIdempotencyKey_reads {db : Db ρ σ} (hdb : Lockstep db) {scope : TenantScope} {idempotencyKey : String}
    (hscope : scope.valid = true) {i : IdempotencyRow}
    (hi : db.idempotencyKeys.get ⟨scope.tenantId, scope.callerId, idempotencyKey⟩ = some i) :
    ∃ found, findByIdempotencyKey scope idempotencyKey db = (.ok (some found), db) ∧
      found.caseId = i.caseId ∧ found.jobId = i.jobId ∧ found.commandHash = i.commandHash := by
  have hstep : findByIdempotencyKey scope idempotencyKey db =
      find (fun row => row.key.tenantId == scope.tenantId && row.key.callerId == scope.callerId &&
        row.key.idempotencyKey == idempotencyKey) db := by
    simp only [findByIdempotencyKey, hscope]
    rfl
  obtain ⟨row, hrow, hkey⟩ := hdb.joined _ _ hi
  obtain ⟨found, hfound⟩ := readableRow_iff.mp (hdb.readable row hrow)
  have hidempotency : row.idempotency = i := by
    have hget := hrow.idempotency
    rw [hkey, hi] at hget
    exact (Option.some.inj hget).symm
  have hanchor := rowToRecord_anchor hfound
  have hcase := congrArg Anchor.caseId hanchor
  have hhash := congrArg Anchor.commandHash hanchor
  have hjob := congrArg Anchor.jobId hanchor
  refine ⟨found, ?_, hidempotency ▸ hcase, hidempotency ▸ hjob, hidempotency ▸ hhash⟩
  rw [hstep, find]
  have hmatch : ∀ other : DurableRow ρ σ, (other.key.tenantId == scope.tenantId &&
      other.key.callerId == scope.callerId && other.key.idempotencyKey == idempotencyKey) = true ↔
      other.key = ⟨scope.tenantId, scope.callerId, idempotencyKey⟩ := by
    rintro ⟨⟨tenantId, callerId, idempotencyKey⟩, _, _, _⟩
    simp [and_assoc]
  cases hsearch : (durableSelect db).find? _ with
  | none =>
    have hn := List.find?_eq_none.mp hsearch row (mem_durableSelect.mpr hrow)
    exact absurd ((hmatch row).mpr hkey) hn
  | some other =>
    have hother := mem_durableSelect.mp (List.mem_of_find?_eq_some hsearch)
    have hmatched := List.find?_some hsearch
    have hsame := hother.eq_of_key hrow (((hmatch other).mp hmatched).trans hkey.symm)
    subst hsame
    simp only [hfound]

/-- A key that is taken decides the answer of an admissible call. -/
theorem reserveDurableStart_replay {db : Db ρ σ} (hdb : Lockstep db) (limits : QuotaLimits)
    {input : DurableStartInput ρ σ} (ha : Admissible input db) {i : IdempotencyRow}
    (hi : db.idempotencyKeys.get (recordKey input.record) = some i) :
    ∃ found : DurableReproductionRecord ρ σ, found.caseId = i.caseId ∧ found.jobId = i.jobId ∧
      reserveDurableStart limits input db =
        (if i.commandHash = input.record.commandHash then .ok ⟨false, found⟩ else .error idempotencyConflict,
          db) := by
  have hscope : (recordScope input.record).valid = true := by
    have hs := ha.schemas
    simp only [DurableStartInput.schemas, Bool.and_eq_true] at hs
    exact hs.1.1.1.1
  obtain ⟨found, hfound, hcase, hjob, hhash⟩ := findByIdempotencyKey_reads hdb hscope hi
  refine ⟨found, hcase, hjob, ?_⟩
  have hreserve : reserve input.record db = (.ok ⟨false, found⟩, db) := by
    simp only [reserve, reserveInTransaction, bind_apply, read_apply, ha.valid, ha.active, require_true, hfound,
      pure_apply]
  simp only [reserveDurableStart, validateStartInput, bind_apply, ha.schemas, ha.aligned, require_true, hreserve,
    Bool.false_eq_true, if_false, hhash]
  by_cases he : i.commandHash = input.record.commandHash
  · simp [he]
  · have hne : (i.commandHash == input.record.commandHash) = false := by simpa using he
    simp [hne, he]

/-- A first attempt that runs and does not fail with a retryable code is final. -/
theorem startCall_runs {attempts : List Attempt} (hruns : attempts.headD .runs = .runs) {limits : QuotaLimits}
    {input : DurableStartInput ρ σ} {db : Db ρ σ} {reply : Except DurableError (DurableReservationResult ρ σ)}
    (h : reserveDurableStart limits input db = (reply, db)) (hreply : reply ≠ .error .serialization) :
    startCall attempts limits input db = (reply, db) := by
  rw [startCall, runSerializableTransaction, hruns]
  simp only [Attempt.transaction, atomically, h]
  cases reply with
  | ok a => rfl
  | error e =>
    have hfinal : isRetryableTransactionError e = false := by
      simpa [isRetryableTransactionError] using hreply
    simp [hfinal]

variable [Sha256]

/-- What a call does to the database and what it answers. -/
structure StartOutcome (attempts : List Attempt) (limits : QuotaLimits) (input : DurableStartInput ρ σ)
    (db : Db ρ σ) : Prop where
  committed : step (.call attempts (.start limits input)) db = (startCall attempts limits input db).2
  atomic : (startCall attempts limits input db).2 = db ∨
    StartWrite limits input db (startCall attempts limits input db).2
  /-- Only a lost acknowledgement makes a call that took effect look failed. -/
  failed : ∀ e, (startCall attempts limits input db).1 = .error e → .failsAfter ∉ attempts →
    (startCall attempts limits input db).2 = db
  created : ∀ reply, (startCall attempts limits input db).1 = .ok reply → reply.created = true →
    reply.record = input.record ∧ StartWrite limits input db (startCall attempts limits input db).2
  replayed : ∀ i, db.idempotencyKeys.get (recordKey input.record) = some i →
    (startCall attempts limits input db).2 = db ∧
      ∀ reply, (startCall attempts limits input db).1 = .ok reply →
        reply.created = false ∧ i.commandHash = input.record.commandHash ∧ reply.record.caseId = i.caseId ∧
          reply.record.jobId = i.jobId
  answered : ∀ i, db.idempotencyKeys.get (recordKey input.record) = some i → Admissible input db →
    attempts.headD .runs = .runs →
    if i.commandHash = input.record.commandHash then
      ∃ record, (startCall attempts limits input db).1 = .ok ⟨false, record⟩
    else (startCall attempts limits input db).1 = .error idempotencyConflict

theorem startOutcome {db : Db ρ σ} (hdb : Lockstep db) (attempts : List Attempt) (limits : QuotaLimits)
    (input : DurableStartInput ρ σ) : StartOutcome attempts limits input db := by
  have hatomic : (startCall attempts limits input db).2 = db ∨
      StartWrite limits input db (startCall attempts limits input db).2 := by
    rcases runSerializableTransaction_cases 3 attempts (reserveDurableStart limits input) db with
      ⟨e, he⟩ | ⟨reply, db', ho, hr⟩
    · exact .inl (by rw [startCall, he])
    · have hd : (startCall attempts limits input db).2 = db' := by
        rcases hr with hr | hr <;> rw [startCall, hr]
      rw [hd]
      rcases reserveDurableStart_ok ho with ⟨-, rfl, -⟩ | ⟨-, hw⟩
      · exact .inl rfl
      · exact .inr hw
  have hreply : ∀ reply, (startCall attempts limits input db).1 = .ok reply →
      reserveDurableStart limits input db = (.ok reply, (startCall attempts limits input db).2) := by
    intro reply h
    exact runSerializableTransaction_ok (Prod.ext h rfl)
  constructor
  · exact runSerializableTransaction_discard 3 attempts _ db
  · exact hatomic
  · intro e he hlost
    exact runSerializableTransaction_error (Prod.ext he rfl) hlost
  · intro reply hr hcreated
    rcases reserveDurableStart_ok (hreply reply hr) with ⟨hnew, -⟩ | ⟨he, hw⟩
    · rw [hcreated] at hnew
      cases hnew
    · exact ⟨by rw [he], hw⟩
  · intro i hi
    have hstays : (startCall attempts limits input db).2 = db := by
      rcases hatomic with hd | hw
      · exact hd
      · have hfresh := hw.idempotencyKey
        rw [hi] at hfresh
        cases hfresh
    refine ⟨hstays, ?_⟩
    intro reply hr
    rcases reserveDurableStart_ok (hreply reply hr) with ⟨hnew, -, hhash, row, hrow, hkey, hrecord⟩ | ⟨-, hw⟩
    · have hidempotency : row.idempotency = i := by
        have hget := hrow.idempotency
        rw [hkey, hi] at hget
        exact (Option.some.inj hget).symm
      subst hidempotency
      have hanchor := rowToRecord_anchor hrecord
      have hcase := congrArg Anchor.caseId hanchor
      have hsame := congrArg Anchor.commandHash hanchor
      have hjob := congrArg Anchor.jobId hanchor
      exact ⟨hnew, hsame.symm.trans hhash, hcase, hjob⟩
    · have hfresh := hw.idempotencyKey
      rw [hi] at hfresh
      cases hfresh
  · intro i hi ha hruns
    obtain ⟨found, -, -, hanswer⟩ := reserveDurableStart_replay hdb limits ha hi
    by_cases he : i.commandHash = input.record.commandHash
    · rw [if_pos he] at hanswer ⊢
      exact ⟨found, by rw [startCall_runs hruns hanswer (by simp)]⟩
    · rw [if_neg he] at hanswer ⊢
      rw [startCall_runs hruns hanswer (by simp [idempotencyConflict])]

/-! ## All calls of a run -/

/-- The action is a start call that creates the reproduction of its input. -/
def Creates (action : Action ρ σ) (w : World ρ σ) (input : DurableStartInput ρ σ) : Prop :=
  ∃ attempts limits, action = .event (.call attempts (.start limits input)) ∧
    StartWrite limits input w.db (World.step action w).db

/-- The tables that only starts add rows to. -/
structure SameKeys (db db' : Db ρ σ) : Prop where
  idempotencyKeys : db'.idempotencyKeys = db.idempotencyKeys
  cases : ∀ key, (db'.cases.get key).isSome = (db.cases.get key).isSome
  jobs : ∀ key, (db'.jobs.get key).isSome = (db.jobs.get key).isSome
  quotaLedger : ∀ key, (db'.quotaLedger.get key).isSome = (db.quotaLedger.get key).isSome

omit [ResultDocument ρ] [RequestDocument σ] [Sha256] in
theorem SameKeys.refl (db : Db ρ σ) : SameKeys db db :=
  ⟨rfl, fun _ => rfl, fun _ => rfl, fun _ => rfl⟩

omit [ResultDocument ρ] [RequestDocument σ] [Sha256] in
theorem SameKeys.trans {s t u : Db ρ σ} (hst : SameKeys s t) (htu : SameKeys t u) : SameKeys s u where
  idempotencyKeys := htu.idempotencyKeys.trans hst.idempotencyKeys
  cases := fun key => (htu.cases key).trans (hst.cases key)
  jobs := fun key => (htu.jobs key).trans (hst.jobs key)
  quotaLedger := fun key => (htu.quotaLedger key).trans (hst.quotaLedger key)

theorem Change.sameKeys {event : Event ρ σ} {db db' : Db ρ σ}
    (h : Change event db db') : SameKeys db db' := by
  cases h with
  | job hw _ =>
    rw [hw.result]
    refine ⟨rfl, fun key => Table.isSome_get_set _ _ key _, fun key => Table.isSome_get_set _ _ key _, ?_⟩
    intro qkey
    simp only
    split
    · simp [releasedQuotas]
    · rfl
  | audit key row hd => exact hd ▸ ⟨rfl, fun _ => rfl, fun _ => rfl, fun _ => rfl⟩
  | outbox hw _ => exact hw.result ▸ ⟨rfl, fun _ => rfl, fun _ => rfl, fun _ => rfl⟩
  | environment now tenants artifacts deletions hd _ => exact hd ▸ ⟨rfl, fun _ => rfl, fun _ => rfl, fun _ => rfl⟩

/-- Whatever an action is, it creates one reproduction or no row of these tables. -/
theorem World.step_keys (action : Action ρ σ) (w : World ρ σ) :
    SameKeys w.db (World.step action w).db ∨ ∃ input, Creates action w input := by
  cases action with
  | find query =>
    left
    simp only [World.step]
    split <;> exact .refl w.db
  | event event =>
    cases hevent : event.isStart with
    | false =>
      left
      have hchanges := step_changes hevent w.db
      show SameKeys w.db (ReproForge.step event w.db)
      generalize ReproForge.step event w.db = db' at hchanges
      induction hchanges with
      | refl => exact .refl w.db
      | tail _ hc ih => exact ih.trans hc.sameKeys
    | true =>
      cases event with
      | call attempts op =>
        cases op with
        | start limits input =>
          rcases step_start attempts limits input w.db with hd | hw
          · left
            show SameKeys w.db (ReproForge.step (.call attempts (.start limits input)) w.db)
            rw [hd]
            exact .refl w.db
          · exact .inr ⟨input, attempts, limits, rfl, hw⟩
        | _ => simp [Event.isStart, Op.isStart] at hevent
      | _ => simp [Event.isStart] at hevent

/-- An idempotency row is never changed or removed. -/
theorem run_idempotencyKeys {w : World ρ σ} {key : IdempotencyKey} {i : IdempotencyRow}
    (h : w.db.idempotencyKeys.get key = some i) (actions : List (Action ρ σ)) :
    (Runs.run World.step actions w).db.idempotencyKeys.get key = some i := by
  have hstep : ∀ (w : World ρ σ) (action : Action ρ σ), w.db.idempotencyKeys.get key = some i →
      (World.step action w).db.idempotencyKeys.get key = some i := by
    intro w action hw
    rcases World.step_keys action w with hs | ⟨input, _, _, -, hstart⟩
    · rw [hs.idempotencyKeys]
      exact hw
    · rw [hstart.result]
      exact Table.get_insert_some hw
  exact Runs.run_keeps hstep h

theorem Creates.row {action : Action ρ σ} {w : World ρ σ} {input : DurableStartInput ρ σ}
    (h : Creates action w input) : (World.step action w).db.idempotencyKeys.get (recordKey input.record) =
      some (newIdempotencyKey input.record w.db.now) := by
  obtain ⟨_, _, -, hw⟩ := h
  rw [hw.result]
  exact Table.get_insert_self hw.idempotencyKey

/-- The creations of a run: at most one under a key, whose row answers from then on. -/
structure Creations (start : World ρ σ) (actions : List (Action ρ σ)) : Prop where
  once : ∀ before action between action' later input input', actions = before ++ action :: between ++ action' :: later →
    Creates action (Runs.run World.step before start) input →
    Creates action' (Runs.run World.step (before ++ action :: between) start) input' →
    recordKey input'.record ≠ recordKey input.record
  kept : ∀ before action later input, actions = before ++ action :: later →
    Creates action (Runs.run World.step before start) input →
    ∃ i, (Runs.run World.step actions start).db.idempotencyKeys.get (recordKey input.record) = some i ∧
      i.commandHash = input.record.commandHash ∧ i.caseId = input.record.caseId ∧ i.jobId = input.record.jobId

theorem creations (start : World ρ σ) (actions : List (Action ρ σ)) : Creations start actions := by
  constructor
  · intro before action between action' later input input' hactions hfirst hsecond he
    have hrow := run_idempotencyKeys hfirst.row between
    rw [Runs.run_append] at hsecond
    obtain ⟨_, _, -, hw⟩ := hsecond
    have hfresh := hw.idempotencyKey
    rw [he] at hfresh
    rw [Runs.run] at hfresh
    rw [hrow] at hfresh
    cases hfresh
  · intro before action later input hactions hfirst
    have hrow := run_idempotencyKeys hfirst.row later
    rw [hactions, Runs.run_append]
    exact ⟨_, hrow, rfl, rfl, rfl⟩

/-- Whatever else runs beside it, a start creates its reproduction as a whole and once, and
every other call under its key answers with that reproduction, conflicts or changes nothing. -/
theorem start_atomic_idempotent {now : Instant} {tenants : Table String TenantRow}
    {actions : List (Action ρ σ)}
    (h : Runs.Guarded World.step World.Permitted actions (World.initial now tenants)) :
    (∀ attempts limits input,
      StartOutcome attempts limits input (Runs.run World.step actions (World.initial now tenants)).db) ∧
    (∀ action, SameKeys (Runs.run World.step actions (World.initial now tenants)).db
        (World.step action (Runs.run World.step actions (World.initial now tenants))).db ∨
      ∃ input, Creates action (Runs.run World.step actions (World.initial now tenants)) input) ∧
    Creations (World.initial now tenants) actions := by
  refine ⟨?_, ?_, creations _ actions⟩
  · intro attempts limits input
    exact startOutcome (world_sound h).lockstep attempts limits input
  · intro action
    exact World.step_keys action _

end ReproForge

namespace ReproForge

open Sample

/-- A repeated start, after the first record was saved again, is answered by the first. -/
theorem start_atomic_idempotent_sample :
    ∃ record, (startCall [] .default
        ((startInput reservationLifetime (command "case-1" "job-1" "key-1" opening)).get first_accepted)
        (Runs.run World.step touchedRun (World.initial opening tenants)).db).1 = .ok ⟨false, record⟩ ∧
      record.caseId = "case-1" := by
  have hrow : (Runs.run World.step touchedRun (World.initial opening tenants)).db.idempotencyKeys.get
      (recordKey firstRecord) = some (newIdempotencyKey firstRecord opening) := by
    decide +kernel
  have houtcome := (start_atomic_idempotent touchedRun_permitted).1 [] .default
    ((startInput reservationLifetime (command "case-1" "job-1" "key-1" opening)).get first_accepted)
  have hanswer := houtcome.answered _ hrow ⟨by decide +kernel, by decide +kernel, by decide +kernel,
    by decide +kernel⟩ rfl
  rw [if_pos (by decide +kernel)] at hanswer
  obtain ⟨record, hrecord⟩ := hanswer
  have hcase := (houtcome.replayed _ hrow).2 _ hrecord
  exact ⟨record, hrecord, hcase.2.2.1⟩

end ReproForge
