import Mathlib.Data.Set.Card
import ReproForge.Platform
import ReproForge.RecoveryIsolation

/-!
# The export quota of an account

An export takes a place in the quota of its UTC day, under an idempotency key of
its principal. The row of a key belongs to the day of the call that made it, and
a later call under the key finds the row whatever day it comes on.
-/
namespace ReproForge

open KeyedTable Transactions Transactions.Tx

/-! ## The calendar -/

def utcDay (at' : Instant) : Int := at' / 86400000

/-- Days from 1 March of the year 0 to 1 March of a year. -/
def marchFirst (year : Int) : Int := 365 * year + year / 4 - year / 100 + year / 400

/-- A day of the epoch, counted from 1 March of the year 0. -/
def eraDay (day : Int) : Int := day + 719468

/-- The year that began with the last 1 March. -/
def marchYear (day : Int) : Int :=
  let dayOfEra := eraDay day % 146097
  400 * (eraDay day / 146097) + (dayOfEra - dayOfEra / 1460 + dayOfEra / 36524 - dayOfEra / 146096) / 365

def getUTCFullYear (day : Int) : Int :=
  if eraDay day - marchFirst (marchYear day) < 306 then marchYear day else marchYear day + 1

/-- The same month and day some years later, where 29 February rolls over to 1 March. -/
def yearsLater (years day : Int) : Int := day + (marchFirst (marchYear day + years) - marchFirst (marchYear day))

/-- `Date.UTC` of a date's own year, month and day: it takes the years 0 to 99 for 1900 to 1999. -/
def dateUTC (day : Int) : Int :=
  if 0 ≤ getUTCFullYear day ∧ getUTCFullYear day ≤ 99 then yearsLater 1900 day else day

structure UtcWindow where
  start : Instant
  windowEnd : Instant
  retentionUntil : Instant
  deriving DecidableEq, Repr

def utcWindow (at' : Instant) : UtcWindow where
  start := days (dateUTC (utcDay at'))
  windowEnd := days (dateUTC (utcDay at')) + days 1
  retentionUntil := days (yearsLater 1 (utcDay at')) + at' % 86400000

/-- The last of February of the year 0 has no counterpart in 1900. -/
example : (getUTCFullYear (-719469), dateUTC (-719469), getUTCFullYear (-25508), dateUTC (-25508)) =
    (0, -25508, 1900, -25508) := by decide

/-! ## One call -/

structure ExportInput where
  at' : Instant
  idempotencyKey : String
  principalId : String
  tenantId : String
  deriving DecidableEq, Repr

/-- `inputSchema`, and `at` in the spelling of `toISOString`. -/
def ExportInput.valid (i : ExportInput) : Bool :=
  datetime i.at' && 1 ≤ utf16Length i.idempotencyKey && utf16Length i.idempotencyKey ≤ 128 &&
    opaqueId i.principalId && opaqueId i.tenantId

structure ExportReply where
  allowed : Bool
  reused : Bool
  deriving DecidableEq, Repr

inductive PostgresAccountExportQuotaError where
  | unavailable
  deriving DecidableEq, Repr

/-- The constructor refuses every other limit. -/
structure PostgresAccountExportQuota where
  limit : Nat := 20
  positive : 1 ≤ limit
  bounded : limit ≤ 1000

def ExportInput.text (i : ExportInput) : String :=
  String.ofList (i.tenantId.toList ++ '\x00' :: (i.principalId.toList ++ '\x00' :: i.idempotencyKey.toList))

def quotaId [Sha256] (i : ExportInput) : String := "quota_account_export_" ++ hashPrefix 48 i.text

def ExportInput.key [Sha256] (i : ExportInput) : Key := ⟨i.tenantId, quotaId i⟩

def usedIn (tenantId : String) (window : UtcWindow) (key : Key) (q : QuotaRow) : Bool :=
  key.tenantId == tenantId && q.resource == .exports && q.state == .committed &&
    q.windowStart == window.start && q.windowEnd == window.windowEnd

def exportUsage (t : Table Key QuotaRow) (tenantId : String) (window : UtcWindow) : Nat :=
  ((t.select (usedIn tenantId window)).map (fun row => row.2.actualAmount)).sum

def exportRow (i : ExportInput) : QuotaRow where
  resource := .exports
  caseId := none
  jobId := none
  windowStart := (utcWindow i.at').start
  windowEnd := (utcWindow i.at').windowEnd
  reservedAmount := 1
  actualAmount := 1
  state := .committed
  expiresAt := (utcWindow i.at').windowEnd
  createdAt := i.at'
  updatedAt := i.at'
  retentionUntil := (utcWindow i.at').retentionUntil

variable {ρ σ : Type}

/-- `INSERT … ON CONFLICT DO NOTHING RETURNING id`: whether a row went in. -/
def insertQuotaOrIgnore (key : Key) (row : QuotaRow) : Statement ρ σ Bool := fun db =>
  if !(row.checks key && datetime row.retentionUntil) then (.error .constraint, db)
  else if (db.quotaLedger.get key).isSome then (.ok false, db)
  else if (db.tenants.get key.tenantId).isSome then
    (.ok true, { db with quotaLedger := db.quotaLedger.insert key row })
  else (.error .constraint, db)

namespace PostgresAccountExportQuota

variable [Sha256]

/-- The transaction. Whatever makes it fail leaves the call as the one error of the class. -/
def consumeIn (quota : PostgresAccountExportQuota) (principals : Table Key PrincipalRow) (i : ExportInput) :
    Statement ρ σ ExportReply := do
  let db ← read
  require (tenantActive db i.tenantId && (principals.get ⟨i.tenantId, i.principalId⟩).isSome) .schema
  if (db.quotaLedger.get i.key).any (fun q => q.resource == .exports) then pure ⟨true, true⟩
  else
    let used := exportUsage db.quotaLedger i.tenantId (utcWindow i.at')
    require (used ≤ maxSafeInteger) .schema
    if quota.limit ≤ used then pure ⟨false, false⟩
    else
      let inserted ← insertQuotaOrIgnore i.key (exportRow i)
      pure ⟨true, !inserted⟩

def consume (quota : PostgresAccountExportQuota) (principals : Table Key PrincipalRow) (attempts : List Attempt)
    (i : ExportInput) (db : Db ρ σ) : Except PostgresAccountExportQuotaError ExportReply × Db ρ σ :=
  if i.valid then
    match runSerializableTransaction 3 attempts (quota.consumeIn principals i) db with
    | (.ok reply, db') => (.ok reply, db')
    | (.error _, db') => (.error .unavailable, db')
  else (.error .unavailable, db)

end PostgresAccountExportQuota

/-! ## What a call does -/

section settled

variable [Sha256] {quota : PostgresAccountExportQuota} {i : ExportInput} {db db' : Db ρ σ}

/-- The call finds neither a row under its key nor a full window. -/
structure Admits (quota : PostgresAccountExportQuota) (i : ExportInput) (db : Db ρ σ) : Prop where
  valid : i.valid = true
  none : db.quotaLedger.get i.key = none
  room : exportUsage db.quotaLedger i.tenantId (utcWindow i.at') < quota.limit

def Db.admitted (db : Db ρ σ) (i : ExportInput) : Db ρ σ :=
  { db with quotaLedger := db.quotaLedger.insert i.key (exportRow i) }

/-- How a call can end: its reply and the database it leaves. -/
inductive ConsumeOutcome (quota : PostgresAccountExportQuota) (i : ExportInput) (db : Db ρ σ) :
    Except PostgresAccountExportQuotaError ExportReply → Db ρ σ → Prop where
  | unavailable : ConsumeOutcome quota i db (.error .unavailable) db
  | reused : i.valid = true → (db.quotaLedger.get i.key).isSome → ConsumeOutcome quota i db (.ok ⟨true, true⟩) db
  | refused : i.valid = true → (db.quotaLedger.get i.key).any (fun q => q.resource == .exports) = false →
      quota.limit ≤ exportUsage db.quotaLedger i.tenantId (utcWindow i.at') →
      ConsumeOutcome quota i db (.ok ⟨false, false⟩) db
  | admitted (reply : Except PostgresAccountExportQuotaError ExportReply) :
      reply = .ok ⟨true, false⟩ ∨ reply = .error .unavailable → Admits quota i db →
      ConsumeOutcome quota i db reply (db.admitted i)

omit [Sha256] in
theorem insertQuotaOrIgnore_ok {key : Key} {row : QuotaRow} {inserted : Bool}
    (h : insertQuotaOrIgnore key row db = (.ok inserted, db')) :
    (inserted = false ∧ db' = db ∧ (db.quotaLedger.get key).isSome) ∨
      (inserted = true ∧ db' = { db with quotaLedger := db.quotaLedger.insert key row } ∧
        db.quotaLedger.get key = none) := by
  unfold insertQuotaOrIgnore at h
  split at h
  · simp at h
  · split at h
    · rename_i hsome
      obtain ⟨hi, hd⟩ := Prod.mk.inj h
      exact .inl ⟨(Except.ok.inj hi).symm, hd.symm, hsome⟩
    · rename_i hnone
      split at h
      · obtain ⟨hi, hd⟩ := Prod.mk.inj h
        exact .inr ⟨(Except.ok.inj hi).symm, hd.symm, by simpa using hnone⟩
      · simp at h

theorem consumeIn_ok {principals : Table Key PrincipalRow} {reply : ExportReply} (hvalid : i.valid = true)
    (h : quota.consumeIn principals i db = (.ok reply, db')) : ConsumeOutcome quota i db (.ok reply) db' := by
  unfold PostgresAccountExportQuota.consumeIn at h
  simp only [bind_ok, read_ok, require_ok] at h
  obtain ⟨_, _, ⟨rfl, rfl⟩, _, _, ⟨-, rfl⟩, h⟩ := h
  split at h
  · rename_i hrow
    obtain ⟨rfl, rfl⟩ := pure_ok.mp h
    refine .reused hvalid ?_
    cases hget : db'.quotaLedger.get i.key with
    | none => simp [hget] at hrow
    | some q => rfl
  · rename_i hrow
    simp only [bind_ok, require_ok] at h
    obtain ⟨_, _, ⟨-, rfl⟩, h⟩ := h
    split at h
    · rename_i hfull
      obtain ⟨rfl, rfl⟩ := pure_ok.mp h
      exact .refused hvalid (by simpa using hrow) hfull
    · rename_i hroom
      simp only [bind_ok, pure_ok] at h
      obtain ⟨inserted, _, hinsert, rfl, rfl⟩ := h
      rcases insertQuotaOrIgnore_ok hinsert with ⟨rfl, rfl, hsome⟩ | ⟨rfl, rfl, hnone⟩
      · exact .reused hvalid hsome
      · exact .admitted _ (.inl rfl) ⟨hvalid, hnone, not_le.mp hroom⟩

/-- However the attempts at the transaction fare. -/
theorem consume_settled (quota : PostgresAccountExportQuota) (principals : Table Key PrincipalRow)
    (attempts : List Attempt) (i : ExportInput) (db : Db ρ σ) :
    ConsumeOutcome quota i db (quota.consume principals attempts i db).1 (quota.consume principals attempts i db).2 := by
  unfold PostgresAccountExportQuota.consume
  split
  · rename_i hvalid
    rcases runSerializableTransaction_cases 3 attempts (quota.consumeIn principals i) db with
      ⟨e, he⟩ | ⟨reply, db', ho, hr | hr⟩
    · rw [he]
      exact .unavailable
    · rw [hr]
      exact consumeIn_ok hvalid ho
    · rw [hr]
      -- the acknowledgement of whatever the transaction did is lost
      cases consumeIn_ok hvalid ho with
      | reused _ _ => exact .unavailable
      | refused _ _ _ => exact .unavailable
      | admitted _ _ hadmits => exact .admitted _ (.inr rfl) hadmits
  · exact .unavailable

end settled

/-! ## Rows of the ledger -/

section ledger

variable [Sha256] {i : ExportInput} {db : Db ρ σ} {tenantId : String} {window : UtcWindow}

theorem admitted_self (h : db.quotaLedger.get i.key = none) :
    (db.admitted i).quotaLedger.get i.key = some (exportRow i) := Table.get_insert_self h

/-- A row of the ledger stays what it is. -/
theorem admitted_keeps {key : Key} {q : QuotaRow} (h : db.quotaLedger.get key = some q) :
    (db.admitted i).quotaLedger.get key = some q := Table.get_insert_some h

theorem admitted_cases {key : Key} {q : QuotaRow} (hnone : db.quotaLedger.get i.key = none)
    (h : (db.admitted i).quotaLedger.get key = some q) :
    db.quotaLedger.get key = some q ∨ (key = i.key ∧ q = exportRow i) := by
  by_cases hk : key = i.key
  · subst hk
    rw [admitted_self hnone] at h
    exact .inr ⟨rfl, (Option.some.inj h).symm⟩
  · have hother : (db.admitted i).quotaLedger.get key = db.quotaLedger.get key := Table.get_insert_other hk
    exact .inl (hother ▸ h)

theorem exportUsage_admitted (h : db.quotaLedger.get i.key = none) :
    exportUsage (db.admitted i).quotaLedger tenantId window =
      exportUsage db.quotaLedger tenantId window + if usedIn tenantId window i.key (exportRow i) then 1 else 0 := by
  have hrows : (db.admitted i).quotaLedger.rows = db.quotaLedger.rows ++ [(i.key, exportRow i)] :=
    Table.rows_insert h
  rw [exportUsage, exportUsage, Table.select, hrows, List.filter_append, List.map_append, List.sum_append,
    Table.select]
  have hamount : (exportRow i).actualAmount = 1 := rfl
  by_cases hu : usedIn tenantId window i.key (exportRow i) = true
  · simp [hu, hamount]
  · simp [hu]

theorem usedIn_own (i : ExportInput) : usedIn i.tenantId (utcWindow i.at') i.key (exportRow i) = true := by
  simp [usedIn, exportRow, ExportInput.key]

theorem exportUsage_le_admitted (h : db.quotaLedger.get i.key = none) :
    exportUsage db.quotaLedger tenantId window ≤ exportUsage (db.admitted i).quotaLedger tenantId window := by
  rw [exportUsage_admitted h]
  omega

/-- An admission in a window finds room in it. -/
theorem room_of_usedIn {quota : PostgresAccountExportQuota} (h : Admits quota i db)
    (hu : usedIn tenantId window i.key (exportRow i) = true) :
    exportUsage db.quotaLedger tenantId window < quota.limit := by
  simp only [usedIn, exportRow, ExportInput.key, Bool.and_eq_true, beq_iff_eq] at hu
  obtain ⟨⟨⟨⟨rfl, -⟩, -⟩, hstart⟩, hend⟩ := hu
  have hroom := h.room
  have hsame : usedIn i.tenantId (utcWindow i.at') = usedIn i.tenantId window := by
    funext key q
    rw [usedIn, usedIn, hstart, hend]
  rwa [exportUsage, hsame] at hroom

end ledger

/-! ## Calls one after the other -/

structure ExportCall where
  input : ExportInput
  attempts : List Attempt

def ExportInput.pair (i : ExportInput) : String × String := (i.principalId, i.idempotencyKey)

namespace PostgresAccountExportQuota

variable [Sha256]

def reply (quota : PostgresAccountExportQuota) (principals : Table Key PrincipalRow) (c : ExportCall) (db : Db ρ σ) :
    Except PostgresAccountExportQuotaError ExportReply :=
  (quota.consume principals c.attempts c.input db).1

def serve (quota : PostgresAccountExportQuota) (principals : Table Key PrincipalRow) (c : ExportCall) (db : Db ρ σ) :
    Db ρ σ :=
  (quota.consume principals c.attempts c.input db).2

/-- Serializable transactions take effect one after the other. -/
def after (quota : PostgresAccountExportQuota) (principals : Table Key PrincipalRow) (calls : List ExportCall)
    (db : Db ρ σ) : Db ρ σ :=
  Runs.run (quota.serve principals) calls db

end PostgresAccountExportQuota

section calls

variable [Sha256] {quota : PostgresAccountExportQuota} {principals : Table Key PrincipalRow} {db : Db ρ σ}

theorem call_settled (quota : PostgresAccountExportQuota) (principals : Table Key PrincipalRow) (c : ExportCall)
    (db : Db ρ σ) : ConsumeOutcome quota c.input db (quota.reply principals c db) (quota.serve principals c db) :=
  consume_settled quota principals c.attempts c.input db

theorem serve_cases (quota : PostgresAccountExportQuota) (principals : Table Key PrincipalRow) (c : ExportCall)
    (db : Db ρ σ) :
    quota.serve principals c db = db ∨
      (quota.serve principals c db = db.admitted c.input ∧ Admits quota c.input db) := by
  have h := call_settled quota principals c db
  generalize quota.reply principals c db = reply at h
  generalize quota.serve principals c db = db' at h ⊢
  cases h with
  | unavailable => exact .inl rfl
  | reused _ _ => exact .inl rfl
  | refused _ _ _ => exact .inl rfl
  | admitted _ _ hadmits => exact .inr ⟨rfl, hadmits⟩

theorem after_append (first second : List ExportCall) :
    quota.after principals (first ++ second) db = quota.after principals second (quota.after principals first db) :=
  Runs.run_append _ first second db

theorem after_snoc (calls : List ExportCall) (c : ExportCall) :
    quota.after principals (calls ++ [c]) db = quota.serve principals c (quota.after principals calls db) :=
  after_append calls [c]

/-- What admissions keep holds after every sequence of calls. -/
theorem after_invariant (inv : Db ρ σ → Prop) (hstep : ∀ s i, inv s → Admits quota i s → inv (s.admitted i))
    (h : inv db) (calls : List ExportCall) : inv (quota.after principals calls db) := by
  refine Runs.run_keeps ?_ h
  intro s c hs
  rcases serve_cases quota principals c s with he | ⟨he, hadmits⟩
  · rwa [he]
  · rw [he]
    exact hstep s c.input hs hadmits

theorem after_keeps (quota : PostgresAccountExportQuota) (principals : Table Key PrincipalRow)
    (calls : List ExportCall) {key : Key} {q : QuotaRow} (h : db.quotaLedger.get key = some q) :
    (quota.after principals calls db).quotaLedger.get key = some q :=
  after_invariant (fun s => s.quotaLedger.get key = some q) (fun _ _ hs _ => admitted_keeps hs) h calls

theorem exportUsage_le_after (calls : List ExportCall) (tenantId : String) (window : UtcWindow) :
    exportUsage db.quotaLedger tenantId window ≤
      exportUsage (quota.after principals calls db).quotaLedger tenantId window :=
  after_invariant (fun s => exportUsage db.quotaLedger tenantId window ≤ exportUsage s.quotaLedger tenantId window)
    (fun _ _ hs hadmits => hs.trans (exportUsage_le_admitted hadmits.none)) le_rfl calls

/-- A call of the run found room and put the row in. -/
def MadeBy (quota : PostgresAccountExportQuota) (principals : Table Key PrincipalRow) (db : Db ρ σ)
    (calls : List ExportCall) (key : Key) (q : QuotaRow) : Prop :=
  ∃ before c rest, calls = before ++ c :: rest ∧ key = c.input.key ∧ q = exportRow c.input ∧
    Admits quota c.input (quota.after principals before db) ∧
    quota.serve principals c (quota.after principals before db) =
      (quota.after principals before db).admitted c.input

theorem MadeBy.snoc {calls : List ExportCall} {key : Key} {q : QuotaRow} (h : MadeBy quota principals db calls key q)
    (c : ExportCall) : MadeBy quota principals db (calls ++ [c]) key q := by
  obtain ⟨before, maker, rest, rfl, hmade⟩ := h
  exact ⟨before, maker, rest ++ [c], List.append_assoc .., hmade⟩

theorem after_made (calls : List ExportCall) {key : Key} {q : QuotaRow}
    (h : (quota.after principals calls db).quotaLedger.get key = some q) :
    db.quotaLedger.get key = some q ∨ MadeBy quota principals db calls key q := by
  induction calls using List.reverseRecOn with
  | nil => exact .inl h
  | append_singleton calls c ih =>
    rw [after_snoc] at h
    rcases serve_cases quota principals c (quota.after principals calls db) with he | ⟨he, hadmits⟩
    · rw [he] at h
      exact (ih h).imp_right (fun hmade => hmade.snoc c)
    · rw [he] at h
      rcases admitted_cases hadmits.none h with hq | ⟨hkey, hrow⟩
      · exact (ih hq).imp_right (fun hmade => hmade.snoc c)
      · exact .inr ⟨calls, c, [], rfl, hkey, hrow, hadmits, he⟩

/-- A window is within the limit, or no call has used it. -/
theorem after_bounded (quota : PostgresAccountExportQuota) (calls : List ExportCall) (tenantId : String) (window : UtcWindow) :
    exportUsage (quota.after principals calls db).quotaLedger tenantId window ≤ quota.limit ∨
      ∀ key q, (quota.after principals calls db).quotaLedger.get key = some q →
        usedIn tenantId window key q = true → db.quotaLedger.get key = some q := by
  refine after_invariant (fun s => exportUsage s.quotaLedger tenantId window ≤ quota.limit ∨
    ∀ key q, s.quotaLedger.get key = some q → usedIn tenantId window key q = true →
      db.quotaLedger.get key = some q) ?_ (.inr fun _ _ h _ => h) calls
  intro s i hs hadmits
  by_cases hu : usedIn tenantId window i.key (exportRow i) = true
  · have hroom := room_of_usedIn hadmits hu
    refine .inl ?_
    rw [exportUsage_admitted hadmits.none, if_pos hu]
    exact hroom
  · rcases hs with hs | hs
    · refine .inl ?_
      rw [exportUsage_admitted hadmits.none, if_neg hu]
      exact hs
    · refine .inr ?_
      intro key q hq hused
      rcases admitted_cases hadmits.none hq with hq | ⟨rfl, rfl⟩
      · exact hs key q hq hused
      · exact absurd hused hu

end calls

/-! ## The bound on a day -/

section bound

variable [Sha256] (quota : PostgresAccountExportQuota) (principals : Table Key PrincipalRow) (db : Db ρ σ)
  (calls : List ExportCall)

/-- The pairs of a tenant for which a call with its time in the day returned allowed. -/
def allowedPairs (tenantId : String) (day : Int) : Set (String × String) :=
  {pair | ∃ before c rest reused, calls = before ++ c :: rest ∧ c.input.tenantId = tenantId ∧ c.input.pair = pair ∧
    utcDay c.input.at' = day ∧ quota.reply principals c (quota.after principals before db) = .ok ⟨true, reused⟩}

/-- The pairs whose place in the quota was taken by a call with its time on another day. -/
def placedElsewhere (tenantId : String) (day : Int) : Set (String × String) :=
  {pair | ∃ before c rest, calls = before ++ c :: rest ∧ c.input.tenantId = tenantId ∧ c.input.pair = pair ∧
    utcDay c.input.at' ≠ day ∧ (quota.serve principals c (quota.after principals before db)).quotaLedger ≠
      (quota.after principals before db).quotaLedger}

/-- A pair that was allowed, or took a place while the reply was lost, is let through from then on and
consumes nothing more. -/
def AllowedAgain : Prop :=
  ∀ before c between c' rest, calls = before ++ c :: (between ++ c' :: rest) →
    c'.input.tenantId = c.input.tenantId → c'.input.pair = c.input.pair →
    (∃ reused, quota.reply principals c (quota.after principals before db) = .ok ⟨true, reused⟩) ∨
      (quota.serve principals c (quota.after principals before db)).quotaLedger ≠
        (quota.after principals before db).quotaLedger →
    let s := quota.after principals (before ++ c :: between) db
    (quota.reply principals c' s = .ok ⟨true, true⟩ ∨ quota.reply principals c' s = .error .unavailable) ∧
      quota.serve principals c' s = s

/-- A pair that was refused is refused again on that day, if the calls for it in between are of that day. -/
def RefusedAgain : Prop :=
  ∀ before c between c' rest reused, calls = before ++ c :: (between ++ c' :: rest) →
    c'.input.tenantId = c.input.tenantId → c'.input.pair = c.input.pair →
    utcDay c'.input.at' = utcDay c.input.at' →
    (∀ x ∈ between, x.input.tenantId = c.input.tenantId → x.input.pair = c.input.pair →
      utcDay x.input.at' = utcDay c.input.at') →
    quota.reply principals c (quota.after principals before db) = .ok ⟨false, reused⟩ →
    let s := quota.after principals (before ++ c :: between) db
    (quota.reply principals c' s = .ok ⟨false, false⟩ ∨ quota.reply principals c' s = .error .unavailable) ∧
      quota.serve principals c' s = s

/-- The digests of the calls tell their texts apart. -/
def DigestsApart : Prop :=
  ∀ c ∈ calls, ∀ c' ∈ calls, hashPrefix 48 c.input.text = hashPrefix 48 c'.input.text → c.input.text = c'.input.text

end bound

theorem opaque_no_nul {id : String} (h : opaqueId id = true) : '\x00' ∉ id.toList := by
  unfold opaqueId at h
  intro hnul
  split at h
  · rename_i hnil
    rw [hnil] at hnul
    cases hnul
  · rename_i c rest hcons
    simp only [Bool.and_eq_true, List.all_eq_true] at h
    rw [hcons, List.mem_cons] at hnul
    rcases hnul with rfl | hnul
    · exact absurd h.1.1 (by decide)
    · exact absurd (h.1.2 _ hnul) (by decide)

theorem cut_injective {α : Type} {c : α} {a b a' b' : List α} (ha : c ∉ a) (ha' : c ∉ a')
    (h : a ++ c :: b = a' ++ c :: b') : a = a' ∧ b = b' := by
  induction a generalizing a' with
  | nil =>
    cases a' with
    | nil => exact ⟨rfl, (List.cons.inj h).2⟩
    | cons d rest => exact absurd (List.mem_cons.mpr (.inl (List.cons.inj h).1)) ha'
  | cons d rest ih =>
    cases a' with
    | nil => exact absurd (List.mem_cons.mpr (.inl (List.cons.inj h).1.symm)) ha
    | cons d' rest' =>
      obtain ⟨rfl, htail⟩ := List.cons.inj h
      obtain ⟨rfl, rfl⟩ := ih (fun hm => ha (List.mem_cons_of_mem _ hm)) (fun hm => ha' (List.mem_cons_of_mem _ hm))
        htail
      exact ⟨rfl, rfl⟩

/-- Identifiers hold no separator, so the joined text has one reading. -/
theorem text_injective {i j : ExportInput} (hi : i.valid = true) (hj : j.valid = true) (h : i.text = j.text) :
    i.tenantId = j.tenantId ∧ i.pair = j.pair := by
  simp only [ExportInput.valid, Bool.and_eq_true] at hi hj
  have hlist : i.tenantId.toList ++ '\x00' :: (i.principalId.toList ++ '\x00' :: i.idempotencyKey.toList) =
      j.tenantId.toList ++ '\x00' :: (j.principalId.toList ++ '\x00' :: j.idempotencyKey.toList) := by
    simpa [ExportInput.text] using congrArg String.toList h
  obtain ⟨htenant, hrest⟩ := cut_injective (opaque_no_nul hi.2) (opaque_no_nul hj.2) hlist
  obtain ⟨hprincipal, hkey⟩ := cut_injective (opaque_no_nul hi.1.2) (opaque_no_nul hj.1.2) hrest
  exact ⟨String.toList_inj.mp htenant, Prod.ext (String.toList_inj.mp hprincipal) (String.toList_inj.mp hkey)⟩

/-! ### Keys of pairs -/

section pairs

variable [Sha256] {calls : List ExportCall}

theorem key_of_pair {i j : ExportInput} (htenant : j.tenantId = i.tenantId) (hpair : j.pair = i.pair) :
    j.key = i.key := by
  have hprincipal : j.principalId = i.principalId := congrArg Prod.fst hpair
  have hkey : j.idempotencyKey = i.idempotencyKey := congrArg Prod.snd hpair
  have htext : j.text = i.text := by
    unfold ExportInput.text
    rw [htenant, hprincipal, hkey]
  unfold ExportInput.key quotaId
  rw [htenant, htext]

theorem pair_of_key (hdigest : DigestsApart calls) {c c' : ExportCall} (hc : c ∈ calls) (hc' : c' ∈ calls)
    (hvalid : c.input.valid = true) (hvalid' : c'.input.valid = true) (hkey : c.input.key = c'.input.key) :
    c.input.tenantId = c'.input.tenantId ∧ c.input.pair = c'.input.pair := by
  have hid : quotaId c.input = quotaId c'.input := congrArg Key.id hkey
  have hprefix : hashPrefix 48 c.input.text = hashPrefix 48 c'.input.text := (String.append_right_inj _).mp hid
  exact text_injective hvalid hvalid' (hdigest c hc c' hc' hprefix)

end pairs

/-! ### Rows of calls -/

section rows

variable [Sha256] {quota : PostgresAccountExportQuota} {principals : Table Key PrincipalRow} {db : Db ρ σ}
  {calls before rest : List ExportCall} {c : ExportCall}

theorem admitted_changes {i : ExportInput} (h : db.quotaLedger.get i.key = none) :
    (db.admitted i).quotaLedger ≠ db.quotaLedger := by
  intro he
  have hself := admitted_self h
  rw [he, h] at hself
  cases hself

/-- A call that let its pair through leaves a row under the key. -/
theorem row_of_allowed {reused : Bool} (h : quota.reply principals c db = .ok ⟨true, reused⟩) :
    c.input.valid = true ∧ ∃ q, (quota.serve principals c db).quotaLedger.get c.input.key = some q := by
  have hs := call_settled quota principals c db
  rw [h] at hs
  generalize quota.serve principals c db = db' at hs ⊢
  generalize hreply : (Except.ok ⟨true, reused⟩ : Except PostgresAccountExportQuotaError ExportReply) = reply at hs
  cases hs with
  | unavailable => cases hreply
  | reused hvalid hsome => exact ⟨hvalid, Option.isSome_iff_exists.mp hsome⟩
  | refused _ _ _ => cases hreply
  | admitted _ _ hadmits => exact ⟨hadmits.valid, _, admitted_self hadmits.none⟩

/-- So does a call that changed the ledger. -/
theorem row_of_change (h : (quota.serve principals c db).quotaLedger ≠ db.quotaLedger) :
    ∃ q, (quota.serve principals c db).quotaLedger.get c.input.key = some q := by
  rcases serve_cases quota principals c db with he | ⟨he, hadmits⟩
  · exact absurd (congrArg Db.quotaLedger he) h
  · rw [he]
    exact ⟨_, admitted_self hadmits.none⟩

/-- A call that finds a row of an earlier export lets its pair through and does nothing else. -/
theorem replayed {i : ExportInput} (hrow : db.quotaLedger.get c.input.key = some (exportRow i)) :
    (quota.reply principals c db = .ok ⟨true, true⟩ ∨ quota.reply principals c db = .error .unavailable) ∧
      quota.serve principals c db = db := by
  have hs := call_settled quota principals c db
  generalize quota.reply principals c db = reply at hs ⊢
  generalize quota.serve principals c db = db' at hs ⊢
  cases hs with
  | unavailable => exact ⟨.inr rfl, rfl⟩
  | reused _ _ => exact ⟨.inl rfl, rfl⟩
  | refused _ hany _ =>
    rw [hrow] at hany
    cases hany
  | admitted _ _ hadmits => cases hrow.symm.trans hadmits.none

/-- A call that finds no row and no room is refused. -/
theorem refused_again (hnone : db.quotaLedger.get c.input.key = none)
    (hfull : quota.limit ≤ exportUsage db.quotaLedger c.input.tenantId (utcWindow c.input.at')) :
    (quota.reply principals c db = .ok ⟨false, false⟩ ∨ quota.reply principals c db = .error .unavailable) ∧
      quota.serve principals c db = db := by
  have hs := call_settled quota principals c db
  generalize quota.reply principals c db = reply at hs ⊢
  generalize quota.serve principals c db = db' at hs ⊢
  cases hs with
  | unavailable => exact ⟨.inr rfl, rfl⟩
  | reused _ hsome =>
    rw [hnone] at hsome
    cases hsome
  | refused _ _ _ => exact ⟨.inl rfl, rfl⟩
  | admitted _ _ hadmits => exact absurd hadmits.room (not_lt.mpr hfull)

theorem of_refused {reused : Bool} (h : quota.reply principals c db = .ok ⟨false, reused⟩) :
    quota.serve principals c db = db ∧ c.input.valid = true ∧
      (db.quotaLedger.get c.input.key).any (fun q => q.resource == .exports) = false ∧
      quota.limit ≤ exportUsage db.quotaLedger c.input.tenantId (utcWindow c.input.at') := by
  have hs := call_settled quota principals c db
  rw [h] at hs
  generalize quota.serve principals c db = db' at hs ⊢
  generalize hreply : (Except.ok ⟨false, reused⟩ : Except PostgresAccountExportQuotaError ExportReply) = reply at hs
  cases hs with
  | unavailable => cases hreply
  | reused _ _ => cases hreply
  | refused hvalid hany hfull => exact ⟨rfl, hvalid, hany, hfull⟩
  | admitted _ hadmitted _ =>
    subst hreply
    rcases hadmitted with hadmitted | hadmitted <;> cases hadmitted

end rows

/-! ### Whole sequences -/

section sequences

variable [Sha256] {quota : PostgresAccountExportQuota} {principals : Table Key PrincipalRow} {db : Db ρ σ}
  {calls : List ExportCall}

omit [Sha256] in
theorem usedIn_day {a b : Instant} (h : utcDay a = utcDay b) (tenantId : String) :
    usedIn tenantId (utcWindow a) = usedIn tenantId (utcWindow b) := by
  funext key q
  simp only [usedIn, utcWindow, h]

omit [Sha256] in
theorem exportUsage_day {a b : Instant} (h : utcDay a = utcDay b) (t : Table Key QuotaRow) (tenantId : String) :
    exportUsage t tenantId (utcWindow a) = exportUsage t tenantId (utcWindow b) := by
  rw [exportUsage, exportUsage, usedIn_day h]

/-- A row under the key of a call is the row of an export, when the sequence starts without one. -/
theorem row_made {before : List ExportCall} {key : Key} {q : QuotaRow} (hfresh : db.quotaLedger.get key = none)
    (hrow : (quota.after principals before db).quotaLedger.get key = some q) :
    MadeBy quota principals db before key q := by
  rcases after_made before hrow with hinitial | hmade
  · cases hinitial.symm.trans hfresh
  · exact hmade

theorem allowed_again (hfresh : ∀ c ∈ calls, db.quotaLedger.get c.input.key = none) :
    AllowedAgain quota principals db calls := by
  intro before c between c' rest hcalls htenant hpair hplaced
  have hkey : c'.input.key = c.input.key := key_of_pair htenant hpair
  have hrow : ∃ q, (quota.serve principals c (quota.after principals before db)).quotaLedger.get c.input.key =
      some q := by
    rcases hplaced with ⟨reused, hallowed⟩ | hchange
    · exact (row_of_allowed hallowed).2
    · exact row_of_change hchange
  obtain ⟨q, hq⟩ := hrow
  rw [← after_snoc] at hq
  obtain ⟨before', maker, rest', -, -, rfl, -⟩ := row_made (hfresh c (by simp [hcalls])) hq
  have hkept := after_keeps quota principals between hq
  rw [← after_append, List.append_assoc, List.singleton_append, ← hkey] at hkept
  exact replayed hkept

theorem refused_stays (hfresh : ∀ c ∈ calls, db.quotaLedger.get c.input.key = none) (hdigest : DigestsApart calls) :
    RefusedAgain quota principals db calls := by
  intro before c between c' rest reused hcalls htenant hpair hday hbetween hrefused
  have hc : c ∈ calls := by simp [hcalls]
  have hkey : c'.input.key = c.input.key := key_of_pair htenant hpair
  obtain ⟨hsame, hvalid, hany, hfull⟩ := of_refused hrefused
  have hafter : quota.after principals (before ++ c :: between) db =
      quota.after principals between (quota.after principals before db) := by
    rw [← List.singleton_append, ← List.append_assoc, after_append, after_snoc, hsame]
  have hnone : (quota.after principals before db).quotaLedger.get c.input.key = none := by
    cases hget : (quota.after principals before db).quotaLedger.get c.input.key with
    | none => rfl
    | some q =>
      obtain ⟨_, _, _, -, -, rfl, -⟩ := row_made (hfresh c hc) hget
      rw [hget] at hany
      cases hany
  have hfuller : ∀ later, quota.limit ≤ exportUsage (quota.after principals later
      (quota.after principals before db)).quotaLedger c.input.tenantId (utcWindow c.input.at') := fun later =>
    hfull.trans (exportUsage_le_after later c.input.tenantId (utcWindow c.input.at'))
  have hstill : (quota.after principals between (quota.after principals before db)).quotaLedger.get c'.input.key =
      none := by
    rw [hkey]
    cases hget : (quota.after principals between (quota.after principals before db)).quotaLedger.get c.input.key with
    | none => rfl
    | some q =>
      -- whoever made the row did so on the same day, in which there is no room
      obtain ⟨before', maker, rest', rfl, hmaker, -, hadmits, -⟩ := row_made hnone hget
      have hin : maker ∈ calls := by simp [hcalls]
      obtain ⟨htenant', hpair'⟩ := pair_of_key hdigest hc hin hvalid hadmits.valid hmaker
      have hday' := hbetween maker (by simp) htenant'.symm hpair'.symm
      have hroom := hadmits.room
      rw [exportUsage_day hday', ← htenant'] at hroom
      exact absurd hroom (not_lt.mpr (hfuller before'))
  simp only [hafter]
  refine refused_again hstill ?_
  rw [htenant, exportUsage_day hday]
  exact hfuller between

/-- A pair that counts on a day has a row of that day, under a key of its own. -/
theorem placed_on_day (hfresh : ∀ c ∈ calls, db.quotaLedger.get c.input.key = none) (hdigest : DigestsApart calls)
    {tenantId : String} {day : Int} {pair : String × String}
    (h : pair ∈ allowedPairs quota principals db calls tenantId day \
      placedElsewhere quota principals db calls tenantId day) :
    ∃ c ∈ calls, c.input.valid = true ∧ c.input.tenantId = tenantId ∧ c.input.pair = pair ∧
      utcDay c.input.at' = day ∧
      (quota.after principals calls db).quotaLedger.get c.input.key = some (exportRow c.input) := by
  obtain ⟨⟨before, c, rest, reused, hcalls, htenant, hpair, -, hallowed⟩, helsewhere⟩ := h
  have hc : c ∈ calls := by simp [hcalls]
  obtain ⟨hvalid, q, hq⟩ := row_of_allowed hallowed
  rw [← after_snoc] at hq
  have hfinal := after_keeps quota principals rest hq
  rw [← after_append, List.append_assoc, List.singleton_append, ← hcalls] at hfinal
  obtain ⟨before', maker, rest', hbefore, hkey, rfl, hadmits, hserve⟩ := row_made (hfresh c hc) hq
  have hsplit : calls = before' ++ maker :: (rest' ++ rest) := by
    rw [hcalls, ← List.singleton_append, ← List.append_assoc, hbefore, List.append_assoc]
    rfl
  have hmaker : maker ∈ calls := by simp [hsplit]
  obtain ⟨htenant', hpair'⟩ := pair_of_key hdigest hc hmaker hvalid hadmits.valid hkey
  refine ⟨maker, hmaker, hadmits.valid, htenant'.symm.trans htenant, hpair'.symm.trans hpair, ?_, hkey ▸ hfinal⟩
  by_contra hday
  refine helsewhere ⟨before', maker, rest' ++ rest, hsplit, htenant'.symm.trans htenant, hpair'.symm.trans hpair,
    hday, ?_⟩
  rw [hserve]
  exact admitted_changes hadmits.none

/-- The key of a pair of the tenant. -/
def pairKey (tenantId : String) (pair : String × String) : Key :=
  (⟨0, pair.2, pair.1, tenantId⟩ : ExportInput).key

theorem day_bounded (hfresh : ∀ c ∈ calls, db.quotaLedger.get c.input.key = none) (hdigest : DigestsApart calls)
    (tenantId : String) (day : Int) :
    (allowedPairs quota principals db calls tenantId day \
      placedElsewhere quota principals db calls tenantId day).encard ≤ quota.limit := by
  set pairs := allowedPairs quota principals db calls tenantId day \
    placedElsewhere quota principals db calls tenantId day with hpairs
  set ledger := (quota.after principals calls db).quotaLedger with hledger
  have hplaced : ∀ pair ∈ pairs, ∃ c ∈ calls, c.input.valid = true ∧ c.input.pair = pair ∧
      c.input.key = pairKey tenantId pair ∧ ledger.get c.input.key = some (exportRow c.input) ∧
      usedIn tenantId (utcWindow (days day)) c.input.key (exportRow c.input) = true := by
    intro pair hpair
    obtain ⟨c, hc, hvalid, htenant, hcpair, hday, hrow⟩ := placed_on_day hfresh hdigest hpair
    have hwindow : utcDay c.input.at' = utcDay (days day) := by
      rw [hday, utcDay, days]
      omega
    refine ⟨c, hc, hvalid, hcpair, key_of_pair htenant hcpair, hrow, ?_⟩
    rw [← usedIn_day hwindow, ← htenant]
    exact usedIn_own c.input
  have hinj : Set.InjOn (pairKey tenantId) pairs := by
    intro a ha b hb hab
    obtain ⟨c, hc, hvalid, hcpair, hkey, -⟩ := hplaced a ha
    obtain ⟨c', hc', hvalid', hcpair', hkey', -⟩ := hplaced b hb
    rw [← hcpair, ← hcpair']
    exact (pair_of_key hdigest hc hc' hvalid hvalid' (hkey.trans (hab.trans hkey'.symm))).2
  let counts : Key → QuotaRow → Bool := fun key q =>
    usedIn tenantId (utcWindow (days day)) key q && 1 ≤ q.actualAmount
  have hkeys : pairKey tenantId '' pairs ⊆ ((ledger.select counts).map Prod.fst).toFinset := by
    rintro key ⟨pair, hpair, rfl⟩
    obtain ⟨c, -, -, -, hkey, hrow, hused⟩ := hplaced pair hpair
    rw [List.coe_toFinset]
    refine List.mem_map.mpr ⟨(c.input.key, exportRow c.input), Table.mem_select.mpr ⟨hrow, ?_⟩, hkey⟩
    simp only [counts, hused, Bool.true_and, decide_eq_true_eq]
    exact le_rfl
  have hcount : pairs.encard ≤ (ledger.count counts : ℕ∞) := by
    rw [← hinj.encard_image]
    refine (Set.encard_le_encard hkeys).trans ?_
    rw [Set.encard_coe_eq_coe_finsetCard, List.toFinset_card_of_nodup (ledger.select_keys_nodup counts),
      List.length_map, Table.count]
  rcases after_bounded quota calls tenantId (utcWindow (days day)) with hle | hnone
  · have husage : ledger.count counts ≤ quota.limit :=
      (Table.count_le_sum ledger _ QuotaRow.actualAmount).trans hle
    exact hcount.trans (by exact_mod_cast husage)
  · have hempty : pairs = ∅ := by
      by_contra hne
      obtain ⟨pair, hpair⟩ := Set.nonempty_iff_ne_empty.mpr hne
      obtain ⟨c, hc, -, -, -, hrow, hused⟩ := hplaced pair hpair
      cases (hnone c.input.key _ hrow hused).symm.trans (hfresh c hc)
    rw [hempty, Set.encard_empty]
    exact bot_le

/-- On every day at most the limit of a tenant's pairs are let through, not counting those whose place was taken
on another day; a pair is answered as before and consumes nothing more; a refusal changes nothing. -/
theorem export_quota_bound (quota : PostgresAccountExportQuota) (principals : Table Key PrincipalRow) (db : Db ρ σ)
    (calls : List ExportCall) (hfresh : ∀ c ∈ calls, db.quotaLedger.get c.input.key = none)
    (hdigest : DigestsApart calls) :
    (∀ tenantId day, (allowedPairs quota principals db calls tenantId day \
      placedElsewhere quota principals db calls tenantId day).encard ≤ quota.limit) ∧
    AllowedAgain quota principals db calls ∧ RefusedAgain quota principals db calls ∧
    ∀ before c rest reused, calls = before ++ c :: rest →
      quota.reply principals c (quota.after principals before db) = .ok ⟨false, reused⟩ →
      quota.serve principals c (quota.after principals before db) = quota.after principals before db :=
  ⟨day_bounded hfresh hdigest, allowed_again hfresh, refused_stays hfresh hdigest,
    fun _ _ _ _ _ hrefused => (of_refused hrefused).1⟩

end sequences

end ReproForge

/-! ## A key of the day before -/

namespace ReproForge.Sample.Exports

open KeyedTable Sample

def digest (text : String) : String :=
  if text = "acme\x00caller\x00export-a" then "23ea4116486eea08b06b6ea7256e41e098c9a123f194aa14eae1632e7d4c3fa2"
  else if text = "acme\x00caller\x00export-b" then
    "95492882c68163107f38bfbf44a27e15f6832ded5d2fe198b228652625811c0c"
  else Recovery.zeros

scoped instance (priority := 2000) : Sha256 := ⟨digest⟩

def principals : Table Key PrincipalRow :=
  Table.empty.insert ⟨"acme", "caller"⟩
    ⟨"auth0", "https://identity.example/", "subject", opening, opening, opening, opening + days 365⟩

def quota : PostgresAccountExportQuota where
  limit := 1
  positive := by decide
  bounded := by decide

/-- A call that meets no failure. -/
def call (at' : Instant) (idempotencyKey : String) : ExportCall := ⟨⟨at', idempotencyKey, "caller", "acme"⟩, []⟩

/-- One key on the first day; on the next day another key, and the first one again. -/
def replay : List ExportCall :=
  [call opening "export-a", call (opening + days 1) "export-b", call (opening + days 1) "export-a"]

def start : Db Empty Empty := Db.initial opening tenants

theorem replay_fresh : ∀ c ∈ replay, start.quotaLedger.get c.input.key = none := by decide +kernel

theorem replay_apart : DigestsApart replay := by
  unfold DigestsApart
  decide +kernel

theorem export_quota_bound_sample :
    (∀ c ∈ replay, start.quotaLedger.get c.input.key = none) ∧ DigestsApart replay ∧
    (∀ tenantId day, (allowedPairs quota principals start replay tenantId day \
      placedElsewhere quota principals start replay tenantId day).encard ≤ quota.limit) ∧
    AllowedAgain quota principals start replay ∧ RefusedAgain quota principals start replay ∧
    ∀ before c rest reused, replay = before ++ c :: rest →
      quota.reply principals c (quota.after principals before start) = .ok ⟨false, reused⟩ →
      quota.serve principals c (quota.after principals before start) = quota.after principals before start :=
  ⟨replay_fresh, replay_apart, export_quota_bound quota principals start replay replay_fresh replay_apart⟩

/-- Both keys are let through on the second day, where the limit is one. -/
theorem replay_exceeds :
    (∀ c ∈ replay, start.quotaLedger.get c.input.key = none) ∧ DigestsApart replay ∧
    ¬∀ day, (allowedPairs quota principals start replay "acme" day).encard ≤ quota.limit := by
  refine ⟨replay_fresh, replay_apart, ?_⟩
  intro hbound
  have hfirst : ("caller", "export-b") ∈
      allowedPairs quota principals start replay "acme" (utcDay (opening + days 1)) :=
    ⟨[call opening "export-a"], call (opening + days 1) "export-b", [call (opening + days 1) "export-a"], false,
      rfl, rfl, rfl, rfl, by decide +kernel⟩
  have hsecond : ("caller", "export-a") ∈
      allowedPairs quota principals start replay "acme" (utcDay (opening + days 1)) :=
    ⟨[call opening "export-a", call (opening + days 1) "export-b"], call (opening + days 1) "export-a", [], true,
      rfl, rfl, rfl, rfl, by decide +kernel⟩
  have hboth : {("caller", "export-b"), ("caller", "export-a")} ⊆
      allowedPairs quota principals start replay "acme" (utcDay (opening + days 1)) :=
    Set.insert_subset hfirst (Set.singleton_subset_iff.mpr hsecond)
  have hle := (Set.encard_le_encard hboth).trans (hbound _)
  rw [Set.encard_pair (by decide)] at hle
  exact absurd hle (by decide)

end ReproForge.Sample.Exports
