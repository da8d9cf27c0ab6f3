import ReproForge.JobUpdates
import ReproForge.Records
import ReproForge.Runs

/-!
# Migrations

Any number of processes bring one database up to a manifest of migrations, each
migration in a transaction that holds an advisory lock and looks the migration
up in a ledger. A process may crash between any two of its statements, and the
server notices that later or never.
-/
namespace ReproForge

open Runs

/-! ## Manifests -/

structure PostgresMigration where
  checksum : String
  id : String
  sql : String
  deriving DecidableEq, Repr

/-- `/\r\n?/g` becomes a line feed. -/
def lineFeeds : List Char → List Char
  | [] => []
  | '\r' :: '\n' :: rest => '\n' :: lineFeeds rest
  | '\r' :: rest => '\n' :: lineFeeds rest
  | c :: rest => c :: lineFeeds rest

def normalizedSql (sql : String) : String := String.ofList (trim (lineFeeds sql.toList))

/-- `^[0-9]{4}_[a-z0-9_]+$` -/
def migrationId (id : String) : Bool :=
  match id.toList with
  | a :: b :: c :: d :: '_' :: rest =>
    [a, b, c, d].all Char.isDigit && !rest.isEmpty && rest.all (fun e => e.isLower || e.isDigit || e == '_')
  | _ => false

inductive MigrationFailure where
  | invalidManifest
  | checksumMismatch (migrationId : String)
  | databaseError
  deriving DecidableEq, Repr

/-- `none` for an invalid identifier or an empty text. -/
def definePostgresMigration [Sha256] (id sql : String) : Option PostgresMigration :=
  let normalized := normalizedSql sql
  if migrationId id && normalized != "" then some ⟨Sha256.hex normalized, id, normalized⟩ else none

/-- `[...ids].sort()` leaves the identifiers where they are, no two of them are the same, and every checksum is
that of the text. -/
def validateManifest [Sha256] (migrations : List PostgresMigration) : Bool :=
  let ids := migrations.map (·.id)
  decide ids.Nodup && ids == ids.mergeSort (fun a b => decide (a ≤ b)) &&
    migrations.all (fun m => (definePostgresMigration m.id m.sql).any (fun expected => m.checksum == expected.checksum))

/-! ## The database -/

structure LedgerRow where
  id : String
  checksum : String
  deriving DecidableEq, Repr

def PostgresMigration.row (m : PostgresMigration) : LedgerRow := ⟨m.id, m.checksum⟩

/-- Where a process stands in the loop; `todo` are the migrations after the current one. -/
inductive Phase (σ : Type) where
  | start
  | next (todo : List PostgresMigration)
  | lock (m : PostgresMigration) (todo : List PostgresMigration)
  | select (m : PostgresMigration) (todo : List PostgresMigration)
  | execute (m : PostgresMigration) (todo : List PostgresMigration)
  | insert (m : PostgresMigration) (todo : List PostgresMigration) (schema : σ)
  | commit (m : PostgresMigration) (todo : List PostgresMigration) (pending : Option σ)
  | rollback (failure : MigrationFailure)
  | done
  | failed (failure : MigrationFailure)
  | crashed

structure Runner (σ : Type) where
  phase : Phase σ
  applied : List String
  skipped : List String

/-- The committed schema and ledger, which process has the lock, and the texts that were executed so far, in
transactions that may have been rolled back. -/
structure Migrating (σ : Type) where
  ledger : Option (List LedgerRow)
  schema : σ
  holder : Option Nat
  executed : List PostgresMigration
  runner : Nat → Runner σ

variable {σ : Type}

def Migrating.rows (s : Migrating σ) : List LedgerRow := s.ledger.getD []

def Migrating.recorded (s : Migrating σ) (id : String) : Option LedgerRow := s.rows.find? (fun row => row.id == id)

def Migrating.update (s : Migrating σ) (r : Nat) (runner : Runner σ) : Migrating σ :=
  { s with runner := fun r' => if r' = r then runner else s.runner r' }

def Migrating.move (s : Migrating σ) (r : Nat) (phase : Phase σ) : Migrating σ :=
  s.update r { s.runner r with phase }

def Migrating.unlocked (s : Migrating σ) : Migrating σ := { s with holder := none }

inductive MigrationAction where
  /-- The process goes on to its next statement. -/
  | advance (r : Nat)
  /-- The next statement fails. -/
  | error (r : Nat)
  | crash (r : Nat)
  /-- The server ends the session of a crashed process. -/
  | release (r : Nat)

section applying

variable [Sha256] (migrations : List PostgresMigration) (execute : String → σ → Option σ)

/-- `applyPostgresMigrations`, one statement at a time. -/
def Migrating.advance (s : Migrating σ) (r : Nat) : Migrating σ :=
  match (s.runner r).phase with
  | .start =>
    if validateManifest migrations then { s with ledger := some s.rows }.move r (.next migrations)
    else s.move r (.failed .invalidManifest)
  | .next [] => s.move r .done
  | .next (m :: todo) => s.move r (.lock m todo)
  | .lock m todo => if s.holder.isNone then { s with holder := some r }.move r (.select m todo) else s
  | .select m todo =>
    match s.recorded m.id with
    | none => s.move r (.execute m todo)
    | some row =>
      if row.checksum ≠ m.checksum then s.move r (.rollback (.checksumMismatch m.id)) else s.move r (.commit m todo none)
  | .execute m todo =>
    match execute m.sql s.schema with
    | none => { s with executed := s.executed ++ [m] }.move r (.rollback .databaseError)
    | some schema => { s with executed := s.executed ++ [m] }.move r (.insert m todo schema)
  | .insert m todo schema =>
    -- the identifier is the primary key of the ledger
    if (s.recorded m.id).isSome then s.move r (.rollback .databaseError) else s.move r (.commit m todo (some schema))
  | .commit m todo none =>
    s.unlocked.update r ⟨.next todo, (s.runner r).applied, (s.runner r).skipped ++ [m.id]⟩
  | .commit m todo (some schema) =>
    { s.unlocked with schema, ledger := some (s.rows ++ [m.row]) }.update r
      ⟨.next todo, (s.runner r).applied ++ [m.id], (s.runner r).skipped⟩
  | .rollback failure => s.unlocked.move r (.failed failure)
  | .done | .failed _ | .crashed => s

/-- An error is thrown out of a transaction after it was rolled back. -/
def Migrating.error (s : Migrating σ) (r : Nat) : Migrating σ :=
  match (s.runner r).phase with
  | .start | .next _ => s.move r (.failed .databaseError)
  | .lock _ _ => s.move r (.failed .databaseError)
  | .select _ _ | .execute _ _ | .insert _ _ _ | .commit _ _ _ => s.move r (.rollback .databaseError)
  | .rollback _ | .done | .failed _ | .crashed => s

def Migrating.crash (s : Migrating σ) (r : Nat) : Migrating σ :=
  match (s.runner r).phase with
  | .done | .failed _ => s
  | _ => s.move r .crashed

def Migrating.release (s : Migrating σ) (r : Nat) : Migrating σ :=
  match (s.runner r).phase with
  | .crashed => if s.holder = some r then s.unlocked else s
  | _ => s

def migrationStep (a : MigrationAction) (s : Migrating σ) : Migrating σ :=
  match a with
  | .advance r => s.advance migrations execute r
  | .error r => s.error r
  | .crash r => s.crash r
  | .release r => s.release r

end applying

/-! ## What every state has -/

def Phase.locked : Phase σ → Bool
  | .select _ _ | .execute _ _ | .insert _ _ _ | .commit _ _ _ | .rollback _ => true
  | .start | .next _ | .lock _ _ | .done | .failed _ | .crashed => false

section invariant

variable (migrations : List PostgresMigration) (execute : String → σ → Option σ)

/-- The schema after the migrations, executed once each and in order. -/
def schemaAfter (initial : σ) (applied : List PostgresMigration) : Option σ :=
  applied.foldlM (fun schema m => execute m.sql schema) initial

/-- A process that comes to a migration has seen the ones before it recorded, and one that executes it has the
text of the first that is not. -/
def Phase.Fits (applied : List PostgresMigration) (schema : σ) : Phase σ → Prop
  | .start | .rollback _ | .failed _ | .crashed => True
  | .next todo => ∃ before, migrations = before ++ todo ∧ before.length ≤ applied.length
  | .lock m todo | .select m todo => ∃ before, migrations = before ++ m :: todo ∧ before.length ≤ applied.length
  | .execute m todo => migrations = applied ++ m :: todo
  | .insert m todo schema' | .commit m todo (some schema') =>
    migrations = applied ++ m :: todo ∧ execute m.sql schema = some schema'
  | .commit m todo none => ∃ before, migrations = before ++ m :: todo ∧ before.length < applied.length
  | .done => applied.length = migrations.length

/-- The migrations `applied` are recorded and make up the schema, and only the process with the lock is past it. -/
structure Migrated (initial : σ) (applied : List PostgresMigration) (s : Migrating σ) : Prop where
  prefixed : applied <+: migrations
  rows : s.rows = applied.map PostgresMigration.row
  schema : schemaAfter execute initial applied = some s.schema
  fits : ∀ r, (s.runner r).phase.Fits migrations execute applied s.schema
  locked : ∀ r, (s.runner r).phase.locked = true → s.holder = some r

variable {migrations execute} {initial : σ} {applied : List PostgresMigration} {s : Migrating σ} {r : Nat}

theorem validateManifest_nodup [Sha256] (h : validateManifest migrations = true) :
    (migrations.map (·.id)).Nodup := by
  simp only [validateManifest, Bool.and_eq_true, decide_eq_true_iff] at h
  exact h.1.1

/-- One process moves on; what it changes of the rest leaves the other processes where they are. -/
theorem Migrated.update (h : Migrated migrations execute initial applied s) (s' : Migrating σ) (runner : Runner σ)
    (hrows : s'.rows = s.rows) (hschema : s'.schema = s.schema) (hrunner : s'.runner = s.runner)
    (hholder : ∀ r' ≠ r, (s.runner r').phase.locked = true → s'.holder = some r')
    (hfits : runner.phase.Fits migrations execute applied s.schema)
    (hlocked : runner.phase.locked = true → s'.holder = some r) :
    Migrated migrations execute initial applied (s'.update r runner) := by
  constructor
  · exact h.prefixed
  · exact hrows.trans h.rows
  · exact h.schema.trans (congrArg some hschema.symm)
  · intro r'
    rw [Migrating.update]
    dsimp only
    rw [hschema]
    split
    · exact hfits
    · rw [hrunner]
      exact h.fits r'
  · intro r'
    rw [Migrating.update]
    dsimp only
    split
    · rename_i hr
      rw [hr]
      exact hlocked
    · rename_i hr
      rw [hrunner]
      exact hholder r' hr

theorem Migrated.move (h : Migrated migrations execute initial applied s) {phase : Phase σ}
    (hfits : phase.Fits migrations execute applied s.schema) (hlocked : phase.locked = true → s.holder = some r) :
    Migrated migrations execute initial applied (s.move r phase) :=
  h.update s { s.runner r with phase } rfl rfl rfl (fun r' _ => h.locked r') hfits hlocked

/-- The process with the lock is the only one past it. -/
theorem Migrated.alone (h : Migrated migrations execute initial applied s) (hr : s.holder = some r) {r' : Nat}
    (hne : r' ≠ r) : (s.runner r').phase.locked = false := by
  cases hlocked : (s.runner r').phase.locked with
  | false => rfl
  | true =>
    have hholder := h.locked r' hlocked
    rw [hr, Option.some.injEq] at hholder
    exact absurd hholder.symm hne

theorem Migrated.recorded_eq (h : Migrated migrations execute initial applied s)
    (hids : (migrations.map (·.id)).Nodup) {before todo : List PostgresMigration} {m : PostgresMigration}
    (hsplit : migrations = before ++ m :: todo) :
    s.recorded m.id = if before.length < applied.length then some m.row else none := by
  have hfind : s.recorded m.id = (applied.find? (fun a => a.id == m.id)).map PostgresMigration.row := by
    rw [Migrating.recorded, h.rows, List.find?_map]
    rfl
  have hmem : ∀ a ∈ applied, a.id = m.id → a = m := by
    intro a ha hid
    have ha' : a ∈ migrations := h.prefixed.subset ha
    have hm : m ∈ migrations := by
      rw [hsplit]
      exact List.mem_append_right before List.mem_cons_self
    exact List.inj_on_of_nodup_map hids ha' hm hid
  rw [hfind]
  by_cases hlt : before.length < applied.length
  · rw [if_pos hlt]
    have hm : m ∈ applied := by
      obtain ⟨rest, hrest⟩ := h.prefixed
      have hget : applied[before.length]? = some m := by
        have hleft : (applied ++ rest)[before.length]? = applied[before.length]? := List.getElem?_append_left hlt
        rw [← hleft, hrest, hsplit, List.getElem?_append_right (Nat.le_refl _), Nat.sub_self]
        rfl
      exact List.mem_of_getElem? hget
    cases hfound : applied.find? (fun a => a.id == m.id) with
    | none => exact absurd (beq_self_eq_true m.id) (List.find?_eq_none.mp hfound m hm)
    | some a =>
      have hid := List.find?_some (p := fun a : PostgresMigration => a.id == m.id) hfound
      rw [hmem a (List.mem_of_find?_eq_some hfound) (beq_iff_eq.mp hid)]
      rfl
  · rw [if_neg hlt, Option.map_eq_none_iff, List.find?_eq_none]
    intro a ha hid
    have heq := hmem a ha (beq_iff_eq.mp hid)
    subst heq
    -- the migration stands once in the manifest, and its place is past the recorded ones
    obtain ⟨i, hi, hget⟩ := List.mem_iff_getElem.mp ha
    have hplace : migrations[i]? = some a := by
      obtain ⟨rest, hrest⟩ := h.prefixed
      rw [← hrest, List.getElem?_append_left hi, List.getElem?_eq_getElem hi, hget]
    have hplace' : migrations[before.length]? = some a := by
      rw [hsplit, List.getElem?_append_right (Nat.le_refl _), Nat.sub_self]
      rfl
    have hnodup : migrations.Nodup := hids.of_map
    obtain ⟨hi', heq⟩ := List.getElem?_eq_some_iff.mp hplace
    obtain ⟨hb, heq'⟩ := List.getElem?_eq_some_iff.mp hplace'
    have hsame := hnodup.getElem_inj_iff.mp (heq.trans heq'.symm)
    omega

/-- The text of the next migration was executed, and is committed with its row. -/
theorem Migrated.commit (h : Migrated migrations execute initial applied s) (hr : s.holder = some r)
    {m : PostgresMigration} {todo : List PostgresMigration} {schema : σ} (hsplit : migrations = applied ++ m :: todo)
    (hexecute : execute m.sql s.schema = some schema) {runner : Runner σ} (hrunner : runner.phase = .next todo) :
    Migrated migrations execute initial (applied ++ [m])
      ({ s.unlocked with schema, ledger := some (s.rows ++ [m.row]) }.update r runner) := by
  have hsplit' : migrations = (applied ++ [m]) ++ todo := by rw [hsplit, List.append_assoc, List.singleton_append]
  have hmine : ∀ r', r' = r →
      (({ s.unlocked with schema, ledger := some (s.rows ++ [m.row]) }.update r runner).runner r').phase = .next todo :=
    fun _ hsame => (congrArg Runner.phase (if_pos hsame)).trans hrunner
  have hother : ∀ r', r' ≠ r →
      (({ s.unlocked with schema, ledger := some (s.rows ++ [m.row]) }.update r runner).runner r').phase =
        (s.runner r').phase := fun _ hne => congrArg Runner.phase (if_neg hne)
  constructor
  · exact ⟨todo, hsplit'.symm⟩
  · rw [List.map_append, ← h.rows]
    rfl
  · rw [schemaAfter, List.foldlM_append]
    have hschema := h.schema
    rw [schemaAfter] at hschema
    rw [hschema]
    exact (Option.bind_some ..).trans ((congrArg (fun o => o.bind some) hexecute).trans (Option.bind_some ..))
  · intro r'
    by_cases hsame : r' = r
    · rw [hmine r' hsame]
      exact ⟨applied ++ [m], hsplit', Nat.le_refl _⟩
    · have hfree := h.alone hr hsame
      have hfits := h.fits r'
      rw [hother r' hsame]
      revert hfree hfits
      cases (s.runner r').phase with
      | start | rollback _ | failed _ | crashed => exact fun _ _ => trivial
      | next rest | lock m' rest =>
        rintro - ⟨before, hbefore, hle⟩
        refine ⟨before, hbefore, ?_⟩
        rw [List.length_append]
        omega
      | select m' rest | execute m' rest | insert m' rest schema' | commit m' rest pending =>
        intro hfree
        cases hfree
      | done =>
        intro _ hdone
        have hlength := congrArg List.length hsplit
        rw [List.length_append, List.length_cons] at hlength
        have hdone' : applied.length = migrations.length := hdone
        omega
  · intro r'
    by_cases hsame : r' = r
    · rw [hmine r' hsame]
      intro hlocked
      cases hlocked
    · rw [hother r' hsame, h.alone hr hsame]
      intro hlocked
      cases hlocked

/-- The other processes are not past the lock, so that it may be given up. -/
theorem Migrated.unlock (h : Migrated migrations execute initial applied s) (hr : s.holder = some r)
    {runner : Runner σ} (hfits : runner.phase.Fits migrations execute applied s.schema)
    (hfree : runner.phase.locked = false) :
    Migrated migrations execute initial applied (s.unlocked.update r runner) := by
  refine h.update s.unlocked runner rfl rfl rfl ?_ hfits ?_
  · intro r' hne hlocked
    rw [h.alone hr hne] at hlocked
    cases hlocked
  · rw [hfree]
    intro hlocked
    cases hlocked

variable [Sha256]

/-- What one statement does to the migrations that are recorded. -/
theorem Migrated.advance (h : Migrated migrations execute initial applied s)
    (hids : (migrations.map (·.id)).Nodup) (r : Nat) :
    ∃ applied', Migrated migrations execute initial applied' (s.advance migrations execute r) := by
  have hfits := h.fits r
  have hlocked := h.locked r
  rw [Migrating.advance]
  cases hphase : (s.runner r).phase with
  | start =>
    dsimp only
    split
    · refine ⟨applied, ?_⟩
      exact h.update { s with ledger := some s.rows } { s.runner r with phase := .next migrations } rfl rfl rfl
        (fun r' _ => h.locked r') ⟨[], rfl, Nat.zero_le _⟩ (fun hl => by cases hl)
    · exact ⟨applied, h.move trivial (fun hl => by cases hl)⟩
  | next todo =>
    rw [hphase] at hfits
    obtain ⟨before, hbefore, hle⟩ := hfits
    cases todo with
    | nil =>
      refine ⟨applied, h.move ?_ (fun hl => by cases hl)⟩
      rw [List.append_nil] at hbefore
      have := h.prefixed.length_le
      rw [hbefore] at this ⊢
      exact Nat.le_antisymm this hle
    | cons m todo => exact ⟨applied, h.move ⟨before, hbefore, hle⟩ (fun hl => by cases hl)⟩
  | lock m todo =>
    rw [hphase] at hfits
    dsimp only
    split
    · rename_i hnone
      rw [Option.isNone_iff_eq_none] at hnone
      refine ⟨applied, h.update { s with holder := some r } { s.runner r with phase := .select m todo } rfl rfl rfl ?_
        hfits (fun _ => rfl)⟩
      intro r' _ hl
      have := h.locked r' hl
      rw [hnone] at this
      cases this
    · exact ⟨applied, h⟩
  | select m todo =>
    rw [hphase] at hfits hlocked
    obtain ⟨before, hbefore, hle⟩ := hfits
    have hrecorded := h.recorded_eq hids hbefore
    dsimp only
    rw [hrecorded]
    split
    · rename_i hnone
      refine ⟨applied, h.move ?_ (fun _ => hlocked rfl)⟩
      split at hnone
      · cases hnone
      · rename_i hge
        obtain ⟨rest, hrest⟩ := h.prefixed
        rw [hbefore] at hrest
        have hsame : applied = before := (List.append_inj hrest (by omega)).1
        rw [hsame]
        exact hbefore
    · rename_i row hrow
      split at hrow
      · rename_i hlt
        have hrow' : m.row = row := Option.some.inj hrow
        rw [← hrow', if_neg (by simp [PostgresMigration.row])]
        exact ⟨applied, h.move ⟨before, hbefore, hlt⟩ (fun _ => hlocked rfl)⟩
      · cases hrow
  | execute m todo =>
    rw [hphase] at hfits hlocked
    dsimp only
    split
    · exact ⟨applied, h.update { s with executed := s.executed ++ [m] }
        { s.runner r with phase := .rollback .databaseError } rfl rfl rfl (fun r' _ => h.locked r') trivial
        (fun _ => hlocked rfl)⟩
    · rename_i schema hschema
      exact ⟨applied, h.update { s with executed := s.executed ++ [m] }
        { s.runner r with phase := .insert m todo schema } rfl rfl rfl (fun r' _ => h.locked r') ⟨hfits, hschema⟩
        (fun _ => hlocked rfl)⟩
  | insert m todo schema =>
    rw [hphase] at hfits hlocked
    dsimp only
    split
    · exact ⟨applied, h.move trivial (fun _ => hlocked rfl)⟩
    · exact ⟨applied, h.move hfits (fun _ => hlocked rfl)⟩
  | commit m todo pending =>
    rw [hphase] at hfits hlocked
    cases pending with
    | none =>
      obtain ⟨before, hbefore, hlt⟩ := hfits
      refine ⟨applied, h.unlock (hlocked rfl) ⟨before ++ [m], ?_, ?_⟩ rfl⟩
      · rw [hbefore, List.append_assoc, List.singleton_append]
      · rw [List.length_append]
        exact hlt
    | some schema => exact ⟨applied ++ [m], h.commit (hlocked rfl) hfits.1 hfits.2 rfl⟩
  | rollback failure =>
    rw [hphase] at hlocked
    exact ⟨applied, h.unlock (hlocked rfl) trivial rfl⟩
  | done | failed _ | crashed => exact ⟨applied, h⟩

omit [Sha256] in
theorem Migrated.error (h : Migrated migrations execute initial applied s) (r : Nat) :
    Migrated migrations execute initial applied (s.error r) := by
  have hlocked := h.locked r
  rw [Migrating.error]
  cases hphase : (s.runner r).phase with
  | start | next _ | lock _ _ => exact h.move trivial (fun hl => by cases hl)
  | select _ _ | execute _ _ | insert _ _ _ | commit _ _ _ =>
    rw [hphase] at hlocked
    exact h.move trivial (fun _ => hlocked rfl)
  | rollback _ | done | failed _ | crashed => exact h

omit [Sha256] in
theorem Migrated.crash (h : Migrated migrations execute initial applied s) (r : Nat) :
    Migrated migrations execute initial applied (s.crash r) := by
  rw [Migrating.crash]
  cases (s.runner r).phase with
  | done | failed _ => exact h
  | _ => exact h.move trivial (fun hl => by cases hl)

omit [Sha256] in
/-- A crashed process leaves nothing behind but the lock. -/
theorem Migrated.release (h : Migrated migrations execute initial applied s) (r : Nat) :
    Migrated migrations execute initial applied (s.release r) := by
  rw [Migrating.release]
  cases hphase : (s.runner r).phase with
  | crashed =>
    dsimp only
    split
    · rename_i hr
      have hsame : s.unlocked.update r (s.runner r) = s.unlocked := by
        rw [Migrating.update, Migrating.unlocked]
        congr 1
        funext r'
        split
        · rename_i heq
          rw [heq]
        · rfl
      rw [← hsame]
      refine h.unlock hr ?_ ?_
      · rw [hphase]
        trivial
      · rw [hphase]
        rfl
    · exact h
  | _ => exact h

theorem Migrated.step (h : Migrated migrations execute initial applied s) (hids : (migrations.map (·.id)).Nodup)
    (a : MigrationAction) : ∃ applied', Migrated migrations execute initial applied' (migrationStep migrations execute a s) := by
  cases a with
  | advance r => exact h.advance hids r
  | error r => exact ⟨applied, h.error r⟩
  | crash r => exact ⟨applied, h.crash r⟩
  | release r => exact ⟨applied, h.release r⟩

end invariant

/-! ## A manifest that is refused -/

/-- Nothing is done before the manifest is validated. -/
def Phase.idle : Phase σ → Bool
  | .start | .failed _ | .crashed => true
  | _ => false

structure Unmigrated (initial : Migrating σ) (s : Migrating σ) : Prop where
  ledger : s.ledger = initial.ledger
  schema : s.schema = initial.schema
  executed : s.executed = initial.executed
  idle : ∀ r, (s.runner r).phase.idle = true

theorem Unmigrated.move {initial s : Migrating σ} (h : Unmigrated initial s) (r : Nat) {phase : Phase σ}
    (hidle : phase.idle = true) : Unmigrated initial (s.move r phase) := by
  refine ⟨h.ledger, h.schema, h.executed, ?_⟩
  intro r'
  rw [Migrating.move, Migrating.update]
  dsimp only
  split
  · exact hidle
  · exact h.idle r'

theorem Unmigrated.step [Sha256] {migrations : List PostgresMigration} {execute : String → σ → Option σ}
    (hrefused : validateManifest migrations = false) {initial s : Migrating σ} (h : Unmigrated initial s)
    (a : MigrationAction) : Unmigrated initial (migrationStep migrations execute a s) := by
  cases a with
  | advance r =>
    have hidle := h.idle r
    rw [migrationStep, Migrating.advance]
    cases hphase : (s.runner r).phase with
    | start =>
      dsimp only
      rw [hrefused]
      exact h.move r rfl
    | failed _ | crashed => exact h
    | _ =>
      rw [hphase] at hidle
      cases hidle
  | error r =>
    have hidle := h.idle r
    rw [migrationStep, Migrating.error]
    cases hphase : (s.runner r).phase with
    | start => exact h.move r rfl
    | failed _ | crashed => exact h
    | _ =>
      rw [hphase] at hidle
      cases hidle
  | crash r =>
    rw [migrationStep, Migrating.crash]
    cases (s.runner r).phase with
    | done | failed _ => exact h
    | _ => exact h.move r rfl
  | release r =>
    rw [migrationStep, Migrating.release]
    cases (s.runner r).phase with
    | crashed =>
      dsimp only
      split
      · exact ⟨h.ledger, h.schema, h.executed, h.idle⟩
      · exact h
    | _ => exact h

/-! ## Runs -/

/-- A database with a ledger, or without one yet, and all the processes that ever will migrate it. -/
def Migrating.from (ledger : Option (List LedgerRow)) (schema : σ) : Migrating σ :=
  ⟨ledger, schema, none, [], fun _ => ⟨.start, [], []⟩⟩

section runs

variable [Sha256] (migrations : List PostgresMigration) (execute : String → σ → Option σ)

/-- In every state that processes reach from a fresh database, a prefix of the manifest is recorded under its
checksums, and the schema is what this prefix makes of the fresh one. -/
theorem migrated_run (initial : σ) (actions : List MigrationAction) :
    ∃ applied, applied <+: migrations ∧
      (run (migrationStep migrations execute) actions (.from none initial)).rows = applied.map PostgresMigration.row ∧
      schemaAfter execute initial applied =
        some (run (migrationStep migrations execute) actions (.from none initial)).schema := by
  cases hvalid : validateManifest migrations with
  | true =>
    have hids := validateManifest_nodup hvalid
    have hfresh : Migrated migrations execute initial [] (.from none initial) :=
      ⟨List.nil_prefix, rfl, rfl, fun _ => trivial, fun _ hl => by cases hl⟩
    let recorded : Migrating σ → Prop := fun s => ∃ applied, Migrated migrations execute initial applied s
    have hend : recorded (run (migrationStep migrations execute) actions (.from none initial)) := by
      refine run_keeps ?_ ⟨[], hfresh⟩
      rintro s a ⟨applied, h⟩
      exact h.step hids a
    obtain ⟨applied, happlied⟩ := hend
    exact ⟨applied, happlied.prefixed, happlied.rows, happlied.schema⟩
  | false =>
    have hfresh : Unmigrated (.from none initial) (.from none initial : Migrating σ) := ⟨rfl, rfl, rfl, fun _ => rfl⟩
    have hend : Unmigrated (.from none initial) (run (migrationStep migrations execute) actions (.from none initial)) :=
      run_keeps (fun s a h => h.step hvalid a) hfresh
    refine ⟨[], List.nil_prefix, ?_, ?_⟩
    · rw [Migrating.rows, hend.ledger]
      rfl
    · rw [hend.schema]
      rfl

end runs

/-! ## A migration that has changed -/

section changed

variable {migrations : List PostgresMigration} {execute : String → σ → Option σ}

/-- A process that has not come past the migration after `before`. -/
def Phase.Stops (migrations before : List PostgresMigration) : Phase σ → Prop
  | .start | .rollback _ | .failed _ | .crashed => True
  | .next todo => ∃ seen, migrations = seen ++ todo ∧ seen.length ≤ before.length
  | .lock m todo | .select m todo => ∃ seen, migrations = seen ++ m :: todo ∧ seen.length ≤ before.length
  | .execute m todo | .insert m todo _ | .commit m todo _ =>
    ∃ seen, migrations = seen ++ m :: todo ∧ seen.length < before.length
  | .done => False

/-- The migration after `before` is recorded under `row`, and nothing from it on was executed. -/
structure Stopped (migrations before : List PostgresMigration) (id : String) (row : LedgerRow) (s : Migrating σ) : Prop where
  recorded : s.recorded id = some row
  executed : ∀ m ∈ s.executed, m ∈ before
  stops : ∀ r, (s.runner r).phase.Stops migrations before

variable {before : List PostgresMigration} {id : String} {row : LedgerRow} {s : Migrating σ}

theorem Stopped.update (h : Stopped migrations before id row s) (s' : Migrating σ) (r : Nat) (runner : Runner σ)
    (hrecorded : s'.recorded id = s.recorded id) (hexecuted : ∀ m ∈ s'.executed, m ∈ before)
    (hrunner : s'.runner = s.runner) (hstops : runner.phase.Stops migrations before) :
    Stopped migrations before id row (s'.update r runner) := by
  refine ⟨hrecorded.trans h.recorded, hexecuted, ?_⟩
  intro r'
  rw [Migrating.update]
  dsimp only
  split
  · exact hstops
  · rw [hrunner]
    exact h.stops r'

theorem Stopped.move (h : Stopped migrations before id row s) {r : Nat} {phase : Phase σ}
    (hstops : phase.Stops migrations before) : Stopped migrations before id row (s.move r phase) :=
  h.update s r { s.runner r with phase } rfl h.executed rfl hstops

variable {m : PostgresMigration} {later : List PostgresMigration}

theorem mem_before {seen todo : List PostgresMigration} {x : PostgresMigration}
    (hsplit : migrations = before ++ m :: later) (hseen : migrations = seen ++ x :: todo)
    (hlt : seen.length < before.length) : x ∈ before := by
  have hget : before[seen.length]? = some x := by
    have hleft : (before ++ m :: later)[seen.length]? = before[seen.length]? := List.getElem?_append_left hlt
    rw [← hleft, ← hsplit, hseen, List.getElem?_append_right (Nat.le_refl _), Nat.sub_self]
    rfl
  exact List.mem_of_getElem? hget

variable [Sha256]

theorem Stopped.advance (h : Stopped migrations before m.id row s) (hsplit : migrations = before ++ m :: later)
    (hchanged : row.checksum ≠ m.checksum) (r : Nat) :
    Stopped migrations before m.id row (s.advance migrations execute r) := by
  have hstops := h.stops r
  rw [Migrating.advance]
  cases hphase : (s.runner r).phase with
  | start =>
    dsimp only
    split
    · exact h.update { s with ledger := some s.rows } r { s.runner r with phase := .next migrations } rfl h.executed rfl
        ⟨[], rfl, Nat.zero_le _⟩
    · exact h.move trivial
  | next todo =>
    rw [hphase] at hstops
    obtain ⟨seen, hseen, hle⟩ := hstops
    cases todo with
    | nil =>
      have hlength := congrArg List.length (hsplit.symm.trans hseen)
      rw [List.append_nil, List.length_append, List.length_cons] at hlength
      omega
    | cons x todo => exact h.move ⟨seen, hseen, hle⟩
  | lock x todo =>
    rw [hphase] at hstops
    dsimp only
    split
    · exact h.update { s with holder := some r } r { s.runner r with phase := .select x todo } rfl h.executed rfl hstops
    · exact h
  | select x todo =>
    rw [hphase] at hstops
    obtain ⟨seen, hseen, hle⟩ := hstops
    dsimp only
    by_cases hlt : seen.length < before.length
    · split
      · exact h.move ⟨seen, hseen, hlt⟩
      · split
        · exact h.move trivial
        · exact h.move ⟨seen, hseen, hlt⟩
    · -- this is the migration that has changed
      have hx : x :: todo = m :: later := (List.append_inj (hseen.symm.trans hsplit) (by omega)).2
      obtain ⟨rfl, rfl⟩ := List.cons.inj hx
      rw [h.recorded]
      dsimp only
      rw [if_pos hchanged]
      exact h.move trivial
  | execute x todo =>
    rw [hphase] at hstops
    obtain ⟨seen, hseen, hlt⟩ := hstops
    have hexecuted : ∀ y ∈ s.executed ++ [x], y ∈ before := by
      intro y hy
      obtain hold | hnew := List.mem_append.mp hy
      · exact h.executed y hold
      · rw [List.mem_singleton.mp hnew]
        exact mem_before hsplit hseen hlt
    dsimp only
    split
    · exact h.update { s with executed := s.executed ++ [x] } r { s.runner r with phase := .rollback .databaseError } rfl
        hexecuted rfl trivial
    · rename_i schema _
      exact h.update { s with executed := s.executed ++ [x] } r { s.runner r with phase := .insert x todo schema } rfl
        hexecuted rfl ⟨seen, hseen, hlt⟩
  | insert x todo schema =>
    rw [hphase] at hstops
    dsimp only
    split
    · exact h.move trivial
    · exact h.move hstops
  | commit x todo pending =>
    rw [hphase] at hstops
    obtain ⟨seen, hseen, hlt⟩ := hstops
    have hnext : (Phase.next todo : Phase σ).Stops migrations before := by
      refine ⟨seen ++ [x], ?_, ?_⟩
      · rw [hseen, List.append_assoc, List.singleton_append]
      · rw [List.length_append]
        exact hlt
    cases pending with
    | none => exact h.update s.unlocked r _ rfl h.executed rfl hnext
    | some schema =>
      refine h.update { s.unlocked with schema, ledger := some (s.rows ++ [x.row]) } r _ ?_ h.executed rfl hnext
      -- rows are only added at the end of the ledger
      have hrow := h.recorded
      rw [Migrating.recorded] at hrow
      rw [Migrating.recorded, Migrating.recorded, hrow, Migrating.rows, Option.getD_some, List.find?_append, hrow]
      rfl
  | rollback failure => exact h.update s.unlocked r _ rfl h.executed rfl trivial
  | done | failed _ | crashed => exact h

theorem Stopped.step (h : Stopped migrations before m.id row s) (hsplit : migrations = before ++ m :: later)
    (hchanged : row.checksum ≠ m.checksum) (a : MigrationAction) :
    Stopped migrations before m.id row (migrationStep migrations execute a s) := by
  cases a with
  | advance r => exact h.advance hsplit hchanged r
  | error r =>
    rw [migrationStep, Migrating.error]
    cases (s.runner r).phase with
    | rollback _ | done | failed _ | crashed => exact h
    | _ => exact h.move trivial
  | crash r =>
    rw [migrationStep, Migrating.crash]
    cases (s.runner r).phase with
    | done | failed _ => exact h
    | _ => exact h.move trivial
  | release r =>
    rw [migrationStep, Migrating.release]
    cases (s.runner r).phase with
    | crashed =>
      dsimp only
      split
      · exact ⟨h.recorded, h.executed, h.stops⟩
      · exact h
    | _ => exact h

end changed

/-! ## The end of a process -/

section progress

variable {migrations : List PostgresMigration} {execute : String → σ → Option σ} {s : Migrating σ} {r : Nat}

def Phase.ended : Phase σ → Bool
  | .done | .failed _ | .crashed => true
  | _ => false

/-- How many statements a process has before it at most, if it does not wait. -/
def Phase.left (migrations : List PostgresMigration) : Phase σ → Nat
  | .start => 6 * migrations.length + 3
  | .next todo => 6 * todo.length + 2
  | .lock _ todo => 6 * todo.length + 7
  | .select _ todo => 6 * todo.length + 6
  | .execute _ todo => 6 * todo.length + 5
  | .insert _ todo _ => 6 * todo.length + 4
  | .commit _ todo _ => 6 * todo.length + 3
  | .rollback _ => 1
  | .done | .failed _ | .crashed => 0

/-- The process has the lock if it is past it, and nobody has it otherwise. -/
def Migrating.Free (s : Migrating σ) (r : Nat) : Prop :=
  s.holder = bif (s.runner r).phase.locked then some r else none

theorem runner_move (s : Migrating σ) (r : Nat) (phase : Phase σ) : ((s.move r phase).runner r).phase = phase := by
  rw [Migrating.move, Migrating.update]
  dsimp only
  rw [if_pos rfl]

theorem runner_update (s : Migrating σ) (r : Nat) (runner : Runner σ) :
    ((s.update r runner).runner r).phase = runner.phase := by
  rw [Migrating.update]
  dsimp only
  rw [if_pos rfl]

variable [Sha256]

/-- A statement that need not wait brings a process nearer to its end. -/
theorem advance_left (hfree : s.Free r) (hgoing : (s.runner r).phase.ended = false) :
    (s.advance migrations execute r).Free r ∧
      ((s.advance migrations execute r).runner r).phase.left migrations < (s.runner r).phase.left migrations ∧
      ((s.advance migrations execute r).runner r).phase ≠ .crashed := by
  rw [Migrating.Free] at hfree ⊢
  rw [Migrating.advance]
  cases hphase : (s.runner r).phase with
  | start =>
    rw [hphase] at hfree
    dsimp only
    split
    · rw [runner_move]
      exact ⟨hfree, Nat.lt_succ_self _, fun h => by cases h⟩
    · rw [runner_move]
      exact ⟨hfree, Nat.succ_pos _, fun h => by cases h⟩
  | next todo =>
    rw [hphase] at hfree
    cases todo with
    | nil =>
      dsimp only
      rw [runner_move]
      exact ⟨hfree, Nat.succ_pos _, fun h => by cases h⟩
    | cons m todo =>
      dsimp only
      rw [runner_move]
      refine ⟨hfree, ?_, fun h => by cases h⟩
      rw [Phase.left, Phase.left, List.length_cons]
      omega
  | lock m todo =>
    rw [hphase] at hfree
    have hnone : s.holder = none := hfree
    dsimp only
    rw [if_pos (by rw [hnone]; rfl), runner_move]
    exact ⟨rfl, Nat.lt_succ_self _, fun h => by cases h⟩
  | select m todo =>
    rw [hphase] at hfree
    dsimp only
    split
    · rw [runner_move]
      exact ⟨hfree, Nat.lt_succ_self _, fun h => by cases h⟩
    · split
      · rw [runner_move]
        refine ⟨hfree, ?_, fun h => by cases h⟩
        rw [Phase.left, Phase.left]
        omega
      · rw [runner_move]
        refine ⟨hfree, ?_, fun h => by cases h⟩
        rw [Phase.left, Phase.left]
        omega
  | execute m todo =>
    rw [hphase] at hfree
    dsimp only
    split
    · rw [runner_move]
      refine ⟨hfree, ?_, fun h => by cases h⟩
      rw [Phase.left, Phase.left]
      omega
    · rw [runner_move]
      exact ⟨hfree, Nat.lt_succ_self _, fun h => by cases h⟩
  | insert m todo schema =>
    rw [hphase] at hfree
    dsimp only
    split
    · rw [runner_move]
      refine ⟨hfree, ?_, fun h => by cases h⟩
      rw [Phase.left, Phase.left]
      omega
    · rw [runner_move]
      exact ⟨hfree, Nat.lt_succ_self _, fun h => by cases h⟩
  | commit m todo pending =>
    cases pending with
    | none =>
      dsimp only
      rw [runner_update]
      exact ⟨rfl, Nat.lt_succ_self _, fun h => by cases h⟩
    | some schema =>
      dsimp only
      rw [runner_update]
      exact ⟨rfl, Nat.lt_succ_self _, fun h => by cases h⟩
  | rollback failure =>
    dsimp only
    rw [runner_move]
    exact ⟨rfl, Nat.succ_pos _, fun h => by cases h⟩
  | done | failed _ | crashed =>
    rw [hphase] at hgoing
    cases hgoing

/-- A process that need not wait ends, after as many statements as it has before it. -/
theorem advance_ends (hfree : s.Free r) (hgoing : (s.runner r).phase ≠ .crashed) :
    ∃ n, ((run (migrationStep migrations execute) (List.replicate n (.advance r)) s).runner r).phase.ended = true ∧
      ((run (migrationStep migrations execute) (List.replicate n (.advance r)) s).runner r).phase ≠ .crashed := by
  generalize hn : (s.runner r).phase.left migrations = left
  induction left using Nat.strong_induction_on generalizing s with
  | _ left ih =>
    cases hended : (s.runner r).phase.ended with
    | true => exact ⟨0, hended, hgoing⟩
    | false =>
      have hleft : (s.advance migrations execute r).Free r ∧
          ((s.advance migrations execute r).runner r).phase.left migrations < (s.runner r).phase.left migrations ∧
          ((s.advance migrations execute r).runner r).phase ≠ .crashed := advance_left hfree hended
      obtain ⟨hfree', hless, hgoing'⟩ := hleft
      obtain ⟨n, hn'⟩ := ih _ (hn ▸ hless) hfree' hgoing' rfl
      exact ⟨n + 1, hn'⟩

end progress

/-! ## Migrations apply once and in order -/

/-- The recorded migrations are a prefix of the manifest and make up the schema; and where a migration is recorded
under another checksum, no process executes it or a later one, none returns a result, the process that looks it up
throws, and each that need not wait for another ends with a failure. -/
theorem migrations_once_in_order [Sha256] (migrations : List PostgresMigration) (execute : String → σ → Option σ)
    (initial : σ) (actions : List MigrationAction) :
    (∃ applied, applied <+: migrations ∧
      (run (migrationStep migrations execute) actions (.from none initial)).rows = applied.map PostgresMigration.row ∧
      schemaAfter execute initial applied =
        some (run (migrationStep migrations execute) actions (.from none initial)).schema) ∧
    ∀ ledger before m later row, migrations = before ++ m :: later →
      (Migrating.from (some ledger) initial).recorded m.id = some row → row.checksum ≠ m.checksum →
      ∀ s, s = run (migrationStep migrations execute) actions (.from (some ledger) initial) →
        (∀ x ∈ s.executed, x ∈ before) ∧
        ∀ r, (s.runner r).phase ≠ .done ∧
          ((s.runner r).phase = .select m later →
            ((s.advance migrations execute r).runner r).phase = .rollback (.checksumMismatch m.id)) ∧
          (s.Free r → (s.runner r).phase ≠ .crashed → ∃ n failure,
            ((run (migrationStep migrations execute) (List.replicate n (.advance r)) s).runner r).phase =
              .failed failure) := by
  refine ⟨migrated_run migrations execute initial actions, ?_⟩
  intro ledger before m later row hsplit hrow hchanged s hs
  have hstart : Stopped migrations before m.id row (Migrating.from (some ledger) initial) :=
    ⟨hrow, fun x hx => (List.not_mem_nil hx).elim, fun _ => trivial⟩
  have hkept : ∀ {actions s}, Stopped migrations before m.id row s →
      Stopped migrations before m.id row (run (migrationStep migrations execute) actions s) :=
    fun h => run_keeps (fun s a h => h.step hsplit hchanged a) h
  have hstopped : Stopped migrations before m.id row s := by
    rw [hs]
    exact hkept hstart
  have hgoing : ∀ {t : Migrating σ}, Stopped migrations before m.id row t → ∀ r, (t.runner r).phase ≠ .done := by
    intro t ht r hdone
    have hstops := ht.stops r
    rw [hdone] at hstops
    exact hstops
  refine ⟨hstopped.executed, ?_⟩
  intro r
  refine ⟨hgoing hstopped r, ?_, ?_⟩
  · intro hselect
    rw [Migrating.advance, hselect]
    dsimp only
    rw [hstopped.recorded]
    dsimp only
    rw [if_pos hchanged, runner_move]
  · intro hfree hcrashed
    have hends : ∃ n,
        ((run (migrationStep migrations execute) (List.replicate n (.advance r)) s).runner r).phase.ended = true ∧
        ((run (migrationStep migrations execute) (List.replicate n (.advance r)) s).runner r).phase ≠ .crashed :=
      advance_ends hfree hcrashed
    obtain ⟨n, hended, hcrashed'⟩ := hends
    refine ⟨n, ?_⟩
    have hlater : Stopped migrations before m.id row
        (run (migrationStep migrations execute) (List.replicate n (.advance r)) s) := hkept hstopped
    have hend := hgoing hlater r
    revert hended hcrashed' hend
    cases ((run (migrationStep migrations execute) (List.replicate n (.advance r)) s).runner r).phase with
    | failed failure => exact fun _ _ _ => ⟨failure, rfl⟩
    | crashed => exact fun _ h _ => absurd rfl h
    | done => exact fun _ _ h => absurd rfl h
    | _ =>
      intro h
      cases h

end ReproForge

/-! ## A ledger with another checksum -/

namespace ReproForge.Sample.Migration

open Runs

scoped instance : Sha256 := ⟨fun text => text⟩

def first : PostgresMigration := ⟨"CREATE TABLE first ();", "0001_first", "CREATE TABLE first ();"⟩

def second : PostgresMigration := ⟨"CREATE TABLE second ();", "0002_second", "CREATE TABLE second ();"⟩

/-- The schema as the texts that made it. -/
def appendText (sql : String) (schema : List String) : Option (List String) := some (schema ++ [sql])

/-- One process has failed at the second migration, and another one looks the first one up. -/
def sampleActions : List MigrationAction :=
  List.replicate 9 (.advance 0) ++ List.replicate 3 (.advance 1)

def sampleState : Migrating (List String) :=
  run (migrationStep [first, second] appendText) sampleActions
    (.from (some [first.row, ⟨"0002_second", "CREATE TABLE other ();"⟩]) ["CREATE TABLE first ();"])

theorem migrations_once_in_order_sample :
    (∀ x ∈ sampleState.executed, x ∈ [first]) ∧
      ∀ r, (sampleState.runner r).phase ≠ .done ∧
        ((sampleState.runner r).phase = .select second [] →
          ((sampleState.advance [first, second] appendText r).runner r).phase =
            .rollback (.checksumMismatch second.id)) ∧
        (sampleState.Free r → (sampleState.runner r).phase ≠ .crashed → ∃ n failure,
          ((run (migrationStep [first, second] appendText) (List.replicate n (.advance r)) sampleState).runner r).phase =
            .failed failure) :=
  (migrations_once_in_order [first, second] appendText ["CREATE TABLE first ();"] sampleActions).2 _ [first] second []
    ⟨"0002_second", "CREATE TABLE other ();"⟩ rfl (by decide +kernel) (by decide) sampleState rfl

end ReproForge.Sample.Migration
