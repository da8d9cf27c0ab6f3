import ReproForge.AvailableArtifacts

/-!
# The artifact store as a map

Calls that run one after the other, with providers that work. Between two calls
the rows and the objects show a map from artifact ids to contents: a `put` adds
an entry or finds the one of its content, a `read` answers the entry, a `delete`
removes it. The row of a deleted artifact keeps its identity, and no later `put`
of the same content gets past it.
-/
namespace ReproForge

open KeyedTable Transactions Transactions.Tx Runs

variable {ρ σ : Type} [ContentHash]

/-! ## Calls one after the other -/

/-- The store between two calls. -/
structure Shelf (ρ σ : Type) where
  db : Db ρ σ
  blobs : Objects.Store String

/-- A request with what the outside decides about each step of its call. -/
structure ServedCall where
  request : StoreRequest
  env : Nat → Outside

/-- The first steps of a call. -/
def serve (env : Nat → Outside) : Nat → StoreCall → Shelf ρ σ → StoreCall × Shelf ρ σ
  | 0, c, s => (c, s)
  | n + 1, c, s =>
    let r := c.step (env 0) s.db s.blobs
    serve (fun i => env (i + 1)) n r.1 ⟨r.2.1, r.2.2⟩

/-- No call takes more than eight steps. -/
def ServedCall.run (call : ServedCall) (s : Shelf ρ σ) : StoreCall × Shelf ρ σ :=
  serve call.env 8 call.request.start s

def ServedCall.answer (call : ServedCall) (s : Shelf ρ σ) : StoreCall := (call.run s).1

def ServedCall.step (call : ServedCall) (s : Shelf ρ σ) : Shelf ρ σ := (call.run s).2

/-- The store after a history of completed calls. -/
def served (history : List ServedCall) (s : Shelf ρ σ) : Shelf ρ σ := run ServedCall.step history s

/-- How many steps a call takes at most from here. -/
def PutState.remaining : PutState → Nat
  | .reserving _ _ => 8
  | .finding _ _ => 7
  | .reclaiming _ _ _ => 6
  | .uploading _ _ _ => 5
  | .fetching _ _ => 4
  | .finalizing _ _ _ => 3
  | .discarding _ _ _ _ => 2
  | .failing _ _ _ | .verifying _ _ => 1
  | .done _ => 0

def ReadState.remaining : ReadState → Nat
  | .finding _ _ => 2
  | .fetching _ _ => 1
  | .done _ => 0

def DeleteState.remaining : DeleteState → Nat
  | .finding _ _ => 6
  | .claiming _ _ _ => 5
  | .removing _ _ _ => 4
  | .checking _ _ => 3
  | .completing _ _ => 2
  | .restoring _ _ _ => 1
  | .done _ => 0

def StoreCall.remaining : StoreCall → Nat
  | .idle => 0
  | .put s => s.remaining
  | .read s => s.remaining
  | .delete s => s.remaining

omit [ContentHash] in
theorem PutState.acquired_remaining (bytes : List UInt8) (key : Key) (a : ArtifactRow) :
    (PutState.acquired bytes key a).remaining ≤ 5 := by
  unfold acquired
  split <;> simp [remaining]

omit [ContentHash] in
theorem PutState.conflict_remaining (bytes : List UInt8) (d : ArtifactDescriptor) (key : Key) (a : ArtifactRow) :
    (PutState.conflict bytes d key a).remaining ≤ 6 := by
  unfold conflict
  split
  · split <;> simp [remaining]
  · split <;> simp [remaining]
  · simp [remaining]

omit [ContentHash] in
theorem PutState.uploaded_remaining (stored : ArtifactDescriptor) (version : Nat) (m : BlobMetadata) :
    (PutState.uploaded stored version m).remaining ≤ 3 := by
  unfold uploaded
  split <;> simp [remaining]

omit [ContentHash] in
theorem PutState.finalized_remaining (stored : ArtifactDescriptor) (version : Nat) (m : BlobMetadata)
    (reply : Except DurableError (Option ArtifactRow)) :
    (PutState.finalized stored version m reply).remaining ≤ 2 := by
  unfold finalized
  split
  · split <;> simp [remaining]
  · simp [remaining]
  · simp [remaining]

variable (env : Outside) (db : Db ρ σ) (blobs : Objects.Store String)

theorem PutState.step_remaining (s : PutState) : (s.step env db blobs).1.remaining ≤ s.remaining - 1 := by
  cases s with
  | reserving bytes d =>
    simp only [step]
    split
    · exact Nat.le_trans (acquired_remaining ..) (by simp [remaining])
    · simp [remaining]
    · simp [remaining]
  | finding bytes d =>
    simp only [step]
    split
    · exact conflict_remaining ..
    · simp [remaining]
    · simp [remaining]
  | verifying d etag =>
    simp only [step]
    split <;> simp [remaining]
  | reclaiming bytes d version =>
    simp only [step]
    split
    · exact acquired_remaining ..
    · simp [remaining]
    · simp [remaining]
  | uploading bytes stored version =>
    simp only [step]
    split
    · exact Nat.le_trans (uploaded_remaining ..) (by simp [remaining])
    · simp [remaining]
  | fetching stored version =>
    simp only [step]
    split
    · split
      · exact uploaded_remaining ..
      · simp [remaining]
    · simp [remaining]
    · simp [remaining]
  | finalizing stored version m =>
    simp only [step]
    split
    · simp [remaining]
    · exact finalized_remaining ..
  | discarding stored version etag code => simp [step, remaining]
  | failing stored version code =>
    simp only [step]
    split
    · simp [remaining]
    · split <;> simp [remaining]
  | done result => simp [step, remaining]

theorem ReadState.step_remaining (s : ReadState) : (s.step env db blobs).1.remaining ≤ s.remaining - 1 := by
  cases s with
  | finding scope artifactId =>
    simp only [step]
    split
    · simp [remaining]
    · split <;> simp [remaining]
    · simp [remaining]
  | fetching d etag =>
    simp only [step]
    split <;> simp [remaining]
  | done result => simp [step, remaining]

omit [ContentHash] in
theorem DeleteState.found_remaining (key : Key) (a : ArtifactRow) : (DeleteState.found key a).remaining ≤ 5 := by
  unfold found
  split
  · simp [remaining]
  · split
    · simp [remaining]
    · split <;> simp [remaining]

omit [ContentHash] in
theorem DeleteState.step_remaining (s : DeleteState) : (s.step env db blobs).1.remaining ≤ s.remaining - 1 := by
  cases s with
  | finding scope artifactId =>
    simp only [step]
    split
    · simp [remaining]
    · exact found_remaining ..
    · simp [remaining]
  | claiming d version etag =>
    simp only [step]
    split <;> simp [remaining]
  | removing d version etag =>
    simp only [step]
    split <;> simp [remaining]
  | checking d version =>
    simp only [step]
    split <;> simp [remaining]
  | completing d version =>
    simp only [step]
    split
    · simp [remaining]
    · split <;> simp [remaining]
  | restoring d version code =>
    simp only [step]
    split
    · simp [remaining]
    · split <;> simp [remaining]
  | done result => simp [step, remaining]

theorem StoreCall.step_remaining (c : StoreCall) : (c.step env db blobs).1.remaining ≤ c.remaining - 1 := by
  cases c with
  | idle => exact Nat.le_refl _
  | put s => exact s.step_remaining env db blobs
  | read s => exact s.step_remaining env db blobs
  | delete s => exact s.step_remaining env db blobs

omit env db blobs in
theorem serve_remaining (env : Nat → Outside) {n : Nat} {c : StoreCall} (h : c.remaining ≤ n) (s : Shelf ρ σ) :
    (serve env n c s).1.remaining = 0 := by
  induction n generalizing env c s with
  | zero => exact Nat.le_zero.mp h
  | succ n ih =>
    have hstep := c.step_remaining (env 0) s.db s.blobs
    exact ih (fun i => env (i + 1)) (by omega) _

/-- Whatever the outside does, a call is completed. -/
theorem ServedCall.answer_completed (call : ServedCall) (s : Shelf ρ σ) : (call.answer s).remaining = 0 := by
  apply serve_remaining
  cases call.request with
  | put bytes d =>
    simp only [StoreRequest.start, PutState.start]
    split <;> simp [StoreCall.remaining, PutState.remaining]
  | read scope artifactId =>
    simp only [StoreRequest.start, ReadState.start]
    split <;> simp [StoreCall.remaining, ReadState.remaining]
  | delete scope artifactId =>
    simp only [StoreRequest.start, DeleteState.start]
    split <;> simp [StoreCall.remaining, DeleteState.remaining]

/-! ## What the store promises, and when -/

/-- The providers answer, and the clock shows a time that the database takes. -/
structure Outside.Working (env : Outside) : Prop where
  attempt : env.attempt = .runs
  fate : env.fate = .runs
  etag : 1 ≤ env.etag.length ∧ env.etag.length ≤ 512
  now : datetime env.now = true

/-- The caller started the reproduction of the case. -/
structure CaseLinked (scope : TenantScope) (db : Db ρ σ) (caseId : String) : Prop where
  case : (db.cases.get ⟨scope.tenantId, caseId⟩).isSome = true
  caller : (db.idempotencyKeys.find? (fun key i => key.tenantId == scope.tenantId && i.caseId == caseId &&
    key.callerId == scope.callerId)).isSome = true

/-- The calls of one caller, on the cases that it is linked to. -/
structure ServedCall.By (scope : TenantScope) (db : Db ρ σ) (call : ServedCall) : Prop where
  working : ∀ i, (call.env i).Working
  put : ∀ bytes d, call.request = .put bytes d → validatePut bytes d = true →
    d.tenantId = scope.tenantId ∧ CaseLinked scope db d.caseId
  read : ∀ scope' artifactId, call.request = .read scope' artifactId → scope' = scope
  delete : ∀ scope' artifactId, call.request = .delete scope' artifactId → scope' = scope

/-- The store as a map: a valid `put` succeeds, the bytes are read under the id that it returned
until that id is deleted, and nothing is read after a deletion until a `put` returns the id again. -/
structure ServesMap (scope : TenantScope) (history : List ServedCall) (s : Shelf ρ σ) : Prop where
  put : ∀ before bytes d env after, history = before ++ ⟨.put bytes d, env⟩ :: after →
    validatePut bytes d = true →
    ∃ stored, (ServedCall.mk (.put bytes d) env).answer (served before s) = .put (.done (.ok stored)) ∧
      ∀ between env' rest, after = between ++ ⟨.read scope stored.artifactId, env'⟩ :: rest →
        (∀ call ∈ between, call.request ≠ .delete scope stored.artifactId) →
        (ServedCall.mk (.read scope stored.artifactId) env').answer
            (served (before ++ ⟨.put bytes d, env⟩ :: between) s) =
          .read (.done (.ok (some (bytes, stored))))
  delete : ∀ before artifactId env between env' rest,
    history = before ++ ⟨.delete scope artifactId, env⟩ ::
      (between ++ ⟨.read scope artifactId, env'⟩ :: rest) →
    Guarded ServedCall.step
      (fun s call => ∀ stored, call.answer s = .put (.done (.ok stored)) → stored.artifactId ≠ artifactId)
      between (served (before ++ [⟨.delete scope artifactId, env⟩]) s) →
    (ServedCall.mk (.read scope artifactId) env').answer
        (served (before ++ ⟨.delete scope artifactId, env⟩ :: between) s) = .read (.done (.ok none))

/-- A content that the store can take: it was not deleted before, its id names no other content,
no other bytes have its hash, and the clock is not behind the time of its descriptor. -/
structure ShelfStorable (s : Shelf ρ σ) (bytes : List UInt8) (d : ArtifactDescriptor) (now : Instant) : Prop where
  kept : ∀ key a, s.db.artifacts.get key = some a → d.identifies key a = true → a.status ≠ .deleted
  name : ∀ a, s.db.artifacts.get d.key = some a → d.identifies d.key a = true
  hash : ∀ o, s.blobs.get d.objectKey = some o → o.bytes = bytes
  clock : s.db.artifacts.find? d.identifies = none → d.createdAt ≤ now

/-- The clock is not behind the last write of the row. -/
def Removable (s : Shelf ρ σ) (key : Key) (claimedAt completedAt : Instant) : Prop :=
  ∀ a, s.db.artifacts.get key = some a → a.status = .available →
    a.updatedAt ≤ claimedAt ∧ claimedAt ≤ completedAt

def Clear (s : Shelf ρ σ) (call : ServedCall) : Prop :=
  match call.request with
  | .put bytes d => validatePut bytes d = true → ShelfStorable s bytes d (call.env 2).now
  | .read _ _ => True
  | .delete scope artifactId =>
    Removable s ⟨scope.tenantId, artifactId⟩ (call.env 1).now (call.env 3).now

/-- What is read under an id. -/
def Shelf.shown (scope : TenantScope) (s : Shelf ρ σ) (artifactId : String) :
    Option (List UInt8 × ArtifactDescriptor) := do
  let a ← (s.db.artifacts.get ⟨scope.tenantId, artifactId⟩).filter (fun a => a.status == .available)
  let d ← rowDescriptor ⟨scope.tenantId, artifactId⟩ a
  let o ← s.blobs.get a.objectKey
  pure (o.bytes, d)

/-- A row between two calls. -/
structure AtRest (scope : TenantScope) (s : Shelf ρ σ) (key : Key) (a : ArtifactRow) : Prop where
  tenant : key.tenantId = scope.tenantId
  linked : CaseLinked scope s.db a.caseId
  descriptor : (a.descriptor key).valid = true
  checks : a.checks key = true
  state : a.status = .available ∧ a.version = 2 ∧ a.Present s.blobs ∨ a.status = .deleted

/-- The store between two calls of the caller. -/
structure Shelved (scope : TenantScope) (db : Db ρ σ) (s : Shelf ρ σ) : Prop where
  others : s.db = { db with artifacts := s.db.artifacts }
  rows : ∀ key a, s.db.artifacts.get key = some a → AtRest scope s key a
  paths : ∀ key key' a a', s.db.artifacts.get key = some a → s.db.artifacts.get key' = some a' →
    a.objectKey = a'.objectKey → key = key'
  objects : ∀ path o, s.blobs.get path = some o →
    ∃ key a, s.db.artifacts.get key = some a ∧ a.status = .available ∧ a.objectKey = path

/-! ## Statements and updates that succeed -/

section statements

omit [ContentHash]

variable {env : Outside} {db db' : Db ρ σ} {d : ArtifactDescriptor}

theorem Outside.Working.transaction {α : Type} (h : env.Working) {operation : Statement ρ σ α} {a : α}
    (hrun : operation db = (.ok a, db')) : env.attempt.transaction operation db = (.ok a, db') := by
  rw [h.attempt]
  exact atomically_ok.mpr hrun

theorem Outside.Working.serializable {α : Type} (h : env.Working) {operation : Statement ρ σ α} {a : α}
    (hrun : operation db = (.ok a, db')) :
    runSerializableTransaction 3 env.attempts operation db = (.ok a, db') := by
  have hfirst : (env.attempts.headD .runs).transaction operation db = (.ok a, db') := h.transaction hrun
  rw [runSerializableTransaction, hfirst]

theorem Outside.Working.call {ε α τ : Type} (h : env.Working) (failure : ε) (operation : τ → Except ε α × τ)
    (s : τ) : env.fate.call failure operation s = operation s := by
  rw [h.fate]
  rfl

/-- The schema of a descriptor implies the constraints of a new row. -/
theorem newArtifact_checks (h : d.valid = true) : (newArtifact d).checks d.key = true := by
  simp only [ArtifactDescriptor.valid, Bool.and_eq_true, beq_iff_eq] at h
  obtain ⟨⟨⟨⟨⟨⟨⟨⟨⟨⟨hid, -⟩, -⟩, -⟩, -⟩, -⟩, -⟩, hsha⟩, -⟩, hpath⟩, hretention⟩ := h
  have hlater : d.createdAt < d.retentionUntil := of_decide_eq_true hretention
  simp [ArtifactRow.checks, newArtifact, ArtifactDescriptor.key, ArtifactRow.lifecycleShape, hid, hsha, hpath, hlater]

theorem reserveArtifact_taken (hactive : tenantActive db d.tenantId = true) (hvalid : d.valid = true)
    (htaken : (db.artifacts.find? d.identifies).isSome = true) : reserveArtifact d db = (.ok none, db) := by
  have hinsert : insertArtifact d db = (.ok none, db) := by
    simp only [insertArtifact, newArtifact_checks hvalid, htaken, Bool.not_true, Bool.false_eq_true, if_false, if_true]
  simp only [reserveArtifact, bind_ok, read_ok, require_ok]
  exact ⟨db, db, ⟨rfl, rfl⟩, (), db, ⟨hactive, rfl⟩, hinsert⟩

theorem reserveArtifact_new (hactive : tenantActive db d.tenantId = true) (hvalid : d.valid = true)
    (hfree : db.artifacts.find? d.identifies = none) (hname : db.artifacts.get d.key = none)
    (hpath : ∀ key a, db.artifacts.get key = some a → a.objectKey ≠ d.objectKey)
    (hcase : (db.cases.get ⟨d.tenantId, d.caseId⟩).isSome = true) :
    reserveArtifact d db = (.ok (some (d.key, newArtifact d)),
      { db with artifacts := db.artifacts.insert d.key (newArtifact d) }) := by
  have hunused : db.artifacts.find? (fun _ a => a.objectKey == d.objectKey) = none := by
    cases hfound : db.artifacts.find? (fun _ a => a.objectKey == d.objectKey) with
    | none => rfl
    | some row =>
      obtain ⟨hget, hsame⟩ := Table.find?_some hfound
      exact absurd (beq_iff_eq.mp hsame) (hpath row.1 row.2 hget)
  have hinsert : insertArtifact d db = (.ok (some (d.key, newArtifact d)),
      { db with artifacts := db.artifacts.insert d.key (newArtifact d) }) := by
    simp only [insertArtifact, newArtifact_checks hvalid, hfree, hname, hunused, hcase, Bool.not_true,
      Bool.false_eq_true, if_false, Option.isSome_none, Option.isNone_none, Bool.and_self, if_true]
  simp only [reserveArtifact, bind_ok, read_ok, require_ok]
  exact ⟨db, db, ⟨rfl, rfl⟩, (), db, ⟨hactive, rfl⟩, hinsert⟩

theorem updateArtifact_run {key : Key} {condition : ArtifactRow → Bool} {assign : ArtifactRow → ArtifactRow}
    {a : ArtifactRow} (ha : db.artifacts.get key = some a) (hcondition : condition a = true)
    (hallowed : artifactUpdateAllowed key a (assign a) = true) :
    updateArtifact key condition assign db =
      (.ok (some (assign a)), { db with artifacts := db.artifacts.set key (assign a) }) := by
  simp only [updateArtifact, updateRow, ha, hcondition, hallowed, if_true]

theorem finalized_allowed {key : Key} {a : ArtifactRow} {etag : String} {now : Instant}
    (hchecks : a.checks key = true) (hstatus : a.status = .pending)
    (hetag : 1 ≤ etag.length ∧ etag.length ≤ 512) (hle : a.updatedAt ≤ now) (hnow : datetime now = true) :
    artifactUpdateAllowed key a (a.finalized etag now) = true := by
  simp only [ArtifactRow.checks, ArtifactRow.lifecycleShape, hstatus, Bool.and_eq_true, decide_eq_true_eq,
    Option.isNone_iff_eq_none] at hchecks
  obtain ⟨⟨⟨⟨⟨⟨⟨⟨⟨hid, hsha⟩, hpath⟩, hretention⟩, -⟩, -⟩, -⟩, -⟩, hcreated⟩, ⟨⟨-, -⟩, hfailure⟩, hdeleted⟩ :=
    hchecks
  have hcreated' : a.createdAt ≤ now := Int.le_trans hcreated hle
  have hversion : 1 ≤ a.version + 1 := by omega
  simp only [artifactUpdateAllowed, successorVersion, ArtifactRow.finalized, ArtifactRow.checks,
    ArtifactRow.lifecycleShape, hid, hsha, hpath, hretention, hfailure, hdeleted, hnow, hle, hcreated', hversion,
    hetag.1, hetag.2, beq_self_eq_true, Option.all_some, Option.all_none, Option.isSome_some, Option.isNone_none,
    decide_true, Bool.and_self]

theorem deletionClaimed_allowed {key : Key} {a : ArtifactRow} {now : Instant} (hchecks : a.checks key = true)
    (hstatus : a.status = .available) (hle : a.updatedAt ≤ now) (hnow : datetime now = true) :
    artifactUpdateAllowed key a (a.deletionClaimed now) = true := by
  simp only [ArtifactRow.checks, ArtifactRow.lifecycleShape, hstatus, Bool.and_eq_true, decide_eq_true_eq,
    Option.isNone_iff_eq_none] at hchecks
  obtain ⟨⟨⟨⟨⟨⟨⟨⟨⟨hid, hsha⟩, hpath⟩, hretention⟩, hdeletedAt⟩, hetag⟩, -⟩, -⟩, hcreated⟩,
    ⟨⟨hsome, hverified⟩, hfailure⟩, hdeleted⟩ := hchecks
  have hcreated' : a.createdAt ≤ now := Int.le_trans hcreated hle
  have hversion : 1 ≤ a.version + 1 := by omega
  simp only [artifactUpdateAllowed, successorVersion, ArtifactRow.deletionClaimed, ArtifactRow.checks,
    ArtifactRow.lifecycleShape, hid, hsha, hpath, hretention, hetag, hsome, hverified, hfailure, hdeleted,
    hnow, hle, hcreated', hversion, beq_self_eq_true, Option.all_none, Option.isNone_none, decide_true, Bool.and_self]

end statements

/-! ## The paths of contents -/

omit [ContentHash] in
theorem kind_no_slash (kind : ArtifactKind) : '/' ∉ kind.text.toList := by
  cases kind <;> decide

omit [ContentHash] in
/-- One path names one content of a tenant. -/
theorem objectKey_content {tenantId caseId caseId' sha256 sha256' : String} {kind kind' : ArtifactKind}
    (hcase : opaqueId caseId = true) (hcase' : opaqueId caseId' = true)
    (h : objectKey tenantId caseId kind sha256 = objectKey tenantId caseId' kind' sha256') :
    caseId = caseId' ∧ kind = kind' ∧ sha256 = sha256' := by
  have hlist := congrArg String.toList h
  have hslash : ("/" : String).toList = ['/'] := by decide
  simp only [objectKey, String.toList_append, List.append_assoc, List.append_cancel_left_eq, hslash,
    List.singleton_append] at hlist
  have hcases := split_at_slash (opaque_no_slash hcase) (opaque_no_slash hcase') hlist
  rw [hcases, List.append_cancel_left_eq] at hlist
  have hrest : kind.text.toList ++ '/' :: sha256.toList = kind'.text.toList ++ '/' :: sha256'.toList :=
    (List.cons.inj hlist).2
  have hkinds := split_at_slash (kind_no_slash kind) (kind_no_slash kind') hrest
  rw [hkinds, List.append_cancel_left_eq] at hrest
  refine ⟨String.toList_inj.mp hcases, ?_, String.toList_inj.mp (List.cons.inj hrest).2⟩
  cases kind <;> cases kind' <;> first | rfl | exact absurd hkinds (by decide)

/-! ## The calls, step by step -/

section calls

variable {scope : TenantScope} {db : Db ρ σ} {s s' : Shelf ρ σ} {env : Nat → Outside} {n : Nat}
  {c c' : StoreCall} {bytes : List UInt8} {d : ArtifactDescriptor} {key : Key} {a : ArtifactRow}

omit [ContentHash] in
theorem PutState.acquired_of (h : rowDescriptor key a = some d) :
    PutState.acquired bytes key a = .uploading bytes d a.version := by
  unfold acquired
  rw [h]

omit [ContentHash] in
theorem PutState.finalized_of {stored : ArtifactDescriptor} {version : Nat} {m : BlobMetadata}
    (h : rowDescriptor stored.key a = some d) :
    PutState.finalized stored version m (.ok (some a)) = .done (.ok d) := by
  unfold finalized
  dsimp only
  rw [h]

theorem serve_step (h : c.step (env 0) s.db s.blobs = (c', s'.db, s'.blobs)) :
    serve env (n + 1) c s = serve (fun i => env (i + 1)) n c' s' := by
  rw [serve, h]

theorem serve_done (hc : c.remaining = 0) : serve env n c s = (c, s) := by
  induction n generalizing env with
  | zero => rfl
  | succ n ih =>
    have hstep : c.step (env 0) s.db s.blobs = (c, s.db, s.blobs) := by
      cases c with
      | idle => rfl
      | put state => cases state <;> first | rfl | cases hc
      | read state => cases state <;> first | rfl | cases hc
      | delete state => cases state <;> first | rfl | cases hc
    exact (serve_step hstep).trans ih

/-- The store with a new artifact. -/
def Shelf.store (s : Shelf ρ σ) (bytes : List UInt8) (d : ArtifactDescriptor) (etag : String) (now : Instant) :
    Shelf ρ σ where
  db := { s.db with
    artifacts := (s.db.artifacts.insert d.key (newArtifact d)).set d.key ((newArtifact d).finalized etag now) }
  blobs := s.blobs.insert d.objectKey ⟨etag, bytes⟩

/-- The row of a deleted artifact. -/
def ArtifactRow.removed (claimedAt completedAt : Instant) (a : ArtifactRow) : ArtifactRow :=
  (a.deletionClaimed claimedAt).deletionCompleted completedAt

/-- The store without the object of a row. -/
def Shelf.remove (s : Shelf ρ σ) (key : Key) (a : ArtifactRow) (claimedAt completedAt : Instant) : Shelf ρ σ where
  db := { s.db with
    artifacts := (s.db.artifacts.set key (a.deletionClaimed claimedAt)).set key (a.removed claimedAt completedAt) }
  blobs := Table.delete s.blobs (fun path _ => path = a.objectKey)

theorem run_put_invalid (h : validatePut bytes d = false) :
    (ServedCall.mk (.put bytes d) env).run s = (.put (.done (.error (.store .integrityMismatch))), s) := by
  have hstart : PutState.start bytes d = .done (.error (.store .integrityMismatch)) := by
    rw [PutState.start, h]
    rfl
  rw [ServedCall.run, StoreRequest.start, hstart]
  exact serve_done rfl

/-- A content without a row is inserted, uploaded and made available. -/
theorem run_put_new (hworking : ∀ i, (env i).Working) (hvalid : validatePut bytes d = true)
    (hreserve : reserveArtifact d s.db = (.ok (some (d.key, newArtifact d)),
      { s.db with artifacts := s.db.artifacts.insert d.key (newArtifact d) }))
    (hname : s.db.artifacts.get d.key = none) (hobject : s.blobs.get d.objectKey = none)
    (hclock : d.createdAt ≤ (env 2).now) :
    (ServedCall.mk (.put bytes d) env).run s =
      (.put (.done (.ok d)), s.store bytes d (env 1).etag (env 2).now) := by
  obtain ⟨hd, hcount, -⟩ := validatePut_iff.mp hvalid
  have hstart : PutState.start bytes d = .reserving bytes d := by
    rw [PutState.start, if_pos hvalid]
  let reserved : Db ρ σ := { s.db with artifacts := s.db.artifacts.insert d.key (newArtifact d) }
  let metadata : BlobMetadata := Objects.Object.metadata d.objectKey ⟨(env 1).etag, bytes⟩
  have hacquired : PutState.acquired bytes d.key (newArtifact d) = .uploading bytes d 1 :=
    PutState.acquired_of (rowDescriptor_newArtifact hd)
  have hfirst : StoreCall.step (env 0) s.db s.blobs (.put (.reserving bytes d)) =
      (.put (.uploading bytes d 1), reserved, s.blobs) := by
    simp only [StoreCall.step, PutState.step, (hworking 0).serializable hreserve, hacquired, reserved]
  have hput : Objects.put ArtifactFailure.blob d.objectKey bytes (env 1).etag s.blobs =
      (.ok metadata, s.blobs.insert d.objectKey ⟨(env 1).etag, bytes⟩) := by
    simp only [Objects.put, hobject, metadata]
  have huploaded : PutState.uploaded d 1 metadata = .finalizing d 1 metadata := by
    simp [PutState.uploaded, metadataMatches, metadata, Objects.Object.metadata, hcount]
  have hsecond : StoreCall.step (env 1) reserved s.blobs (.put (.uploading bytes d 1)) =
      (.put (.finalizing d 1 metadata), reserved, s.blobs.insert d.objectKey ⟨(env 1).etag, bytes⟩) := by
    simp only [StoreCall.step, PutState.step, (hworking 1).call, hput, huploaded]
  have hrow : reserved.artifacts.get d.key = some (newArtifact d) := Table.get_insert_self hname
  have hfinalize : finalizeArtifact d.key 1 metadata.etag (env 2).now reserved =
      (.ok (some ((newArtifact d).finalized (env 1).etag (env 2).now)),
        (s.store bytes d (env 1).etag (env 2).now).db) :=
    updateArtifact_run hrow rfl
      (finalized_allowed (newArtifact_checks hd) rfl (hworking 1).etag hclock (hworking 2).now)
  have hdone : PutState.finalized d 1 metadata
      (.ok (some ((newArtifact d).finalized (env 1).etag (env 2).now))) = .done (.ok d) :=
    PutState.finalized_of ((rowDescriptor_congr rfl).trans (rowDescriptor_newArtifact hd))
  have hone : integer 1 = some 1 := by decide
  have hthird : StoreCall.step (env 2) reserved (s.blobs.insert d.objectKey ⟨(env 1).etag, bytes⟩)
      (.put (.finalizing d 1 metadata)) = (.put (.done (.ok d)), (s.store bytes d (env 1).etag (env 2).now).db,
        s.blobs.insert d.objectKey ⟨(env 1).etag, bytes⟩) := by
    simp only [StoreCall.step, PutState.step, hone, (hworking 2).transaction hfinalize, hdone]
  rw [ServedCall.run, StoreRequest.start, hstart]
  calc serve env 8 (.put (.reserving bytes d)) s
      = serve (fun i => env (i + 1)) 7 (.put (.uploading bytes d 1)) ⟨reserved, s.blobs⟩ := serve_step hfirst
    _ = serve (fun i => env (i + 2)) 6 (.put (.finalizing d 1 metadata))
          ⟨reserved, s.blobs.insert d.objectKey ⟨(env 1).etag, bytes⟩⟩ := serve_step hsecond
    _ = serve (fun i => env (i + 3)) 5 (.put (.done (.ok d))) (s.store bytes d (env 1).etag (env 2).now) :=
      serve_step hthird
    _ = (.put (.done (.ok d)), s.store bytes d (env 1).etag (env 2).now) := serve_done rfl

/-- A content with a row that cannot be taken over is looked up first. -/
theorem run_put_known (hworking : ∀ i, (env i).Working) (hvalid : validatePut bytes d = true)
    (hactive : tenantActive s.db d.tenantId = true)
    (hfound : s.db.artifacts.find? d.identifies = some (key, a)) :
    (ServedCall.mk (.put bytes d) env).run s =
      serve (fun i => env (i + 2)) 6 (.put (.conflict bytes d key a)) s := by
  have hstart : PutState.start bytes d = .reserving bytes d := by
    rw [PutState.start, if_pos hvalid]
  have hreserve : reserveArtifact d s.db = (.ok none, s.db) :=
    reserveArtifact_taken hactive (validatePut_iff.mp hvalid).1 (by rw [hfound]; rfl)
  have hfirst : StoreCall.step (env 0) s.db s.blobs (.put (.reserving bytes d)) =
      (.put (.finding bytes d), s.db, s.blobs) := by
    simp only [StoreCall.step, PutState.step, (hworking 0).serializable hreserve]
  have hfind : findByIdentity d s.db = (.ok (some (key, a)), s.db) := by
    simp only [findByIdentity, bind_ok, read_ok, pure_ok]
    exact ⟨s.db, s.db, ⟨rfl, rfl⟩, hfound.symm, rfl⟩
  have hsecond : StoreCall.step (env 1) s.db s.blobs (.put (.finding bytes d)) =
      (.put (.conflict bytes d key a), s.db, s.blobs) := by
    simp only [StoreCall.step, PutState.step, (hworking 1).transaction hfind]
  rw [ServedCall.run, StoreRequest.start, hstart]
  calc serve env 8 (.put (.reserving bytes d)) s
      = serve (fun i => env (i + 1)) 7 (.put (.finding bytes d)) s := serve_step hfirst
    _ = serve (fun i => env (i + 2)) 6 (.put (.conflict bytes d key a)) s := serve_step hsecond

/-- An available row answers for every later `put` of its content. -/
theorem run_put_available (hworking : ∀ i, (env i).Working) (hvalid : validatePut bytes d = true)
    (hactive : tenantActive s.db d.tenantId = true)
    (hfound : s.db.artifacts.find? d.identifies = some (key, a)) (hstatus : a.status = .available)
    (hdescriptor : (a.descriptor key).valid = true) (hpresent : a.Present s.blobs) :
    (ServedCall.mk (.put bytes d) env).run s = (.put (.done (.ok (a.descriptor key))), s) := by
  obtain ⟨o, ho, hetag, hsize, -⟩ := hpresent
  have hrow : rowDescriptor key a = some (a.descriptor key) := by
    rw [rowDescriptor, if_pos hdescriptor]
  have hconflict : PutState.conflict bytes d key a = .verifying (a.descriptor key) (some o.etag) := by
    unfold PutState.conflict
    rw [hstatus]
    dsimp only
    rw [hrow, hetag]
  have hhead : Objects.head (a.descriptor key).objectKey s.blobs =
      ((.ok (some (o.metadata a.objectKey)), s.blobs) : Except ArtifactFailure _ × Objects.Store String) := by
    simp only [Objects.head, ArtifactRow.descriptor, ho, Option.map_some]
  have hmatches : metadataMatches (a.descriptor key) (some o.etag) (o.metadata a.objectKey) = true := by
    simp [metadataMatches, Objects.Object.metadata, ArtifactRow.descriptor, hsize]
  have hverify : StoreCall.step (env 2) s.db s.blobs (.put (.verifying (a.descriptor key) (some o.etag))) =
      (.put (.done (.ok (a.descriptor key))), s.db, s.blobs) := by
    simp only [StoreCall.step, PutState.step, (hworking 2).call, hhead, hmatches, if_true]
  rw [run_put_known hworking hvalid hactive hfound, hconflict]
  calc serve (fun i => env (i + 2)) 6 (.put (.verifying (a.descriptor key) (some o.etag))) s
      = serve (fun i => env (i + 3)) 5 (.put (.done (.ok (a.descriptor key)))) s := serve_step hverify
    _ = (.put (.done (.ok (a.descriptor key))), s) := serve_done rfl

/-- A deleted row answers every later `put` of its content with an error that can be retried in vain. -/
theorem run_put_deleted (hworking : ∀ i, (env i).Working) (hvalid : validatePut bytes d = true)
    (hactive : tenantActive s.db d.tenantId = true)
    (hfound : s.db.artifacts.find? d.identifies = some (key, a)) (hstatus : a.status = .deleted) :
    (ServedCall.mk (.put bytes d) env).run s = (.put (.done (.error (.store .pending))), s) := by
  have hconflict : PutState.conflict bytes d key a = .done (.error (.store .pending)) := by
    unfold PutState.conflict
    rw [hstatus]
  rw [run_put_known hworking hvalid hactive hfound, hconflict]
  exact serve_done rfl

omit [ContentHash] in
theorem findAuthorized_hidden {artifactId : String}
    (h : ∀ a, db.artifacts.get ⟨scope.tenantId, artifactId⟩ = some a → a.status ≠ .available) :
    findAuthorized scope artifactId .available db = (.ok none, db) := by
  simp only [findAuthorized, bind_ok, read_ok, pure_ok]
  refine ⟨db, db, ⟨rfl, rfl⟩, ?_, rfl⟩
  cases ha : db.artifacts.get ⟨scope.tenantId, artifactId⟩ with
  | none => rfl
  | some a => simp [Option.filter, h a ha]

omit [ContentHash] in
theorem findAuthorized_linked {artifactId : String} (hlinked : CaseLinked scope db a.caseId)
    (ha : db.artifacts.get ⟨scope.tenantId, artifactId⟩ = some a) (hstatus : a.status = .available) :
    findAuthorized scope artifactId .available db = (.ok (some a), db) := by
  simp only [findAuthorized, bind_ok, read_ok, pure_ok]
  refine ⟨db, db, ⟨rfl, rfl⟩, ?_, rfl⟩
  simp [ha, Option.filter, hstatus, hlinked.caller]

theorem run_read_hidden {artifactId : String} (hscope : scope.valid = true) (hworking : ∀ i, (env i).Working)
    (h : ∀ a, s.db.artifacts.get ⟨scope.tenantId, artifactId⟩ = some a → a.status ≠ .available) :
    (ServedCall.mk (.read scope artifactId) env).run s = (.read (.done (.ok none)), s) := by
  have hstart : ReadState.start scope artifactId = .finding scope artifactId := by
    rw [ReadState.start, if_pos hscope]
  have hfirst : StoreCall.step (env 0) s.db s.blobs (.read (.finding scope artifactId)) =
      (.read (.done (.ok none)), s.db, s.blobs) := by
    simp only [StoreCall.step, ReadState.step, (hworking 0).transaction (findAuthorized_hidden h)]
  rw [ServedCall.run, StoreRequest.start, hstart]
  calc serve env 8 (.read (.finding scope artifactId)) s
      = serve (fun i => env (i + 1)) 7 (.read (.done (.ok none))) s := serve_step hfirst
    _ = (.read (.done (.ok none)), s) := serve_done rfl

theorem run_read_available {artifactId : String} (hscope : scope.valid = true) (hworking : ∀ i, (env i).Working)
    (hlinked : CaseLinked scope s.db a.caseId)
    (ha : s.db.artifacts.get ⟨scope.tenantId, artifactId⟩ = some a) (hstatus : a.status = .available)
    (hdescriptor : (a.descriptor ⟨scope.tenantId, artifactId⟩).valid = true) {o : Objects.Object}
    (ho : s.blobs.get a.objectKey = some o) (hetag : a.providerEtag = some o.etag)
    (hsize : o.bytes.length = a.byteCount) (hhash : ContentHash.sha256 o.bytes = a.sha256) :
    (ServedCall.mk (.read scope artifactId) env).run s =
      (.read (.done (.ok (some (o.bytes, a.descriptor ⟨scope.tenantId, artifactId⟩)))), s) := by
  generalize hkey : (⟨scope.tenantId, artifactId⟩ : Key) = key at ha hdescriptor ⊢
  have hstart : ReadState.start scope artifactId = .finding scope artifactId := by
    rw [ReadState.start, if_pos hscope]
  have hrow : rowDescriptor key a = some (a.descriptor key) := by
    rw [rowDescriptor, if_pos hdescriptor]
  have hfind : findAuthorized scope artifactId .available s.db = (.ok (some a), s.db) :=
    findAuthorized_linked hlinked (hkey ▸ ha) hstatus
  have hfirst : StoreCall.step (env 0) s.db s.blobs (.read (.finding scope artifactId)) =
      (.read (.fetching (a.descriptor key) (some o.etag)), s.db, s.blobs) := by
    simp only [StoreCall.step, ReadState.step, (hworking 0).transaction hfind, hkey, hrow, hetag]
  have hget : Objects.get ArtifactFailure.blob (a.descriptor key).objectKey (a.descriptor key).byteCount s.blobs =
      (.ok (some (o.bytes, o.metadata a.objectKey)), s.blobs) := by
    simp only [Objects.get, ArtifactRow.descriptor, ho, hsize, if_true]
  have hmatches : (metadataMatches (a.descriptor key) (some o.etag) (o.metadata a.objectKey) &&
      contentMatches (a.descriptor key) o.bytes) = true := by
    simp [metadataMatches, contentMatches, Objects.Object.metadata, ArtifactRow.descriptor, hsize, hhash]
  have hsecond : StoreCall.step (env 1) s.db s.blobs (.read (.fetching (a.descriptor key) (some o.etag))) =
      (.read (.done (.ok (some (o.bytes, a.descriptor key)))), s.db, s.blobs) := by
    simp only [StoreCall.step, ReadState.step, (hworking 1).call, hget, hmatches, if_true]
  rw [ServedCall.run, StoreRequest.start, hstart]
  calc serve env 8 (.read (.finding scope artifactId)) s
      = serve (fun i => env (i + 1)) 7 (.read (.fetching (a.descriptor key) (some o.etag))) s :=
        serve_step hfirst
    _ = serve (fun i => env (i + 2)) 6 (.read (.done (.ok (some (o.bytes, a.descriptor key))))) s :=
        serve_step hsecond
    _ = (.read (.done (.ok (some (o.bytes, a.descriptor key)))), s) := serve_done rfl

theorem run_delete_hidden {artifactId : String} (hscope : scope.valid = true) (hworking : ∀ i, (env i).Working)
    (h : ∀ a, s.db.artifacts.get ⟨scope.tenantId, artifactId⟩ = some a → a.status ≠ .available) :
    (ServedCall.mk (.delete scope artifactId) env).run s = (.delete (.done (.ok false)), s) := by
  have hstart : DeleteState.start scope artifactId = .finding scope artifactId := by
    rw [DeleteState.start, if_pos hscope]
  have hfirst : StoreCall.step (env 0) s.db s.blobs (.delete (.finding scope artifactId)) =
      (.delete (.done (.ok false)), s.db, s.blobs) := by
    simp only [StoreCall.step, DeleteState.step, (hworking 0).transaction (findAuthorized_hidden h)]
  rw [ServedCall.run, StoreRequest.start, hstart]
  calc serve env 8 (.delete (.finding scope artifactId)) s
      = serve (fun i => env (i + 1)) 7 (.delete (.done (.ok false))) s := serve_step hfirst
    _ = (.delete (.done (.ok false)), s) := serve_done rfl

theorem run_delete_available {artifactId : String} (hscope : scope.valid = true) (hworking : ∀ i, (env i).Working)
    (hlinked : CaseLinked scope s.db a.caseId) (hkey : key = ⟨scope.tenantId, artifactId⟩)
    (ha : s.db.artifacts.get key = some a) (hstatus : a.status = .available) (hversion : a.version = 2)
    (hdescriptor : (a.descriptor key).valid = true) (hchecks : a.checks key = true) {o : Objects.Object}
    (ho : s.blobs.get a.objectKey = some o) (hetag : a.providerEtag = some o.etag)
    (hclaim : a.updatedAt ≤ (env 1).now) (hcomplete : (env 1).now ≤ (env 3).now) :
    (ServedCall.mk (.delete scope artifactId) env).run s =
      (.delete (.done (.ok true)), s.remove key a (env 1).now (env 3).now) := by
  have hnonempty : o.etag.isEmpty = false := by
    simp only [ArtifactRow.checks, hetag, Option.all_some, Bool.and_eq_true, decide_eq_true_eq] at hchecks
    obtain ⟨⟨⟨⟨⟨-, hlength, -⟩, -⟩, -⟩, -⟩, -⟩ := hchecks
    cases hempty : o.etag.isEmpty with
    | false => rfl
    | true =>
      rw [String.isEmpty_iff.mp hempty] at hlength
      exact absurd hlength (by decide)
  have hstart : DeleteState.start scope artifactId = .finding scope artifactId := by
    rw [DeleteState.start, if_pos hscope]
  have hrow : rowDescriptor key a = some (a.descriptor key) := by
    rw [rowDescriptor, if_pos hdescriptor]
  have htwo : integer 2 = some 2 := by decide
  have hfoundState : DeleteState.found key a = .claiming (a.descriptor key) 2 o.etag := by
    simp only [DeleteState.found, hetag, hnonempty, hrow, hversion, htwo, Bool.false_eq_true, if_false]
  have hfind : findAuthorized scope artifactId .available s.db = (.ok (some a), s.db) :=
    findAuthorized_linked hlinked (hkey ▸ ha) hstatus
  have hfirst : StoreCall.step (env 0) s.db s.blobs (.delete (.finding scope artifactId)) =
      (.delete (.claiming (a.descriptor key) 2 o.etag), s.db, s.blobs) := by
    simp only [StoreCall.step, DeleteState.step, (hworking 0).transaction hfind, ← hkey, hfoundState]
  let claimed : Db ρ σ := { s.db with artifacts := s.db.artifacts.set key (a.deletionClaimed (env 1).now) }
  have hallowed := deletionClaimed_allowed hchecks hstatus hclaim (hworking 1).now
  have hclaimed : claimArtifactDeletion key 2 (env 1).now s.db =
      (.ok (some (a.deletionClaimed (env 1).now)), claimed) :=
    updateArtifact_run ha (by simp [hstatus, hversion]) hallowed
  have hthree : (a.deletionClaimed (env 1).now).version = 3 := by
    simp only [ArtifactRow.deletionClaimed, hversion]
  have hself : (a.descriptor key).key = key := rfl
  have hsecond : StoreCall.step (env 1) s.db s.blobs (.delete (.claiming (a.descriptor key) 2 o.etag)) =
      (.delete (.removing (a.descriptor key) 3 o.etag), claimed, s.blobs) := by
    simp only [StoreCall.step, DeleteState.step, hself, (hworking 1).transaction hclaimed, hthree]
  have hpath : (a.descriptor key).objectKey = a.objectKey := rfl
  have hdelete : Objects.delete (env 2).absent (a.descriptor key).objectKey (some o.etag) s.blobs =
      ((.ok true, Table.delete s.blobs (fun path _ => path = a.objectKey)) :
        Except ArtifactFailure Bool × Objects.Store String) := by
    rw [hpath]
    exact Objects.delete_matching _ ho (by simp [Objects.Object.matches])
  have hthird : StoreCall.step (env 2) claimed s.blobs (.delete (.removing (a.descriptor key) 3 o.etag)) =
      (.delete (.completing (a.descriptor key) 3), claimed,
        Table.delete s.blobs (fun path _ => path = a.objectKey)) := by
    simp only [StoreCall.step, DeleteState.step, (hworking 2).call, hdelete]
  have hupdate : ArtifactUpdate s.db claimed key a (a.deletionClaimed (env 1).now) := ⟨ha, hallowed, rfl⟩
  have hcompleted : completeArtifactDeletion key 3 (env 3).now claimed =
      (.ok (some (a.removed (env 1).now (env 3).now)), (s.remove key a (env 1).now (env 3).now).db) :=
    updateArtifact_run hupdate.get_self (by simp [ArtifactRow.deletionClaimed, hversion])
      (deletionCompleted_allowed hupdate.checks rfl hcomplete (hworking 3).now)
  have hinteger : integer 3 = some 3 := by decide
  have hfourth : StoreCall.step (env 3) claimed (Table.delete s.blobs (fun path _ => path = a.objectKey))
      (.delete (.completing (a.descriptor key) 3)) = (.delete (.done (.ok true)),
        (s.remove key a (env 1).now (env 3).now).db, Table.delete s.blobs (fun path _ => path = a.objectKey)) := by
    simp only [StoreCall.step, DeleteState.step, hinteger, hself, (hworking 3).transaction hcompleted]
  rw [ServedCall.run, StoreRequest.start, hstart]
  calc serve env 8 (.delete (.finding scope artifactId)) s
      = serve (fun i => env (i + 1)) 7 (.delete (.claiming (a.descriptor key) 2 o.etag)) s := serve_step hfirst
    _ = serve (fun i => env (i + 2)) 6 (.delete (.removing (a.descriptor key) 3 o.etag)) ⟨claimed, s.blobs⟩ :=
        serve_step hsecond
    _ = serve (fun i => env (i + 3)) 5 (.delete (.completing (a.descriptor key) 3))
          ⟨claimed, Table.delete s.blobs (fun path _ => path = a.objectKey)⟩ := serve_step hthird
    _ = serve (fun i => env (i + 4)) 4 (.delete (.done (.ok true))) (s.remove key a (env 1).now (env 3).now) :=
        serve_step hfourth
    _ = (.delete (.done (.ok true)), s.remove key a (env 1).now (env 3).now) := serve_done rfl

end calls

/-! ## The map that the store shows -/

section shelves

variable {scope : TenantScope} {db : Db ρ σ} {s s' : Shelf ρ σ} {bytes : List UInt8} {d : ArtifactDescriptor}
  {key : Key} {a : ArtifactRow} {etag : String} {now claimedAt completedAt : Instant}

omit [ContentHash] in
theorem get_store (hname : s.db.artifacts.get d.key = none) (k : Key) :
    (s.store bytes d etag now).db.artifacts.get k =
      if k = d.key then some ((newArtifact d).finalized etag now) else s.db.artifacts.get k := by
  by_cases hk : k = d.key
  · subst hk
    rw [if_pos rfl]
    exact Table.get_set_self (Table.get_insert_self hname)
  · rw [if_neg hk]
    exact (Table.get_set_other _ _ hk).trans (Table.get_insert_other hk)

omit [ContentHash] in
theorem get_remove (ha : s.db.artifacts.get key = some a) (k : Key) :
    (s.remove key a claimedAt completedAt).db.artifacts.get k =
      if k = key then some (a.removed claimedAt completedAt) else s.db.artifacts.get k := by
  by_cases hk : k = key
  · subst hk
    rw [if_pos rfl]
    exact Table.get_set_self (Table.get_set_self ha)
  · rw [if_neg hk]
    exact (Table.get_set_other _ _ hk).trans (Table.get_set_other _ _ hk)

omit [ContentHash] in
theorem shown_hidden {artifactId : String}
    (h : ∀ a, s.db.artifacts.get ⟨scope.tenantId, artifactId⟩ = some a → a.status ≠ .available) :
    s.shown scope artifactId = none := by
  unfold Shelf.shown
  cases ha : s.db.artifacts.get ⟨scope.tenantId, artifactId⟩ with
  | none => rfl
  | some a =>
    have hstatus : (a.status == .available) = false := by simpa using h a ha
    rw [Option.filter, hstatus]
    rfl

omit [ContentHash] in
theorem shown_available {artifactId : String} (ha : s.db.artifacts.get ⟨scope.tenantId, artifactId⟩ = some a)
    (hstatus : a.status = .available) (hrow : rowDescriptor ⟨scope.tenantId, artifactId⟩ a = some d)
    {o : Objects.Object} (ho : s.blobs.get a.objectKey = some o) : s.shown scope artifactId = some (o.bytes, d) := by
  unfold Shelf.shown
  rw [ha, Option.filter, hstatus]
  simp only [beq_self_eq_true, if_true, Option.bind_eq_bind, Option.bind_some, hrow, ho]
  rfl

omit [ContentHash] in
/-- What is shown under an id depends on its row and on the object at the row's path. -/
theorem shown_congr {artifactId : String}
    (hrow : s'.db.artifacts.get ⟨scope.tenantId, artifactId⟩ = s.db.artifacts.get ⟨scope.tenantId, artifactId⟩)
    (hobject : ∀ a, s.db.artifacts.get ⟨scope.tenantId, artifactId⟩ = some a →
      s'.blobs.get a.objectKey = s.blobs.get a.objectKey) :
    s'.shown scope artifactId = s.shown scope artifactId := by
  unfold Shelf.shown
  rw [hrow]
  cases ha : s.db.artifacts.get ⟨scope.tenantId, artifactId⟩ with
  | none => rfl
  | some a =>
    rw [Option.filter]
    cases a.status == .available with
    | false => rfl
    | true => simp only [if_true, Option.bind_eq_bind, Option.bind_some, hobject a ha]

theorem AtRest.present (h : AtRest scope s key a) (hstatus : a.status = .available) :
    a.version = 2 ∧ a.Present s.blobs := by
  obtain ⟨-, hversion, hpresent⟩ | hdeleted := h.state
  · exact ⟨hversion, hpresent⟩
  · rw [hstatus] at hdeleted
    cases hdeleted

omit [ContentHash] in
theorem checks_path (h : a.checks key = true) : a.objectKey = objectKey key.tenantId a.caseId a.kind a.sha256 := by
  simp only [ArtifactRow.checks, Bool.and_eq_true, beq_iff_eq] at h
  exact h.1.1.1.1.1.1.1.2

omit [ContentHash] in
theorem valid_path (h : d.valid = true) : d.objectKey = objectKey d.tenantId d.caseId d.kind d.sha256 := by
  simp only [ArtifactDescriptor.valid, Bool.and_eq_true, beq_iff_eq] at h
  exact h.1.2

omit [ContentHash] in
theorem valid_case (h : d.valid = true) : opaqueId d.caseId = true := by
  simp only [ArtifactDescriptor.valid, Bool.and_eq_true, beq_iff_eq] at h
  exact h.1.1.1.1.1.1.1.1.2

/-- The path of a row is that of a content exactly when the row is the one of the content. -/
theorem AtRest.path_iff (h : AtRest scope s key a) (hvalid : d.valid = true) (htenant : d.tenantId = scope.tenantId) :
    a.objectKey = d.objectKey ↔ d.identifies key a = true := by
  rw [checks_path h.checks, valid_path hvalid, h.tenant, htenant]
  simp only [ArtifactDescriptor.identifies, Bool.and_eq_true, beq_iff_eq, h.tenant, htenant, true_and]
  constructor
  · intro hpath
    obtain ⟨hcase, hkind, hsha⟩ := objectKey_content (valid_case h.descriptor) (valid_case hvalid) hpath
    exact ⟨⟨hcase, hkind⟩, hsha⟩
  · rintro ⟨⟨hcase, hkind⟩, hsha⟩
    rw [hcase, hkind, hsha]

/-- A row at rest stays at rest while its own object and the other tables stay as they are. -/
theorem AtRest.frame (h : AtRest scope s key a) (hdb : s'.db = { s.db with artifacts := s'.db.artifacts })
    (hobject : s'.blobs.get a.objectKey = s.blobs.get a.objectKey) : AtRest scope s' key a := by
  refine ⟨h.tenant, ?_, h.descriptor, h.checks, ?_⟩
  · rw [hdb]
    exact ⟨h.linked.case, h.linked.caller⟩
  · obtain ⟨hstatus, hversion, o, ho, hrest⟩ | hdeleted := h.state
    · exact .inl ⟨hstatus, hversion, o, hobject.trans ho, hrest⟩
    · exact .inr hdeleted

namespace Shelved

variable (h : Shelved scope db s)

include h

theorem active (hactive : tenantActive db scope.tenantId = true) : tenantActive s.db scope.tenantId = true := by
  rw [h.others]
  exact hactive

theorem linked {caseId : String} (hlinked : CaseLinked scope db caseId) : CaseLinked scope s.db caseId := by
  rw [h.others]
  exact ⟨hlinked.case, hlinked.caller⟩

/-- A content that no row has, and the row it gets. -/
theorem unused (hvalid : d.valid = true) (htenant : d.tenantId = scope.tenantId)
    (hfree : s.db.artifacts.find? d.identifies = none) :
    (∀ key a, s.db.artifacts.get key = some a → a.objectKey ≠ d.objectKey) ∧ s.blobs.get d.objectKey = none := by
  have hpath : ∀ key a, s.db.artifacts.get key = some a → a.objectKey ≠ d.objectKey := by
    intro key a ha hpath
    obtain ⟨row, hrow⟩ := Table.find?_isSome ha (((h.rows key a ha).path_iff hvalid htenant).mp hpath)
    rw [hfree] at hrow
    cases hrow
  refine ⟨hpath, ?_⟩
  cases ho : s.blobs.get d.objectKey with
  | none => rfl
  | some o =>
    obtain ⟨key, a, ha, -, he⟩ := h.objects d.objectKey o ho
    exact absurd he (hpath key a ha)

theorem store (hlinked : CaseLinked scope db d.caseId) (hvalid : validatePut bytes d = true)
    (htenant : d.tenantId = scope.tenantId) (hfree : s.db.artifacts.find? d.identifies = none)
    (hname : s.db.artifacts.get d.key = none) (hetag : 1 ≤ etag.length ∧ etag.length ≤ 512)
    (hclock : d.createdAt ≤ now) (hnow : datetime now = true) :
    Shelved scope db (s.store bytes d etag now) ∧
      (s.store bytes d etag now).shown scope =
        Function.update (s.shown scope) d.artifactId (some (bytes, d)) := by
  obtain ⟨hd, hcount, hsha⟩ := validatePut_iff.mp hvalid
  obtain ⟨hpath, hobject⟩ := h.unused hd htenant hfree
  have hothers : (s.store bytes d etag now).db = { db with artifacts := (s.store bytes d etag now).db.artifacts } := by
    simp only [Shelf.store]
    rw [h.others]
  have hchecks : ((newArtifact d).finalized etag now).checks d.key = true := by
    have hallowed := finalized_allowed (newArtifact_checks hd) rfl hetag hclock hnow
    simp only [artifactUpdateAllowed, Bool.and_eq_true] at hallowed
    exact hallowed.2
  have hself : (s.store bytes d etag now).blobs.get d.objectKey = some ⟨etag, bytes⟩ := Table.get_insert_self hobject
  have hother : ∀ path, path ≠ d.objectKey → (s.store bytes d etag now).blobs.get path = s.blobs.get path :=
    fun path hp => Table.get_insert_other hp
  have hkey : (⟨scope.tenantId, d.artifactId⟩ : Key) = d.key := by
    rw [ArtifactDescriptor.key, htenant]
  have hnew : AtRest scope (s.store bytes d etag now) d.key ((newArtifact d).finalized etag now) :=
    ⟨htenant, ⟨(h.linked hlinked).case, (h.linked hlinked).caller⟩, hd, hchecks,
      .inl ⟨rfl, rfl, _, hself, rfl, hcount.symm, hsha.symm⟩⟩
  refine ⟨⟨hothers, ?_, ?_, ?_⟩, ?_⟩
  · intro key a ha
    rw [get_store hname] at ha
    split at ha
    · rename_i hk
      obtain rfl := Option.some.inj ha
      rw [hk]
      exact hnew
    · exact (h.rows key a ha).frame rfl (hother _ (hpath key a ha))
  · intro key key' a a' ha ha' he
    rw [get_store hname] at ha ha'
    split at ha <;> rename_i hk <;> split at ha' <;> rename_i hk'
    · rw [hk, hk']
    · obtain rfl := Option.some.inj ha
      exact absurd he.symm (hpath key' a' ha')
    · obtain rfl := Option.some.inj ha'
      exact absurd he (hpath key a ha)
    · exact h.paths key key' a a' ha ha' he
  · intro path o ho
    by_cases hp : path = d.objectKey
    · exact ⟨d.key, _, (get_store hname d.key).trans (if_pos rfl), rfl, hp.symm⟩
    · rw [hother path hp] at ho
      obtain ⟨key, a, ha, hstatus, he⟩ := h.objects path o ho
      refine ⟨key, a, ?_, hstatus, he⟩
      rw [get_store hname, if_neg, ha]
      rintro rfl
      rw [hname] at ha
      cases ha
  · funext artifactId
    by_cases hid : artifactId = d.artifactId
    · subst hid
      rw [Function.update_self]
      refine shown_available (a := (newArtifact d).finalized etag now) ?_ rfl ?_ hself
      · rw [hkey, get_store hname, if_pos rfl]
      · rw [hkey]
        exact (rowDescriptor_congr rfl).trans (rowDescriptor_newArtifact hd)
    · rw [Function.update_of_ne hid]
      refine shown_congr ?_ (fun a ha => hother _ (hpath _ a ha))
      rw [get_store hname, if_neg]
      intro hk
      exact hid (congrArg Key.id hk)

theorem remove {artifactId : String} (hkey : key = ⟨scope.tenantId, artifactId⟩) (ha : s.db.artifacts.get key = some a)
    (hstatus : a.status = .available) (hclaim : a.updatedAt ≤ claimedAt) (hcomplete : claimedAt ≤ completedAt)
    (hclaimed : datetime claimedAt = true) (hcompleted : datetime completedAt = true) :
    Shelved scope db (s.remove key a claimedAt completedAt) ∧
      (s.remove key a claimedAt completedAt).shown scope = Function.update (s.shown scope) artifactId none := by
  have hrow := h.rows key a ha
  have hothers : (s.remove key a claimedAt completedAt).db =
      { db with artifacts := (s.remove key a claimedAt completedAt).db.artifacts } := by
    simp only [Shelf.remove]
    rw [h.others]
  have hchecks : (a.removed claimedAt completedAt).checks key = true := by
    have hfirst := deletionClaimed_allowed hrow.checks hstatus hclaim hclaimed
    simp only [artifactUpdateAllowed, Bool.and_eq_true] at hfirst
    have hallowed := deletionCompleted_allowed hfirst.2 rfl hcomplete hcompleted
    simp only [artifactUpdateAllowed, Bool.and_eq_true] at hallowed
    exact hallowed.2
  have hother : ∀ path, path ≠ a.objectKey →
      (s.remove key a claimedAt completedAt).blobs.get path = s.blobs.get path :=
    fun path hp => Table.get_delete_other s.blobs hp
  have hgone : AtRest scope (s.remove key a claimedAt completedAt) key (a.removed claimedAt completedAt) :=
    ⟨hrow.tenant, ⟨hrow.linked.case, hrow.linked.caller⟩, hrow.descriptor, hchecks, .inr rfl⟩
  have hpath : ∀ key' a', s.db.artifacts.get key' = some a' → key' ≠ key → a'.objectKey ≠ a.objectKey :=
    fun key' a' ha' hk he => hk (h.paths key' key a' a ha' ha he)
  refine ⟨⟨hothers, ?_, ?_, ?_⟩, ?_⟩
  · intro key' a' ha'
    rw [get_remove ha] at ha'
    split at ha'
    · rename_i hk
      obtain rfl := Option.some.inj ha'
      rw [hk]
      exact hgone
    · rename_i hk
      exact (h.rows key' a' ha').frame rfl (hother _ (hpath key' a' ha' hk))
  · intro k k' b b' hb hb' he
    rw [get_remove ha] at hb hb'
    split at hb <;> rename_i hk <;> split at hb' <;> rename_i hk'
    · rw [hk, hk']
    · obtain rfl := Option.some.inj hb
      exact absurd he.symm (hpath k' b' hb' hk')
    · obtain rfl := Option.some.inj hb'
      exact absurd he (hpath k b hb hk)
    · exact h.paths k k' b b' hb hb' he
  · intro path o ho
    by_cases hp : path = a.objectKey
    · subst hp
      have hdeleted := Table.get_delete_self s.blobs a.objectKey
      rw [Shelf.remove, hdeleted] at ho
      cases ho
    · rw [hother path hp] at ho
      obtain ⟨key', a', ha', hstatus', he⟩ := h.objects path o ho
      refine ⟨key', a', ?_, hstatus', he⟩
      rw [get_remove ha, if_neg, ha']
      rintro rfl
      rw [ha] at ha'
      exact hp (he.symm.trans (congrArg ArtifactRow.objectKey (Option.some.inj ha').symm))
  · funext id
    by_cases hid : id = artifactId
    · subst hid
      rw [Function.update_self]
      refine shown_hidden (fun b hb => ?_)
      rw [← hkey, get_remove ha, if_pos rfl] at hb
      rw [← Option.some.inj hb]
      exact fun he => by cases he
    · rw [Function.update_of_ne hid]
      have hk : (⟨scope.tenantId, id⟩ : Key) ≠ key := by
        rw [hkey]
        exact fun he => hid (congrArg Key.id he)
      refine shown_congr ?_ (fun a' ha' => hother _ (hpath _ a' ha' hk))
      rw [get_remove ha, if_neg hk]

end Shelved

end shelves

/-! ## The store refines the map -/

abbrev Contents := String → Option (List UInt8 × ArtifactDescriptor)

/-- One call on the map of contents, and its answer. -/
inductive MapStep (scope : TenantScope) (m m' : Contents) : ServedCall → StoreCall → Prop where
  | put (bytes : List UInt8) (d stored : ArtifactDescriptor) (env : Nat → Outside) :
      (∀ content, m stored.artifactId = some content → content = (bytes, stored)) →
      m' = Function.update m stored.artifactId (some (bytes, stored)) →
      MapStep scope m m' ⟨.put bytes d, env⟩ (.put (.done (.ok stored)))
  | refused (bytes : List UInt8) (d : ArtifactDescriptor) (env : Nat → Outside) (e : ArtifactFailure) :
      validatePut bytes d = false → m' = m → MapStep scope m m' ⟨.put bytes d, env⟩ (.put (.done (.error e)))
  | read (artifactId : String) (env : Nat → Outside) :
      m' = m → MapStep scope m m' ⟨.read scope artifactId, env⟩ (.read (.done (.ok (m artifactId))))
  | delete (artifactId : String) (env : Nat → Outside) (found : Bool) :
      m' = Function.update m artifactId none →
      MapStep scope m m' ⟨.delete scope artifactId, env⟩ (.delete (.done (.ok found)))

namespace MapStep

variable {scope : TenantScope} {m m' : Contents} {call : ServedCall} {answer : StoreCall} {artifactId : String}
  {env : Nat → Outside}

/-- An entry stays until it is deleted. -/
theorem keeps (h : MapStep scope m m' call answer) {content : List UInt8 × ArtifactDescriptor}
    (hentry : m artifactId = some content) (hdelete : call.request ≠ .delete scope artifactId) :
    m' artifactId = some content := by
  cases h with
  | put bytes d stored env hsame hput =>
    rw [hput]
    by_cases hid : artifactId = stored.artifactId
    · subst hid
      rw [Function.update_self, hsame content hentry]
    · rw [Function.update_of_ne hid]
      exact hentry
  | refused bytes d env e hinvalid hnone => exact hnone ▸ hentry
  | read id env hnone => exact hnone ▸ hentry
  | delete id env found hupdate =>
    rw [hupdate, Function.update_of_ne]
    · exact hentry
    · exact fun hid => hdelete (by rw [hid])

/-- An id without an entry gets one from a `put` that returns it. -/
theorem absent (h : MapStep scope m m' call answer) (hentry : m artifactId = none)
    (hput : ∀ stored, answer = .put (.done (.ok stored)) → stored.artifactId ≠ artifactId) :
    m' artifactId = none := by
  cases h with
  | put bytes d stored env hsame hupdate =>
    rw [hupdate, Function.update_of_ne (hput stored rfl).symm]
    exact hentry
  | refused bytes d env e hinvalid hnone => exact hnone ▸ hentry
  | read id env hnone => exact hnone ▸ hentry
  | delete id env found hupdate =>
    rw [hupdate]
    by_cases hid : artifactId = id
    · rw [hid, Function.update_self]
    · rw [Function.update_of_ne hid]
      exact hentry

theorem put_ok {bytes : List UInt8} {d : ArtifactDescriptor} (h : MapStep scope m m' ⟨.put bytes d, env⟩ answer)
    (hvalid : validatePut bytes d = true) :
    ∃ stored, answer = .put (.done (.ok stored)) ∧ m' stored.artifactId = some (bytes, stored) := by
  cases h with
  | put _ _ stored _ hsame hput =>
    refine ⟨stored, rfl, ?_⟩
    rw [hput, Function.update_self]
  | refused _ _ _ e hinvalid hnone =>
    rw [hvalid] at hinvalid
    cases hinvalid

theorem read_ok (h : MapStep scope m m' ⟨.read scope artifactId, env⟩ answer) :
    answer = .read (.done (.ok (m artifactId))) := by
  cases h
  rfl

theorem delete_ok (h : MapStep scope m m' ⟨.delete scope artifactId, env⟩ answer) : m' artifactId = none := by
  cases h with
  | delete _ _ found hupdate => rw [hupdate, Function.update_self]

end MapStep

section refinement

variable {scope : TenantScope} {db : Db ρ σ} {s : Shelf ρ σ}

omit [ContentHash] in
theorem update_none {m : Contents} {artifactId : String} (h : m artifactId = none) :
    Function.update m artifactId none = m := by
  rw [← h]
  exact Function.update_eq_self artifactId m

/-- What one completed call leaves and answers. -/
structure Refines (scope : TenantScope) (db : Db ρ σ) (s : Shelf ρ σ) (call : ServedCall) : Prop where
  shelved : Shelved scope db (call.step s)
  map : MapStep scope (s.shown scope) ((call.step s).shown scope) call (call.answer s)

theorem Shelved.put_refines (h : Shelved scope db s) (hactive : tenantActive db scope.tenantId = true)
    {bytes : List UInt8} {d : ArtifactDescriptor} {env : Nat → Outside} (hworking : ∀ i, (env i).Working)
    (htenant : d.tenantId = scope.tenantId) (hlinked : CaseLinked scope db d.caseId)
    (hvalid : validatePut bytes d = true) (hstorable : ShelfStorable s bytes d (env 2).now) :
    Refines scope db s ⟨.put bytes d, env⟩ := by
  have hd := (validatePut_iff.mp hvalid).1
  have hopen : tenantActive s.db d.tenantId = true := by
    rw [htenant]
    exact h.active hactive
  cases hfound : s.db.artifacts.find? d.identifies with
  | none =>
    have hname : s.db.artifacts.get d.key = none := by
      cases ha : s.db.artifacts.get d.key with
      | none => rfl
      | some a =>
        obtain ⟨row, hrow⟩ := Table.find?_isSome ha (hstorable.name a ha)
        rw [hfound] at hrow
        cases hrow
    obtain ⟨hpath, hobject⟩ := h.unused hd htenant hfound
    have hclock := hstorable.clock hfound
    have hcase : (s.db.cases.get ⟨d.tenantId, d.caseId⟩).isSome = true := by
      rw [htenant]
      exact (h.linked hlinked).case
    have hrun := run_put_new hworking hvalid (reserveArtifact_new hopen hd hfound hname hpath hcase) hname hobject
      hclock
    obtain ⟨hstored, hshown⟩ := h.store hlinked hvalid htenant hfound hname (hworking 1).etag hclock (hworking 2).now
    have hnothing : s.shown scope d.artifactId = none := by
      refine shown_hidden (fun a ha => ?_)
      rw [← htenant] at ha
      exact absurd (hname.symm.trans ha) nofun
    refine ⟨?_, ?_⟩
    · rw [ServedCall.step, hrun]
      exact hstored
    · rw [ServedCall.step, ServedCall.answer, hrun]
      refine .put bytes d d env (fun content hcontent => ?_) hshown
      rw [hnothing] at hcontent
      cases hcontent
  | some row =>
    obtain ⟨key, a⟩ := row
    obtain ⟨ha, hsame⟩ := Table.find?_some hfound
    have hrest := h.rows key a ha
    have hstatus : a.status = .available := by
      obtain ⟨hav, -⟩ | hdeleted := hrest.state
      · exact hav
      · exact absurd hdeleted (hstorable.kept key a ha hsame)
    obtain ⟨-, hpresent⟩ := hrest.present hstatus
    have hrun := run_put_available hworking hvalid hopen hfound hstatus hrest.descriptor hpresent
    obtain ⟨o, ho, -⟩ := hpresent
    have hpath := (hrest.path_iff hd htenant).mpr hsame
    have hbytes : o.bytes = bytes := hstorable.hash o (hpath ▸ ho)
    have hkey : key = ⟨scope.tenantId, key.id⟩ := by
      rw [← hrest.tenant]
    have hshown : s.shown scope (a.descriptor key).artifactId = some (bytes, a.descriptor key) := by
      rw [← hbytes]
      refine shown_available (a := a) ?_ hstatus ?_ ho
      · exact hkey ▸ ha
      · rw [rowDescriptor]
        exact hkey ▸ if_pos hrest.descriptor
    refine ⟨?_, ?_⟩
    · rw [ServedCall.step, hrun]
      exact h
    · rw [ServedCall.step, ServedCall.answer, hrun]
      refine .put bytes d (a.descriptor key) env (fun content hcontent => ?_) ?_
      · rw [hshown] at hcontent
        exact (Option.some.inj hcontent).symm
      · rw [← hshown]
        exact (Function.update_eq_self _ _).symm

theorem Shelved.read_refines (h : Shelved scope db s) (hscope : scope.valid = true) {artifactId : String}
    {env : Nat → Outside} (hworking : ∀ i, (env i).Working) : Refines scope db s ⟨.read scope artifactId, env⟩ := by
  by_cases hav : ∃ a, s.db.artifacts.get ⟨scope.tenantId, artifactId⟩ = some a ∧ a.status = .available
  · obtain ⟨a, ha, hstatus⟩ := hav
    have hrest := h.rows _ a ha
    obtain ⟨-, o, ho, hetag, hsize, hhash⟩ := hrest.present hstatus
    have hrun := run_read_available hscope hworking hrest.linked ha hstatus hrest.descriptor ho hetag hsize hhash
    have hshown : s.shown scope artifactId = some (o.bytes, a.descriptor ⟨scope.tenantId, artifactId⟩) := by
      refine shown_available ha hstatus ?_ ho
      rw [rowDescriptor, if_pos hrest.descriptor]
    refine ⟨?_, ?_⟩
    · rw [ServedCall.step, hrun]
      exact h
    · rw [ServedCall.step, ServedCall.answer, hrun, ← hshown]
      exact .read artifactId env rfl
  · have hhidden : ∀ a, s.db.artifacts.get ⟨scope.tenantId, artifactId⟩ = some a → a.status ≠ .available :=
      fun a ha hstatus => hav ⟨a, ha, hstatus⟩
    have hrun := run_read_hidden hscope hworking hhidden
    refine ⟨?_, ?_⟩
    · rw [ServedCall.step, hrun]
      exact h
    · rw [ServedCall.step, ServedCall.answer, hrun, ← shown_hidden hhidden]
      exact .read artifactId env rfl

theorem Shelved.delete_refines (h : Shelved scope db s) (hscope : scope.valid = true) {artifactId : String}
    {env : Nat → Outside} (hworking : ∀ i, (env i).Working)
    (hclear : Removable s ⟨scope.tenantId, artifactId⟩ (env 1).now (env 3).now) :
    Refines scope db s ⟨.delete scope artifactId, env⟩ := by
  by_cases hav : ∃ a, s.db.artifacts.get ⟨scope.tenantId, artifactId⟩ = some a ∧ a.status = .available
  · obtain ⟨a, ha, hstatus⟩ := hav
    have hrest := h.rows _ a ha
    obtain ⟨hversion, o, ho, hetag, -⟩ := hrest.present hstatus
    obtain ⟨hclaim, hcomplete⟩ := hclear a ha hstatus
    have hrun := run_delete_available hscope hworking hrest.linked rfl ha hstatus hversion hrest.descriptor
      hrest.checks ho hetag hclaim hcomplete
    obtain ⟨hremoved, hshown⟩ := h.remove rfl ha hstatus hclaim hcomplete (hworking 1).now (hworking 3).now
    refine ⟨?_, ?_⟩
    · rw [ServedCall.step, hrun]
      exact hremoved
    · rw [ServedCall.step, ServedCall.answer, hrun]
      exact .delete artifactId env true hshown
  · have hhidden : ∀ a, s.db.artifacts.get ⟨scope.tenantId, artifactId⟩ = some a → a.status ≠ .available :=
      fun a ha hstatus => hav ⟨a, ha, hstatus⟩
    have hrun := run_delete_hidden hscope hworking hhidden
    refine ⟨?_, ?_⟩
    · rw [ServedCall.step, hrun]
      exact h
    · rw [ServedCall.step, ServedCall.answer, hrun]
      exact .delete artifactId env false (update_none (shown_hidden hhidden)).symm

/-- Step lemma: a call that meets the condition does what the map does. -/
theorem Shelved.refines (h : Shelved scope db s) (hscope : scope.valid = true)
    (hactive : tenantActive db scope.tenantId = true) {call : ServedCall} (hby : call.By scope db)
    (hclear : Clear s call) : Refines scope db s call := by
  obtain ⟨request, env⟩ := call
  cases request with
  | put bytes d =>
    cases hvalid : validatePut bytes d with
    | true =>
      obtain ⟨htenant, hlinked⟩ := hby.put bytes d rfl hvalid
      exact h.put_refines hactive hby.working htenant hlinked hvalid (hclear hvalid)
    | false =>
      have hrun : (ServedCall.mk (.put bytes d) env).run s =
          (.put (.done (.error (.store .integrityMismatch))), s) := run_put_invalid hvalid
      refine ⟨?_, ?_⟩
      · rw [ServedCall.step, hrun]
        exact h
      · rw [ServedCall.step, ServedCall.answer, hrun]
        exact .refused bytes d env _ hvalid rfl
  | read scope' artifactId =>
    obtain rfl := hby.read scope' artifactId rfl
    exact h.read_refines hscope hby.working
  | delete scope' artifactId =>
    obtain rfl := hby.delete scope' artifactId rfl
    exact h.delete_refines hscope hby.working hclear

/-- The calls of the caller that meet the condition. -/
def Good (scope : TenantScope) (db : Db ρ σ) (s : Shelf ρ σ) (call : ServedCall) : Prop :=
  call.By scope db ∧ Clear s call

section runs

variable (hscope : scope.valid = true) (hactive : tenantActive db scope.tenantId = true) {history : List ServedCall}

include hscope hactive

/-- Run lemma. -/
theorem Shelved.served (h : Shelved scope db s) (hgood : Guarded ServedCall.step (Good scope db) history s) :
    Shelved scope db (served history s) :=
  run_invariant (fun _ _ h hgood => (h.refines hscope hactive hgood.1 hgood.2).shelved) h hgood

theorem Shelved.served_keeps (h : Shelved scope db s) (hgood : Guarded ServedCall.step (Good scope db) history s)
    {artifactId : String} {content : List UInt8 × ArtifactDescriptor}
    (hentry : s.shown scope artifactId = some content)
    (hdelete : ∀ call ∈ history, call.request ≠ .delete scope artifactId) :
    (ReproForge.served history s).shown scope artifactId = some content := by
  have hguard := hgood.and (guarded_of_forall hdelete s)
  let kept : Shelf ρ σ → Prop := fun s => Shelved scope db s ∧ s.shown scope artifactId = some content
  have hend : kept (ReproForge.served history s) := by
    refine run_invariant (fun s call hs hc => ?_) ⟨h, hentry⟩ hguard
    have hstep := hs.1.refines hscope hactive hc.1.1 hc.1.2
    exact ⟨hstep.shelved, hstep.map.keeps hs.2 hc.2⟩
  exact hend.2

theorem Shelved.served_absent (h : Shelved scope db s) (hgood : Guarded ServedCall.step (Good scope db) history s)
    {artifactId : String} (hentry : s.shown scope artifactId = none)
    (hput : Guarded ServedCall.step
      (fun s call => ∀ stored, call.answer s = .put (.done (.ok stored)) → stored.artifactId ≠ artifactId)
      history s) :
    (ReproForge.served history s).shown scope artifactId = none := by
  let kept : Shelf ρ σ → Prop := fun s => Shelved scope db s ∧ s.shown scope artifactId = none
  have hend : kept (ReproForge.served history s) := by
    refine run_invariant (fun s call hs hc => ?_) ⟨h, hentry⟩ (hgood.and hput)
    have hstep := hs.1.refines hscope hactive hc.1.1 hc.1.2
    exact ⟨hstep.shelved, hstep.map.absent hs.2 hc.2⟩
  exact hend.2

/-- A read after more calls returns what is shown after them. -/
theorem Shelved.read_after (h : Shelved scope db s) {between : List ServedCall} {artifactId : String}
    {env : Nat → Outside} (hbetween : Guarded ServedCall.step (Good scope db) between s)
    (hread : Good scope db (ReproForge.served between s) ⟨.read scope artifactId, env⟩) :
    (ServedCall.mk (.read scope artifactId) env).answer (ReproForge.served between s) =
      .read (.done (.ok ((ReproForge.served between s).shown scope artifactId))) :=
  ((h.served hscope hactive hbetween).refines hscope hactive hread.1 hread.2).map.read_ok

theorem Shelved.serves_map (h : Shelved scope db s) (hgood : Guarded ServedCall.step (Good scope db) history s) :
    ServesMap scope history s := by
  constructor
  · intro before bytes d env after hhistory hvalid
    rw [hhistory] at hgood
    obtain ⟨hbefore, hput, hafter⟩ := guarded_append.mp hgood
    have hreached := h.served hscope hactive hbefore
    have hstep := hreached.refines hscope hactive hput.1 hput.2
    obtain ⟨stored, hanswer, hentry⟩ := hstep.map.put_ok hvalid
    refine ⟨stored, hanswer, ?_⟩
    intro between env' rest hsplit hdelete
    rw [hsplit] at hafter
    obtain ⟨hbetween, hread, -⟩ := guarded_append.mp hafter
    have hkept := hstep.shelved.served_keeps hscope hactive hbetween hentry hdelete
    have hlast := hstep.shelved.read_after hscope hactive hbetween hread
    rw [hkept] at hlast
    rw [ReproForge.served, run_append]
    exact hlast
  · intro before artifactId env between env' rest hhistory hput
    rw [hhistory] at hgood
    obtain ⟨hbefore, hdelete, hafter⟩ := guarded_append.mp hgood
    obtain ⟨hbetween, hread, -⟩ := guarded_append.mp hafter
    have hreached := h.served hscope hactive hbefore
    have hstep := hreached.refines hscope hactive hdelete.1 hdelete.2
    rw [ReproForge.served, run_append] at hput
    have hkept := hstep.shelved.served_absent hscope hactive hbetween hstep.map.delete_ok hput
    have hlast := hstep.shelved.read_after hscope hactive hbetween hread
    rw [hkept] at hlast
    rw [ReproForge.served, run_append]
    exact hlast

omit hscope in
/-- The content of a deleted row is never stored again. -/
theorem Shelved.put_deleted (h : Shelved scope db s) {bytes : List UInt8} {d : ArtifactDescriptor}
    {env : Nat → Outside} (hby : (ServedCall.mk (.put bytes d) env).By scope db)
    (hvalid : validatePut bytes d = true)
    (hdeleted : ∃ key a, s.db.artifacts.get key = some a ∧ d.identifies key a = true ∧ a.status = .deleted) :
    (ServedCall.mk (.put bytes d) env).run s = (.put (.done (.error (.store .pending))), s) := by
  obtain ⟨key, a, ha, hsame, hstatus⟩ := hdeleted
  have hd := (validatePut_iff.mp hvalid).1
  obtain ⟨htenant, -⟩ := hby.put bytes d rfl hvalid
  obtain ⟨⟨key', a'⟩, hfound⟩ := Table.find?_isSome ha hsame
  obtain ⟨ha', hsame'⟩ := Table.find?_some hfound
  have hpath := ((h.rows key a ha).path_iff hd htenant).mpr hsame
  have hpath' := ((h.rows key' a' ha').path_iff hd htenant).mpr hsame'
  obtain rfl := h.paths key key' a a' ha ha' (hpath.trans hpath'.symm)
  obtain rfl := Option.some.inj (ha.symm.trans ha')
  refine run_put_deleted hby.working hvalid ?_ hfound hstatus
  rw [htenant]
  exact h.active hactive

end runs

end refinement

/-- No artifact and no object. -/
def Shelf.initial (db : Db ρ σ) : Shelf ρ σ := ⟨{ db with artifacts := .empty }, .empty⟩

theorem shelved_initial (scope : TenantScope) (db : Db ρ σ) : Shelved scope db (Shelf.initial db) where
  others := rfl
  rows := fun _ _ h => by cases h
  paths := fun _ _ _ _ h _ => by cases h
  objects := fun _ _ h => by cases h

/-- In every history of completed calls that meets the condition the store is a map. A `put` of a
content whose row was deleted is refused. -/
theorem artifact_map_exact (db : Db ρ σ) {scope : TenantScope} (hscope : scope.valid = true)
    (hactive : tenantActive db scope.tenantId = true) {history : List ServedCall}
    (hby : ∀ call ∈ history, call.By scope db)
    (hclear : Guarded ServedCall.step Clear history (Shelf.initial db)) :
    ServesMap scope history (Shelf.initial db) ∧
      ∀ bytes d env, (ServedCall.mk (.put bytes d) env).By scope db → validatePut bytes d = true →
        (∃ key a, (served history (Shelf.initial db)).db.artifacts.get key = some a ∧
          d.identifies key a = true ∧ a.status = .deleted) →
        (ServedCall.mk (.put bytes d) env).answer (served history (Shelf.initial db)) =
          .put (.done (.error (.store .pending))) := by
  have hgood : Guarded ServedCall.step (Good scope db) history (Shelf.initial db) :=
    (guarded_of_forall hby _).and hclear
  have hinitial := shelved_initial scope db
  refine ⟨hinitial.serves_map hscope hactive hgood, ?_⟩
  intro bytes d env hput hvalid hdeleted
  have hreached := hinitial.served hscope hactive hgood
  rw [ServedCall.answer, hreached.put_deleted hactive hput hvalid hdeleted]

end ReproForge

/-! ## A run log that comes back -/

namespace ReproForge.Sample.Artifact

open ReproForge.Sample KeyedTable Runs

def callerScope : TenantScope := ⟨"caller", "caller", "acme"⟩

/-- The case of a reproduction that the caller started. -/
def started : Db Empty Empty := step first (Db.initial opening tenants)

def served (request : StoreRequest) : ServedCall := ⟨request, fun _ => calm⟩

def writeLog : ServedCall := served (.put [123, 125, 10] runLog)

def readLog : ServedCall := served (.read callerScope "log-1")

def deleteLog : ServedCall := served (.delete callerScope "log-1")

/-- The store with the run log. -/
def stocked (db : Db Empty Empty) : Shelf Empty Empty := (Shelf.initial db).store [123, 125, 10] runLog "etag-1" opening

def logRow : ArtifactRow := (newArtifact runLog).finalized "etag-1" opening

/-- The store after the deletion of the run log. -/
def emptied (db : Db Empty Empty) : Shelf Empty Empty := (stocked db).remove runLog.key logRow opening opening

theorem calm_working : calm.Working := ⟨rfl, rfl, by decide, by decide⟩

theorem started_tables : (tenantActive started callerScope.tenantId &&
    (started.cases.get ⟨callerScope.tenantId, "case-1"⟩).isSome &&
    (started.idempotencyKeys.find? (fun key i => key.tenantId == callerScope.tenantId && i.caseId == "case-1" &&
      key.callerId == callerScope.callerId)).isSome) = true := by
  decide +kernel

theorem started_active : tenantActive started callerScope.tenantId = true :=
  (Bool.and_eq_true_iff.mp (Bool.and_eq_true_iff.mp started_tables).1).1

theorem linked_case : CaseLinked callerScope started "case-1" :=
  ⟨(Bool.and_eq_true_iff.mp (Bool.and_eq_true_iff.mp started_tables).1).2,
    (Bool.and_eq_true_iff.mp started_tables).2⟩

theorem by_caller {request : StoreRequest}
    (h : request = .put [123, 125, 10] runLog ∨ request = .read callerScope "log-1" ∨
      request = .delete callerScope "log-1") : (served request).By callerScope started := by
  refine ⟨fun _ => calm_working, fun bytes d hd _ => ?_, fun scope artifactId hd => ?_, fun scope artifactId hd => ?_⟩
  · obtain rfl | rfl | rfl := h <;> cases hd
    exact ⟨rfl, linked_case⟩
  · obtain rfl | rfl | rfl := h <;> cases hd
    rfl
  · obtain rfl | rfl | rfl := h <;> cases hd
    rfl

theorem history_by {history : List ServedCall} (h : ∀ call ∈ history, call ∈ [writeLog, readLog, deleteLog]) :
    ∀ call ∈ history, call.By callerScope started := by
  intro call hcall
  obtain rfl | rfl | rfl : call = writeLog ∨ call = readLog ∨ call = deleteLog := by simpa using h call hcall
  · exact by_caller (.inl rfl)
  · exact by_caller (.inr (.inl rfl))
  · exact by_caller (.inr (.inr rfl))

theorem runLog_valid : validatePut [123, 125, 10] runLog = true := by decide +kernel

theorem logRow_checks : logRow.checks runLog.key = true := by decide +kernel

section steps

variable {db : Db Empty Empty}

theorem stocked_row : (stocked db).db.artifacts.get runLog.key = some logRow :=
  (get_store rfl runLog.key).trans (if_pos rfl)

theorem stocked_object : (stocked db).blobs.get runLog.objectKey = some ⟨"etag-1", [123, 125, 10]⟩ :=
  Table.get_insert_self rfl

theorem write_step (hactive : tenantActive db "acme" = true) (hlinked : CaseLinked callerScope db "case-1") :
    writeLog.step (Shelf.initial db) = stocked db := by
  have hreserve : reserveArtifact runLog (Shelf.initial db).db = (.ok (some (runLog.key, newArtifact runLog)), _) :=
    reserveArtifact_new hactive (validatePut_iff.mp runLog_valid).1 rfl rfl (fun _ _ ha => by cases ha) hlinked.case
  exact congrArg Prod.snd
    (run_put_new (fun _ => calm_working) runLog_valid hreserve rfl rfl (Int.le_refl opening))

theorem read_step (hlinked : CaseLinked callerScope db "case-1") : readLog.step (stocked db) = stocked db := by
  have hstocked : CaseLinked callerScope (stocked db).db logRow.caseId := ⟨hlinked.case, hlinked.caller⟩
  exact congrArg Prod.snd (run_read_available (by decide) (fun _ => calm_working) hstocked stocked_row rfl
    (validatePut_iff.mp runLog_valid).1 stocked_object rfl rfl (validatePut_iff.mp runLog_valid).2.2.symm)

theorem delete_step (hlinked : CaseLinked callerScope db "case-1") : deleteLog.step (stocked db) = emptied db := by
  have hstocked : CaseLinked callerScope (stocked db).db logRow.caseId := ⟨hlinked.case, hlinked.caller⟩
  exact congrArg Prod.snd (run_delete_available (by decide) (fun _ => calm_working) hstocked rfl stocked_row rfl rfl
    (validatePut_iff.mp runLog_valid).1 logRow_checks stocked_object rfl (Int.le_refl opening) (Int.le_refl opening))

theorem write_clear : Clear (Shelf.initial db) writeLog := by
  intro _
  refine ⟨fun _ _ ha => ?_, fun _ ha => ?_, fun _ ho => ?_, fun _ => Int.le_refl opening⟩
  · cases ha
  · cases ha
  · cases ho

theorem delete_clear : Clear (stocked db) deleteLog := by
  intro a ha _
  obtain rfl := Option.some.inj (stocked_row.symm.trans ha)
  exact ⟨Int.le_refl opening, Int.le_refl opening⟩

/-- The row that the deletion leaves. -/
theorem emptied_row : ∃ key a, (emptied db).db.artifacts.get key = some a ∧ runLog.identifies key a = true ∧
    a.status = .deleted :=
  ⟨runLog.key, logRow.removed opening opening, (get_remove stocked_row runLog.key).trans (if_pos rfl), by decide, rfl⟩

end steps

end ReproForge.Sample.Artifact

namespace ReproForge

open Sample Sample.Artifact KeyedTable Runs

/-- The same run log is not stored a second time after it was deleted. -/
theorem artifact_lost :
    (∀ call ∈ [writeLog, deleteLog, writeLog], call.By callerScope started) ∧
      ¬ ServesMap callerScope [writeLog, deleteLog, writeLog] (Shelf.initial started) := by
  have hby : ∀ call ∈ [writeLog, deleteLog, writeLog], call.By callerScope started := history_by (by simp)
  refine ⟨hby, fun h => ?_⟩
  obtain ⟨stored, hanswer, -⟩ := h.put [writeLog, deleteLog] [123, 125, 10] runLog (fun _ => calm) [] rfl runLog_valid
  have hstocked : Shelved callerScope started (stocked started) := by
    have hrefines := (shelved_initial callerScope started).refines (by decide) started_active
      (hby writeLog (by simp)) write_clear
    exact write_step started_active linked_case ▸ hrefines.shelved
  have hemptied : Shelved callerScope started (emptied started) := by
    have hrefines := hstocked.refines (by decide) started_active (hby deleteLog (by simp)) delete_clear
    exact delete_step linked_case ▸ hrefines.shelved
  have hrefused := hemptied.put_deleted started_active (hby writeLog (by simp)) runLog_valid emptied_row
  have hreached : ReproForge.served [writeLog, deleteLog] (Shelf.initial started) = emptied started := by
    rw [ReproForge.served, run, write_step started_active linked_case, run, delete_step linked_case, run]
  rw [hreached, ServedCall.answer, hrefused] at hanswer
  cases hanswer

/-- A run log is read until it is deleted, and not stored again. -/
theorem artifact_map_exact_sample :
    ServesMap callerScope [writeLog, readLog, deleteLog] (Shelf.initial started) ∧
      writeLog.answer (emptied started) = .put (.done (.error (.store .pending))) := by
  have hclear : Guarded ServedCall.step Clear [writeLog, readLog, deleteLog] (Shelf.initial started) := by
    refine ⟨write_clear, trivial, ?_, trivial⟩
    rw [write_step started_active linked_case, read_step linked_case]
    exact delete_clear
  have hmap := artifact_map_exact started (by decide) started_active (history_by (by simp)) hclear
  have hreached : ReproForge.served [writeLog, readLog, deleteLog] (Shelf.initial started) = emptied started := by
    rw [ReproForge.served, run, write_step started_active linked_case, run, read_step linked_case, run,
      delete_step linked_case, run]
  refine ⟨hmap.1, ?_⟩
  rw [← hreached]
  refine hmap.2 [123, 125, 10] runLog (fun _ => calm) (by_caller (.inl rfl)) runLog_valid ?_
  rw [hreached]
  exact emptied_row

end ReproForge
