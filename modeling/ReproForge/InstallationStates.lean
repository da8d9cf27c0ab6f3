import ReproForge.FirstClaims
import ReproForge.JobUpdates
import ReproForge.Linkage

/-!
# Installation states

A state ties the installation of the app on GitHub to whoever asked for it. Its
issuance, the two stores that keep the hashes of states, and the callback that
gives a state back for an installation.
-/
namespace ReproForge

open KeyedTable Transactions Transactions.Tx FirstClaims

variable {ρ σ : Type}

/-! ## Texts -/

/-- `^[A-Za-z0-9_-]{43}$` -/
def isState (s : String) : Bool := s.toList.length == 43 && s.toList.all wordChar

def base64urlChar (n : Nat) : Char :=
  if n < 26 then Char.ofNat (65 + n)
  else if n < 52 then Char.ofNat (71 + n)
  else if n < 62 then Char.ofNat (n - 4)
  else if n = 62 then '-' else '_'

/-- `Buffer.toString("base64url")` -/
def base64url : List UInt8 → List Char
  | a :: b :: c :: rest =>
    let n := a.toNat * 65536 + b.toNat * 256 + c.toNat
    [n / 262144, n / 4096 % 64, n / 64 % 64, n % 64].map base64urlChar ++ base64url rest
  | [a, b] =>
    let n := a.toNat * 256 + b.toNat
    [n / 1024, n / 16 % 64, n * 4 % 64].map base64urlChar
  | [a] => [a.toNat / 4, a.toNat * 16 % 64].map base64urlChar
  | [] => []

theorem wordChar_base64urlChar : ∀ n < 64, wordChar (base64urlChar n) = true := by decide

theorem wordChar_of_sextets {ns : List Nat} (h : ∀ n ∈ ns, n < 64) :
    ∀ c ∈ ns.map base64urlChar, wordChar c = true := by
  intro c hc
  obtain ⟨n, hn, rfl⟩ := List.mem_map.mp hc
  exact wordChar_base64urlChar n (h n hn)

theorem base64url_chars (bytes : List UInt8) : ∀ c ∈ base64url bytes, wordChar c = true := by
  have hbyte : ∀ a : UInt8, a.toNat < 256 := UInt8.toNat_lt
  induction bytes using base64url.induct with
  | case1 a b c rest ih =>
    have ha := hbyte a
    have hb := hbyte b
    have hc := hbyte c
    rw [base64url]
    refine List.forall_mem_append.mpr ⟨wordChar_of_sextets ?_, ih⟩
    simp only [List.forall_mem_cons, List.not_mem_nil, false_imp_iff, implies_true, and_true]
    omega
  | case2 a b =>
    have ha := hbyte a
    have hb := hbyte b
    rw [base64url]
    refine wordChar_of_sextets ?_
    simp only [List.forall_mem_cons, List.not_mem_nil, false_imp_iff, implies_true, and_true]
    omega
  | case3 a =>
    have ha := hbyte a
    rw [base64url]
    refine wordChar_of_sextets ?_
    simp only [List.forall_mem_cons, List.not_mem_nil, false_imp_iff, implies_true, and_true]
    omega
  | case4 => simp [base64url]

theorem base64url_length (bytes : List UInt8) : (base64url bytes).length = (4 * bytes.length + 2) / 3 := by
  induction bytes using base64url.induct with
  | case1 a b c rest ih =>
    rw [base64url, List.length_append, ih]
    simp only [List.length_map, List.length_cons, List.length_nil]
    omega
  | case2 a b => simp [base64url]
  | case3 a => simp [base64url]
  | case4 => simp [base64url]

/-- `^[a-z0-9](?:[a-z0-9-]{0,98}[a-z0-9])?$` -/
def isAppSlug (s : String) : Bool :=
  let slugChar := fun (c : Char) => c.isLower || c.isDigit
  match s.toList with
  | [] => false
  | c :: rest =>
    slugChar c && rest.length ≤ 99 && rest.all (fun c => slugChar c || c == '-') && rest.getLast?.all slugChar

/-- The time of a `Date` that is not invalid. -/
def representable (t : Instant) : Bool := t.natAbs ≤ 8640000000000000

/-! ## Issuance -/

structure GitHubInstallationStateRecord where
  actor : GitHubInstallationActor
  consumedAt : Option Instant
  createdAt : Instant
  expiresAt : Instant
  stateHash : String
  deriving DecidableEq, Repr

def GitHubInstallationStateRecord.row (record : GitHubInstallationStateRecord) : InstallationStateRow :=
  ⟨record.actor.tenantId, record.actor.principalId, record.createdAt, record.expiresAt, record.consumedAt⟩

structure AuthorizationInput where
  actor : GitHubInstallationActor
  appSlug : String
  now : Instant
  randomBytes : List UInt8

/-- What is stored of a state, and the state. -/
structure InstallationAuthorization where
  record : GitHubInstallationStateRecord
  state : String
  deriving DecidableEq, Repr

/-- `createGitHubInstallationAuthorization`, up to the call of `create`. -/
def AuthorizationInput.authorize [Sha256] (input : AuthorizationInput) : Option InstallationAuthorization :=
  if opaqueId input.actor.principalId && opaqueId input.actor.tenantId && isAppSlug input.appSlug &&
      input.randomBytes.length == 32 && representable input.now && representable (input.now + 10 * 60000) then
    let state := String.ofList (base64url input.randomBytes)
    some ⟨⟨input.actor, none, input.now, input.now + 10 * 60000, Sha256.hex state⟩, state⟩
  else none

def InstallationAuthorization.url (authorization : InstallationAuthorization) (appSlug : String) : String :=
  "https://github.com/apps/" ++ appSlug ++ "/installations/new?state=" ++ authorization.state

/-- A callback accepts the text of every state that is issued. -/
theorem authorize_isState [Sha256] {input : AuthorizationInput} {authorization : InstallationAuthorization}
    (h : input.authorize = some authorization) :
    isState authorization.state = true ∧ authorization.record.stateHash = Sha256.hex authorization.state ∧
      authorization.record.consumedAt = none := by
  simp only [AuthorizationInput.authorize] at h
  split at h
  · rename_i hinput
    obtain rfl := Option.some.inj h
    simp only [Bool.and_eq_true, beq_iff_eq] at hinput
    refine ⟨?_, rfl, rfl⟩
    rw [isState, String.toList_ofList, base64url_length, hinput.1.1.2, Bool.and_eq_true]
    exact ⟨rfl, List.all_eq_true.mpr (base64url_chars input.randomBytes)⟩
  · cases h

/-! ## Stores -/

/-- The record can be consumed by the actor at this time. -/
def InstallationStateRow.admits (row : InstallationStateRow) (actor : GitHubInstallationActor) (at' : Instant) : Prop :=
  row.tenantId = actor.tenantId ∧ row.principalId = actor.principalId ∧ row.consumedAt = none ∧ at' ≤ row.expiresAt

/-- A store of installation states beside whatever else is kept with them. A call may
throw, whether it has taken effect or not. -/
structure InstallationStateStore (β ε : Type) where
  records : β → Table String InstallationStateRow
  /-- Whether the call returned. -/
  create : ε → GitHubInstallationStateRecord → β → Bool × β
  /-- Whether there was a record, if the call returned. -/
  consume : ε → GitHubInstallationActor → Instant → String → β → Option Bool × β
  bind : ε → GitHubInstallationActor → VerifiedGitHubInstallation → β → Bool × β
  create_records : ∀ env record s,
    (records (create env record s).2 = records s ∧ (create env record s).1 = false) ∨
      (records s).get record.stateHash = none ∧
        records (create env record s).2 = (records s).put record.stateHash record.row
  consume_records : ∀ env actor at' stateHash s,
    (records (consume env actor at' stateHash s).2 = records s ∧
        (consume env actor at' stateHash s).1 ≠ some true) ∨
      ∃ row, (records s).get stateHash = some row ∧ row.admits actor at' ∧
        records (consume env actor at' stateHash s).2 =
          (records s).put stateHash { row with consumedAt := some at' }
  bind_records : ∀ env actor installation s, records (bind env actor installation s).2 = records s

/-! ## The store in memory -/

namespace InMemoryStates

abbrev Records := Table String InstallationStateRow

def create (record : GitHubInstallationStateRecord) (records : Records) : Bool × Records :=
  if (records.get record.stateHash).isSome then (false, records)
  else (true, records.put record.stateHash record.row)

def consume (actor : GitHubInstallationActor) (at' : Instant) (stateHash : String) (records : Records) :
    Option Bool × Records :=
  match records.get stateHash with
  | none => (some false, records)
  | some row =>
    if row.consumedAt.isSome || row.principalId != actor.principalId || row.tenantId != actor.tenantId ||
        row.expiresAt < at' then
      (some false, records)
    else (some true, records.put stateHash { row with consumedAt := some at' })

/-- `InMemoryGitHubInstallationStateStore`, with a `bind` that resolves or rejects. -/
def store : InstallationStateStore Records Bool where
  records := id
  create _ := create
  consume _ := consume
  bind resolved _ _ records := (resolved, records)
  create_records := by
    intro _ record records
    unfold create
    split
    · exact .inl ⟨rfl, rfl⟩
    · rename_i hfree
      exact .inr ⟨Option.not_isSome_iff_eq_none.mp hfree, rfl⟩
  consume_records := by
    intro _ actor at' stateHash records
    unfold consume
    split
    · exact .inl ⟨rfl, fun h => (nomatch h)⟩
    · rename_i row hrow
      split
      · exact .inl ⟨rfl, fun h => (nomatch h)⟩
      · rename_i hopen
        simp only [Bool.or_eq_true, bne_iff_ne, decide_eq_true_eq, not_or, not_not, Int.not_lt] at hopen
        obtain ⟨⟨⟨hconsumed, hprincipal⟩, htenant⟩, hexpires⟩ := hopen
        exact .inr ⟨row, hrow, ⟨htenant, hprincipal, Option.not_isSome_iff_eq_none.mp hconsumed, hexpires⟩, rfl⟩
  bind_records := fun _ _ _ _ => rfl

end InMemoryStates

/-! ## The store in the database -/

/-- Identifiers are those of a principal, and the hash is not stored yet. -/
def insertState (record : GitHubInstallationStateRecord) : PlatformStatement ρ σ Unit := fun p =>
  if (p.principals.get ⟨record.actor.tenantId, record.actor.principalId⟩).isSome &&
      record.createdAt < record.expiresAt && record.consumedAt.all (record.createdAt ≤ ·) &&
      (p.installationStates.get record.stateHash).isNone then
    (.ok (), { p with installationStates := p.installationStates.insert record.stateHash record.row })
  else (.error (.database .constraint), p)

def createState (record : GitHubInstallationStateRecord) : PlatformStatement ρ σ Unit := do
  require (opaqueId record.actor.principalId && opaqueId record.actor.tenantId && record.consumedAt.all datetime &&
    datetime record.createdAt && datetime record.expiresAt && hexDigest 64 record.stateHash) .schema
  insertState record

theorem createState_ok {record : GitHubInstallationStateRecord} {u : Unit} {p p' : Platform ρ σ}
    (h : createState record p = (.ok u, p')) : p.installationStates.get record.stateHash = none ∧
      p' = { p with installationStates := p.installationStates.insert record.stateHash record.row } := by
  simp only [createState, bind_ok, require_ok] at h
  obtain ⟨_, _, ⟨-, rfl⟩, h⟩ := h
  unfold insertState at h
  split at h
  · rename_i hinsert
    simp only [Bool.and_eq_true] at hinsert
    exact ⟨Option.isNone_iff_eq_none.mp hinsert.2, (Prod.mk.inj h).2.symm⟩
  · cases h

theorem consume_ok {actor : GitHubInstallationActor} {stateHash : String} {at' : Instant} {consumed : Bool}
    {p p' : Platform ρ σ} (h : consume actor stateHash at' p = (.ok consumed, p')) :
    (consumed = false ∧ p' = p) ∨ ∃ row, p.installationStates.get stateHash = some row ∧ row.admits actor at' ∧
      p' = { p with installationStates := p.installationStates.set stateHash { row with consumedAt := some at' } } := by
  simp only [consume, bind_ok, require_ok] at h
  obtain ⟨_, _, ⟨-, rfl⟩, h⟩ := h
  unfold consumeState at h
  split at h
  · obtain ⟨hfalse, rfl⟩ := Prod.mk.inj h
    exact .inl ⟨(Except.ok.inj hfalse).symm, rfl⟩
  · rename_i row hrow
    split at h
    · rename_i hadmits
      split at h
      · simp only [Bool.and_eq_true, beq_iff_eq, Option.isNone_iff_eq_none, decide_eq_true_eq] at hadmits
        obtain ⟨⟨⟨htenant, hprincipal⟩, hconsumed⟩, hexpires⟩ := hadmits
        exact .inr ⟨row, hrow, ⟨htenant, hprincipal, hconsumed, hexpires⟩, (Prod.mk.inj h).2.symm⟩
      · cases h
    · obtain ⟨hfalse, rfl⟩ := Prod.mk.inj h
      exact .inl ⟨(Except.ok.inj hfalse).symm, rfl⟩

/-- Installation states are left alone. -/
def SameStates (p p' : Platform ρ σ) : Prop := p'.installationStates = p.installationStates

theorem SameStates.refl (p : Platform ρ σ) : SameStates p p := rfl

theorem SameStates.trans {p p' p'' : Platform ρ σ} (h : SameStates p p') (h' : SameStates p' p'') : SameStates p p'' :=
  Eq.trans h' h

section bind

variable {installation : InstallationKey} {u : Unit} {p p' : Platform ρ σ}

theorem upsertInstallation_states (principalId : String) (i : VerifiedGitHubInstallation) :
    Within SameStates (upsertInstallation installation principalId i : PlatformStatement ρ σ Unit) := by
  intro p u p' h
  unfold upsertInstallation at h
  dsimp only at h
  split at h
  · cases h
  · split at h
    · split at h
      · obtain rfl := (Prod.mk.inj h).2
        rfl
      · cases h
    · split at h
      · obtain rfl := (Prod.mk.inj h).2
        rfl
      · cases h

theorem removeRepositories_states (at' : Instant) :
    Within SameStates (removeRepositories installation at' : PlatformStatement ρ σ Unit) := by
  intro p u p' h
  unfold removeRepositories at h
  dsimp only at h
  split at h
  · obtain rfl := (Prod.mk.inj h).2
    rfl
  · cases h

theorem upsertRepository_states (providerUpdatedAt : Option Instant) (fresh : Nat → String)
    (repository : VerifiedGitHubRepository) :
    Within SameStates (upsertRepository installation providerUpdatedAt fresh repository : PlatformStatement ρ σ Unit) := by
  intro p u p' h
  simp only [upsertRepository, bind_ok, read_ok] at h
  obtain ⟨q, _, ⟨rfl, rfl⟩, h⟩ := h
  cases hfind : findRepositoryRow p installation repository.repositoryId with
  | some found =>
    simp only [hfind, bind_ok, require_ok] at h
    obtain ⟨_, _, ⟨-, rfl⟩, h⟩ := h
    unfold updateRepository at h
    split at h
    · obtain rfl := (Prod.mk.inj h).2
      rfl
    · cases h
  | none =>
    simp only [hfind, bind_ok, require_ok] at h
    obtain ⟨_, _, ⟨-, rfl⟩, h⟩ := h
    unfold insertRepository at h
    split at h
    · obtain rfl := (Prod.mk.inj h).2
      rfl
    · cases h

theorem lift_states {α : Type} (operation : Statement ρ σ α) : Within SameStates (Platform.lift operation) := by
  intro p a p' h
  rw [Platform.lift] at h
  cases hoperation : operation p.db with
  | mk reply db =>
    rw [hoperation] at h
    cases reply with
    | ok b =>
      obtain rfl := (Prod.mk.inj h).2
      rfl
    | error e => cases h

theorem appendAuthorizationAudit_states (event : AuditEvent) :
    Within SameStates (appendAuthorizationAudit event : PlatformStatement ρ σ Unit) := by
  intro p u p' h
  simp only [appendAuthorizationAudit, bind_ok, require_ok] at h
  obtain ⟨_, _, ⟨-, rfl⟩, h⟩ := h
  exact lift_states _ _ _ _ h

/-- A link of an installation does not touch the states. -/
theorem bind_states (actor : GitHubInstallationActor) (snapshot : VerifiedGitHubInstallation) (draws : Draws) :
    Within SameStates (ReproForge.bind actor snapshot draws : PlatformStatement ρ σ Unit) := by
  intro p u p' h
  simp only [ReproForge.bind, bind_ok, require_ok, read_ok] at h
  obtain ⟨_, _, ⟨-, rfl⟩, _, p₁, hupsert, _, _, ⟨rfl, rfl⟩, _, p₂, hremove, replies, p₃, hgrant, haudit⟩ := h
  have hgranted : SameStates p₂ p₃ :=
    within_forEach SameStates.refl SameStates.trans (fun repository => upsertRepository_states _ _ repository) _
      p₂ replies p₃ hgrant
  exact (((upsertInstallation_states _ _ _ _ _ hupsert).trans (removeRepositories_states _ _ _ _ hremove)).trans
    hgranted).trans (appendAuthorizationAudit_states _ _ _ _ haudit)

end bind

namespace PostgresStates

/-- What becomes of a call, and what its host draws. -/
structure Surroundings where
  fate : Objects.Fate
  draws : Draws

/-- The reply of a call whose acknowledgement may be lost. -/
def acknowledged {α : Type} (fate : Objects.Fate) (reply : Option α) : Option α := if fate = .runs then reply else none

/-- `PostgresGitHubAuthorizationStore` -/
def store : InstallationStateStore (Platform ρ σ) Surroundings where
  records := Platform.installationStates
  create env record p :=
    let (reply, p') := commit env.fate (createState record) p
    ((acknowledged env.fate reply).isSome, p')
  consume env actor at' stateHash p :=
    let (reply, p') := commit env.fate (ReproForge.consume actor stateHash at') p
    (acknowledged env.fate reply, p')
  bind env actor installation p :=
    let (reply, p') := commit env.fate (ReproForge.bind actor installation env.draws) p
    ((acknowledged env.fate reply).isSome, p')
  create_records := by
    intro env record p
    dsimp only
    rcases commit_cases env.fate (createState record) p with h | ⟨u, p', hok, h⟩
    · rw [h]
      refine .inl ⟨rfl, ?_⟩
      simp [acknowledged]
    · obtain ⟨hfree, rfl⟩ := createState_ok hok
      rw [h]
      exact .inr ⟨hfree, (Table.put_of_none hfree record.row).symm⟩
  consume_records := by
    intro env actor at' stateHash p
    dsimp only
    rcases commit_cases env.fate (ReproForge.consume actor stateHash at') p with h | ⟨consumed, p', hok, h⟩
    · rw [h]
      refine .inl ⟨rfl, ?_⟩
      simp [acknowledged]
    · rw [h]
      rcases consume_ok hok with ⟨rfl, rfl⟩ | ⟨row, hrow, hadmits, rfl⟩
      · refine .inl ⟨rfl, ?_⟩
        simp [acknowledged]
      · exact .inr ⟨row, hrow, hadmits, (Table.put_of_some hrow _).symm⟩
  bind_records := by
    intro env actor installation p
    dsimp only
    rcases commit_cases env.fate (ReproForge.bind actor installation env.draws) p with h | ⟨u, p', hok, h⟩
    · rw [h]
    · rw [h]
      exact bind_states actor installation env.draws p u p' hok

end PostgresStates

/-! ## Callbacks -/

class NumberCoercion where
  /-- `Number(text)`, where that is a natural number. -/
  natural : String → Option Nat

/-- The search parameters of a callback. -/
structure CallbackRequest where
  code : Option String
  installationId : Option String
  state : Option String
  deriving DecidableEq, Repr

structure CallbackInput where
  code : String
  installationId : Nat
  state : String
  deriving DecidableEq, Repr

/-- `callbackSchema.safeParse`; a missing number counts as zero. -/
def CallbackRequest.parse [NumberCoercion] (request : CallbackRequest) : Option CallbackInput := do
  let code ← request.code
  let installationId ← request.installationId.bind NumberCoercion.natural
  let state ← request.state
  if 8 ≤ code.toList.length && code.toList.length ≤ 256 && code.toList.all wordChar && providerId installationId &&
      isState state then
    some ⟨code, installationId, state⟩
  else none

/-- A callback with an actor and an accepted input, at the time that it read. -/
structure InstallationCallback where
  actor : GitHubInstallationActor
  input : CallbackInput
  at' : Instant
  deriving DecidableEq, Repr

def InstallationCallback.stateHash [Sha256] (callback : InstallationCallback) : String :=
  Sha256.hex callback.input.state

/-- Why a callback is redirected as invalid. -/
inductive CallbackFailure where
  | unauthenticated
  | malformed
  /-- The clock gave no date. -/
  | undated
  | unconsumed (callback : InstallationCallback)
  | unverified (callback : InstallationCallback)
  /-- The verifier confirmed another installation. -/
  | substituted (callback : InstallationCallback)
  | unbound (callback : InstallationCallback)
  deriving DecidableEq, Repr

/-- Where an issuance or a callback is. -/
inductive InstallationFlow where
  | idle
  | unauthorized
  | creating (authorization : InstallationAuthorization)
  | uncreated (authorization : InstallationAuthorization)
  | issued (authorization : InstallationAuthorization)
  | asking (request : CallbackRequest)
  | consuming (request : CallbackRequest) (callback : InstallationCallback)
  | verifying (request : CallbackRequest) (callback : InstallationCallback)
  | binding (request : CallbackRequest) (callback : InstallationCallback) (installation : VerifiedGitHubInstallation)
  | connected (request : CallbackRequest) (callback : InstallationCallback) (installation : VerifiedGitHubInstallation)
  | invalid (request : CallbackRequest) (failure : CallbackFailure)
  deriving DecidableEq, Repr

/-- What a step meets: who is signed in, the clock, the verifier's answer and what becomes of a
call of the store. -/
structure CallbackSurroundings (ε : Type) where
  actor : Option GitHubInstallationActor
  now : Instant
  answer : Option VerifiedGitHubInstallation
  store : ε

/-- An answer of the verifier. -/
structure Verification where
  flow : Nat
  code : String
  installationId : Nat
  installation : VerifiedGitHubInstallation
  deriving DecidableEq, Repr

/-- A call of `bind`. -/
structure BindCall where
  flow : Nat
  callback : InstallationCallback
  installation : VerifiedGitHubInstallation
  deriving DecidableEq, Repr

/-- The ledger lists who consumed which hash, and who called `bind` then. -/
structure Installing (β : Type) where
  store : β
  flows : Nat → InstallationFlow
  ledger : Ledger String Nat
  verified : List Verification
  binds : List BindCall

inductive InstallingAction (ε : Type) where
  | issue : Nat → AuthorizationInput → InstallingAction ε
  | callback : Nat → CallbackRequest → InstallingAction ε
  | advance : Nat → CallbackSurroundings ε → InstallingAction ε

def InstallingAction.flow {ε : Type} : InstallingAction ε → Nat
  | .issue n _ | .callback n _ | .advance n _ => n

namespace Installing

variable {β ε : Type} [Sha256] [NumberCoercion]

def turn (n : Nat) (next : InstallationFlow) (w : Installing β) : Installing β :=
  { w with flows := Function.update w.flows n next }

/-- The update takes effect when the record changes. -/
def consume (store : InstallationStateStore β ε) (n : Nat) (env : CallbackSurroundings ε) (request : CallbackRequest)
    (callback : InstallationCallback) (w : Installing β) : Installing β :=
  let (reply, s) := store.consume env.store callback.actor callback.at' callback.stateHash w.store
  let ledger :=
    if (store.records s).get callback.stateHash = (store.records w.store).get callback.stateHash then w.ledger
    else w.ledger.claim callback.stateHash n
  let w := { w with store := s, ledger := ledger }
  if reply = some true then w.turn n (.verifying request callback)
  else w.turn n (.invalid request (.unconsumed callback))

def verify (n : Nat) (env : CallbackSurroundings ε) (request : CallbackRequest) (callback : InstallationCallback)
    (w : Installing β) : Installing β :=
  match env.answer with
  | none => w.turn n (.invalid request (.unverified callback))
  | some installation =>
    let w := { w with
      verified := w.verified ++ [Verification.mk n callback.input.code callback.input.installationId installation] }
    if installation.installationId = callback.input.installationId then
      { w with
        ledger := w.ledger.act callback.stateHash n
        binds := w.binds ++ [BindCall.mk n callback installation] }.turn n (.binding request callback installation)
    else w.turn n (.invalid request (.substituted callback))

def advance (store : InstallationStateStore β ε) (n : Nat) (env : CallbackSurroundings ε) (w : Installing β) :
    Installing β :=
  match w.flows n with
  | .creating authorization =>
    let (created, s) := store.create env.store authorization.record w.store
    { w with store := s }.turn n (if created then .issued authorization else .uncreated authorization)
  | .asking request =>
    match env.actor with
    | none => w.turn n (.invalid request .unauthenticated)
    | some actor =>
      match request.parse with
      | none => w.turn n (.invalid request .malformed)
      | some input =>
        if representable env.now then w.turn n (.consuming request ⟨actor, input, env.now⟩)
        else w.turn n (.invalid request .undated)
  | .consuming request callback => w.consume store n env request callback
  | .verifying request callback => w.verify n env request callback
  | .binding request callback installation =>
    let (bound, s) := store.bind env.store callback.actor installation w.store
    { w with store := s }.turn n
      (if bound then .connected request callback installation else .invalid request (.unbound callback))
  | .idle | .unauthorized | .uncreated _ | .issued _ | .connected _ _ _ | .invalid _ _ => w

def step (store : InstallationStateStore β ε) : InstallingAction ε → Installing β → Installing β
  | .issue n input, w =>
    match w.flows n, input.authorize with
    | .idle, some authorization => w.turn n (.creating authorization)
    | .idle, none => w.turn n .unauthorized
    | _, _ => w
  | .callback n request, w =>
    match w.flows n with
    | .idle => w.turn n (.asking request)
    | _ => w
  | .advance n env, w => w.advance store n env

def initial (s : β) : Installing β := ⟨s, fun _ => .idle, .empty, [], []⟩

end Installing

end ReproForge
