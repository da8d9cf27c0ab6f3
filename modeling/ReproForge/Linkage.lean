import ReproForge.AuthorizationSpecs
import ReproForge.Objects
import ReproForge.Runs
import Mathlib.Logic.Function.Basic

/-!
# Webhooks and callbacks at work

Any number of webhook deliveries and installation callbacks, each of which reads
from the provider and writes to the database in separate steps. A log keeps the
facts about each installation in the order in which they were processed.
-/
namespace ReproForge

open KeyedTable Transactions Transactions.Tx

variable {ρ σ : Type}

/-! ## Facts about an installation -/

inductive Fact where
  | bound : VerifiedGitHubInstallation → Fact
  | event : GitHubAuthorizationTransition → Fact
  | reconciled : VerifiedGitHubInstallation → Fact
  /-- Repositories were added or removed without a snapshot. -/
  | adjusted
  deriving DecidableEq, Repr

/-- What the store makes of a fact. -/
def Fact.apply : Fact → GitHubAuthorizationState → GitHubAuthorizationState
  | .bound s, _ => ⟨s.providerUpdatedAt, .active⟩
  | .event t, current => reduceGitHubAuthorizationState current t
  | .reconciled s, current => ⟨s.providerUpdatedAt.or current.providerUpdatedAt, current.status⟩
  | .adjusted, current => current

/-- The repositories of a delivery, with the snapshot that was read for it. -/
def Fact.repositories (snapshot : Option VerifiedGitHubInstallation) : Fact :=
  match snapshot with
  | some s => .reconciled s
  | none => .adjusted

/-- The fact that a delivery brings, when its transaction commits. -/
def webhookFact (p : Platform ρ σ) (e : GitHubWebhookEnvelope) (snapshot : Option VerifiedGitHubInstallation) :
    Option (Nat × Fact) :=
  let first := (p.webhookDeliveries.get e.deliveryId).isNone
  match e.installation, e.repositories with
  | some payload, _ => if first then payload.transition.map (fun t => (payload.id, .event t)) else none
  | none, some payload =>
    if (findOwner p payload.id).isSome && (first || snapshot.isSome) then some (payload.id, .repositories snapshot)
    else none
  | none, none => none

/-- No delivery links an installation. -/
theorem webhookFact_unbound (p : Platform ρ σ) (e : GitHubWebhookEnvelope)
    (snapshot : Option VerifiedGitHubInstallation) (id : Nat) (s : VerifiedGitHubInstallation) :
    webhookFact p e snapshot ≠ some (id, .bound s) := by
  intro h
  unfold webhookFact at h
  dsimp only at h
  split at h
  · split at h
    · obtain ⟨t, -, ht⟩ := Option.map_eq_some_iff.mp h
      cases ht
    · cases h
  · split at h
    · cases snapshot <;> cases h
    · cases h
  · cases h

/-- A fact counts for its own installation. -/
def applied (id : Nat) (fact : Option (Nat × Fact)) (current : GitHubAuthorizationState) :
    GitHubAuthorizationState :=
  match fact with
  | none => current
  | some (i, f) => if i = id then f.apply current else current

/-- A delivery did to the installations what its fact says. -/
structure Received (p p' : Platform ρ σ) (fact : Option (Nat × Fact)) : Prop where
  keys : ∀ key, (p'.installations.get key).isSome = (p.installations.get key).isSome
  authorization : UniqueInstallations p → ∀ key row', p'.installations.get key = some row' →
    ∃ row, p.installations.get key = some row ∧
      row'.authorization = applied key.installationId fact row.authorization
  reconciled : UniqueInstallations p → ∀ key row, p.installations.get key = some row →
    ∀ s, fact = some (key.installationId, .reconciled s) → ∀ r, Active p' key r ↔ r ∈ s.repositoryIds
  kept : ∀ key row, p.installations.get key = some row → (∀ f, fact ≠ some (key.installationId, f)) →
    ∀ r, Active p' key r ↔ Active p key r

section received

variable {p p₁ p₂ p' : Platform ρ σ} {fact : Option (Nat × Fact)}

theorem Received.of_unlinked (h : Unlinked p p')
    (hnone : ∀ id f, fact = some (id, f) → ∀ key row, p.installations.get key = some row → key.installationId ≠ id) :
    Received p p' fact := by
  have hother : ∀ key row, p.installations.get key = some row → ∀ f, fact ≠ some (key.installationId, f) :=
    fun key row hrow f hf => hnone key.installationId f hf key row hrow rfl
  refine ⟨fun key => by rw [h.installations], fun _ key row' hrow' => ?_, fun _ key row hrow s hs => ?_,
    fun key _ _ _ r => h.active key r⟩
  · rw [h.installations] at hrow'
    refine ⟨row', hrow', ?_⟩
    rcases fact with - | ⟨id, f⟩
    · rfl
    · exact (if_neg (fun hid => hnone id f rfl key row' hrow' hid.symm)).symm
  · exact absurd hs (hother key row hrow (.reconciled s))

/-- The writes under the installation that the fact is about. -/
theorem Received.of_confined {key : InstallationKey} {f : Fact} {row : InstallationRow} (hc : Confined key p p')
    (hrow : p.installations.get key = some row)
    (hauth : (p'.installations.get key).map InstallationRow.authorization = some (f.apply row.authorization))
    (hactive : ∀ s, f = .reconciled s → ∀ r, Active p' key r ↔ r ∈ s.repositoryIds) :
    Received p p' (some (key.installationId, f)) := by
  obtain ⟨row', hrow', hrow''⟩ := Option.map_eq_some_iff.mp hauth
  refine ⟨fun k => ?_, fun hunique k x hx => ?_, fun hunique k x hx s hs => ?_, fun k x hx hnot => ?_⟩
  · by_cases hk : k = key
    · rw [hk, hrow, hrow']
      rfl
    · rw [hc.installations k hk]
  · by_cases hk : k = key
    · subst hk
      obtain rfl := Option.some.inj (hrow'.symm.trans hx)
      exact ⟨row, hrow, hrow''.trans (if_pos rfl).symm⟩
    · rw [hc.installations k hk] at hx
      refine ⟨x, hx, (if_neg (fun hid => hk ?_)).symm⟩
      exact (hunique key k row x hrow hx hid).symm
  · obtain ⟨hid, rfl⟩ := Prod.mk.inj (Option.some.inj hs)
    obtain rfl := hunique key k row x hrow hx hid
    exact hactive s rfl
  · refine hc.repositories k (fun hk => hnot f ?_)
    rw [hk]

/-- What happens before and after to other tables is of no account. -/
theorem Received.between (h : Received p₁ p₂ fact) (hbefore : Unlinked p p₁) (hafter : Unlinked p₂ p') :
    Received p p' fact := by
  have hi := hbefore.installations
  have hi' := hafter.installations
  constructor
  · intro key
    rw [hi', h.keys, hi]
  · intro hunique key row' hrow'
    rw [hi'] at hrow'
    rw [← hi]
    exact h.authorization (hunique.congr hi) key row' hrow'
  · intro hunique key row hrow s hs r
    rw [hafter.active]
    exact h.reconciled (hunique.congr hi) key row (hi ▸ hrow) s hs r
  · intro key row hrow hnot r
    rw [hafter.active, h.kept key row (hi ▸ hrow) hnot, hbefore.active]

theorem findOwner_some {id : Nat} {tenantId : String} (h : findOwner p id = some tenantId) :
    ∃ row, p.installations.get ⟨tenantId, id⟩ = some row := by
  obtain ⟨⟨key, row⟩, hfound, rfl⟩ := Option.map_eq_some_iff.mp h
  obtain ⟨hget, hid⟩ := Table.find?_some hfound
  obtain rfl : key.installationId = id := by simpa using hid
  exact ⟨row, hget⟩

theorem findOwner_none {id : Nat} (h : findOwner p id = none) {key : InstallationKey} {row : InstallationRow}
    (hrow : p.installations.get key = some row) : key.installationId ≠ id := by
  intro hid
  obtain ⟨found, hfound⟩ := Table.find?_isSome (p := fun key _ => key.installationId == id) hrow (by simpa using hid)
  rw [findOwner, hfound] at h
  cases h

theorem applyRepositoryWebhook_received {tenantId : String} {payload : WebhookRepositories} {draws : Draws}
    {snapshot : Option VerifiedGitHubInstallation} {audit : AuditEvent} {row : InstallationRow}
    (hrow : p.installations.get ⟨tenantId, payload.id⟩ = some row)
    (h : applyRepositoryWebhook tenantId payload draws snapshot p = (.ok audit, p')) :
    Received p p' (some (payload.id, .repositories snapshot)) := by
  unfold applyRepositoryWebhook at h
  cases snapshot with
  | some s =>
    simp only [bind_ok, require_ok, pure_ok, beq_iff_eq] at h
    obtain ⟨_, _, ⟨hid, rfl⟩, _, p₁, hreconcile, -, rfl⟩ := h
    rw [← hid] at hrow ⊢
    obtain ⟨hget, hactive, hc⟩ := reconcile_ok hreconcile
    refine Received.of_confined hc hrow ?_ (fun s' hs' => ?_)
    · rw [hget, hrow]
      rfl
    · obtain rfl := Fact.reconciled.inj hs'
      exact hactive
  | none =>
    simp only [bind_ok, pure_ok] at h
    obtain ⟨_, p₁, hadjust, -, rfl⟩ := h
    obtain ⟨hi, hc⟩ := adjustRepositories_ok hadjust
    refine Received.of_confined hc hrow ?_ (fun s' hs' => (nomatch hs'))
    rw [hi, hrow]
    rfl

theorem Unlinked.refl (p : Platform ρ σ) : Unlinked p p := ⟨rfl, rfl⟩

theorem GitHubWebhookEnvelope.event_cases (e : GitHubWebhookEnvelope) :
    e.installation = none ∨ e.repositories = none := by
  unfold installation repositories
  cases e.event
  · exact .inr rfl
  · exact .inl rfl

/-- The fact of a first delivery. -/
theorem firstDelivery_received {e : GitHubWebhookEnvelope} {snapshot : Option VerifiedGitHubInstallation}
    {draws : Draws} {u : Unit} (h : firstDelivery e snapshot draws p₁ = (.ok u, p')) (hbefore : Unlinked p p₁)
    (hfirst : (p.webhookDeliveries.get e.deliveryId).isNone = true) :
    Received p p' (webhookFact p e snapshot) := by
  have hfind : ∀ id, findOwner p₁ id = findOwner p id := by
    intro id
    rw [findOwner, findOwner, hbefore.installations]
  simp only [firstDelivery, bind_ok, read_ok] at h
  obtain ⟨_, _, ⟨rfl, rfl⟩, h⟩ := h
  cases howner : e.installationId.bind (findOwner p₁) with
  | none =>
    simp only [howner] at h
    have hu := completeDelivery_unlinked h
    refine Received.of_unlinked ⟨hu.installations.trans hbefore.installations,
      hu.repositories.trans hbefore.repositories⟩ ?_
    intro id f hf key row hrow hid
    have hidentified : e.installationId = some id := by
      unfold webhookFact at hf
      rcases e.event_cases with hnone | hnone
      · cases hr : e.repositories with
        | none => simp [hnone, hr] at hf
        | some payload =>
          simp only [hnone, hr] at hf
          split at hf
          · obtain ⟨rfl, -⟩ := Prod.mk.inj (Option.some.inj hf)
            simp [GitHubWebhookEnvelope.installationId, hnone, hr]
          · cases hf
      · cases hi : e.installation with
        | none => simp [hnone, hi] at hf
        | some payload =>
          simp only [hi, hfirst, if_true, Option.map_eq_some_iff] at hf
          obtain ⟨t, -, he⟩ := hf
          obtain ⟨rfl, -⟩ := Prod.mk.inj he
          simp [GitHubWebhookEnvelope.installationId, hi]
    rw [hidentified, Option.bind_some, hfind] at howner
    exact findOwner_none howner hrow hid
  | some tenantId =>
    simp only [howner, bind_ok] at h
    obtain ⟨audit, p₂, happly, _, p₃, hcomplete, hrecord⟩ := h
    have hafter : Unlinked p₂ p' := by
      have hu := completeDelivery_unlinked hcomplete
      cases audit with
      | none =>
        obtain ⟨-, rfl⟩ := pure_ok.mp hrecord
        exact hu
      | some event =>
        have hu' := appendAuthorizationAudit_unlinked hrecord
        exact ⟨hu'.installations.trans hu.installations, hu'.repositories.trans hu.repositories⟩
    refine Received.between ?_ hbefore hafter
    unfold applyDelivery at happly
    unfold webhookFact
    cases hi : e.installation with
    | some payload =>
      simp only [hi] at happly
      have hid : e.installationId = some payload.id := by simp [GitHubWebhookEnvelope.installationId, hi]
      rw [hid, Option.bind_some] at howner
      obtain ⟨row, hrow⟩ := findOwner_some howner
      obtain ⟨hnone, hsome, hc⟩ := applyInstallationWebhook_ok happly
      simp only [hfirst, if_true]
      cases ht : payload.transition with
      | none =>
        obtain rfl := hnone ht
        exact .of_unlinked (.refl _) (fun _ _ hf => by cases hf)
      | some t =>
        refine Received.of_confined hc hrow ?_ (fun s hs => by cases hs)
        rw [hsome t ht, hrow]
        rfl
    | none =>
      cases hr : e.repositories with
      | none =>
        simp only [hi, hr, pure_ok] at happly
        obtain ⟨-, rfl⟩ := happly
        exact .of_unlinked (.refl _) (fun _ _ hf => by cases hf)
      | some payload =>
        simp only [hi, hr, bind_ok, pure_ok] at happly
        obtain ⟨_, _, happly, -, rfl⟩ := happly
        have hid : e.installationId = some payload.id := by simp [GitHubWebhookEnvelope.installationId, hi, hr]
        rw [hid, Option.bind_some] at howner
        obtain ⟨row, hrow⟩ := findOwner_some howner
        rw [hfind] at howner
        simp only [howner, hfirst, Option.isSome_some, Bool.true_or, Bool.and_self, if_true]
        exact applyRepositoryWebhook_received hrow happly

theorem redelivery_received {e : GitHubWebhookEnvelope} {snapshot : Option VerifiedGitHubInstallation}
    {draws : Draws} {u : Unit} (h : redelivery e snapshot draws p₁ = (.ok u, p')) (hbefore : Unlinked p p₁)
    (hfirst : (p.webhookDeliveries.get e.deliveryId).isNone = false) :
    Received p p' (webhookFact p e snapshot) := by
  have hquiet : ∀ {q : Platform ρ σ}, q = p₁ → webhookFact p e snapshot = none →
      Received p q (webhookFact p e snapshot) := by
    rintro q rfl hnone
    rw [hnone]
    exact .of_unlinked hbefore (fun _ _ hf => (nomatch hf))
  unfold redelivery at h
  unfold webhookFact at hquiet ⊢
  cases hi : e.installation with
  | some payload =>
    have hr : e.repositories = none := e.event_cases.resolve_left (by simp [hi])
    simp only [hr] at h
    obtain ⟨-, rfl⟩ := pure_ok.mp h
    simp only [hi, hfirst] at hquiet ⊢
    exact hquiet rfl (by simp)
  | none =>
    cases hr : e.repositories with
    | none =>
      simp only [hr] at h
      obtain ⟨-, rfl⟩ := pure_ok.mp h
      simp only [hi, hr] at hquiet ⊢
      exact hquiet rfl trivial
    | some payload =>
      simp only [hi, hr, hfirst, Bool.false_or] at hquiet ⊢
      cases hs : snapshot with
      | none =>
        simp only [hr, hs] at h
        obtain ⟨-, rfl⟩ := pure_ok.mp h
        simp only [hs, Option.isSome_none, Bool.and_false] at hquiet ⊢
        exact hquiet rfl (by simp)
      | some s =>
        simp only [hr, hs, bind_ok, read_ok] at h
        obtain ⟨_, _, ⟨rfl, rfl⟩, h⟩ := h
        have hfind : findOwner p₁ payload.id = findOwner p payload.id := by
          rw [findOwner, findOwner, hbefore.installations]
        cases howner : findOwner p₁ payload.id with
        | none =>
          simp only [howner] at h
          obtain ⟨-, rfl⟩ := pure_ok.mp h
          rw [hfind] at howner
          simp only [hs, howner, Option.isSome_none, Bool.false_and] at hquiet ⊢
          exact hquiet rfl (by simp)
        | some tenantId =>
          simp only [howner, bind_ok, pure_ok] at h
          obtain ⟨_, _, happly, -, rfl⟩ := h
          obtain ⟨row, hrow⟩ := findOwner_some howner
          rw [hfind] at howner
          simp only [howner, Option.isSome_some, Bool.and_self, if_true]
          exact (applyRepositoryWebhook_received hrow happly).between hbefore (.refl _)

/-- A delivery that commits did what its fact says. -/
theorem processWebhook_received {e : GitHubWebhookEnvelope} {snapshot : Option VerifiedGitHubInstallation}
    {draws : Draws} {reply : Disposition} (h : processWebhook e snapshot draws p = (.ok reply, p')) :
    Received p p' (webhookFact p e snapshot) := by
  simp only [processWebhook, bind_ok, require_ok] at h
  obtain ⟨_, _, ⟨-, rfl⟩, inserted, p₁, hinsert, h⟩ := h
  obtain ⟨hu, hfirst⟩ := insertDelivery_ok hinsert
  cases inserted with
  | true =>
    simp only [if_true, bind_ok, pure_ok] at h
    obtain ⟨_, _, hdeliver, -, rfl⟩ := h
    exact firstDelivery_received hdeliver hu hfirst.symm
  | false =>
    simp only [Bool.false_eq_true, if_false, bind_ok, pure_ok] at h
    obtain ⟨_, _, hdeliver, -, rfl⟩ := h
    exact redelivery_received hdeliver hu hfirst.symm

end received

/-! ## The system -/

inductive Intake where
  | idle
  | received (e : GitHubWebhookEnvelope)
  /-- The snapshot was read before the transaction. -/
  | applying (e : GitHubWebhookEnvelope) (snapshot : Option VerifiedGitHubInstallation)
  | consuming (actor : GitHubInstallationActor) (stateHash : String) (installationId : Nat)
  | verifying (actor : GitHubInstallationActor) (installationId : Nat)
  | binding (actor : GitHubInstallationActor) (snapshot : VerifiedGitHubInstallation)
  | done

/-- What the provider answers, what becomes of a transaction, and what its host draws. -/
structure Surroundings where
  answer : Option VerifiedGitHubInstallation
  fate : Objects.Fate
  draws : Draws

structure Linkage (ρ σ : Type) where
  platform : Platform ρ σ
  intakes : Nat → Intake
  log : List (Nat × Fact)

inductive LinkageAction (ρ σ : Type) where
  | receive : Nat → GitHubWebhookEnvelope → LinkageAction ρ σ
  | callback : Nat → GitHubInstallationActor → (stateHash : String) → (installationId : Nat) → LinkageAction ρ σ
  | advance : Nat → Surroundings → LinkageAction ρ σ
  /-- The rest of the system changes any other table. -/
  | others : Db ρ σ → Table Key PrincipalRow → Table String InstallationStateRow → LinkageAction ρ σ

/-- The reply of a transaction that committed, and the database after it. -/
def commit {α : Type} (fate : Objects.Fate) (operation : PlatformStatement ρ σ α) (p : Platform ρ σ) :
    Option α × Platform ρ σ :=
  if fate = .failsBefore then (none, p)
  else
    match atomically operation p with
    | (.ok a, p') => (some a, p')
    | (.error _, p') => (none, p')

theorem commit_cases {α : Type} (fate : Objects.Fate) (operation : PlatformStatement ρ σ α) (p : Platform ρ σ) :
    commit fate operation p = (none, p) ∨
      ∃ a p', operation p = (.ok a, p') ∧ commit fate operation p = (some a, p') := by
  unfold commit
  split
  · exact .inl rfl
  · cases h : atomically operation p with
    | mk reply p' =>
      cases reply with
      | ok a => exact .inr ⟨a, p', atomically_ok.mp h, rfl⟩
      | error e =>
        obtain rfl := atomically_error h
        exact .inl rfl

namespace Linkage

def turn (n : Nat) (next : Intake) (w : Linkage ρ σ) : Linkage ρ σ :=
  { w with intakes := Function.update w.intakes n next }

/-- The end of a transaction, and the fact that it brings. -/
def record (n : Nat) (next : Intake) (fact : Option (Nat × Fact)) (p : Platform ρ σ) (w : Linkage ρ σ) :
    Linkage ρ σ :=
  ⟨p, Function.update w.intakes n next, w.log ++ fact.toList⟩

def advance (n : Nat) (env : Surroundings) (w : Linkage ρ σ) : Linkage ρ σ :=
  match w.intakes n with
  | .received e =>
    if e.snapshotId.isNone then w.turn n (.applying e none)
    else
      match env.answer with
      | none => w.turn n .done
      | some snapshot => w.turn n (.applying e (some snapshot))
  | .applying e snapshot =>
    match commit env.fate (processWebhook e snapshot env.draws) w.platform with
    | (some _, p) => w.record n .done (webhookFact w.platform e snapshot) p
    | (none, _) => w.turn n .done
  | .consuming actor stateHash id =>
    match commit env.fate (consume actor stateHash env.draws.at') w.platform with
    | (some consumed, p) =>
      w.record n (if consumed && env.fate = .runs then .verifying actor id else .done) none p
    | (none, _) => w.turn n .done
  | .verifying actor id =>
    match env.answer with
    | none => w.turn n .done
    | some snapshot =>
      if snapshot.installationId = id then w.turn n (.binding actor snapshot) else w.turn n .done
  | .binding actor snapshot =>
    match commit env.fate (ReproForge.bind actor snapshot env.draws) w.platform with
    | (some _, p) => w.record n .done (some (snapshot.installationId, .bound snapshot)) p
    | (none, _) => w.turn n .done
  | .idle | .done => w

def step : LinkageAction ρ σ → Linkage ρ σ → Linkage ρ σ
  | .receive n e, w => w.turn n (.received e)
  | .callback n actor stateHash id, w => w.turn n (.consuming actor stateHash id)
  | .advance n env, w => w.advance n env
  | .others db principals states, w =>
    { w with platform := { w.platform with db := db, principals := principals, installationStates := states } }

def initial (db : Db ρ σ) (principals : Table Key PrincipalRow) : Linkage ρ σ :=
  ⟨Platform.initial db principals, fun _ => .idle, []⟩

end Linkage

/-! ## The log and the rows -/

/-- The state of an installation after one more fact; a link starts it anew. -/
def trackFact (id : Nat) (current : Option GitHubAuthorizationState) (fact : Nat × Fact) :
    Option GitHubAuthorizationState :=
  if fact.1 = id then
    match fact.2 with
    | .bound s => some ⟨s.providerUpdatedAt, .active⟩
    | f => current.map f.apply
  else current

/-- All facts about an installation, one after the other. -/
def track (id : Nat) (log : List (Nat × Fact)) : Option GitHubAuthorizationState := log.foldl (trackFact id) none

def factsOf (id : Nat) (log : List (Nat × Fact)) : List Fact := (log.filter (fun f => f.1 = id)).map Prod.snd

structure Linkage.Sound (w : Linkage ρ σ) : Prop where
  unique : UniqueInstallations w.platform
  stored : ∀ id s, track id w.log = some s → ∃ key row, w.platform.installations.get key = some row ∧
    key.installationId = id
  tracked : ∀ key row, w.platform.installations.get key = some row →
    track key.installationId w.log = some row.authorization
  reconciled : ∀ key row, w.platform.installations.get key = some row →
    ∀ s, (factsOf key.installationId w.log).getLast? = some (.reconciled s) →
      ∀ r, Active w.platform key r ↔ r ∈ s.repositoryIds

section log

variable {id : Nat} {log : List (Nat × Fact)} {fact : Option (Nat × Fact)}

theorem track_append (fact : Option (Nat × Fact)) : track id (log ++ fact.toList) =
    match fact with
    | none => track id log
    | some f => trackFact id (track id log) f := by
  cases fact with
  | none => rw [Option.toList_none, List.append_nil]
  | some f => rw [Option.toList_some, track, List.foldl_append]; rfl

theorem track_applied {s : GitHubAuthorizationState} (h : track id log = some s) :
    track id (log ++ fact.toList) = some (applied id fact s) := by
  rw [track_append]
  rcases fact with - | ⟨i, f⟩
  · exact h
  · dsimp only [trackFact, applied]
    rw [h]
    split
    · cases f <;> rfl
    · rfl

/-- Only a link starts to follow an installation. -/
theorem track_unbound (h : track id log = none) (hunbound : ∀ i s, fact ≠ some (i, .bound s)) :
    track id (log ++ fact.toList) = none := by
  rw [track_append]
  rcases fact with - | ⟨i, f⟩
  · exact h
  · dsimp only [trackFact]
    rw [h]
    split
    · cases f with
      | bound s => exact absurd rfl (hunbound i s)
      | event t => rfl
      | reconciled s => rfl
      | adjusted => rfl
    · rfl

theorem factsOf_append (fact : Option (Nat × Fact)) : factsOf id (log ++ fact.toList) =
    match fact with
    | none => factsOf id log
    | some (i, f) => if i = id then factsOf id log ++ [f] else factsOf id log := by
  rcases fact with - | ⟨i, f⟩
  · rw [Option.toList_none, List.append_nil]
  · by_cases hi : i = id
    · simp [factsOf, hi]
    · simp [factsOf, hi]

end log

namespace Linkage.Sound

variable {w : Linkage ρ σ} {p' : Platform ρ σ}

theorem turn (hs : w.Sound) (n : Nat) (next : Intake) : (w.turn n next).Sound :=
  ⟨hs.unique, hs.stored, hs.tracked, hs.reconciled⟩

theorem receive (hs : w.Sound) {fact : Option (Nat × Fact)} (h : Received w.platform p' fact)
    (hunbound : ∀ id s, fact ≠ some (id, .bound s)) (n : Nat) (next : Intake) :
    (w.record n next fact p').Sound := by
  have hrow : ∀ key row', p'.installations.get key = some row' →
      ∃ row, w.platform.installations.get key = some row := by
    intro key row' hrow'
    have hsome := h.keys key
    rw [hrow', Option.isSome_some] at hsome
    exact Option.isSome_iff_exists.mp hsome.symm
  constructor
  · intro key key' row row' hget hget' hid
    obtain ⟨x, hx⟩ := hrow key row hget
    obtain ⟨x', hx'⟩ := hrow key' row' hget'
    exact hs.unique key key' x x' hx hx' hid
  · intro id s htrack
    have hbefore : ∃ s', track id w.log = some s' := by
      cases hcurrent : track id w.log with
      | some s' => exact ⟨s', rfl⟩
      | none =>
        rw [Linkage.record, track_unbound hcurrent hunbound] at htrack
        cases htrack
    obtain ⟨s', hs'⟩ := hbefore
    obtain ⟨key, row, hget, hid⟩ := hs.stored id s' hs'
    have hsome := h.keys key
    rw [hget, Option.isSome_some] at hsome
    obtain ⟨row', hrow'⟩ := Option.isSome_iff_exists.mp hsome
    exact ⟨key, row', hrow', hid⟩
  · intro key row' hrow'
    obtain ⟨row, hget, hauth⟩ := h.authorization hs.unique key row' hrow'
    rw [hauth]
    exact track_applied (hs.tracked key row hget)
  · intro key row' hrow' s hlast r
    obtain ⟨row, hget⟩ := hrow key row' hrow'
    rw [Linkage.record, factsOf_append] at hlast
    rcases fact with - | ⟨i, f⟩
    · exact (h.kept key row hget (fun _ => nofun) r).trans (hs.reconciled key row hget s hlast r)
    · dsimp only at hlast
      split at hlast
      · rename_i hi
        rw [List.getLast?_concat] at hlast
        obtain rfl := Option.some.inj hlast
        exact h.reconciled hs.unique key row hget s (by rw [hi]) r
      · rename_i hi
        refine (h.kept key row hget (fun f' hf' => hi ?_) r).trans (hs.reconciled key row hget s hlast r)
        exact congrArg Prod.fst (Option.some.inj hf')

theorem link (hs : w.Sound) {key : InstallationKey} {snapshot : VerifiedGitHubInstallation}
    (h : Linked w.platform p' key snapshot) (n : Nat) (next : Intake) :
    (w.record n next (some (key.installationId, .bound snapshot)) p').Sound := by
  obtain ⟨own, hown, hauth⟩ := h.row
  have hunique := h.unique hs.unique
  have hother : ∀ k row, p'.installations.get k = some row → k ≠ key →
      w.platform.installations.get k = some row ∧ key.installationId ≠ k.installationId := by
    intro k row hget hk
    rw [h.confined.installations k hk] at hget
    refine ⟨hget, fun hid => hk ?_⟩
    rw [← h.confined.installations k hk] at hget
    exact (hunique key k own row hown hget hid).symm
  refine ⟨hunique, fun id s htrack => ?_, fun k row hget => ?_, fun k row hget s hlast r => ?_⟩
  · by_cases hid : key.installationId = id
    · exact ⟨key, own, hown, hid⟩
    · rw [Linkage.record, track_append] at htrack
      obtain ⟨k, row, hget, hk⟩ := hs.stored id s ((if_neg hid).symm.trans htrack)
      refine ⟨k, row, ?_, hk⟩
      exact (h.confined.installations k (fun he => hid (by rw [← he, hk]))).trans hget
  · by_cases hk : k = key
    · subst hk
      obtain rfl := Option.some.inj (hown.symm.trans hget)
      rw [Linkage.record, track_append, hauth]
      exact if_pos rfl
    · obtain ⟨hold, hid⟩ := hother k row hget hk
      rw [Linkage.record, track_append]
      exact (if_neg hid).trans (hs.tracked k row hold)
  · rw [Linkage.record, factsOf_append] at hlast
    dsimp only at hlast
    by_cases hk : k = key
    · subst hk
      rw [if_pos rfl, List.getLast?_concat] at hlast
      cases hlast
    · obtain ⟨hold, hid⟩ := hother k row hget hk
      rw [if_neg hid] at hlast
      exact (h.confined.repositories k hk r).trans (hs.reconciled k row hold s hlast r)

theorem consume_unlinked {p p' : Platform ρ σ} {actor : GitHubInstallationActor} {stateHash : String}
    {at' : Instant} {consumed : Bool} (h : consume actor stateHash at' p = (.ok consumed, p')) : Unlinked p p' := by
  simp only [consume, bind_ok, require_ok] at h
  obtain ⟨_, _, ⟨-, rfl⟩, h⟩ := h
  unfold consumeState at h
  split at h
  · obtain rfl := (Prod.mk.inj h).2
    exact .refl _
  · split at h
    · split at h
      · obtain rfl := (Prod.mk.inj h).2
        exact ⟨rfl, rfl⟩
      · cases h
    · obtain rfl := (Prod.mk.inj h).2
      exact .refl _

/-- Step lemma. -/
theorem step (hs : w.Sound) (action : LinkageAction ρ σ) : (Linkage.step action w).Sound := by
  cases action with
  | receive n e => exact hs.turn n (.received e)
  | callback n actor stateHash id => exact hs.turn n (.consuming actor stateHash id)
  | others db principals states => exact ⟨hs.unique, hs.stored, hs.tracked, hs.reconciled⟩
  | advance n env =>
    dsimp only [Linkage.step]
    unfold Linkage.advance
    cases w.intakes n with
    | idle => exact hs
    | done => exact hs
    | received e =>
      dsimp only
      split
      · exact hs.turn n _
      · split
        · exact hs.turn n _
        · exact hs.turn n _
    | applying e snapshot =>
      rcases commit_cases env.fate (processWebhook e snapshot env.draws) w.platform with h | ⟨reply, p', hok, h⟩
      · simp only [h]
        exact hs.turn n _
      · simp only [h]
        exact hs.receive (processWebhook_received hok) (webhookFact_unbound _ _ _) n _
    | consuming actor stateHash id =>
      rcases commit_cases env.fate (consume actor stateHash env.draws.at') w.platform with h | ⟨consumed, p', hok, h⟩
      · simp only [h]
        exact hs.turn n _
      · simp only [h]
        have hreceived : Received w.platform p' none :=
          .of_unlinked (consume_unlinked hok) (fun _ _ hf => (nomatch hf))
        exact hs.receive hreceived (fun _ _ hf => (nomatch hf)) n _
    | verifying actor id =>
      dsimp only
      split
      · exact hs.turn n _
      · split
        · exact hs.turn n _
        · exact hs.turn n _
    | binding actor snapshot =>
      rcases commit_cases env.fate (ReproForge.bind actor snapshot env.draws) w.platform with h | ⟨_, p', hok, h⟩
      · simp only [h]
        exact hs.turn n _
      · simp only [h]
        exact hs.link (bind_linked hok) n _

end Linkage.Sound

theorem Linkage.sound_initial (db : Db ρ σ) (principals : Table Key PrincipalRow) :
    (Linkage.initial db principals).Sound where
  unique := fun _ _ _ _ h => by cases h
  stored := fun _ _ h => by cases h
  tracked := fun _ _ h => by cases h
  reconciled := fun _ _ h => by cases h

/-- Run lemma: in every interleaving the rows are what the facts make of them. -/
theorem Linkage.sound_run (db : Db ρ σ) (principals : Table Key PrincipalRow) (actions : List (LinkageAction ρ σ)) :
    (Runs.run Linkage.step actions (Linkage.initial db principals)).Sound :=
  Runs.run_keeps (fun _ action hs => hs.step action) (Linkage.sound_initial db principals)

end ReproForge
