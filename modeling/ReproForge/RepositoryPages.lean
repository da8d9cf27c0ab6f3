import ReproForge.KeysetPages
import ReproForge.Linkage
import Mathlib.Data.String.Basic

/-!
# Pages of repositories

`listRepositories` hands out the active repositories of a tenant, a page at a
time. Between two pages a delivery or a callback may change which they are.
-/
namespace ReproForge

open KeyedTable Transactions Transactions.Tx

variable {ρ σ : Type}

/-- A text in the order of the collation of the database. -/
structure Collated where
  text : String
  deriving DecidableEq, Repr

/-! ## The query -/

/-- A row of `SELECT_REPOSITORY`; the permissions of every installation are the ones that its constraint admits. -/
structure SelectedRepository where
  key : Key
  repository : RepositoryRow
  installation : InstallationRow
  deriving DecidableEq, Repr

def SelectedRepository.status (s : SelectedRepository) : GitHubAuthorizationStatus :=
  if s.installation.status = .suspended then .suspended
  else if s.installation.status = .removed ∨ s.repository.status = .removed then .removed
  else .active

/-- The repositories, each with its installation. -/
def Platform.selectRepository (p : Platform ρ σ) : List SelectedRepository :=
  p.repositories.rows.filterMap fun row =>
    (p.installations.get ⟨row.1.tenantId, row.2.installationId⟩).map (⟨row.1, row.2, ·⟩)

structure GitHubRepositoryAuthorization where
  defaultBranch : String
  fullName : String
  installationId : Nat
  isPrivate : Bool
  providerRepositoryId : Nat
  repositoryId : String
  status : GitHubAuthorizationStatus
  tenantId : String
  deriving DecidableEq, Repr

inductive ListRepositoriesError where
  | schema
  /-- An identifier of the provider that is no safe integer. -/
  | metadata
  deriving DecidableEq, Repr

def SelectedRepository.authorization (s : SelectedRepository) : GitHubRepositoryAuthorization where
  defaultBranch := s.repository.defaultBranch
  fullName := s.repository.fullName
  installationId := s.repository.installationId
  isPrivate := s.repository.isPrivate
  providerRepositoryId := s.repository.providerRepositoryId
  repositoryId := s.key.id
  status := s.status
  tenantId := s.key.tenantId

def repositoryFromRow (s : SelectedRepository) : Except ListRepositoriesError GitHubRepositoryAuthorization :=
  if !(providerId s.repository.installationId && providerId s.repository.providerRepositoryId) then .error .metadata
  else if !(opaqueId s.key.id && opaqueId s.key.tenantId) then .error .schema
  else .ok s.authorization

structure ListRepositoriesInput where
  cursor : Option String
  limit : Int
  tenantId : String
  deriving DecidableEq, Repr

def ListRepositoriesInput.valid (i : ListRepositoriesInput) : Bool :=
  i.cursor.all opaqueId && 1 ≤ i.limit && i.limit ≤ 100 && opaqueId i.tenantId

structure GitHubRepositoryPage where
  nextCursor : Option String
  repositories : List GitHubRepositoryAuthorization
  deriving DecidableEq, Repr

section listing

variable [LinearOrder Collated]

def SelectedRepository.collated (s : SelectedRepository) : Collated := ⟨s.key.id⟩

def GitHubRepositoryAuthorization.collated (r : GitHubRepositoryAuthorization) : Collated := ⟨r.repositoryId⟩

/-- The rows of a tenant that are active under an active installation. -/
def Platform.activeRepositories (p : Platform ρ σ) (tenantId : String) : List SelectedRepository :=
  p.selectRepository.filter fun s =>
    s.key.tenantId == tenantId && s.repository.status == .active && s.installation.status == .active

/-- `WHERE … AND r.repository_id > $2 ORDER BY r.repository_id LIMIT $3` -/
def ListRepositoriesInput.query (i : ListRepositoriesInput) (p : Platform ρ σ) : List SelectedRepository :=
  (((p.activeRepositories i.tenantId).filter fun s =>
    i.cursor.all (fun cursor => decide (Collated.mk cursor < s.collated))).mergeSort
      (fun a b => decide (a.collated ≤ b.collated))).take (i.limit + 1).toNat

def listRepositories (i : ListRepositoriesInput) (p : Platform ρ σ) :
    Except ListRepositoriesError GitHubRepositoryPage := do
  if !i.valid then throw .schema
  let rows := i.query p
  let page ← (rows.take i.limit.toNat).mapM repositoryFromRow
  return ⟨if i.limit < rows.length then page.getLast?.map GitHubRepositoryAuthorization.repositoryId else none, page⟩

end listing

/-! ## Stored rows can be read -/

/-- The row passes the checks that reading it makes. -/
def RepositoryRow.readable (key : Key) (r : RepositoryRow) : Bool :=
  opaqueId key.id && providerId r.installationId && providerId r.providerRepositoryId

def Platform.Readable (p : Platform ρ σ) : Prop :=
  ∀ key r, p.repositories.get key = some r → r.readable key = true

/-- The tables, with rows that can be read. -/
structure Catalog (ρ σ : Type) where
  platform : Platform ρ σ
  readable : platform.Readable

/-- A statement that leaves readable rows readable. -/
abbrev KeepsReadable {α : Type} (x : PlatformStatement ρ σ α) : Prop :=
  Within (fun p p' : Platform ρ σ => p.Readable → p'.Readable) x

section readable

variable {α β : Type}

theorem keepsReadable_refl (p : Platform ρ σ) : p.Readable → p.Readable := id

theorem keepsReadable_trans {p p' p'' : Platform ρ σ} (h : p.Readable → p'.Readable) (h' : p'.Readable → p''.Readable) :
    p.Readable → p''.Readable := fun hp => h' (h hp)

theorem keepsReadable_pure (a : α) : KeepsReadable (pure a : PlatformStatement ρ σ α) :=
  within_pure keepsReadable_refl a

theorem keepsReadable_bind {x : PlatformStatement ρ σ α} {f : α → PlatformStatement ρ σ β} (hx : KeepsReadable x)
    (hf : ∀ a, KeepsReadable (f a)) : KeepsReadable (x >>= f) :=
  within_bind (R := fun p p' : Platform ρ σ => p.Readable → p'.Readable) keepsReadable_trans hx hf

/-- What a check has found out is known of what follows it. -/
theorem keepsReadable_require {b : Bool} {e : PlatformError} {f : Unit → PlatformStatement ρ σ β}
    (hf : b = true → KeepsReadable (f ())) : KeepsReadable (require b e >>= f) := by
  intro p a p' h
  obtain ⟨_, _, hrequire, hrest⟩ := bind_ok.mp h
  obtain ⟨hb, rfl⟩ := require_ok.mp hrequire
  exact hf hb p a p' hrest

/-- What a statement reads is the store that it runs on. -/
theorem keepsReadable_read {f : Platform ρ σ → PlatformStatement ρ σ β}
    (hf : ∀ p a p', f p p = (.ok a, p') → p.Readable → p'.Readable) : KeepsReadable (Transactions.Tx.read >>= f) := by
  intro p a p' h
  obtain ⟨_, _, hread, hrest⟩ := bind_ok.mp h
  obtain ⟨rfl, rfl⟩ := read_ok.mp hread
  exact hf p a p' hrest

theorem keepsReadable_forEach {f : α → PlatformStatement ρ σ β} {items : List α}
    (hf : ∀ a ∈ items, KeepsReadable (f a)) : KeepsReadable (forEach f items) := by
  intro p bs p' h
  induction items generalizing p bs with
  | nil =>
    obtain ⟨-, rfl⟩ := forEach_nil_ok.mp h
    exact id
  | cons a rest ih =>
    obtain ⟨b, t, bs', hfirst, hrest, -⟩ := forEach_cons_ok.mp h
    exact keepsReadable_trans (hf a List.mem_cons_self p b t hfirst)
      (ih (fun c hc => hf c (List.mem_cons_of_mem a hc)) t bs' hrest)

/-- A statement that does not touch the repositories. -/
theorem keepsReadable_of_same {x : PlatformStatement ρ σ α}
    (h : ∀ p a p', x p = (.ok a, p') → p'.repositories = p.repositories) : KeepsReadable x := by
  intro p a p' hx hreadable key r hr
  rw [h p a p' hx] at hr
  exact hreadable key r hr

end readable

section statements

variable {installation : InstallationKey} {key : Key} {row : RepositoryRow} {at' : Instant} {draws : Draws}

theorem upsertInstallation_readable (key : InstallationKey) (principalId : String) (i : VerifiedGitHubInstallation) :
    KeepsReadable (upsertInstallation key principalId i : PlatformStatement ρ σ Unit) := by
  apply keepsReadable_of_same
  intro p u p' h
  unfold upsertInstallation at h
  dsimp only at h
  split at h
  · cases h
  · split at h
    · split at h
      · rw [← (Prod.mk.inj h).2]
      · cases h
    · split at h
      · rw [← (Prod.mk.inj h).2]
      · cases h

theorem updateInstallation_readable (key : InstallationKey) (assign : InstallationRow → InstallationRow) :
    KeepsReadable (updateInstallation key assign : PlatformStatement ρ σ Unit) := by
  apply keepsReadable_of_same
  intro p u p' h
  rcases updateInstallation_ok h with ⟨-, rfl⟩ | ⟨old, -, rfl⟩ <;> rfl

theorem removeRepositories_readable (installation : InstallationKey) (at' : Instant) :
    KeepsReadable (removeRepositories installation at' : PlatformStatement ρ σ Unit) := by
  intro p u p' h hreadable key r hr
  unfold removeRepositories at h
  dsimp only at h
  split at h
  · obtain rfl := (Prod.mk.inj h).2
    dsimp only at hr
    rw [Table.get_update] at hr
    obtain ⟨old, hold, rfl⟩ := Option.map_eq_some_iff.mp hr
    have hread := hreadable key old hold
    split
    · exact hread
    · exact hread
  · cases h

theorem updateRepository_readable (hrow : row.readable key = true) :
    KeepsReadable (updateRepository key row : PlatformStatement ρ σ Unit) := by
  intro p u p' h hreadable k r hr
  obtain rfl := updateRepository_ok h
  dsimp only at hr
  rw [Table.get_set] at hr
  split at hr
  · rename_i hk
    obtain ⟨old, -, rfl⟩ := Option.map_eq_some_iff.mp hr
    exact hk ▸ hrow
  · exact hreadable k r hr

theorem insertRepository_readable (hrow : row.readable key = true) :
    KeepsReadable (insertRepository key installation row : PlatformStatement ρ σ Unit) := by
  intro p u p' h hreadable k r hr
  obtain ⟨hfresh, rfl⟩ := insertRepository_ok h
  rcases Table.get_insert_cases hfresh hr with ⟨rfl, rfl⟩ | hold
  · exact hrow
  · exact hreadable k r hold

theorem upsertRepository_readable (installation : InstallationKey)
    (hinstallation : providerId installation.installationId = true)
    (providerUpdatedAt : Option Instant) (fresh : Nat → String) {repository : VerifiedGitHubRepository}
    (hrepository : providerId repository.repositoryId = true) :
    KeepsReadable (upsertRepository installation providerUpdatedAt fresh repository : PlatformStatement ρ σ Unit) := by
  have hread : ∀ {id : String} (row : RepositoryRow), opaqueId id = true →
      row.installationId = installation.installationId → row.providerRepositoryId = repository.repositoryId →
      row.readable ⟨installation.tenantId, id⟩ = true := by
    intro id row hid hi hr
    rw [RepositoryRow.readable, hid, hi, hr, hinstallation, hrepository]
    rfl
  apply keepsReadable_read
  intro p u p' h
  cases hfound : findRepositoryRow p installation repository.repositoryId with
  | some found =>
    obtain ⟨key, old⟩ := found
    simp only [hfound] at h
    refine keepsReadable_require (fun hid => updateRepository_readable ?_) p u p' h
    rw [RepositoryRow.readable, hid]
    exact (Bool.true_and _).trans (by rw [RepositoryRow.replacing, RepositoryRow.granted, hinstallation, hrepository]; rfl)
  | none =>
    simp only [hfound] at h
    exact keepsReadable_require (fun hid => insertRepository_readable (hread _ hid rfl rfl)) p u p' h

theorem applyRepositoryTransition_readable (installation : InstallationKey)
    (hinstallation : providerId installation.installationId = true)
    {providerRepositoryId : Nat} (status : RepositoryStatus) (providerUpdatedAt : Instant) (draws : Draws)
    {repository : Option VerifiedGitHubRepository}
    (hrepository : ∀ r, repository = some r → providerId r.repositoryId = true) :
    KeepsReadable (applyRepositoryTransition installation providerRepositoryId status providerUpdatedAt draws repository
      : PlatformStatement ρ σ Unit) := by
  apply keepsReadable_read
  intro p u p' h hreadable
  cases hfound : findRepositoryRow p installation providerRepositoryId with
  | none =>
    simp only [hfound] at h
    split at h
    · rename_i r
      refine keepsReadable_require (fun hid => insertRepository_readable ?_) p u p' h hreadable
      rw [RepositoryRow.readable, RepositoryRow.granted, hid, hinstallation, hrepository r rfl]
      rfl
    · exact keepsReadable_pure () p u p' h hreadable
  | some found =>
    obtain ⟨key, old⟩ := found
    simp only [hfound] at h
    split at h
    · exact keepsReadable_pure () p u p' h hreadable
    · refine updateRepository_readable ?_ p u p' h hreadable
      have hold := hreadable key old (findRepositoryRow_some hfound).1
      cases repository <;> exact hold

theorem repositoryId_valid {i : VerifiedGitHubInstallation} (h : i.valid = true) :
    providerId i.installationId = true ∧ ∀ r ∈ i.repositories, providerId r.repositoryId = true := by
  simp only [VerifiedGitHubInstallation.valid, Bool.and_eq_true, List.all_eq_true] at h
  refine ⟨h.1.1.1.1.2, fun r hr => ?_⟩
  have hvalid := h.1.1.2 r hr
  simp only [VerifiedGitHubRepository.valid, Bool.and_eq_true] at hvalid
  exact hvalid.2

theorem reconcile_readable (tenantId : String) {i : VerifiedGitHubInstallation} (h : i.valid = true) (draws : Draws) :
    KeepsReadable (reconcile tenantId i draws : PlatformStatement ρ σ Unit) := by
  obtain ⟨hinstallation, hrepositories⟩ := repositoryId_valid h
  apply keepsReadable_bind (updateInstallation_readable _ _)
  intro _
  apply keepsReadable_bind (removeRepositories_readable _ _)
  intro _
  apply keepsReadable_bind (keepsReadable_forEach fun r hr =>
    upsertRepository_readable ⟨tenantId, i.installationId⟩ hinstallation _ _ (hrepositories r hr))
  exact fun _ => keepsReadable_pure ()

theorem adjustRepositories_readable (tenantId : String) {payload : WebhookRepositories} (h : payload.valid = true)
    (draws : Draws) : KeepsReadable (adjustRepositories tenantId payload draws : PlatformStatement ρ σ Unit) := by
  simp only [WebhookRepositories.valid, Bool.and_eq_true, List.all_eq_true] at h
  have hinstallation := h.1.1.1.1.1
  apply keepsReadable_bind (keepsReadable_forEach fun id _ => applyRepositoryTransition_readable
    ⟨tenantId, payload.id⟩ hinstallation _ _ _ (fun _ hnone => by cases hnone))
  intro _
  refine keepsReadable_bind (keepsReadable_forEach fun added hadded => ?_) fun _ => keepsReadable_pure ()
  have hvalid := h.1.1.1.2 added hadded
  simp only [AddedRepository.valid, Bool.and_eq_true] at hvalid
  cases hcomplete : added.complete with
  | none => exact keepsReadable_pure ()
  | some repository =>
    apply applyRepositoryTransition_readable ⟨tenantId, payload.id⟩ hinstallation
    intro r hr
    obtain rfl := Option.some.inj hr
    unfold AddedRepository.complete at hcomplete
    split at hcomplete
    · obtain rfl := Option.some.inj hcomplete
      exact hvalid.2
    · cases hcomplete

theorem applyRepositoryWebhook_readable (tenantId : String) {payload : WebhookRepositories} (h : payload.valid = true)
    (draws : Draws) {snapshot : Option VerifiedGitHubInstallation}
    (hsnapshot : snapshot.all VerifiedGitHubInstallation.valid = true) :
    KeepsReadable (applyRepositoryWebhook tenantId payload draws snapshot : PlatformStatement ρ σ AuditEvent) := by
  cases snapshot with
  | some i =>
    apply keepsReadable_require
    intro _
    exact keepsReadable_bind (reconcile_readable tenantId hsnapshot draws) fun _ => keepsReadable_pure _
  | none => exact keepsReadable_bind (adjustRepositories_readable tenantId h draws) fun _ => keepsReadable_pure _

theorem applyInstallationWebhook_readable (tenantId : String) (payload : WebhookInstallation) (draws : Draws) :
    KeepsReadable (applyInstallationWebhook tenantId payload draws : PlatformStatement ρ σ (Option AuditEvent)) := by
  unfold applyInstallationWebhook
  split
  · exact keepsReadable_pure none
  · apply keepsReadable_read
    intro p u p' h
    cases hrow : p.installations.get ⟨tenantId, payload.id⟩ with
    | none =>
      simp only [hrow] at h
      exact keepsReadable_pure none p u p' h
    | some row =>
      simp only [hrow] at h
      split at h
      · exact keepsReadable_pure none p u p' h
      · refine keepsReadable_bind (updateInstallation_readable _ _) (fun _ => ?_) p u p' h
        refine keepsReadable_bind ?_ fun _ => keepsReadable_pure _
        split
        · exact removeRepositories_readable _ _
        · exact keepsReadable_pure ()

theorem appendAuthorizationAudit_readable (event : AuditEvent) :
    KeepsReadable (appendAuthorizationAudit event : PlatformStatement ρ σ Unit) :=
  keepsReadable_of_same fun _ _ _ h => (appendAuthorizationAudit_unlinked h).repositories

theorem completeDelivery_readable (id : String) (at' : Instant) (tenantId : Option String) (outcome : DeliveryOutcome) :
    KeepsReadable (completeDelivery id at' tenantId outcome : PlatformStatement ρ σ Unit) :=
  keepsReadable_of_same fun _ _ _ h => (completeDelivery_unlinked h).repositories

theorem repositories_valid {e : GitHubWebhookEnvelope} {payload : WebhookRepositories}
    (h : e.repositories = some payload) : payload.valid = true := by
  unfold GitHubWebhookEnvelope.repositories at h
  split at h
  · exact (Option.filter_eq_some_iff.mp h).2
  · cases h

theorem applyDelivery_readable (tenantId : String) (e : GitHubWebhookEnvelope) (draws : Draws)
    {snapshot : Option VerifiedGitHubInstallation} (hsnapshot : snapshot.all VerifiedGitHubInstallation.valid = true) :
    KeepsReadable (applyDelivery tenantId e snapshot draws : PlatformStatement ρ σ (Option AuditEvent)) := by
  unfold applyDelivery
  split
  · exact applyInstallationWebhook_readable _ _ _
  · rename_i payload _ hpayload
    exact keepsReadable_bind (applyRepositoryWebhook_readable tenantId (repositories_valid hpayload) draws hsnapshot)
      fun _ => keepsReadable_pure _
  · exact keepsReadable_pure none

theorem firstDelivery_readable (e : GitHubWebhookEnvelope) (draws : Draws)
    {snapshot : Option VerifiedGitHubInstallation} (hsnapshot : snapshot.all VerifiedGitHubInstallation.valid = true) :
    KeepsReadable (firstDelivery e snapshot draws : PlatformStatement ρ σ Unit) := by
  apply keepsReadable_read
  intro p u p' h
  cases howner : e.installationId.bind (findOwner p) with
  | none =>
    simp only [howner] at h
    exact completeDelivery_readable _ _ _ _ p u p' h
  | some tenantId =>
    simp only [howner] at h
    refine keepsReadable_bind (applyDelivery_readable _ e draws hsnapshot) (fun audit => ?_) p u p' h
    refine keepsReadable_bind (completeDelivery_readable _ _ _ _) fun _ => ?_
    cases audit with
    | none => exact keepsReadable_pure ()
    | some event => exact appendAuthorizationAudit_readable event

theorem redelivery_readable (e : GitHubWebhookEnvelope) (draws : Draws)
    {snapshot : Option VerifiedGitHubInstallation} (hsnapshot : snapshot.all VerifiedGitHubInstallation.valid = true) :
    KeepsReadable (redelivery e snapshot draws : PlatformStatement ρ σ Unit) := by
  unfold redelivery
  split
  · rename_i payload i hpayload
    apply keepsReadable_read
    intro p u p' h
    cases howner : findOwner p payload.id with
    | none =>
      simp only [howner] at h
      exact keepsReadable_pure () p u p' h
    | some tenantId =>
      simp only [howner] at h
      exact keepsReadable_bind (applyRepositoryWebhook_readable _ (repositories_valid hpayload) draws hsnapshot)
        (fun _ => keepsReadable_pure ()) p u p' h
  · exact keepsReadable_pure ()

theorem processWebhook_readable (e : GitHubWebhookEnvelope) (snapshot : Option VerifiedGitHubInstallation)
    (draws : Draws) : KeepsReadable (processWebhook e snapshot draws : PlatformStatement ρ σ Disposition) := by
  apply keepsReadable_require
  intro hvalid
  rw [Bool.and_eq_true] at hvalid
  apply keepsReadable_bind (keepsReadable_of_same fun _ _ _ h => (insertDelivery_ok h).1.repositories)
  intro inserted
  split
  · exact keepsReadable_bind (firstDelivery_readable e draws hvalid.2) fun _ => keepsReadable_pure _
  · exact keepsReadable_bind (redelivery_readable e draws hvalid.2) fun _ => keepsReadable_pure _

theorem bind_readable (actor : GitHubInstallationActor) (i : VerifiedGitHubInstallation) (draws : Draws) :
    KeepsReadable (ReproForge.bind actor i draws : PlatformStatement ρ σ Unit) := by
  apply keepsReadable_require
  intro hvalid
  rw [Bool.and_eq_true] at hvalid
  obtain ⟨hinstallation, hrepositories⟩ := repositoryId_valid hvalid.2
  apply keepsReadable_bind (upsertInstallation_readable _ _ _)
  intro _
  apply keepsReadable_read
  intro p u p' h
  refine keepsReadable_bind (removeRepositories_readable _ _) (fun _ => ?_) p u p' h
  refine keepsReadable_bind (keepsReadable_forEach fun r hr => ?_) fun _ => appendAuthorizationAudit_readable _
  exact upsertRepository_readable ⟨actor.tenantId, i.installationId⟩ hinstallation _ _
    (hrepositories r hr)

end statements

/-- Whatever callbacks and deliveries store can be read. -/
theorem Linkage.readable (db : Db ρ σ) (principals : Table Key PrincipalRow) (actions : List (LinkageAction ρ σ)) :
    (Runs.run Linkage.step actions (Linkage.initial db principals)).platform.Readable := by
  have hcommit : ∀ {α : Type} (fate : Objects.Fate) {x : PlatformStatement ρ σ α} {p : Platform ρ σ},
      KeepsReadable x → p.Readable → (commit fate x p).2.Readable := by
    intro α fate x p hx hp
    rcases commit_cases fate x p with heq | ⟨a, p', hok, heq⟩
    · rw [heq]
      exact hp
    · rw [heq]
      exact hx p a p' hok hp
  have hstep : ∀ (w : Linkage ρ σ) action, w.platform.Readable → True → (Linkage.step action w).platform.Readable := by
    intro w action hw _
    cases action with
    | receive n e => exact hw
    | callback n actor stateHash id => exact hw
    | others db principals states => exact hw
    | advance n env =>
      rw [Linkage.step, Linkage.advance]
      split
      · split
        · exact hw
        · split <;> exact hw
      · rename_i e snapshot _
        have hkeeps := hcommit env.fate (processWebhook_readable e snapshot env.draws) hw
        split
        · rename_i heq
          rw [heq] at hkeeps
          exact hkeeps
        · exact hw
      · rename_i actor stateHash id _
        have hconsume : KeepsReadable (consume actor stateHash env.draws.at' : PlatformStatement ρ σ Bool) :=
          keepsReadable_of_same fun _ _ _ h => (Linkage.Sound.consume_unlinked h).repositories
        have hkeeps := hcommit env.fate hconsume hw
        split
        · rename_i heq
          rw [heq] at hkeeps
          exact hkeeps
        · exact hw
      · split
        · exact hw
        · split <;> exact hw
      · rename_i actor snapshot _
        have hkeeps := hcommit env.fate (bind_readable actor snapshot env.draws) hw
        split
        · rename_i heq
          rw [heq] at hkeeps
          exact hkeeps
        · exact hw
      · exact hw
      · exact hw
  have hinitial : (Linkage.initial db principals).platform.Readable := fun _ _ hget => nomatch hget
  have hguard : Runs.Guarded Linkage.step (fun _ _ => True) actions (Linkage.initial db principals) :=
    Runs.guarded_of_forall (fun _ _ => trivial) _
  exact Runs.run_invariant hstep hinitial hguard

/-! ## The pages of a tenant -/

/-- The repository is active under an active installation, and the listing shows it so. -/
def Listed (p : Platform ρ σ) (tenantId : String) (r : GitHubRepositoryAuthorization) : Prop :=
  ∃ row i, p.repositories.get ⟨tenantId, r.repositoryId⟩ = some row ∧ row.status = .active ∧
    p.installations.get ⟨tenantId, row.installationId⟩ = some i ∧ i.status = .active ∧
    r = (SelectedRepository.mk ⟨tenantId, r.repositoryId⟩ row i).authorization

/-- The repositories of a tenant that are listed. -/
def listing (tenantId : String) (c : Catalog ρ σ) : List GitHubRepositoryAuthorization :=
  (c.platform.activeRepositories tenantId).map SelectedRepository.authorization

section listing

variable {p : Platform ρ σ} {tenantId : String}

theorem mem_selectRepository {s : SelectedRepository} : s ∈ p.selectRepository ↔
    p.repositories.get s.key = some s.repository ∧
      p.installations.get ⟨s.key.tenantId, s.repository.installationId⟩ = some s.installation := by
  rw [Platform.selectRepository, List.mem_filterMap]
  constructor
  · rintro ⟨row, hrow, hs⟩
    obtain ⟨i, hi, rfl⟩ := Option.map_eq_some_iff.mp hs
    exact ⟨Table.get_eq_some.mpr hrow, hi⟩
  · rintro ⟨hrow, hi⟩
    exact ⟨(s.key, s.repository), Table.get_eq_some.mp hrow, Option.map_eq_some_iff.mpr ⟨s.installation, hi, rfl⟩⟩

theorem mem_activeRepositories {s : SelectedRepository} : s ∈ p.activeRepositories tenantId ↔
    s ∈ p.selectRepository ∧ s.key.tenantId = tenantId ∧ s.repository.status = .active ∧
      s.installation.status = .active := by
  rw [Platform.activeRepositories, List.mem_filter]
  simp only [Bool.and_eq_true, beq_iff_eq, and_assoc]

theorem mem_listing {c : Catalog ρ σ} {r : GitHubRepositoryAuthorization} :
    r ∈ listing tenantId c ↔ Listed c.platform tenantId r := by
  rw [listing, List.mem_map]
  constructor
  · rintro ⟨s, hs, rfl⟩
    obtain ⟨hselect, rfl, hactive, hinstallation⟩ := mem_activeRepositories.mp hs
    obtain ⟨hrow, hi⟩ := mem_selectRepository.mp hselect
    exact ⟨s.repository, s.installation, hrow, hactive, hi, hinstallation, rfl⟩
  · rintro ⟨row, i, hrow, hactive, hi, hinstallation, hr⟩
    refine ⟨⟨⟨tenantId, r.repositoryId⟩, row, i⟩, mem_activeRepositories.mpr ⟨?_, rfl, hactive, hinstallation⟩, hr.symm⟩
    exact mem_selectRepository.mpr ⟨hrow, hi⟩

/-- No two rows of a tenant have one identifier. -/
theorem activeRepositories_nodup (p : Platform ρ σ) (tenantId : String) :
    ((p.activeRepositories tenantId).map (fun s => s.key.id)).Nodup := by
  have hkeys : (p.selectRepository.map SelectedRepository.key).Nodup := by
    have hsub : ∀ rows : List (Key × RepositoryRow),
        ((rows.filterMap fun row => (p.installations.get ⟨row.1.tenantId, row.2.installationId⟩).map
          (SelectedRepository.mk row.1 row.2)).map SelectedRepository.key).Sublist (rows.map Prod.fst) := by
      intro rows
      induction rows with
      | nil => exact List.Sublist.refl _
      | cons row rows ih =>
        rw [List.filterMap_cons, List.map_cons]
        cases p.installations.get ⟨row.1.tenantId, row.2.installationId⟩ with
        | none => exact ih.cons _
        | some i => exact ih.cons_cons _
    exact (hsub p.repositories.rows).nodup p.repositories.nodup
  have hactive : ((p.activeRepositories tenantId).map SelectedRepository.key).Nodup :=
    (List.filter_sublist.map _).nodup hkeys
  have hinj : ∀ k ∈ (p.activeRepositories tenantId).map SelectedRepository.key,
      ∀ k' ∈ (p.activeRepositories tenantId).map SelectedRepository.key, k.id = k'.id → k = k' := by
    intro k hk k' hk' hid
    obtain ⟨s, hs, rfl⟩ := List.mem_map.mp hk
    obtain ⟨s', hs', rfl⟩ := List.mem_map.mp hk'
    have htenant := (mem_activeRepositories.mp hs).2.1.trans (mem_activeRepositories.mp hs').2.1.symm
    cases hs₁ : s.key with
    | mk tenant id =>
      cases hs₂ : s'.key with
      | mk tenant' id' =>
        rw [hs₁, hs₂] at hid htenant
        rw [show id = id' from hid, show tenant = tenant' from htenant]
  have hids := hactive.map_on hinj
  rw [List.map_map] at hids
  exact hids

theorem repositoryFromRow_ok {c : Catalog ρ σ} (htenant : opaqueId tenantId = true) {s : SelectedRepository}
    (h : s ∈ c.platform.activeRepositories tenantId) : repositoryFromRow s = .ok s.authorization := by
  obtain ⟨hselect, hsame, -⟩ := mem_activeRepositories.mp h
  have hread := c.readable s.key s.repository (mem_selectRepository.mp hselect).1
  simp only [RepositoryRow.readable, Bool.and_eq_true] at hread
  obtain ⟨⟨hid, hinstallation⟩, hprovider⟩ := hread
  rw [repositoryFromRow, hinstallation, hprovider, hid, hsame, htenant]
  rfl

end listing

section pages

variable [LinearOrder Collated] {limit : Int} {tenantId : String}

/-- The page of a catalog behind a cursor, when there is one. -/
def fetchPage (limit : Int) (tenantId : String) (c : Catalog ρ σ) (cursor : Option Collated) :
    Option (Keyset.Page Collated GitHubRepositoryAuthorization) :=
  match listRepositories ⟨cursor.map Collated.text, limit, tenantId⟩ c.platform with
  | .ok page => some ⟨page.repositories, page.nextCursor.map Collated.mk⟩
  | .error _ => none

omit [LinearOrder Collated] in
theorem collated_nodup (tenantId : String) (c : Catalog ρ σ) :
    ((listing tenantId c).map GitHubRepositoryAuthorization.collated).Nodup := by
  have hids := (activeRepositories_nodup c.platform tenantId).map
    (f := Collated.mk) fun _ _ h => congrArg Collated.text h
  rw [List.map_map] at hids
  rw [listing, List.map_map]
  exact hids

/-- The rows that the query finds are how the listing goes on behind the cursor. -/
theorem query_eq (tenantId : String) (hlimit : 0 ≤ limit) (cursor : Option Collated) (p : Platform ρ σ) :
    ListRepositoriesInput.query ⟨cursor.map Collated.text, limit, tenantId⟩ p =
      (Keyset.beyond SelectedRepository.collated cursor (p.activeRepositories tenantId)).take (limit.toNat + 1) := by
  have hsucc : (limit + 1).toNat = limit.toNat + 1 := by omega
  rw [ListRepositoriesInput.query, Keyset.beyond, hsucc]
  cases cursor <;> rfl

omit [LinearOrder Collated] in
theorem mapM_repositoryFromRow {c : Catalog ρ σ} (htenant : opaqueId tenantId = true) {rows : List SelectedRepository}
    (h : ∀ s ∈ rows, s ∈ c.platform.activeRepositories tenantId) :
    rows.mapM repositoryFromRow = .ok (rows.map SelectedRepository.authorization) := by
  induction rows with
  | nil => rfl
  | cons s rows ih =>
    rw [List.mapM_cons, repositoryFromRow_ok htenant (h s List.mem_cons_self),
      ih fun s' hs' => h s' (List.mem_cons_of_mem s hs')]
    rfl

theorem fetchPage_eq (hleast : 1 ≤ limit) (hmost : limit ≤ 100) (htenant : opaqueId tenantId = true)
    {cursor : Option Collated} (hcursor : cursor.all (fun k => opaqueId k.text) = true) (c : Catalog ρ σ) :
    fetchPage limit tenantId c cursor =
      some (Keyset.page GitHubRepositoryAuthorization.collated limit.toNat cursor (listing tenantId c)) := by
  have hvalid : (ListRepositoriesInput.mk (cursor.map Collated.text) limit tenantId).valid = true := by
    have hall : (cursor.map Collated.text).all opaqueId = true := by
      cases cursor with
      | none => rfl
      | some k => exact hcursor
    rw [ListRepositoriesInput.valid, hall, htenant, decide_eq_true hleast, decide_eq_true hmost]
    rfl
  have hquery := query_eq tenantId (by omega : 0 ≤ limit) cursor c.platform
  let found := (Keyset.beyond SelectedRepository.collated cursor
    (c.platform.activeRepositories tenantId)).take (limit.toNat + 1)
  have hrows : ∀ s ∈ found.take limit.toNat, s ∈ c.platform.activeRepositories tenantId :=
    fun s hs => (Keyset.mem_beyond.mp (List.mem_of_mem_take (List.mem_of_mem_take hs))).1
  have hpage := mapM_repositoryFromRow htenant hrows
  have hlist : listRepositories ⟨cursor.map Collated.text, limit, tenantId⟩ c.platform =
      .ok ⟨if limit < found.length then
          ((found.take limit.toNat).map SelectedRepository.authorization).getLast?.map
            GitHubRepositoryAuthorization.repositoryId else none,
        (found.take limit.toNat).map SelectedRepository.authorization⟩ := by
    rw [listRepositories, hvalid]
    simp only [hquery, hpage, found]
    rfl
  have hnext : (if limit < found.length then
      ((found.take limit.toNat).map SelectedRepository.authorization).getLast?.map
        GitHubRepositoryAuthorization.repositoryId else none).map Collated.mk =
      if limit.toNat < found.length then (found.take limit.toNat).getLast?.map SelectedRepository.collated else none := by
    by_cases hmore : limit < found.length
    · rw [if_pos hmore, if_pos (by omega), List.getLast?_map, Option.map_map, Option.map_map]
      rfl
    · rw [if_neg hmore, if_neg (by omega)]
      rfl
  rw [fetchPage, hlist, listing, Keyset.page_map]
  exact congrArg (fun next => some (Keyset.Page.mk _ next)) hnext

/-- An answer was asked for with a cursor that the schema accepts. -/
theorem fetchPage_cursor {cursor : Option Collated} {c : Catalog ρ σ}
    {page : Keyset.Page Collated GitHubRepositoryAuthorization} (h : fetchPage limit tenantId c cursor = some page) :
    cursor.all (fun k => opaqueId k.text) = true := by
  cases cursor with
  | none => rfl
  | some k =>
    rw [Option.all_some]
    by_contra hrefused
    have hinvalid : (ListRepositoriesInput.mk (some k.text) limit tenantId).valid = false := by
      rw [ListRepositoriesInput.valid, Option.all_some, Bool.not_eq_true _ |>.mp hrefused]
      rfl
    rw [fetchPage, Option.map_some, listRepositories, hinvalid] at h
    cases h

theorem serves_pages (hleast : 1 ≤ limit) (hmost : limit ≤ 100) (htenant : opaqueId tenantId = true) :
    Keyset.Serves GitHubRepositoryAuthorization.collated limit.toNat (listing (ρ := ρ) (σ := σ) tenantId)
      (fetchPage limit tenantId) where
  positive := by omega
  keys := collated_nodup tenantId
  answers := by
    intro c cursor page h
    have hpage := fetchPage_eq hleast hmost htenant (fetchPage_cursor h) c
    exact Option.some.inj (h.symm.trans hpage)

omit [LinearOrder Collated] in
/-- What a catalog lists can be the next cursor. -/
theorem listing_cursor {c : Catalog ρ σ} {k : Collated}
    (h : k ∈ (listing tenantId c).map GitHubRepositoryAuthorization.collated) : opaqueId k.text = true := by
  obtain ⟨r, hr, rfl⟩ := List.mem_map.mp h
  obtain ⟨row, -, hrow, -⟩ := mem_listing.mp hr
  have hread := c.readable _ row hrow
  simp only [RepositoryRow.readable, Bool.and_eq_true] at hread
  exact hread.1.1

/-- Following the cursors over a catalog that stays as it is ends, and it hands
out the repositories that are active under an active installation, once each and
in the order of their identifiers. Whatever changes between two pages, a
repository that is listed for every page is handed out exactly once. -/
theorem repository_pages (hleast : 1 ≤ limit) (hmost : limit ≤ 100) (htenant : opaqueId tenantId = true) :
    (∀ c : Catalog ρ σ,
      (∃ n ≤ (listing tenantId c).length, ∃ pages,
        Keyset.Traversal (fetchPage limit tenantId) none (List.replicate (n + 1) c) pages) ∧
      ∀ states pages, (∀ d ∈ states, d = c) → Keyset.Traversal (fetchPage limit tenantId) none states pages →
        pages.flatten.Pairwise (fun a b => a.collated < b.collated) ∧
          ∀ r, r ∈ pages.flatten ↔ Listed c.platform tenantId r) ∧
    ∀ (states : List (Catalog ρ σ)) pages, Keyset.Traversal (fetchPage limit tenantId) none states pages →
      pages.flatten.Pairwise (fun a b => a.collated < b.collated) ∧
        (∀ r ∈ pages.flatten, ∃ c ∈ states, Listed c.platform tenantId r) ∧
        ∀ id, (∀ c ∈ states, ∃ r, Listed c.platform tenantId r ∧ r.repositoryId = id) →
          (pages.flatten.map GitHubRepositoryAuthorization.repositoryId).count id = 1 := by
  have hserves := serves_pages (ρ := ρ) (σ := σ) hleast hmost htenant
  refine ⟨fun c => ⟨?_, ?_⟩, ?_⟩
  · have hlength := (Keyset.beyond_perm GitHubRepositoryAuthorization.collated (listing tenantId c)).length_eq
    refine hserves.exists_traversal (s := c) ?_ (listing tenantId c).length none (fun _ h => nomatch h)
      (Nat.le_of_eq hlength)
    intro cursor hcursor
    refine ⟨_, fetchPage_eq hleast hmost htenant ?_ c⟩
    cases cursor with
    | none => rfl
    | some k => exact listing_cursor (hcursor k rfl)
  · intro states pages hstates ht
    refine ⟨ht.sorted hserves, fun r => ?_⟩
    rw [ht.flatten_eq hserves hstates, Keyset.mem_beyond, mem_listing]
    exact and_iff_left (.of_none _ r)
  · intro states pages ht
    have hsorted := ht.sorted hserves
    refine ⟨hsorted, ?_, ?_⟩
    · intro r hr
      obtain ⟨⟨c, hc, hlisted⟩, -⟩ := ht.listed hserves hr
      exact ⟨c, hc, mem_listing.mp hlisted⟩
    · intro id hid
      have hnodup : (pages.flatten.map GitHubRepositoryAuthorization.repositoryId).Nodup := by
        apply List.pairwise_map.mpr
        refine hsorted.imp ?_
        intro a b hab heq
        exact absurd (congrArg Collated.mk heq) (ne_of_lt hab)
      have hkey : Collated.mk id ∈ pages.flatten.map GitHubRepositoryAuthorization.collated := by
        apply ht.complete hserves (fun _ h => nomatch h)
        intro c hc
        obtain ⟨r, hr, rfl⟩ := hid c hc
        exact List.mem_map.mpr ⟨r, mem_listing.mpr hr, rfl⟩
      obtain ⟨r, hr, heq⟩ := List.mem_map.mp hkey
      exact List.count_eq_one_of_mem hnodup (List.mem_map.mpr ⟨r, hr, congrArg Collated.text heq⟩)

end pages

end ReproForge

/-! ## A tenant with one listed repository -/

namespace ReproForge.Sample.Pages

/-- The collation "C" -/
scoped instance : LinearOrder Collated :=
  LinearOrder.lift' Collated.text fun a b h => by
    cases a
    cases b
    exact congrArg Collated.mk h

def installation : InstallationRow where
  linkedByPrincipalId := "owner-1"
  accountId := 9001
  accountLogin := "acme"
  repositorySelection := .selected
  status := .active
  providerUpdatedAt := none
  createdAt := 0
  updatedAt := 0
  suspendedAt := none
  removedAt := none

def repository (providerId : Nat) (status : RepositoryStatus) : RepositoryRow where
  installationId := 7001
  providerRepositoryId := providerId
  fullName := "acme/web"
  defaultBranch := "main"
  isPrivate := true
  status := status
  providerUpdatedAt := none
  createdAt := 0
  updatedAt := 0
  removedAt := none

def rows : List (Key × RepositoryRow) :=
  [(⟨"tenant-1", "repo-2"⟩, repository 8002 .removed), (⟨"tenant-1", "repo-1"⟩, repository 8001 .active)]

def catalog : Catalog Empty Empty where
  platform :=
    { Platform.initial (Db.initial 0 .empty) .empty with
      installations := KeyedTable.Table.empty.insert ⟨"tenant-1", 7001⟩ installation
      repositories := ⟨rows, by decide⟩ }
  readable := by
    intro key r hget
    have hall : ∀ row ∈ rows, row.2.readable row.1 = true := by decide
    exact hall _ (KeyedTable.mem_of_lookup hget)

end ReproForge.Sample.Pages

namespace ReproForge

open Sample.Pages

theorem repository_pages_sample :
    ∃ states pages, (∀ d ∈ states, d = catalog) ∧
      Keyset.Traversal (fetchPage 1 "tenant-1") none states pages ∧
      ∀ r, r ∈ pages.flatten ↔ r ∈ listing "tenant-1" catalog := by
  obtain ⟨⟨n, -, pages, ht⟩, hall⟩ := (repository_pages (ρ := Empty) (σ := Empty)
    (by decide : (1 : Int) ≤ 1) (by decide) (by decide : opaqueId "tenant-1" = true)).1 catalog
  refine ⟨_, pages, fun d hd => List.eq_of_mem_replicate hd, ht, fun r => ?_⟩
  rw [(hall _ pages (fun d hd => List.eq_of_mem_replicate hd) ht).2 r, mem_listing]

end ReproForge
