import ReproForge.Convergence

/-!
# Repository events

A delivery without a snapshot names repositories that were added and removed.
A row that is stored takes the events over as a register does. A repository
without a row forgets a removal, and an older addition brings it back.
-/
namespace ReproForge

open KeyedTable Transactions Transactions.Tx GitHubAuthorizationState Registers

variable {ρ σ : Type} {p p' : Platform ρ σ} {installation : InstallationKey}

/-! ## The events of one repository -/

/-- A repository without a row is not authorized. -/
def repositoryStatus (p : Platform ρ σ) (installation : InstallationKey) (r : Nat) : GitHubAuthorizationStatus :=
  match findRepositoryRow p installation r with
  | none => .removed
  | some (_, row) => row.authorization.status

/-- What the store knows of a repository. -/
def authorizationOf (p : Platform ρ σ) (installation : InstallationKey) (r : Nat) : Option GitHubAuthorizationState :=
  (findRepositoryRow p installation r).map (fun found => found.2.authorization)

/-- A repository without a row takes over an addition and drops a removal. -/
def register (current : Option GitHubAuthorizationState) (t : GitHubAuthorizationTransition) :
    Option GitHubAuthorizationState :=
  match current with
  | some s => some (reduceGitHubAuthorizationState s t)
  | none => if t.status = .active then some t.state else none

def WebhookRepositories.removes (w : WebhookRepositories) (r : Nat) : Bool := w.repositoriesRemoved.contains r

def WebhookRepositories.adds (w : WebhookRepositories) (r : Nat) : Bool :=
  w.repositoriesAdded.any (fun a => a.id == r && a.complete.isSome)

/-- The transitions of one repository that a delivery brings, removals first. -/
def WebhookRepositories.eventsOf (r : Nat) (w : WebhookRepositories) : List GitHubAuthorizationTransition :=
  (w.repositoriesRemoved.filter (· == r)).map (fun _ => ⟨w.updatedAt, .removed⟩) ++
    (w.repositoriesAdded.filter (fun a => a.id == r && a.complete.isSome)).map (fun _ => ⟨w.updatedAt, .active⟩)

theorem repositoryStatus_eq (p : Platform ρ σ) (installation : InstallationKey) (r : Nat) :
    repositoryStatus p installation r = ((authorizationOf p installation r).map status).getD .removed := by
  unfold repositoryStatus authorizationOf
  cases findRepositoryRow p installation r <;> rfl

theorem foldl_register_some (s : GitHubAuthorizationState) (events : List GitHubAuthorizationTransition) :
    events.foldl register (some s) = some (statusFold s events) := by
  induction events generalizing s with
  | nil => rfl
  | cons t rest ih => exact ih (reduceGitHubAuthorizationState s t)

theorem foldl_register_removals {events : List GitHubAuthorizationTransition}
    (h : ∀ t ∈ events, t.status = .removed) : events.foldl register none = none := by
  induction events with
  | nil => rfl
  | cons t rest ih =>
    have ht : register none t = none := by
      rw [register, if_neg (by rw [h t List.mem_cons_self]; decide)]
    rw [List.foldl_cons, ht]
    exact ih (fun t' ht' => h t' (List.mem_cons_of_mem t ht'))

/-- A removed repository stays removed. -/
theorem statusFold_removed {s : GitHubAuthorizationState} {events : List GitHubAuthorizationTransition}
    (h : s.status = .removed ∨ ∃ t ∈ events, t.status = .removed) : (statusFold s events).status = .removed := by
  have hle := le_settle rank s (events.map GitHubAuthorizationTransition.state)
  rw [← statusFold_eq] at hle
  by_contra hne
  have hbelow : ∀ x : GitHubAuthorizationState, x.status = .removed → x.rank ≤ (statusFold s events).rank → False := by
    intro x hx hrank
    exact absurd hrank (not_le.mpr (rank_lt_iff.mpr (.inl ⟨hne, hx⟩)))
  rcases h with hs | ⟨t, ht, hremoved⟩
  · exact hbelow s hs hle.1
  · exact hbelow t.state hremoved (hle.2 _ (List.mem_map_of_mem ht))

theorem statusFold_active {s : GitHubAuthorizationState} {events : List GitHubAuthorizationTransition}
    (hs : s.status = .active) (h : ∀ t ∈ events, t.status = .active) : (statusFold s events).status = .active := by
  rw [statusFold_eq]
  rcases settle_mem rank s (events.map GitHubAuthorizationTransition.state) with he | hm
  · rw [he]
    exact hs
  · obtain ⟨t, ht, he⟩ := List.mem_map.mp hm
    rw [← he]
    exact h t ht

theorem status_of_rank_eq {x y : GitHubAuthorizationState} (h : x.rank = y.rank) : x.status = y.status := by
  have hrank := toLex.injective h
  rw [Prod.mk.injEq] at hrank
  have hprecedence := (Prod.mk.inj (toLex.injective hrank.2)).2
  revert hprecedence
  cases x.status <;> cases y.status <;> simp [GitHubAuthorizationStatus.precedence]

/-- More events never rank lower. -/
theorem statusFold_rank_le {s : GitHubAuthorizationState} {events events' : List GitHubAuthorizationTransition}
    (hsub : ∀ t ∈ events, t ∈ events') : (statusFold s events).rank ≤ (statusFold s events').rank := by
  have hle := le_settle rank s (events'.map GitHubAuthorizationTransition.state)
  rw [← statusFold_eq] at hle
  rcases settle_mem rank s (events.map GitHubAuthorizationTransition.state) with he | hm
  · rw [statusFold_eq s events, he]
    exact hle.1
  · rw [← statusFold_eq] at hm
    obtain ⟨t, ht, he⟩ := List.mem_map.mp hm
    rw [← he]
    exact hle.2 _ (List.mem_map_of_mem (hsub t ht))

/-- A stored repository does not see the order of its events, nor how often they come. -/
theorem statusFold_congr {s : GitHubAuthorizationState} {events events' : List GitHubAuthorizationTransition}
    (h : ∀ t, t ∈ events ↔ t ∈ events') : (statusFold s events).status = (statusFold s events').status :=
  status_of_rank_eq
    (le_antisymm (statusFold_rank_le fun t => (h t).mp) (statusFold_rank_le fun t => (h t).mpr))

/-- Once an addition has stored the repository, a removal is final. -/
theorem foldl_register_removed {before after : List GitHubAuthorizationTransition}
    (hadded : ∃ t ∈ before, t.status = .active) (hremoved : ∃ t ∈ after, t.status = .removed)
    (current : Option GitHubAuthorizationState) :
    (((before ++ after).foldl register current).map status) = some .removed := by
  have hstored : ∃ s, before.foldl register current = some s := by
    obtain ⟨t, ht, hactive⟩ := hadded
    obtain ⟨l, l', rfl⟩ := List.append_of_mem ht
    rw [List.foldl_append, List.foldl_cons]
    cases l.foldl register current with
    | some s => exact ⟨_, foldl_register_some _ _⟩
    | none =>
      rw [register, if_pos hactive]
      exact ⟨_, foldl_register_some _ _⟩
  obtain ⟨s, hs⟩ := hstored
  rw [List.foldl_append, hs, foldl_register_some, Option.map_some, statusFold_removed (.inr hremoved)]

/-- Additions alone store the repository as active. -/
theorem foldl_register_active {events : List GitHubAuthorizationTransition} (hne : events ≠ [])
    (h : ∀ t ∈ events, t.status = .active) : (events.foldl register none).map status = some .active := by
  cases events with
  | nil => exact absurd rfl hne
  | cons t rest =>
    have ht := h t List.mem_cons_self
    rw [List.foldl_cons, register, if_pos ht, foldl_register_some, Option.map_some,
      statusFold_active (show t.state.status = .active from ht) (fun t' ht' => h t' (List.mem_cons_of_mem t ht'))]

namespace WebhookRepositories

variable {w : WebhookRepositories} {r : Nat}

theorem mem_eventsOf {t : GitHubAuthorizationTransition} : t ∈ w.eventsOf r ↔ t.at' = w.updatedAt ∧
    ((t.status = .removed ∧ w.removes r = true) ∨ (t.status = .active ∧ w.adds r = true)) := by
  obtain ⟨at', status⟩ := t
  simp only [eventsOf, removes, adds, List.mem_append, List.mem_map, List.mem_filter, List.any_eq_true,
    GitHubAuthorizationTransition.mk.injEq, List.contains_iff_mem, beq_iff_eq]
  constructor
  · rintro (⟨x, ⟨hx, rfl⟩, rfl, rfl⟩ | ⟨a, ha, rfl, rfl⟩)
    · exact ⟨rfl, .inl ⟨rfl, hx⟩⟩
    · exact ⟨rfl, .inr ⟨rfl, a, ha⟩⟩
  · rintro ⟨rfl, ⟨rfl, hx⟩ | ⟨rfl, a, ha⟩⟩
    · exact .inl ⟨r, ⟨hx, rfl⟩, rfl, rfl⟩
    · exact .inr ⟨a, ha, rfl, rfl⟩

theorem eventsOf_removes : (∃ t ∈ w.eventsOf r, t.status = .removed) ↔ w.removes r = true := by
  constructor
  · rintro ⟨t, ht, hremoved⟩
    rcases (mem_eventsOf.mp ht).2 with h | h
    · exact h.2
    · rw [hremoved] at h
      cases h.1
  · intro h
    exact ⟨⟨w.updatedAt, .removed⟩, mem_eventsOf.mpr ⟨rfl, .inl ⟨rfl, h⟩⟩, rfl⟩

theorem eventsOf_adds : (∃ t ∈ w.eventsOf r, t.status = .active) ↔ w.adds r = true := by
  constructor
  · rintro ⟨t, ht, hactive⟩
    rcases (mem_eventsOf.mp ht).2 with h | h
    · rw [hactive] at h
      cases h.1
    · exact h.2
  · intro h
    exact ⟨⟨w.updatedAt, .active⟩, mem_eventsOf.mpr ⟨rfl, .inr ⟨rfl, h⟩⟩, rfl⟩

end WebhookRepositories

/-! ## What a delivery does to one repository -/

section transitions

variable {at' : Instant} {draws : Draws} {u : Unit}

theorem authorizationOf_insert {key : Key} {row : RepositoryRow} (hfresh : p.repositories.get key = none)
    (hunder : row.under key installation = true) (r : Nat) :
    authorizationOf { p with repositories := p.repositories.insert key row } installation r =
      (authorizationOf p installation r).or (if row.providerRepositoryId = r then some row.authorization else none) := by
  unfold authorizationOf findRepositoryRow
  rw [Table.find?_insert hfresh]
  cases p.repositories.find? (fun key x => x.under key installation && x.providerRepositoryId == r) with
  | some found => rfl
  | none =>
    by_cases hr : row.providerRepositoryId = r
    · simp [hunder, hr]
    · simp [hr]

theorem authorizationOf_set {found : Key × RepositoryRow} {row' : RepositoryRow} {id : Nat}
    (hfound : findRepositoryRow p installation id = some found)
    (hunder : row'.under found.1 installation = found.2.under found.1 installation)
    (hid : row'.providerRepositoryId = found.2.providerRepositoryId) (r : Nat) :
    authorizationOf { p with repositories := p.repositories.set found.1 row' } installation r =
      if r = id then some row'.authorization else authorizationOf p installation r := by
  obtain ⟨hget, hold, hprovider⟩ := findRepositoryRow_some hfound
  have hset : findRepositoryRow { p with repositories := p.repositories.set found.1 row' } installation r =
      (findRepositoryRow p installation r).map (fun row => if row.1 = found.1 then (found.1, row') else row) :=
    Table.find?_set hget (by rw [hunder, hid])
  rw [authorizationOf, hset]
  by_cases hr : r = id
  · subst hr
    rw [if_pos rfl, hfound, Option.map_some, Option.map_some, if_pos rfl]
  · rw [if_neg hr, authorizationOf, Option.map_map]
    refine Option.map_congr fun other hother => ?_
    have hapart : other.1 ≠ found.1 := by
      intro he
      obtain ⟨hget', -, hprovider'⟩ := findRepositoryRow_some hother
      rw [he, hget] at hget'
      rw [← Option.some.inj hget'] at hprovider'
      exact hr (hprovider'.symm.trans hprovider)
    rw [Function.comp_apply, if_neg hapart]

/-- What a transition of a repository is to the events of one. -/
theorem applyRepositoryTransition_authorization {id : Nat} {status : RepositoryStatus}
    {repository : Option VerifiedGitHubRepository}
    (hrepository : (status = .active → repository.isSome = true) ∧ ∀ x, repository = some x → x.repositoryId = id)
    (h : applyRepositoryTransition installation id status at' draws repository p = (.ok u, p')) (r : Nat) :
    authorizationOf p' installation r =
      if r = id then register (authorizationOf p installation id) (status.transition at')
      else authorizationOf p installation r := by
  simp only [applyRepositoryTransition, bind_ok, read_ok] at h
  obtain ⟨_, _, ⟨rfl, rfl⟩, h⟩ := h
  cases hfound : findRepositoryRow p installation id with
  | none =>
    have hnone : authorizationOf p installation id = none := by rw [authorizationOf, hfound, Option.map_none]
    rw [hfound] at h
    dsimp only at h
    rw [hnone]
    cases status with
    | removed =>
      obtain ⟨-, rfl⟩ := pure_ok.mp h
      by_cases hr : r = id
      · rw [if_pos hr, hr, hnone]
        rfl
      · rw [if_neg hr]
    | active =>
      obtain ⟨x, hx⟩ := Option.isSome_iff_exists.mp (hrepository.1 rfl)
      subst hx
      simp only [bind_ok, require_ok] at h
      obtain ⟨_, _, ⟨-, rfl⟩, h⟩ := h
      obtain ⟨hfresh, rfl⟩ := insertRepository_ok h
      rw [authorizationOf_insert hfresh (granted_under _ _ _ _ _)]
      have hx := hrepository.2 x rfl
      by_cases hr : r = id
      · subst hr
        rw [hnone, if_pos rfl, Option.none_or, if_pos (by exact hx)]
        rfl
      · rw [if_neg hr, if_neg (by intro he; exact hr (he.symm.trans hx)), Option.or_none]
  | some found =>
    obtain ⟨-, hunder, hid⟩ := findRepositoryRow_some hfound
    have hsome : authorizationOf p installation id = some found.2.authorization := by
      rw [authorizationOf, hfound, Option.map_some]
    rw [hfound] at h
    dsimp only at h
    rw [hsome]
    split at h
    · rename_i hsame
      obtain ⟨-, rfl⟩ := pure_ok.mp h
      by_cases hr : r = id
      · rw [if_pos hr, hr, hsome, register, hsame]
      · rw [if_neg hr]
    · obtain rfl := updateRepository_ok h
      rw [authorizationOf_set hfound (by cases repository <;> rfl) (by cases repository <;> rfl)]
      have hstatus : (reduceGitHubAuthorizationState found.2.authorization (status.transition at')).status ≠
          .suspended := by
        rw [reduceGitHubAuthorizationState_eq]
        rcases absorb_eq rank found.2.authorization (status.transition at').state with he | he <;> rw [he]
        · unfold RepositoryRow.authorization
          dsimp only
          split <;> decide
        · cases status <;> simp [RepositoryStatus.transition, GitHubAuthorizationTransition.state]
      by_cases hr : r = id
      · rw [if_pos hr, if_pos hr, register]
        congr 1
        generalize reduceGitHubAuthorizationState found.2.authorization (status.transition at') = next at hstatus
        obtain ⟨time, next⟩ := next
        cases next with
        | suspended => exact absurd rfl hstatus
        | active => cases repository <;> rfl
        | removed => cases repository <;> rfl
      · rw [if_neg hr, if_neg hr]

/-- A loop hands each repository its events one after the other. -/
theorem forEach_authorization {α β : Type} {f : α → PlatformStatement ρ σ β} {items : List α}
    (installation : InstallationKey) (events : Nat → α → List GitHubAuthorizationTransition)
    (hf : ∀ a ∈ items, ∀ b p p', f a p = (.ok b, p') → ∀ r,
      authorizationOf p' installation r = (events r a).foldl register (authorizationOf p installation r))
    {replies : List β} (h : forEach f items p = (.ok replies, p')) (r : Nat) :
    authorizationOf p' installation r = (items.flatMap (events r)).foldl register (authorizationOf p installation r) := by
  induction items generalizing p replies with
  | nil =>
    obtain ⟨-, rfl⟩ := forEach_nil_ok.mp h
    rfl
  | cons a rest ih =>
    obtain ⟨b, t, _, hone, hrest, -⟩ := forEach_cons_ok.mp h
    rw [List.flatMap_cons, List.foldl_append, ← hf a List.mem_cons_self b p t hone r]
    exact ih (fun a' ha' => hf a' (List.mem_cons_of_mem a ha')) hrest

theorem flatMap_filter {α β : Type} (keep : α → Bool) (b : β) (items : List α) :
    items.flatMap (fun a => if keep a then [b] else []) = (items.filter keep).map (fun _ => b) := by
  induction items with
  | nil => rfl
  | cons a rest ih =>
    rw [List.flatMap_cons, ih, List.filter_cons]
    cases keep a <;> rfl

theorem adjustRepositories_authorization {tenantId : String} {w : WebhookRepositories}
    (h : adjustRepositories tenantId w draws p = (.ok u, p')) (r : Nat) :
    authorizationOf p' ⟨tenantId, w.id⟩ r =
      (w.eventsOf r).foldl register (authorizationOf p ⟨tenantId, w.id⟩ r) := by
  simp only [adjustRepositories, bind_ok, pure_ok] at h
  obtain ⟨_, p₁, hremoved, _, p₂, hadded, -, rfl⟩ := h
  have hfirst := forEach_authorization ⟨tenantId, w.id⟩
    (fun r id => if id == r then [⟨w.updatedAt, .removed⟩] else []) (by
      intro id _ b s s' hs r
      have hnone : (RepositoryStatus.removed = .active → (none : Option VerifiedGitHubRepository).isSome = true) ∧
          ∀ x : VerifiedGitHubRepository, none = some x → x.repositoryId = id := by simp
      rw [applyRepositoryTransition_authorization hnone hs r]
      by_cases hr : r = id
      · simp [hr, RepositoryStatus.transition]
      · simp [hr, Ne.symm hr]) hremoved r
  have hsecond := forEach_authorization ⟨tenantId, w.id⟩
    (fun r (a : AddedRepository) => if a.id == r && a.complete.isSome then [⟨w.updatedAt, .active⟩] else []) (by
      intro a _ b s s' hs r
      cases hcomplete : a.complete with
      | none =>
        simp only [hcomplete] at hs
        obtain ⟨-, rfl⟩ := pure_ok.mp hs
        simp
      | some x =>
        simp only [hcomplete] at hs
        have hx : x.repositoryId = a.id := by
          unfold AddedRepository.complete at hcomplete
          split at hcomplete
          · rw [← Option.some.inj hcomplete]
          · cases hcomplete
        have hids : ∀ y, some x = some y → y.repositoryId = a.id := by
          intro y he
          rw [← Option.some.inj he]
          exact hx
        rw [applyRepositoryTransition_authorization ⟨fun _ => rfl, hids⟩ hs r]
        by_cases hr : r = a.id
        · simp [hr, RepositoryStatus.transition]
        · simp [hr, Ne.symm hr]) hadded r
  rw [hsecond, hfirst, flatMap_filter, flatMap_filter, ← List.foldl_append]
  rfl

theorem applyRepositoryWebhook_authorization {tenantId : String} {w : WebhookRepositories} {audit : AuditEvent}
    (h : applyRepositoryWebhook tenantId w draws none p = (.ok audit, p')) (r : Nat) :
    authorizationOf p' ⟨tenantId, w.id⟩ r =
      (w.eventsOf r).foldl register (authorizationOf p ⟨tenantId, w.id⟩ r) := by
  simp only [applyRepositoryWebhook, bind_ok, pure_ok] at h
  obtain ⟨_, p₁, hadjust, -, rfl⟩ := h
  exact adjustRepositories_authorization hadjust r

end transitions

/-! ## Deliveries in any order -/

structure RepositoryDelivery where
  deliveryId : String
  payload : WebhookRepositories
  deriving DecidableEq, Repr

/-- Deliveries about the repositories of one installation, every addition with all its metadata. -/
structure RepositoryDeliveries (installation : InstallationKey) where
  events : List RepositoryDelivery
  own : ∀ d ∈ events, d.payload.id = installation.installationId
  complete : ∀ d ∈ events, ∀ a ∈ d.payload.repositoriesAdded, a.complete.isSome = true

namespace RepositoryDeliveries

/-- Each delivery is processed at least once, in any order. -/
def Arranges (ds : RepositoryDeliveries installation) (arrangement : List (RepositoryDelivery × Draws)) : Prop :=
  ∀ d, d ∈ arrangement.map Prod.fst ↔ d ∈ ds.events

/-- The transitions of one repository that the deliveries bring. -/
def transitions (ds : RepositoryDeliveries installation) (r : Nat) : List GitHubAuthorizationTransition :=
  ds.events.flatMap (fun d => d.payload.eventsOf r)

end RepositoryDeliveries

def applyRepositoryWebhooks (tenantId : String) (arrangement : List (RepositoryDelivery × Draws)) :
    PlatformStatement ρ σ (List AuditEvent) :=
  forEach (fun d => applyRepositoryWebhook tenantId d.1.payload d.2 none) arrangement

/-- Whatever the order, every repository ends with one status; a repository that was not stored ends
with the status that its events reduce to. -/
def Commutes (p : Platform ρ σ) (ds : RepositoryDeliveries installation) : Prop :=
  ∀ arrangement arrangement' audits audits' p₁ p₂, ds.Arranges arrangement → ds.Arranges arrangement' →
    applyRepositoryWebhooks installation.tenantId arrangement p = (.ok audits, p₁) →
    applyRepositoryWebhooks installation.tenantId arrangement' p = (.ok audits', p₂) →
    ∀ r, repositoryStatus p₁ installation r = repositoryStatus p₂ installation r ∧
      (findRepositoryRow p installation r = none → ds.transitions r ≠ [] →
        ∀ order, (∀ t, t ∈ order ↔ t ∈ ds.transitions r) →
          repositoryStatus p₁ installation r = (statusFold ⟨none, .active⟩ order).status)

/-- A repository without a row is added and removed, and its removal can come first: no two deliveries
do both. -/
def Forgets (p : Platform ρ σ) (ds : RepositoryDeliveries installation) (r : Nat) : Prop :=
  findRepositoryRow p installation r = none ∧
    (∃ d ∈ ds.events, d.payload.adds r = true) ∧ (∃ d ∈ ds.events, d.payload.removes r = true) ∧
    ¬ ∃ d ∈ ds.events, ∃ d' ∈ ds.events, d ≠ d' ∧
      (d.payload.adds r = true ∧ d.payload.removes r = true) ∧ d'.payload.adds r = true ∧ d'.payload.removes r = true

namespace RepositoryDeliveries

variable {ds : RepositoryDeliveries installation} {arrangement : List (RepositoryDelivery × Draws)}
variable {audits : List AuditEvent} {r : Nat}

theorem authorization (hds : ds.Arranges arrangement)
    (h : applyRepositoryWebhooks installation.tenantId arrangement p = (.ok audits, p')) (r : Nat) :
    authorizationOf p' installation r =
      (arrangement.flatMap (fun d => d.1.payload.eventsOf r)).foldl register (authorizationOf p installation r) := by
  refine forEach_authorization installation (fun r d => d.1.payload.eventsOf r) ?_ h r
  intro d hd b s s' hs r
  have hown := ds.own d.1 ((hds d.1).mp (List.mem_map_of_mem hd))
  have hone := applyRepositoryWebhook_authorization hs r
  rw [hown] at hone
  exact hone

theorem mem_transitions {t : GitHubAuthorizationTransition} (hds : ds.Arranges arrangement) :
    t ∈ arrangement.flatMap (fun d => d.1.payload.eventsOf r) ↔ t ∈ ds.transitions r := by
  simp only [transitions, List.mem_flatMap]
  constructor
  · rintro ⟨d, hd, ht⟩
    exact ⟨d.1, (hds d.1).mp (List.mem_map_of_mem hd), ht⟩
  · rintro ⟨d, hd, ht⟩
    obtain ⟨d', hd', rfl⟩ := List.mem_map.mp ((hds d).mpr hd)
    exact ⟨d', hd', ht⟩

theorem transitions_removes : (∃ t ∈ ds.transitions r, t.status = .removed) ↔
    ∃ d ∈ ds.events, d.payload.removes r = true := by
  simp only [transitions, List.mem_flatMap]
  constructor
  · rintro ⟨t, ⟨d, hd, ht⟩, hremoved⟩
    exact ⟨d, hd, WebhookRepositories.eventsOf_removes.mp ⟨t, ht, hremoved⟩⟩
  · rintro ⟨d, hd, h⟩
    obtain ⟨t, ht, hremoved⟩ := WebhookRepositories.eventsOf_removes.mpr h
    exact ⟨t, ⟨d, hd, ht⟩, hremoved⟩

theorem transitions_adds : (∃ t ∈ ds.transitions r, t.status = .active) ↔
    ∃ d ∈ ds.events, d.payload.adds r = true := by
  simp only [transitions, List.mem_flatMap]
  constructor
  · rintro ⟨t, ⟨d, hd, ht⟩, hactive⟩
    exact ⟨d, hd, WebhookRepositories.eventsOf_adds.mp ⟨t, ht, hactive⟩⟩
  · rintro ⟨d, hd, h⟩
    obtain ⟨t, ht, hactive⟩ := WebhookRepositories.eventsOf_adds.mpr h
    exact ⟨t, ⟨d, hd, ht⟩, hactive⟩

theorem transition_status {t : GitHubAuthorizationTransition} (ht : t ∈ ds.transitions r) :
    t.status = .active ∨ t.status = .removed := by
  obtain ⟨d, -, ht⟩ := List.mem_flatMap.mp ht
  rcases (WebhookRepositories.mem_eventsOf.mp ht).2 with h | h
  · exact .inr h.1
  · exact .inl h.1

/-- One of two deliveries that both add and remove comes before the other. -/
theorem foldl_both {d d' : RepositoryDelivery} (hne : d ≠ d') (hd : d ∈ arrangement.map Prod.fst)
    (hd' : d' ∈ arrangement.map Prod.fst) (hboth : d.payload.adds r = true ∧ d.payload.removes r = true)
    (hboth' : d'.payload.adds r = true ∧ d'.payload.removes r = true) (current : Option GitHubAuthorizationState) :
    ((arrangement.flatMap (fun d => d.1.payload.eventsOf r)).foldl register current).map status = some .removed := by
  have hsplit : ∃ before after, arrangement = before ++ after ∧
      (∃ x ∈ before, x.1.payload.adds r = true) ∧ ∃ x ∈ after, x.1.payload.removes r = true := by
    obtain ⟨x, hx, rfl⟩ := List.mem_map.mp hd
    obtain ⟨x', hx', rfl⟩ := List.mem_map.mp hd'
    obtain ⟨before, after, rfl⟩ := List.append_of_mem hx
    rcases List.mem_append.mp hx' with hbefore | hafter
    · exact ⟨before, x :: after, rfl, ⟨x', hbefore, hboth'.1⟩, x, List.mem_cons_self, hboth.2⟩
    · rcases List.mem_cons.mp hafter with rfl | hafter
      · exact absurd rfl hne
      · exact ⟨before ++ [x], after, by simp, ⟨x, by simp, hboth.1⟩, x', hafter, hboth'.2⟩
  obtain ⟨before, after, rfl, ⟨x, hx, hadds⟩, x', hx', hremoves⟩ := hsplit
  rw [List.flatMap_append]
  refine foldl_register_removed ?_ ?_ current
  · obtain ⟨t, ht, hactive⟩ := WebhookRepositories.eventsOf_adds.mpr hadds
    exact ⟨t, List.mem_flatMap.mpr ⟨x, hx, ht⟩, hactive⟩
  · obtain ⟨t, ht, hremoved⟩ := WebhookRepositories.eventsOf_removes.mpr hremoves
    exact ⟨t, List.mem_flatMap.mpr ⟨x', hx', ht⟩, hremoved⟩

/-- Where no removal can be forgotten, a repository without a row ends with what its events reduce to. -/
theorem status_unseen (hds : ds.Arranges arrangement) (hforgets : ¬ Forgets p ds r)
    (hnone : findRepositoryRow p installation r = none) (hne : ds.transitions r ≠ [])
    (h : applyRepositoryWebhooks installation.tenantId arrangement p = (.ok audits, p'))
    {order : List GitHubAuthorizationTransition} (horder : ∀ t, t ∈ order ↔ t ∈ ds.transitions r) :
    repositoryStatus p' installation r = (statusFold ⟨none, .active⟩ order).status := by
  have hstart : authorizationOf p installation r = none := by rw [authorizationOf, hnone, Option.map_none]
  rw [repositoryStatus_eq, authorization hds h r, hstart]
  by_cases hremoves : ∃ d ∈ ds.events, d.payload.removes r = true
  · have hreduced : (statusFold ⟨none, .active⟩ order).status = .removed := by
      refine statusFold_removed (.inr ?_)
      obtain ⟨t, ht, hremoved⟩ := transitions_removes.mpr hremoves
      exact ⟨t, (horder t).mpr ht, hremoved⟩
    rw [hreduced]
    by_cases hadds : ∃ d ∈ ds.events, d.payload.adds r = true
    · have hboth : ∃ d ∈ ds.events, ∃ d' ∈ ds.events, d ≠ d' ∧
          (d.payload.adds r = true ∧ d.payload.removes r = true) ∧
          d'.payload.adds r = true ∧ d'.payload.removes r = true := by
        by_contra hboth
        exact hforgets ⟨hnone, hadds, hremoves, hboth⟩
      obtain ⟨d, hd, d', hd', hdiff, hd₂, hd₂'⟩ := hboth
      rw [foldl_both hdiff ((hds d).mpr hd) ((hds d').mpr hd') hd₂ hd₂' none, Option.getD_some]
    · have hremovals : ∀ t ∈ arrangement.flatMap (fun d => d.1.payload.eventsOf r), t.status = .removed := by
        intro t ht
        have ht := (mem_transitions hds).mp ht
        rcases transition_status ht with hactive | hremoved
        · exact absurd (transitions_adds.mp ⟨t, ht, hactive⟩) hadds
        · exact hremoved
      rw [foldl_register_removals hremovals, Option.map_none, Option.getD_none]
  · have hactive : ∀ t ∈ ds.transitions r, t.status = .active := by
      intro t ht
      rcases transition_status ht with hactive | hremoved
      · exact hactive
      · exact absurd (transitions_removes.mp ⟨t, ht, hremoved⟩) hremoves
    have hlist : arrangement.flatMap (fun d => d.1.payload.eventsOf r) ≠ [] := by
      intro he
      obtain ⟨t, ht⟩ := List.exists_mem_of_ne_nil _ hne
      have hm := (mem_transitions hds).mpr ht
      rw [he] at hm
      cases hm
    rw [foldl_register_active hlist fun t ht => hactive t ((mem_transitions hds).mp ht), Option.getD_some,
      statusFold_active rfl fun t ht => hactive t ((horder t).mp ht)]

theorem commutes_of_remembered (h : ∀ r, ¬ Forgets p ds r) : Commutes p ds := by
  intro arrangement arrangement' audits audits' p₁ p₂ hds hds' hrun hrun' r
  refine ⟨?_, fun hnone hne order horder => status_unseen hds (h r) hnone hne hrun horder⟩
  cases hfound : findRepositoryRow p installation r with
  | some found =>
    have hsome : authorizationOf p installation r = some found.2.authorization := by
      rw [authorizationOf, hfound, Option.map_some]
    rw [repositoryStatus_eq, repositoryStatus_eq, authorization hds hrun r, authorization hds' hrun' r, hsome,
      foldl_register_some, foldl_register_some, Option.map_some, Option.map_some,
      statusFold_congr fun t => (mem_transitions hds).trans (mem_transitions hds').symm]
  | none =>
    by_cases hne : ds.transitions r = []
    · have hempty : ∀ {a : List (RepositoryDelivery × Draws)}, ds.Arranges a →
          a.flatMap (fun d => d.1.payload.eventsOf r) = [] := by
        intro a ha
        rw [List.eq_nil_iff_forall_not_mem]
        intro t ht
        have hm := (mem_transitions ha).mp ht
        rw [hne] at hm
        cases hm
      rw [repositoryStatus_eq, repositoryStatus_eq, authorization hds hrun r, authorization hds' hrun' r, hempty hds,
        hempty hds']
    · rw [status_unseen hds (h r) hfound hne hrun (fun t => .rfl),
        status_unseen hds' (h r) hfound hne hrun' (fun t => .rfl)]

/-- The identifiers of the provider that the deliveries add. -/
def addedIds (ds : RepositoryDeliveries installation) : List Nat :=
  ds.events.flatMap (fun d => d.payload.repositoriesAdded.map AddedRepository.id)

end RepositoryDeliveries

/-! ## An arrangement that is processed to its end -/

/-- No constraint of the schema stands in the way of the deliveries: what is drawn for the additions is
unused, and no other installation holds what they add. -/
structure Storable (p : Platform ρ σ) (ds : RepositoryDeliveries installation) (draws : Draws) : Prop where
  bound : (p.installations.get installation).isSome = true
  clock : p.db.now ≤ draws.at'
  rows : ∀ key row, p.repositories.get key = some row → row.under key installation = true →
    row.checks key = true ∧ row.createdAt ≤ draws.at'
  granted : ∀ d ∈ ds.events, ∀ a ∈ d.payload.repositoriesAdded, ∀ x, a.complete = some x →
    (RepositoryRow.granted installation x (some d.payload.updatedAt) p.db.now).checks
      ⟨installation.tenantId, draws.repositoryId a.id⟩ = true
  free : ∀ id ∈ ds.addedIds, ∀ key row, p.repositories.get key = some row → row.providerRepositoryId = id →
    row.under key installation = true
  fresh : ∀ id ∈ ds.addedIds, ∀ row,
    p.repositories.get ⟨installation.tenantId, draws.repositoryId id⟩ = some row → row.providerRepositoryId = id
  distinct : ∀ id ∈ ds.addedIds, ∀ id' ∈ ds.addedIds, draws.repositoryId id = draws.repositoryId id' → id = id'

namespace Storable

variable {ds : RepositoryDeliveries installation} {draws : Draws}

theorem insert {id : Nat} (hs : Storable p ds draws) (hid : id ∈ ds.addedIds)
    {row : RepositoryRow} (hrow : row.checks ⟨installation.tenantId, draws.repositoryId id⟩ = true)
    (hunder : row.under ⟨installation.tenantId, draws.repositoryId id⟩ installation = true)
    (hprovider : row.providerRepositoryId = id) (hcreated : row.createdAt = p.db.now)
    (hnone : findRepositoryRow p installation id = none) :
    ∃ p', insertRepository ⟨installation.tenantId, draws.repositoryId id⟩ installation row p = (.ok (), p') ∧
      Storable p' ds draws := by
  have habsent : ∀ key x, p.repositories.get key = some x → x.providerRepositoryId ≠ id := by
    intro key x hx he
    obtain ⟨found, hfound⟩ := Table.find?_isSome
      (p := fun key x => x.under key installation && x.providerRepositoryId == id) hx
      (by simp [hs.free id hid key x hx he, he])
    have hfind : findRepositoryRow p installation id = some found := hfound
    rw [hnone] at hfind
    cases hfind
  have hunused : p.repositories.get ⟨installation.tenantId, draws.repositoryId id⟩ = none := by
    cases hx : p.repositories.get ⟨installation.tenantId, draws.repositoryId id⟩ with
    | none => rfl
    | some x => exact absurd (hs.fresh id hid x hx) (habsent _ x hx)
  have hunique : p.repositories.find? (fun _ x => x.providerRepositoryId == row.providerRepositoryId) = none := by
    cases hx : p.repositories.find? (fun _ x => x.providerRepositoryId == row.providerRepositoryId) with
    | none => rfl
    | some found =>
      obtain ⟨hget, he⟩ := Table.find?_some hx
      exact absurd ((beq_iff_eq.mp he).trans hprovider) (habsent _ _ hget)
  refine ⟨{ p with repositories := p.repositories.insert ⟨installation.tenantId, draws.repositoryId id⟩ row }, ?_, ?_⟩
  · rw [insertRepository, hrow, hunused, hunique, hs.bound]
    rfl
  · refine ⟨hs.bound, hs.clock, ?_, hs.granted, ?_, ?_, hs.distinct⟩
    · intro key x hx hxunder
      rcases Table.get_insert_cases hunused hx with ⟨rfl, rfl⟩ | hold
      · exact ⟨hrow, hcreated.le.trans hs.clock⟩
      · exact hs.rows key x hold hxunder
    · intro id' hid' key x hx he
      rcases Table.get_insert_cases hunused hx with ⟨rfl, rfl⟩ | hold
      · exact hunder
      · exact hs.free id' hid' key x hold he
    · intro id' hid' x hx
      rcases Table.get_insert_cases hunused hx with ⟨hkey, rfl⟩ | hold
      · exact hprovider.trans (hs.distinct id hid id' hid' (Key.mk.inj hkey).2.symm)
      · exact hs.fresh id' hid' x hold

theorem update (hs : Storable p ds draws) {id : Nat} {found : Key × RepositoryRow} {row : RepositoryRow}
    (hfound : findRepositoryRow p installation id = some found) (hrow : row.checks found.1 = true)
    (hinstallation : row.installationId = found.2.installationId)
    (hprovider : row.providerRepositoryId = found.2.providerRepositoryId)
    (hcreated : row.createdAt = found.2.createdAt) :
    ∃ p', updateRepository found.1 row p = (.ok (), p') ∧ Storable p' ds draws := by
  obtain ⟨hget, hunder, -⟩ := findRepositoryRow_some hfound
  have hunder' : row.under found.1 installation = true := by
    unfold RepositoryRow.under
    rw [hinstallation]
    exact hunder
  refine ⟨{ p with repositories := p.repositories.set found.1 row }, ?_, ?_⟩
  · rw [updateRepository, hrow]
    rfl
  · refine ⟨hs.bound, hs.clock, ?_, hs.granted, ?_, ?_, hs.distinct⟩
    · intro key x hx hxunder
      rcases Table.get_set_cases hget hx with ⟨rfl, rfl⟩ | hold
      · exact ⟨hrow, hcreated.le.trans (hs.rows _ _ hget hunder).2⟩
      · exact hs.rows key x hold hxunder
    · intro id' hid' key x hx he
      rcases Table.get_set_cases hget hx with ⟨rfl, rfl⟩ | hold
      · exact hunder'
      · exact hs.free id' hid' key x hold he
    · intro id' hid' x hx
      rcases Table.get_set_cases hget hx with ⟨hkey, rfl⟩ | hold
      · rw [hprovider]
        exact hs.fresh id' hid' found.2 (hkey ▸ hget)
      · exact hs.fresh id' hid' x hold

/-- What an addition brings with it. -/
def Brought (ds : RepositoryDeliveries installation) (id : Nat) (at' : Instant) (x : VerifiedGitHubRepository) : Prop :=
  ∃ d ∈ ds.events, ∃ a ∈ d.payload.repositoriesAdded, a.id = id ∧ a.complete = some x ∧ d.payload.updatedAt = at'

theorem transition (hs : Storable p ds draws) {id : Nat} {status : RepositoryStatus} {at' : Instant}
    {repository : Option VerifiedGitHubRepository} (hbrought : ∀ x, repository = some x → Brought ds id at' x) :
    ∃ p', applyRepositoryTransition installation id status at' draws repository p = (.ok (), p') ∧
      Storable p' ds draws := by
  have hgranted : ∀ x, repository = some x → (RepositoryRow.granted installation x (some at') p.db.now).checks
      ⟨installation.tenantId, draws.repositoryId id⟩ = true ∧ id ∈ ds.addedIds ∧ x.repositoryId = id := by
    intro x hx
    obtain ⟨d, hd, a, ha, rfl, hcomplete, rfl⟩ := hbrought x hx
    refine ⟨hs.granted d hd a ha x hcomplete, List.mem_flatMap.mpr ⟨d, hd, List.mem_map_of_mem ha⟩, ?_⟩
    unfold AddedRepository.complete at hcomplete
    split at hcomplete
    · rw [← Option.some.inj hcomplete]
    · cases hcomplete
  unfold applyRepositoryTransition
  rw [bind_apply, read_apply]
  dsimp only
  cases hfound : findRepositoryRow p installation id with
  | none =>
    dsimp only
    cases status with
    | removed => exact ⟨p, rfl, hs⟩
    | active =>
      cases repository with
      | none => exact ⟨p, rfl, hs⟩
      | some x =>
        obtain ⟨hchecks, hid, hx⟩ := hgranted x rfl
        have hopaque : opaqueId (draws.repositoryId id) = true := by
          simp only [RepositoryRow.checks, Bool.and_eq_true] at hchecks
          exact hchecks.1.1.1.1.1.1.1.1.1
        obtain ⟨p', hok, hs'⟩ := hs.insert hid hchecks (granted_under _ _ _ _ _) hx rfl hfound
        refine ⟨p', ?_, hs'⟩
        dsimp only
        rw [bind_apply, hopaque, require_true]
        exact hok
  | some found =>
    dsimp only
    split
    · exact ⟨p, rfl, hs⟩
    · obtain ⟨hget, hunder, -⟩ := findRepositoryRow_some hfound
      obtain ⟨hchecks, hcreated⟩ := hs.rows _ _ hget hunder
      have hremoval : ∀ next : RepositoryStatus,
          (next != .removed || (if next = .removed then some draws.at' else none).isSome) = true := by
        intro next
        cases next <;> rfl
      refine hs.update hfound ?_ (by cases repository <;> rfl) (by cases repository <;> rfl) (by cases repository <;> rfl)
      cases repository with
      | none =>
        simp only [RepositoryRow.checks, RepositoryRow.moved, Bool.and_eq_true] at hchecks ⊢
        exact ⟨⟨hchecks.1.1, hremoval _⟩, decide_eq_true hcreated⟩
      | some x =>
        obtain ⟨hx, -, -⟩ := hgranted x rfl
        simp only [RepositoryRow.checks, RepositoryRow.moved, RepositoryRow.granted, Bool.and_eq_true] at hchecks hx ⊢
        obtain ⟨⟨⟨⟨⟨⟨⟨⟨⟨hid, hpositive⟩, -⟩, -⟩, -⟩, -⟩, -⟩, -⟩, -⟩, -⟩ := hchecks
        obtain ⟨⟨⟨⟨⟨⟨⟨⟨⟨-, -⟩, h₁⟩, h₂⟩, h₃⟩, h₄⟩, h₅⟩, h₆⟩, -⟩, -⟩ := hx
        exact ⟨⟨⟨⟨⟨⟨⟨⟨⟨hid, hpositive⟩, h₁⟩, h₂⟩, h₃⟩, h₄⟩, h₅⟩, h₆⟩, hremoval _⟩, decide_eq_true hcreated⟩

theorem forEach {α β : Type} {f : α → PlatformStatement ρ σ β} (items : List α) (hs : Storable p ds draws)
    (hf : ∀ a ∈ items, ∀ p, Storable p ds draws → ∃ b p', f a p = (.ok b, p') ∧ Storable p' ds draws) :
    ∃ replies p', Transactions.Tx.forEach f items p = (.ok replies, p') ∧ Storable p' ds draws := by
  induction items generalizing p with
  | nil => exact ⟨[], p, rfl, hs⟩
  | cons a rest ih =>
    obtain ⟨b, t, hone, ht⟩ := hf a List.mem_cons_self p hs
    obtain ⟨replies, p', hrest, hs'⟩ := ih ht fun a' ha' => hf a' (List.mem_cons_of_mem a ha')
    exact ⟨b :: replies, p', forEach_cons_ok.mpr ⟨b, t, replies, hone, hrest, rfl⟩, hs'⟩

/-- What a delivery does with one of the repositories it adds. -/
def addRepository (key : InstallationKey) (updatedAt : Instant) (draws : Draws) (a : AddedRepository) :
    PlatformStatement ρ σ Unit :=
  match a.complete with
  | none => pure ()
  | some repository => applyRepositoryTransition key a.id .active updatedAt draws (some repository)

theorem webhook (hs : Storable p ds draws) {d : RepositoryDelivery} (hd : d ∈ ds.events) :
    ∃ audit p', applyRepositoryWebhook installation.tenantId d.payload draws none p = (.ok audit, p') ∧
      Storable p' ds draws := by
  have hkey : (⟨installation.tenantId, d.payload.id⟩ : InstallationKey) = installation := by rw [ds.own d hd]
  have hremoved : ∃ replies p', Transactions.Tx.forEach (fun id => applyRepositoryTransition
      ⟨installation.tenantId, d.payload.id⟩ id .removed d.payload.updatedAt draws none) d.payload.repositoriesRemoved p =
      (.ok replies, p') ∧ Storable p' ds draws := by
    rw [hkey]
    refine Storable.forEach _ hs fun id _ q hq => ?_
    have hnone : ∀ x, none = some x → Brought ds id d.payload.updatedAt x := by
      intro x he
      cases he
    obtain ⟨q', hok, hq'⟩ := hq.transition hnone
    exact ⟨(), q', hok, hq'⟩
  obtain ⟨_, p₁, hremoved, hs₁⟩ := hremoved
  have hadded : ∃ replies p', Transactions.Tx.forEach
      (addRepository ⟨installation.tenantId, d.payload.id⟩ d.payload.updatedAt draws) d.payload.repositoriesAdded p₁ =
      (.ok replies, p') ∧ Storable p' ds draws := by
    rw [hkey]
    refine Storable.forEach _ hs₁ fun a ha q hq => ?_
    rw [addRepository]
    cases hcomplete : a.complete with
    | none => exact ⟨(), q, rfl, hq⟩
    | some x =>
      have hbrought : ∀ y, some x = some y → Brought ds a.id d.payload.updatedAt y := by
        intro y he
        exact ⟨d, hd, a, ha, rfl, hcomplete.trans he, rfl⟩
      obtain ⟨q', hok, hq'⟩ := hq.transition hbrought
      exact ⟨(), q', hok, hq'⟩
  obtain ⟨_, p₂, hadded, hs₂⟩ := hadded
  refine ⟨repositoriesAudit installation.tenantId d.payload draws false, p₂, ?_, hs₂⟩
  have hadjust : adjustRepositories installation.tenantId d.payload draws p = (.ok (), p₂) :=
    bind_ok.mpr ⟨_, p₁, hremoved, bind_ok.mpr ⟨_, p₂, hadded, rfl⟩⟩
  exact bind_ok.mpr ⟨(), p₂, hadjust, rfl⟩

/-- Deliveries that nothing stands in the way of are processed to the end. -/
theorem webhooks (hs : Storable p ds draws) {deliveries : List RepositoryDelivery} (hsub : ∀ d ∈ deliveries, d ∈ ds.events) :
    ∃ audits p', applyRepositoryWebhooks installation.tenantId (deliveries.map (fun d => (d, draws))) p =
      (.ok audits, p') := by
  obtain ⟨audits, p', hok, -⟩ := Storable.forEach (deliveries.map (fun d => (d, draws))) hs
    (f := fun d => applyRepositoryWebhook installation.tenantId d.1.payload d.2 none) (by
      intro x hx q hq
      obtain ⟨d, hd, rfl⟩ := List.mem_map.mp hx
      exact hq.webhook (hsub d hd))
  exact ⟨audits, p', hok⟩

end Storable

/-- The deliveries that only remove the repository come first, then one that adds it, then the ones that do
not remove it. -/
def forgetful (ds : RepositoryDeliveries installation) (r : Nat) (d : RepositoryDelivery) : List RepositoryDelivery :=
  ds.events.filter (fun d => d.payload.removes r && !d.payload.adds r) ++
    d :: ds.events.filter (fun d => !d.payload.removes r)

section forgetful

variable {ds : RepositoryDeliveries installation} {r : Nat} {d : RepositoryDelivery}

theorem forgetful_arranges (hd : d ∈ ds.events)
    (hboth : ∀ d' ∈ ds.events, d'.payload.adds r = true → d'.payload.removes r = true → d' = d) (draws : Draws) :
    ds.Arranges ((forgetful ds r d).map (fun d => (d, draws))) := by
  intro d'
  rw [List.map_map]
  simp only [Function.comp_def, List.map_id', forgetful, List.mem_append, List.mem_cons, List.mem_filter,
    Bool.and_eq_true, Bool.not_eq_true']
  constructor
  · rintro (h | rfl | h)
    · exact h.1
    · exact hd
    · exact h.1
  · intro hd'
    by_cases hremoves : d'.payload.removes r = true
    · by_cases hadds : d'.payload.adds r = true
      · exact .inr (.inl (hboth d' hd' hadds hremoves))
      · exact .inl ⟨hd', hremoves, by simpa using hadds⟩
    · exact .inr (.inr ⟨hd', by simpa using hremoves⟩)

/-- The removals find no row, and the row of the addition stays. -/
theorem forgetful_active (hadds : d.payload.adds r = true) :
    (((forgetful ds r d).flatMap (fun d => d.payload.eventsOf r)).foldl register none).map status = some .active := by
  have hfirst : ∀ t ∈ (ds.events.filter (fun d => d.payload.removes r && !d.payload.adds r)).flatMap
      (fun d => d.payload.eventsOf r), t.status = .removed := by
    intro t ht
    obtain ⟨d', hd', ht⟩ := List.mem_flatMap.mp ht
    simp only [List.mem_filter, Bool.and_eq_true, Bool.not_eq_true'] at hd'
    rcases (WebhookRepositories.mem_eventsOf.mp ht).2 with h | h
    · exact h.1
    · rw [hd'.2.2] at h
      cases h.2
  have hlast : ∀ t ∈ (ds.events.filter (fun d => !d.payload.removes r)).flatMap (fun d => d.payload.eventsOf r),
      t.status = .active := by
    intro t ht
    obtain ⟨d', hd', ht⟩ := List.mem_flatMap.mp ht
    simp only [List.mem_filter, Bool.not_eq_true'] at hd'
    rcases (WebhookRepositories.mem_eventsOf.mp ht).2 with h | h
    · rw [hd'.2] at h
      cases h.2
    · exact h.1
  -- The delivery's own removals come before its additions.
  have hmiddle : ∃ s, (d.payload.eventsOf r).foldl register none = some s ∧ s.status = .active := by
    have hremovals : ∀ t ∈ (d.payload.repositoriesRemoved.filter (· == r)).map
        (fun _ => (⟨d.payload.updatedAt, .removed⟩ : GitHubAuthorizationTransition)), t.status = .removed := by
      intro t ht
      obtain ⟨_, -, rfl⟩ := List.mem_map.mp ht
      rfl
    have hadditions : (((d.payload.repositoriesAdded.filter (fun a => a.id == r && a.complete.isSome)).map
        (fun _ => (⟨d.payload.updatedAt, .active⟩ : GitHubAuthorizationTransition))).foldl register none).map status =
        some .active := by
      refine foldl_register_active ?_ fun t ht => ?_
      · obtain ⟨a, ha, hcondition⟩ := List.any_eq_true.mp hadds
        intro he
        have hm : a ∈ d.payload.repositoriesAdded.filter (fun a => a.id == r && a.complete.isSome) :=
          List.mem_filter.mpr ⟨ha, hcondition⟩
        rw [List.map_eq_nil_iff.mp he] at hm
        cases hm
      · obtain ⟨_, -, rfl⟩ := List.mem_map.mp ht
        rfl
    rw [WebhookRepositories.eventsOf, List.foldl_append, foldl_register_removals hremovals]
    obtain ⟨s, hs, hactive⟩ := Option.map_eq_some_iff.mp hadditions
    exact ⟨s, hs, hactive⟩
  obtain ⟨s, hs, hactive⟩ := hmiddle
  rw [forgetful, List.flatMap_append, List.flatMap_cons, List.foldl_append, List.foldl_append,
    foldl_register_removals hfirst, hs, foldl_register_some, Option.map_some, statusFold_active hactive hlast]

/-- A repository that forgets its removal ends active, while its events reduce to a removal. -/
theorem not_commutes_of_forgets {draws : Draws} (hs : Storable p ds draws) (hforgets : Forgets p ds r) :
    ¬ Commutes p ds := by
  intro hcommutes
  obtain ⟨hnone, ⟨a, ha, hadds⟩, hremoves, honly⟩ := hforgets
  have hchoice : ∃ d ∈ ds.events, d.payload.adds r = true ∧
      ∀ d' ∈ ds.events, d'.payload.adds r = true → d'.payload.removes r = true → d' = d := by
    by_cases hboth : ∃ d ∈ ds.events, d.payload.adds r = true ∧ d.payload.removes r = true
    · obtain ⟨d, hd, hd₂⟩ := hboth
      refine ⟨d, hd, hd₂.1, fun d' hd' hadds' hremoves' => ?_⟩
      by_contra hne
      exact honly ⟨d', hd', d, hd, hne, ⟨hadds', hremoves'⟩, hd₂⟩
    · exact ⟨a, ha, hadds, fun d' hd' hadds' hremoves' => absurd ⟨d', hd', hadds', hremoves'⟩ hboth⟩
  obtain ⟨d, hd, hd₂, hboth⟩ := hchoice
  have hsub : ∀ d' ∈ forgetful ds r d, d' ∈ ds.events := by
    intro d' hd'
    refine (forgetful_arranges hd hboth draws d').mp ?_
    rw [List.map_map]
    simpa [Function.comp_def] using hd'
  obtain ⟨audits, p', hrun⟩ := hs.webhooks hsub
  have harranges := forgetful_arranges hd hboth draws
  obtain ⟨t, ht, hremoved⟩ := RepositoryDeliveries.transitions_removes.mpr hremoves
  have hreduced := (hcommutes _ _ _ _ _ _ harranges harranges hrun hrun r).2 hnone (List.ne_nil_of_mem ht)
    (ds.transitions r) (fun _ => .rfl)
  rw [statusFold_removed (.inr ⟨t, ht, hremoved⟩), repositoryStatus_eq,
    RepositoryDeliveries.authorization harranges hrun r, authorizationOf, hnone, Option.map_none, List.flatMap_map,
    forgetful_active hd₂, Option.getD_some] at hreduced
  cases hreduced

end forgetful

namespace Sample

/-- The installation is bound, and none of its repositories is stored. -/
def bound : Platform Empty Empty :=
  { Platform.initial (Db.initial opening tenants) principals with
    installations := Table.empty.insert ⟨"acme", 7001⟩ (.linked "user-1" (snapshot 0 []) opening) }

def addition : RepositoryDelivery :=
  ⟨"delivery-1", ⟨.added, 7001, opening + 10, [⟨some "main", some "acme/web", 8002, some true⟩], []⟩⟩

def removal : RepositoryDelivery := ⟨"delivery-2", ⟨.removed, 7001, opening + 20, [], [8002]⟩⟩

def added : RepositoryDeliveries ⟨"acme", 7001⟩ := ⟨[addition], by simp [addition], by simp [addition]; rfl⟩

/-- A repository is added and removed later. -/
def revokedRepository : RepositoryDeliveries ⟨"acme", 7001⟩ :=
  ⟨[addition, removal], by simp [addition, removal], by simp [addition, removal]; rfl⟩

def drawn : Draws := (drawing "audit-1").draws

end Sample

open Sample

theorem bound_storable (ds : RepositoryDeliveries ⟨"acme", 7001⟩)
    (h : ∀ d ∈ ds.events, d = addition ∨ d = removal) : Storable bound ds drawn := by
  have hempty : ∀ key, bound.repositories.get key = none := fun _ => rfl
  have hids : ∀ id ∈ ds.addedIds, id = 8002 := by
    intro id hid
    obtain ⟨d, hd, hid⟩ := List.mem_flatMap.mp hid
    rcases h d hd with rfl | rfl
    · simpa [addition] using hid
    · simp [removal] at hid
  refine ⟨rfl, le_refl _, ?_, ?_, ?_, ?_, ?_⟩
  · intro key row hrow
    rw [hempty] at hrow
    cases hrow
  · intro d hd a ha x hx
    rcases h d hd with rfl | rfl
    · obtain rfl : a = ⟨some "main", some "acme/web", 8002, some true⟩ := by simpa [addition] using ha
      obtain rfl : (⟨"main", "acme/web", true, 8002⟩ : VerifiedGitHubRepository) = x := Option.some.inj hx
      decide +kernel
    · simp [removal] at ha
  · intro id hid key row hrow
    rw [hempty] at hrow
    cases hrow
  · intro id hid row hrow
    rw [hempty] at hrow
    cases hrow
  · intro id hid id' hid' _
    rw [hids id hid, hids id' hid']

/-- A delivery with a late removal and an early addition, in both orders. -/
theorem stale_addition_revives : ¬ Commutes bound revokedRepository := by
  have hrun : ∀ arrangement : List (RepositoryDelivery × Draws), ∀ status,
      (match applyRepositoryWebhooks "acme" arrangement bound with
        | (.ok _, p') => some (repositoryStatus p' ⟨"acme", 7001⟩ 8002)
        | (.error _, _) => none) = some status →
      ∃ audits p', applyRepositoryWebhooks "acme" arrangement bound = (.ok audits, p') ∧
        repositoryStatus p' ⟨"acme", 7001⟩ 8002 = status := by
    intro arrangement status h
    split at h
    · rename_i audits p' hok
      exact ⟨audits, p', hok, Option.some.inj h⟩
    · cases h
  obtain ⟨audits, p₁, hrun₁, hactive⟩ := hrun [(removal, drawn), (addition, drawn)] .active (by decide +kernel)
  obtain ⟨audits', p₂, hrun₂, hremoved⟩ := hrun [(addition, drawn), (removal, drawn)] .removed (by decide +kernel)
  intro h
  have harranges : revokedRepository.Arranges [(removal, drawn), (addition, drawn)] := by
    intro d
    simp [revokedRepository, or_comm]
  have harranges' : revokedRepository.Arranges [(addition, drawn), (removal, drawn)] := by
    intro d
    simp [revokedRepository]
  have hsame := (h _ _ _ _ _ _ harranges harranges' hrun₁ hrun₂ 8002).1
  rw [hactive, hremoved] at hsame
  cases hsame

/-- Repository events commute where no repository forgets its removal, and there alone when nothing stands in
the way of the deliveries. -/
theorem repository_events_commute (p : Platform ρ σ) (ds : RepositoryDeliveries installation) :
    ((∀ r, ¬ Forgets p ds r) → Commutes p ds) ∧
      ∀ draws, Storable p ds draws → (Commutes p ds ↔ ∀ r, ¬ Forgets p ds r) := by
  refine ⟨RepositoryDeliveries.commutes_of_remembered, fun draws hs => ⟨?_, ?_⟩⟩
  · intro hcommutes r hforgets
    exact not_commutes_of_forgets hs hforgets hcommutes
  · exact RepositoryDeliveries.commutes_of_remembered

theorem repository_events_commute_sample :
    Commutes bound added ∧ (Commutes bound revokedRepository ↔ ∀ r, ¬ Forgets bound revokedRepository r) := by
  refine ⟨(repository_events_commute bound added).1 ?_,
    (repository_events_commute bound revokedRepository).2 drawn (bound_storable _ (by simp [revokedRepository]))⟩
  rintro r ⟨-, -, ⟨d, hd, hremoves⟩, -⟩
  obtain rfl : d = addition := by simpa [added] using hd
  cases hremoves

end ReproForge
