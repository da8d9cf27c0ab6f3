import ReproForge.GitHubAuthorization

/-!
# What the GitHub transactions do

Each of them writes under one installation: to its row, and to which of its
repositories are active.
-/
namespace ReproForge

open KeyedTable Transactions Transactions.Tx

variable {ρ σ α : Type} {p p' p'' : Platform ρ σ}

/-- The provider's identifier names an active repository of the installation. -/
def Active (p : Platform ρ σ) (installation : InstallationKey) (r : Nat) : Prop :=
  ∃ key row, p.repositories.get key = some row ∧ row.under key installation = true ∧
    row.providerRepositoryId = r ∧ row.status = .active

/-- The authorization of every other installation is as it was. -/
structure Confined (installation : InstallationKey) (p p' : Platform ρ σ) : Prop where
  installations : ∀ key, key ≠ installation → p'.installations.get key = p.installations.get key
  repositories : ∀ key, key ≠ installation → ∀ r, Active p' key r ↔ Active p key r

namespace Confined

variable {installation : InstallationKey}

theorem refl (installation : InstallationKey) (p : Platform ρ σ) : Confined installation p p :=
  ⟨fun _ _ => rfl, fun _ _ _ => .rfl⟩

theorem trans (h : Confined installation p p') (h' : Confined installation p' p'') :
    Confined installation p p'' :=
  ⟨fun key hk => (h'.installations key hk).trans (h.installations key hk),
    fun key hk r => (h'.repositories key hk r).trans (h.repositories key hk r)⟩

end Confined

/-- Neither installations nor repositories were touched. -/
structure Unlinked (p p' : Platform ρ σ) : Prop where
  installations : p'.installations = p.installations
  repositories : p'.repositories = p.repositories

theorem Unlinked.active (h : Unlinked p p') (installation : InstallationKey) (r : Nat) :
    Active p' installation r ↔ Active p installation r := by
  rw [Active, Active, h.repositories]

theorem Unlinked.confined (h : Unlinked p p') (installation : InstallationKey) : Confined installation p p' :=
  ⟨fun key _ => by rw [h.installations], fun key _ r => h.active key r⟩

theorem RepositoryRow.under_iff {row : RepositoryRow} {key : Key} {installation : InstallationKey} :
    row.under key installation = true ↔ (⟨key.tenantId, row.installationId⟩ : InstallationKey) = installation := by
  cases installation
  simp [RepositoryRow.under]

theorem granted_under (installation : InstallationKey) (repository : VerifiedGitHubRepository)
    (providerUpdatedAt : Option Instant) (now : Instant) (id : String) :
    (RepositoryRow.granted installation repository providerUpdatedAt now).under ⟨installation.tenantId, id⟩
      installation = true :=
  RepositoryRow.under_iff.mpr rfl

/-! ## Single statements -/

section statements

variable {installation key : InstallationKey} {assign : InstallationRow → InstallationRow} {at' : Instant} {u : Unit}

theorem updateInstallation_ok (h : updateInstallation key assign p = (.ok u, p')) :
    (p.installations.get key = none ∧ p' = p) ∨ ∃ row, p.installations.get key = some row ∧
      p' = { p with installations := p.installations.set key (assign row) } := by
  unfold updateInstallation at h
  split at h
  · rename_i hnone
    exact .inl ⟨hnone, (Prod.mk.inj h).2.symm⟩
  · rename_i row hrow
    split at h
    · exact .inr ⟨row, hrow, (Prod.mk.inj h).2.symm⟩
    · cases h

theorem updateInstallation_confined (h : updateInstallation key assign p = (.ok u, p')) : Confined key p p' := by
  rcases updateInstallation_ok h with ⟨-, rfl⟩ | ⟨row, -, rfl⟩
  · exact .refl key p'
  · exact ⟨fun k hk => Table.get_set_other _ _ hk, fun _ _ _ => .rfl⟩

/-- Afterwards no repository of the installation is active. -/
theorem removeRepositories_ok (h : removeRepositories installation at' p = (.ok u, p')) :
    p'.installations = p.installations ∧ (∀ r, ¬ Active p' installation r) ∧ Confined installation p p' := by
  unfold removeRepositories at h
  dsimp only at h
  split at h
  · obtain rfl := (Prod.mk.inj h).2
    have hget : ∀ key row',
        (p.repositories.update (fun key r => r.under key installation && r.status == .active)
          (fun _ => RepositoryRow.moved .removed at')).get key = some row' →
        ∃ row, p.repositories.get key = some row ∧
          row' = if row.under key installation && row.status == .active then row.moved .removed at' else row := by
      intro key row' hget
      rw [Table.get_update] at hget
      obtain ⟨row, hrow, he⟩ := Option.map_eq_some_iff.mp hget
      exact ⟨row, hrow, he.symm⟩
    have hput : ∀ key row, p.repositories.get key = some row → row.under key installation = false →
        (p.repositories.update (fun key r => r.under key installation && r.status == .active)
          (fun _ => RepositoryRow.moved .removed at')).get key = some row := by
      intro key row hrow hother
      rw [Table.get_update, hrow, Option.map_some, hother, Bool.false_and, if_neg (by simp)]
    refine ⟨rfl, ?_, ⟨fun _ _ => rfl, ?_⟩⟩
    · rintro r ⟨key, row', hrow', hunder, -, hactive⟩
      obtain ⟨row, -, rfl⟩ := hget key row' hrow'
      split at hactive
      · cases hactive
      · rename_i hcondition
        rw [if_neg hcondition] at hunder
        exact hcondition (by simp [hunder, hactive])
    · intro other hother r
      constructor
      · rintro ⟨key, row', hrow', hunder, hid, hactive⟩
        obtain ⟨row, hrow, rfl⟩ := hget key row' hrow'
        split at hactive
        · cases hactive
        · rename_i hcondition
          rw [if_neg hcondition] at hunder hid
          exact ⟨key, row, hrow, hunder, hid, hactive⟩
      · rintro ⟨key, row, hrow, hunder, hid, hactive⟩
        refine ⟨key, row, hput key row hrow ?_, hunder, hid, hactive⟩
        rw [Bool.eq_false_iff]
        intro hboth
        exact hother ((RepositoryRow.under_iff.mp hunder).symm.trans (RepositoryRow.under_iff.mp hboth))
  · cases h

theorem findRepositoryRow_some {providerRepositoryId : Nat} {found : Key × RepositoryRow}
    (h : findRepositoryRow p installation providerRepositoryId = some found) :
    p.repositories.get found.1 = some found.2 ∧ found.2.under found.1 installation = true ∧
      found.2.providerRepositoryId = providerRepositoryId := by
  obtain ⟨hget, hcondition⟩ := Table.find?_some h
  simp only [Bool.and_eq_true, beq_iff_eq] at hcondition
  exact ⟨hget, hcondition⟩

/-- A row of the installation took the place of another one of the same repository. -/
theorem set_active {key : Key} {row row' : RepositoryRow} (hrow : p.repositories.get key = some row)
    (hunder : row.under key installation = true) (hunder' : row'.under key installation = true)
    (hid : row'.providerRepositoryId = row.providerRepositoryId) :
    (∀ r, Active { p with repositories := p.repositories.set key row' } installation r →
        Active p installation r ∨ r = row.providerRepositoryId) ∧
      (∀ r, Active p installation r → r ≠ row.providerRepositoryId →
        Active { p with repositories := p.repositories.set key row' } installation r) ∧
      (row'.status = .active →
        Active { p with repositories := p.repositories.set key row' } installation row.providerRepositoryId) ∧
      Confined installation p { p with repositories := p.repositories.set key row' } := by
  refine ⟨?_, ?_, fun hactive => ⟨key, row', Table.get_set_self hrow, hunder', hid, hactive⟩, fun _ _ => rfl, ?_⟩
  · rintro r ⟨k, x, hx, hxunder, rfl, hactive⟩
    rcases Table.get_set_cases hrow hx with ⟨rfl, rfl⟩ | hold
    · exact .inr hid
    · exact .inl ⟨k, x, hold, hxunder, rfl, hactive⟩
  · rintro r ⟨k, x, hx, hxunder, rfl, hactive⟩ hne
    have hk : k ≠ key := by
      rintro rfl
      exact hne (congrArg RepositoryRow.providerRepositoryId (Option.some.inj (hx.symm.trans hrow)))
    exact ⟨k, x, (Table.get_set_other _ _ hk).trans hx, hxunder, rfl, hactive⟩
  · intro other hother r
    have hapart : ∀ x : RepositoryRow, x.under key installation = true → x.under key other = true → False := by
      intro x hx hx'
      exact hother ((RepositoryRow.under_iff.mp hx').symm.trans (RepositoryRow.under_iff.mp hx))
    constructor
    · rintro ⟨k, x, hx, hxunder, hxid, hactive⟩
      rcases Table.get_set_cases hrow hx with ⟨rfl, rfl⟩ | hold
      · exact (hapart _ hunder' hxunder).elim
      · exact ⟨k, x, hold, hxunder, hxid, hactive⟩
    · rintro ⟨k, x, hx, hxunder, hxid, hactive⟩
      have hk : k ≠ key := by
        rintro rfl
        obtain rfl := Option.some.inj (hx.symm.trans hrow)
        exact hapart _ hunder hxunder
      exact ⟨k, x, (Table.get_set_other _ _ hk).trans hx, hxunder, hxid, hactive⟩

/-- A new row of the installation. -/
theorem insert_active {key : Key} {row : RepositoryRow} (hfresh : p.repositories.get key = none)
    (hunder : row.under key installation = true) :
    (∀ r, Active { p with repositories := p.repositories.insert key row } installation r ↔
        Active p installation r ∨ (r = row.providerRepositoryId ∧ row.status = .active)) ∧
      Confined installation p { p with repositories := p.repositories.insert key row } := by
  refine ⟨fun r => ⟨?_, ?_⟩, fun _ _ => rfl, fun other hother r => ⟨?_, ?_⟩⟩
  · rintro ⟨k, x, hx, hxunder, rfl, hactive⟩
    rcases Table.get_insert_cases hfresh hx with ⟨rfl, rfl⟩ | hold
    · exact .inr ⟨rfl, hactive⟩
    · exact .inl ⟨k, x, hold, hxunder, rfl, hactive⟩
  · rintro (⟨k, x, hx, hxunder, hid, hactive⟩ | ⟨rfl, hactive⟩)
    · exact ⟨k, x, Table.get_insert_some hx, hxunder, hid, hactive⟩
    · exact ⟨key, row, Table.get_insert_self hfresh, hunder, rfl, hactive⟩
  · rintro ⟨k, x, hx, hxunder, hxid, hactive⟩
    rcases Table.get_insert_cases hfresh hx with ⟨rfl, rfl⟩ | hold
    · exact absurd ((RepositoryRow.under_iff.mp hxunder).symm.trans (RepositoryRow.under_iff.mp hunder)) hother
    · exact ⟨k, x, hold, hxunder, hxid, hactive⟩
  · rintro ⟨k, x, hx, hxunder, hxid, hactive⟩
    exact ⟨k, x, Table.get_insert_some hx, hxunder, hxid, hactive⟩

theorem insertRepository_ok {key : Key} {row : RepositoryRow}
    (h : insertRepository key installation row p = (.ok u, p')) :
    p.repositories.get key = none ∧ p' = { p with repositories := p.repositories.insert key row } := by
  unfold insertRepository at h
  split at h
  · rename_i hcondition
    simp only [Bool.and_eq_true, Option.isNone_iff_eq_none] at hcondition
    exact ⟨hcondition.1.1.2, (Prod.mk.inj h).2.symm⟩
  · cases h

theorem updateRepository_ok {key : Key} {row : RepositoryRow} (h : updateRepository key row p = (.ok u, p')) :
    p' = { p with repositories := p.repositories.set key row } := by
  unfold updateRepository at h
  split at h
  · exact (Prod.mk.inj h).2.symm
  · cases h

/-- The repository is active, and the others are what they were. -/
theorem upsertRepository_ok {providerUpdatedAt : Option Instant} {fresh : Nat → String}
    {repository : VerifiedGitHubRepository}
    (h : upsertRepository installation providerUpdatedAt fresh repository p = (.ok u, p')) :
    p'.installations = p.installations ∧
      (∀ r, Active p' installation r ↔ Active p installation r ∨ r = repository.repositoryId) ∧
      Confined installation p p' := by
  simp only [upsertRepository, bind_ok, read_ok] at h
  obtain ⟨_, _, ⟨rfl, rfl⟩, h⟩ := h
  cases hfound : findRepositoryRow p installation repository.repositoryId with
  | some found =>
    obtain ⟨hrow, hunder, hid⟩ := findRepositoryRow_some hfound
    simp only [hfound, bind_ok, require_ok] at h
    obtain ⟨_, _, ⟨-, rfl⟩, h⟩ := h
    have hunder' : ((RepositoryRow.granted installation repository providerUpdatedAt p.db.now).replacing
        found.2).under found.1 installation = true := by
      have hkey : found.1.tenantId = installation.tenantId :=
        congrArg InstallationKey.tenantId (RepositoryRow.under_iff.mp hunder)
      refine RepositoryRow.under_iff.mpr ?_
      rw [hkey]
      rfl
    obtain ⟨hfrom, hto, hself, hconfined⟩ := set_active hrow hunder hunder' hid.symm
    obtain rfl := updateRepository_ok h
    refine ⟨rfl, fun r => ⟨fun ha => ?_, fun ha => ?_⟩, hconfined⟩
    · rw [← hid]
      exact hfrom r ha
    · by_cases hr : r = found.2.providerRepositoryId
      · rw [hr]
        exact hself rfl
      · rcases ha with ha | rfl
        · exact hto r ha hr
        · exact absurd hid.symm hr
  | none =>
    simp only [hfound, bind_ok, require_ok] at h
    obtain ⟨_, _, ⟨-, rfl⟩, h⟩ := h
    obtain ⟨hfresh, rfl⟩ := insertRepository_ok h
    obtain ⟨hactive, hconfined⟩ := insert_active hfresh (granted_under installation repository _ _ _)
    exact ⟨rfl, fun r => (hactive r).trans (or_congr_right (and_iff_left rfl)), hconfined⟩

theorem upsertRepositories_ok {providerUpdatedAt : Option Instant} {fresh : Nat → String}
    {repositories : List VerifiedGitHubRepository} {replies : List Unit}
    (h : forEach (upsertRepository installation providerUpdatedAt fresh) repositories p = (.ok replies, p')) :
    p'.installations = p.installations ∧
      (∀ r, Active p' installation r ↔
        Active p installation r ∨ r ∈ repositories.map VerifiedGitHubRepository.repositoryId) ∧
      Confined installation p p' := by
  induction repositories generalizing p replies with
  | nil =>
    obtain ⟨-, rfl⟩ := forEach_nil_ok.mp h
    exact ⟨rfl, fun r => by simp, .refl installation _⟩
  | cons repository rest ih =>
    obtain ⟨_, t, _, hone, hrest, -⟩ := forEach_cons_ok.mp h
    obtain ⟨hi, ha, hc⟩ := upsertRepository_ok hone
    obtain ⟨hi', ha', hc'⟩ := ih hrest
    refine ⟨hi'.trans hi, fun r => ?_, hc.trans hc'⟩
    rw [ha', ha, List.map_cons, List.mem_cons, or_assoc]

theorem appendAuthorizationAudit_unlinked {event : AuditEvent}
    (h : appendAuthorizationAudit event p = (.ok u, p')) : Unlinked p p' := by
  simp only [appendAuthorizationAudit, bind_ok, require_ok, Platform.lift] at h
  obtain ⟨_, _, ⟨-, rfl⟩, h⟩ := h
  split at h
  · obtain rfl := (Prod.mk.inj h).2
    exact ⟨rfl, rfl⟩
  · cases h

theorem insertDelivery_ok {id : String} {row : DeliveryRow} {inserted : Bool}
    (h : insertDelivery id row p = (.ok inserted, p')) :
    Unlinked p p' ∧ inserted = (p.webhookDeliveries.get id).isNone := by
  unfold insertDelivery at h
  split at h
  · cases h
  · split at h
    · rename_i hsome
      simp only [Prod.mk.injEq, Except.ok.injEq] at h
      obtain ⟨rfl, rfl⟩ := h
      exact ⟨⟨rfl, rfl⟩, by rw [Option.isNone_eq_false_iff.mpr hsome]⟩
    · rename_i hnone
      simp only [Prod.mk.injEq, Except.ok.injEq] at h
      obtain ⟨rfl, rfl⟩ := h
      exact ⟨⟨rfl, rfl⟩, by simpa using hnone⟩

theorem completeDelivery_unlinked {id : String} {tenantId : Option String} {outcome : DeliveryOutcome}
    (h : completeDelivery id at' tenantId outcome p = (.ok u, p')) : Unlinked p p' := by
  unfold completeDelivery at h
  split at h
  · obtain rfl := (Prod.mk.inj h).2
    exact ⟨rfl, rfl⟩
  · split at h
    · dsimp only at h
      split at h
      · obtain rfl := (Prod.mk.inj h).2
        exact ⟨rfl, rfl⟩
      · cases h
    · obtain rfl := (Prod.mk.inj h).2
      exact ⟨rfl, rfl⟩

end statements

/-! ## Links, events and reconciles -/

/-- The identifier of an installation is unique among all tenants. -/
def UniqueInstallations (p : Platform ρ σ) : Prop :=
  ∀ key key' row row', p.installations.get key = some row → p.installations.get key' = some row' →
    key.installationId = key'.installationId → key = key'

/-- A snapshot was linked under this key. -/
structure Linked (p p' : Platform ρ σ) (key : InstallationKey) (snapshot : VerifiedGitHubInstallation) : Prop where
  row : ∃ row, p'.installations.get key = some row ∧ row.authorization = ⟨snapshot.providerUpdatedAt, .active⟩
  unique : UniqueInstallations p → UniqueInstallations p'
  active : ∀ r, Active p' key r ↔ r ∈ snapshot.repositoryIds
  confined : Confined key p p'

theorem upsertInstallation_ok {key : InstallationKey} {principalId : String} {i : VerifiedGitHubInstallation}
    {u : Unit} (h : upsertInstallation key principalId i p = (.ok u, p')) :
    (∃ row, p'.installations.get key = some row ∧ row.authorization = ⟨i.providerUpdatedAt, .active⟩) ∧
      (UniqueInstallations p → UniqueInstallations p') ∧ Confined key p p' := by
  unfold upsertInstallation at h
  dsimp only at h
  split at h
  · cases h
  · split at h
    · rename_i old hold
      split at h
      · obtain rfl := (Prod.mk.inj h).2
        refine ⟨⟨_, Table.get_set_self hold, rfl⟩, fun hunique => ?_, fun k hk => Table.get_set_other _ _ hk,
          fun _ _ _ => .rfl⟩
        have hwas : ∀ k row, (p.installations.set key { InstallationRow.linked principalId i p.db.now with
            createdAt := old.createdAt }).get k = some row → ∃ row', p.installations.get k = some row' := by
          intro k row hget
          rcases Table.get_set_cases hold hget with ⟨rfl, -⟩ | hk
          · exact ⟨old, hold⟩
          · exact ⟨row, hk⟩
        intro k k' row row' hget hget' hid
        obtain ⟨x, hx⟩ := hwas k row hget
        obtain ⟨x', hx'⟩ := hwas k' row' hget'
        exact hunique k k' x x' hx hx' hid
      · cases h
    · rename_i hnone
      split at h
      · rename_i hcondition
        obtain rfl := (Prod.mk.inj h).2
        refine ⟨⟨_, Table.get_insert_self hnone, rfl⟩, fun hunique => ?_,
          fun k hk => Table.get_insert_other hk, fun _ _ _ => .rfl⟩
        have hfresh : ∀ k row, p.installations.get k = some row → k.installationId ≠ key.installationId := by
          intro k row hget hid
          obtain ⟨found, hfound⟩ :=
            Table.find?_isSome (p := fun k _ => k.installationId == key.installationId) hget (by simpa using hid)
          rw [hfound] at hcondition
          simp at hcondition
        intro k k' row row' hget hget' hid
        rcases Table.get_insert_cases hnone hget with ⟨rfl, -⟩ | hold <;>
          rcases Table.get_insert_cases hnone hget' with ⟨rfl, -⟩ | hold'
        · rfl
        · exact absurd hid.symm (hfresh k' row' hold')
        · exact absurd hid (hfresh k row hold)
        · exact hunique k k' row row' hold hold' hid
      · cases h

theorem UniqueInstallations.congr (h : UniqueInstallations p) (he : p'.installations = p.installations) :
    UniqueInstallations p' := by
  unfold UniqueInstallations
  rw [he]
  exact h

/-- Removing and granting again leaves the repositories of the snapshot active. -/
theorem replaceRepositories_ok {key : InstallationKey} {at' : Instant} {providerUpdatedAt : Option Instant}
    {fresh : Nat → String} {snapshot : VerifiedGitHubInstallation} {u : Unit} {replies : List Unit}
    (hremove : removeRepositories key at' p = (.ok u, p'))
    (hupsert : forEach (upsertRepository key providerUpdatedAt fresh) snapshot.repositories p' = (.ok replies, p'')) :
    p''.installations = p.installations ∧ (∀ r, Active p'' key r ↔ r ∈ snapshot.repositoryIds) ∧
      Confined key p p'' := by
  obtain ⟨hi, hnone, hc⟩ := removeRepositories_ok hremove
  obtain ⟨hi', hactive, hc'⟩ := upsertRepositories_ok hupsert
  refine ⟨hi'.trans hi, fun r => ?_, hc.trans hc'⟩
  rw [hactive r]
  exact or_iff_right (hnone r)

theorem bind_linked {actor : GitHubInstallationActor} {snapshot : VerifiedGitHubInstallation} {draws : Draws}
    {u : Unit} (h : ReproForge.bind actor snapshot draws p = (.ok u, p')) :
    Linked p p' ⟨actor.tenantId, snapshot.installationId⟩ snapshot := by
  simp only [ReproForge.bind, bind_ok, require_ok, read_ok] at h
  obtain ⟨_, _, ⟨-, rfl⟩, _, p₁, hupsert, _, _, ⟨rfl, rfl⟩, _, p₂, hremove, replies, p₃, hgrant, haudit⟩ := h
  obtain ⟨⟨row, hrow, hauth⟩, hunique, hc⟩ := upsertInstallation_ok hupsert
  obtain ⟨hi, hactive, hc'⟩ := replaceRepositories_ok hremove hgrant
  have hu := appendAuthorizationAudit_unlinked haudit
  have hsame : p'.installations = p₁.installations := hu.installations.trans hi
  refine ⟨⟨row, ?_, hauth⟩, fun h => (hunique h).congr hsame, fun r => (hu.active _ r).trans (hactive r), ?_⟩
  · rw [hsame]
    exact hrow
  · exact (hc.trans hc').trans (hu.confined _)

/-- The installation and its repositories after a reconcile. -/
theorem reconcile_ok {tenantId : String} {snapshot : VerifiedGitHubInstallation} {draws : Draws} {u : Unit}
    (h : reconcile tenantId snapshot draws p = (.ok u, p')) :
    (p'.installations.get ⟨tenantId, snapshot.installationId⟩ =
        (p.installations.get ⟨tenantId, snapshot.installationId⟩).map
          (InstallationRow.reconciled snapshot draws.at')) ∧
      (∀ r, Active p' ⟨tenantId, snapshot.installationId⟩ r ↔ r ∈ snapshot.repositoryIds) ∧
      Confined ⟨tenantId, snapshot.installationId⟩ p p' := by
  simp only [reconcile, bind_ok, pure_ok] at h
  obtain ⟨_, p₁, hupdate, _, p₂, hremove, replies, p₃, hgrant, -, rfl⟩ := h
  obtain ⟨hi, hactive, hc⟩ := replaceRepositories_ok hremove hgrant
  refine ⟨?_, hactive, (updateInstallation_confined hupdate).trans hc⟩
  rw [hi]
  rcases updateInstallation_ok hupdate with ⟨hnone, rfl⟩ | ⟨row, hrow, rfl⟩
  · rw [hnone]
    rfl
  · rw [hrow]
    exact Table.get_set_self hrow

/-- The installation after a status event. -/
theorem applyInstallationWebhook_ok {tenantId : String} {payload : WebhookInstallation} {draws : Draws}
    {reply : Option AuditEvent} (h : applyInstallationWebhook tenantId payload draws p = (.ok reply, p')) :
    (payload.transition = none → p' = p) ∧
      (∀ transition, payload.transition = some transition →
        (p'.installations.get ⟨tenantId, payload.id⟩).map InstallationRow.authorization =
          (p.installations.get ⟨tenantId, payload.id⟩).map
            (fun row => reduceGitHubAuthorizationState row.authorization transition)) ∧
      Confined ⟨tenantId, payload.id⟩ p p' := by
  unfold applyInstallationWebhook at h
  cases htransition : payload.transition with
  | none =>
    simp only [htransition, pure_ok] at h
    obtain ⟨-, rfl⟩ := h
    exact ⟨fun _ => rfl, fun _ he => (by cases he), .refl _ _⟩
  | some transition =>
    simp only [htransition, bind_ok, read_ok] at h
    obtain ⟨_, _, ⟨rfl, rfl⟩, h⟩ := h
    refine ⟨fun he => (by cases he), ?_⟩
    cases hrow : p.installations.get ⟨tenantId, payload.id⟩ with
    | none =>
      simp only [hrow, pure_ok] at h
      obtain ⟨-, rfl⟩ := h
      exact ⟨fun _ _ => by rw [hrow]; rfl, .refl _ _⟩
    | some row =>
      simp only [hrow] at h
      split at h
      · rename_i hsame
        obtain ⟨-, rfl⟩ := pure_ok.mp h
        refine ⟨fun t he => ?_, .refl _ _⟩
        obtain rfl := Option.some.inj he
        rw [hrow, Option.map_some, Option.map_some, hsame]
      · simp only [bind_ok, pure_ok] at h
        obtain ⟨_, p₁, hupdate, _, p₂, hremove, -, rfl⟩ := h
        have hrest : p'.installations = p₁.installations ∧ Confined ⟨tenantId, payload.id⟩ p₁ p' := by
          split at hremove
          · obtain ⟨hi, -, hc⟩ := removeRepositories_ok hremove
            exact ⟨hi, hc⟩
          · obtain ⟨-, rfl⟩ := pure_ok.mp hremove
            exact ⟨rfl, .refl _ _⟩
        refine ⟨fun t he => ?_, (updateInstallation_confined hupdate).trans hrest.2⟩
        obtain rfl := Option.some.inj he
        rw [hrest.1]
        rcases updateInstallation_ok hupdate with ⟨hnone, -⟩ | ⟨row', hrow', rfl⟩
        · rw [hrow] at hnone
          cases hnone
        · obtain rfl := Option.some.inj (hrow.symm.trans hrow')
          rw [Table.get_set_self hrow]
          rfl

theorem applyRepositoryTransition_ok {installation : InstallationKey} {providerRepositoryId : Nat}
    {status : RepositoryStatus} {providerUpdatedAt : Instant} {draws : Draws}
    {repository : Option VerifiedGitHubRepository} {u : Unit}
    (h : applyRepositoryTransition installation providerRepositoryId status providerUpdatedAt draws repository p =
      (.ok u, p')) : p'.installations = p.installations ∧ Confined installation p p' := by
  simp only [applyRepositoryTransition, bind_ok, read_ok] at h
  obtain ⟨_, _, ⟨rfl, rfl⟩, h⟩ := h
  cases hfound : findRepositoryRow p installation providerRepositoryId with
  | none =>
    simp only [hfound] at h
    split at h
    · simp only [bind_ok, require_ok] at h
      obtain ⟨_, _, ⟨-, rfl⟩, h⟩ := h
      obtain ⟨hfresh, rfl⟩ := insertRepository_ok h
      exact ⟨rfl, (insert_active hfresh (granted_under _ _ _ _ _)).2⟩
    · obtain ⟨-, rfl⟩ := pure_ok.mp h
      exact ⟨rfl, .refl _ _⟩
  | some found =>
    obtain ⟨hrow, hunder, hid⟩ := findRepositoryRow_some hfound
    simp only [hfound] at h
    split at h
    · obtain ⟨-, rfl⟩ := pure_ok.mp h
      exact ⟨rfl, .refl _ _⟩
    · obtain rfl := updateRepository_ok h
      refine ⟨rfl, (set_active hrow hunder ?_ ?_).2.2.2⟩
      · cases repository <;> exact hunder
      · cases repository <;> rfl

theorem adjustRepositories_ok {tenantId : String} {payload : WebhookRepositories} {draws : Draws} {u : Unit}
    (h : adjustRepositories tenantId payload draws p = (.ok u, p')) :
    p'.installations = p.installations ∧ Confined ⟨tenantId, payload.id⟩ p p' := by
  simp only [adjustRepositories, bind_ok, pure_ok] at h
  obtain ⟨_, p₁, hremoved, _, p₂, hadded, -, rfl⟩ := h
  have hsteps : ∀ {α : Type} {f : α → PlatformStatement ρ σ Unit} {items : List α} {s s' : Platform ρ σ}
      {replies : List Unit}, (∀ a u t t', f a t = (.ok u, t') →
        t'.installations = t.installations ∧ Confined ⟨tenantId, payload.id⟩ t t') →
      forEach f items s = (.ok replies, s') →
      s'.installations = s.installations ∧ Confined ⟨tenantId, payload.id⟩ s s' := by
    intro α f items s s' replies hf hloop
    induction items generalizing s replies with
    | nil =>
      obtain ⟨-, rfl⟩ := forEach_nil_ok.mp hloop
      exact ⟨rfl, .refl _ _⟩
    | cons a rest ih =>
      obtain ⟨u, t, _, hone, hrest, -⟩ := forEach_cons_ok.mp hloop
      obtain ⟨hi, hc⟩ := hf a u s t hone
      obtain ⟨hi', hc'⟩ := ih hrest
      exact ⟨hi'.trans hi, hc.trans hc'⟩
  obtain ⟨hi, hc⟩ := hsteps (fun id u t t' hone => applyRepositoryTransition_ok hone) hremoved
  obtain ⟨hi', hc'⟩ := hsteps (fun r u t t' hone => by
    cases hr : r.complete with
    | none =>
      simp only [hr, pure_ok] at hone
      obtain ⟨-, rfl⟩ := hone
      exact ⟨rfl, .refl _ _⟩
    | some repository =>
      simp only [hr] at hone
      exact applyRepositoryTransition_ok hone) hadded
  exact ⟨hi'.trans hi, hc.trans hc'⟩

end ReproForge
