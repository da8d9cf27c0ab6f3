import ReproForge.Linkage
import ReproForge.System

/-!
# What the order of deliveries decides

The reducer keeps the newest of the status events that it sees, in whatever
order they come. What a link or a snapshot writes does not go through it: these
results say in which orders the stored state is the newest all the same.
-/
namespace ReproForge

open KeyedTable Transactions Registers

variable {ρ σ : Type}

/-! ## The reducer as a register -/

namespace GitHubAuthorizationState

@[simp] theorem time_none (status : GitHubAuthorizationStatus) : time ⟨none, status⟩ = ⊥ := rfl

@[simp] theorem time_some (t : Instant) (status : GitHubAuthorizationStatus) :
    time ⟨some t, status⟩ = (t : WithBot Int) := rfl

theorem rank_lt_iff {x y : GitHubAuthorizationState} :
    x.rank < y.rank ↔ (x.status ≠ .removed ∧ y.status = .removed) ∨
      ((x.status = .removed ↔ y.status = .removed) ∧
        (x.time < y.time ∨ (x.time = y.time ∧ x.status.precedence < y.status.precedence))) := by
  unfold rank
  rw [Prod.Lex.toLex_lt_toLex, Prod.Lex.toLex_lt_toLex]
  dsimp only
  rw [Bool.lt_iff]
  simp only [beq_eq_false_iff_ne, beq_iff_eq, beq_eq_beq]

end GitHubAuthorizationState

open GitHubAuthorizationState

theorem GitHubAuthorizationStatus.precedence_pos {status : GitHubAuthorizationStatus} :
    0 < status.precedence ↔ status ≠ .active := by cases status <;> simp [precedence]

@[simp] theorem GitHubAuthorizationTransition.state_status (t : GitHubAuthorizationTransition) :
    t.state.status = t.status := rfl

@[simp] theorem GitHubAuthorizationTransition.state_time (t : GitHubAuthorizationTransition) :
    t.state.time = (t.at' : WithBot Int) := rfl

theorem reduceGitHubAuthorizationState_eq (s : GitHubAuthorizationState) (t : GitHubAuthorizationTransition) :
    reduceGitHubAuthorizationState s t = absorb rank s t.state := by
  obtain ⟨time, status⟩ := s
  obtain ⟨at', status'⟩ := t
  unfold absorb reduceGitHubAuthorizationState
  simp only [rank_lt_iff, GitHubAuthorizationTransition.state]
  cases time with
  | none => cases status <;> cases status' <;> simp
  | some time =>
    simp only [time_some, WithBot.coe_lt_coe, WithBot.coe_inj]
    rcases lt_trichotomy time at' with hlt | heq | hgt
    · cases status <;> cases status' <;> simp [hlt]
    · cases status <;> cases status' <;> simp [heq, GitHubAuthorizationStatus.precedence]
    · cases status <;> cases status' <;> simp [hgt, hgt.not_gt, hgt.ne']

/-- The status events alone. -/
def statusFold (start : GitHubAuthorizationState) (events : List GitHubAuthorizationTransition) :
    GitHubAuthorizationState := events.foldl reduceGitHubAuthorizationState start

theorem statusFold_eq (start : GitHubAuthorizationState) (events : List GitHubAuthorizationTransition) :
    statusFold start events = settle rank start (events.map GitHubAuthorizationTransition.state) := by
  unfold statusFold settle
  rw [List.foldl_map]
  congr 1
  funext s t
  exact reduceGitHubAuthorizationState_eq s t

/-- An event that was seen before changes nothing. -/
theorem statusFold_duplicate {start : GitHubAuthorizationState} {events : List GitHubAuthorizationTransition}
    {t : GitHubAuthorizationTransition} (ht : t ∈ events) : statusFold start (events ++ [t]) = statusFold start events := by
  have hle := (le_settle rank start (events.map GitHubAuthorizationTransition.state)).2 t.state
    (List.mem_map_of_mem ht)
  rw [← statusFold_eq] at hle
  have happend : statusFold start (events ++ [t]) = reduceGitHubAuthorizationState (statusFold start events) t := by
    rw [statusFold, List.foldl_append]
    rfl
  rw [happend, reduceGitHubAuthorizationState_eq, absorb, if_neg (not_lt.mpr hle)]

/-- Neither active nor suspended is left after a removal, and what is active ranks below what is
suspended no earlier. -/
theorem rank_le_of_active {x y : GitHubAuthorizationState} (hx : x.status = .active) (hy : y.status ≠ .active)
    (h : y.status = .removed ∨ x.time ≤ y.time) : ¬ y.rank ≤ x.rank := by
  rw [not_le, rank_lt_iff]
  by_cases hremoved : y.status = .removed
  · exact .inl ⟨by rw [hx]; decide, hremoved⟩
  · refine .inr ⟨by simp [hx, hremoved], ?_⟩
    rcases lt_or_eq_of_le (h.resolve_left hremoved) with hlt | heq
    · exact .inl hlt
    · refine .inr ⟨heq, ?_⟩
      rw [hx]
      exact GitHubAuthorizationStatus.precedence_pos.mpr hy

theorem time_le_of_rank_le {x y : GitHubAuthorizationState} (h : x.rank ≤ y.rank) (hy : y.status ≠ .removed) :
    x.status ≠ .removed ∧ x.time ≤ y.time := by
  have hnot := not_lt.mpr h
  rw [rank_lt_iff] at hnot
  push Not at hnot
  obtain ⟨hremoved, htime⟩ := hnot
  have hx : x.status ≠ .removed := fun hx => hremoved hy hx
  exact ⟨hx, (htime (by simp [hx, hy])).1⟩

/-! ## Facts about one installation -/

/-- A snapshot counts as active at its provider time. -/
def VerifiedGitHubInstallation.state (s : VerifiedGitHubInstallation) : GitHubAuthorizationState :=
  ⟨s.providerUpdatedAt, .active⟩

def Fact.follow (current : Option GitHubAuthorizationState) (f : Fact) : Option GitHubAuthorizationState :=
  match f with
  | .bound s => some s.state
  | f => current.map f.apply

theorem track_eq (id : Nat) (log : List (Nat × Fact)) : track id log = (factsOf id log).foldl Fact.follow none := by
  unfold track factsOf
  generalize none = start
  induction log generalizing start with
  | nil => rfl
  | cons f rest ih =>
    by_cases hf : f.1 = id
    · have hfollow : trackFact id start f = Fact.follow start f.2 := if_pos hf
      rw [List.foldl_cons, hfollow, ih, List.filter_cons_of_pos (by simpa using hf), List.map_cons, List.foldl_cons]
    · have hskip : trackFact id start f = start := if_neg hf
      rw [List.foldl_cons, hskip, ih, List.filter_cons_of_neg (by simpa using hf)]

theorem foldl_events (current : GitHubAuthorizationState) (events : List GitHubAuthorizationTransition) :
    (events.map Fact.event).foldl Fact.follow (some current) = some (statusFold current events) := by
  induction events generalizing current with
  | nil => rfl
  | cons t rest ih => exact ih (reduceGitHubAuthorizationState current t)

/-- The row of an installation is what its facts make of it. -/
theorem Linkage.Sound.row {w : Linkage ρ σ} (hs : w.Sound) {id : Nat} {current : GitHubAuthorizationState}
    (h : (factsOf id w.log).foldl Fact.follow none = some current) :
    ∃ key row, w.platform.installations.get key = some row ∧ key.installationId = id ∧
      row.authorization = current := by
  rw [← track_eq] at h
  obtain ⟨key, row, hrow, rfl⟩ := hs.stored id current h
  exact ⟨key, row, hrow, rfl, Option.some.inj ((hs.tracked key row hrow).symm.trans h)⟩

/-! ## Sample deliveries -/

namespace Sample

def principals : Table Key PrincipalRow :=
  Table.empty.insert ⟨"acme", "user-1"⟩
    ⟨"github", "https://github.com", "42", opening, opening, opening, opening + days 365⟩

def installer : GitHubInstallationActor := ⟨"user-1", "acme"⟩

def stateHash : String := "9c56cc51b374c3ba189210d5b6d4bf57790d351c96c47c02190ecf1e430635ab"

def pendingState : Table String InstallationStateRow :=
  Table.empty.insert stateHash ⟨"acme", "user-1", opening, opening + 600000, none⟩

def repository (id : Nat) : VerifiedGitHubRepository := ⟨"main", "acme/web", true, id⟩

/-- A snapshot `n` milliseconds after the opening. -/
def snapshot (n : Int) (ids : List Nat) : VerifiedGitHubInstallation :=
  ⟨501, "acme", 7001, some (opening + n), ids.map repository, .selected⟩

def surroundings (answer : Option VerifiedGitHubInstallation) : Surroundings where
  answer := answer
  fate := .runs
  draws := ⟨opening, "audit-0", fun id => if id = 8001 then "repo-1" else "repo-2"⟩

def drawing (auditEventId : String) : Surroundings :=
  { surroundings none with draws := { (surroundings none).draws with auditEventId := auditEventId } }

def statusDelivery (deliveryId action : String) (n : Int) : GitHubWebhookEnvelope where
  deliveryId := deliveryId
  event := .installation
  payload :=
    { hash := stateHash
      installationId := some 7001
      installation := some ⟨action, 7001,
        ((Table.empty.insert "contents" "read").insert "issues" "read").insert "metadata" "read", none, opening + n⟩
      repositories := none
      identified := fun _ h => (nomatch h) }

def repositoriesDelivery (deliveryId : String) : GitHubWebhookEnvelope where
  deliveryId := deliveryId
  event := .installationRepositories
  payload :=
    { hash := stateHash
      installationId := some 7001
      installation := none
      repositories := some ⟨.removed, 7001, opening + 20, [], [8002]⟩
      identified := fun _ h _ => by rw [← Option.some.inj h] }

/-- A callback up to the snapshot that it binds. -/
def verified : List (LinkageAction Empty Empty) :=
  [.others (Db.initial opening tenants) principals pendingState, .callback 0 installer stateHash 7001,
    .advance 0 (surroundings none), .advance 0 (surroundings (some (snapshot 10 [8001, 8002])))]

def linked : List (LinkageAction Empty Empty) := verified ++ [.advance 0 (drawing "audit-1")]

/-- A delivery of a status event from its receipt to its commit. -/
def delivered (n : Nat) (e : GitHubWebhookEnvelope) (auditEventId : String) : List (LinkageAction Empty Empty) :=
  [.receive n e, .advance n (surroundings none), .advance n (drawing auditEventId)]

/-- The older of two snapshots is read first and applied last. -/
def overtaken : List (LinkageAction Empty Empty) :=
  [.receive 1 (repositoriesDelivery "delivery-1"), .advance 1 (surroundings (some (snapshot 20 [8001, 8002]))),
    .receive 2 (repositoriesDelivery "delivery-2"), .advance 2 (surroundings (some (snapshot 30 [8001]))),
    .advance 2 (drawing "audit-2"), .advance 1 (drawing "audit-3")]

/-- The installation is suspended, an older snapshot sets the provider's time back, and an
activation from before the suspension arrives. -/
def reactivated : List (LinkageAction Empty Empty) :=
  delivered 1 (statusDelivery "delivery-1" "suspended" 40) "audit-2" ++
    [.receive 2 (repositoriesDelivery "delivery-2"), .advance 2 (surroundings (some (snapshot 20 [8001]))),
      .advance 2 (drawing "audit-3")] ++
    delivered 3 (statusDelivery "delivery-3" "unsuspended" 30) "audit-4"

/-- A callback reads its snapshot, the installation is suspended, and the snapshot is bound. -/
def revoked : List (LinkageAction Empty Empty) :=
  verified ++ delivered 1 (statusDelivery "delivery-1" "suspended" 20) "audit-2" ++ [.advance 0 (drawing "audit-1")]

def after (actions : List (LinkageAction Empty Empty)) : Linkage Empty Empty :=
  Runs.run Linkage.step actions (Linkage.initial (Db.initial opening tenants) principals)

theorem after_sound (actions : List (LinkageAction Empty Empty)) : (after actions).Sound :=
  Linkage.sound_run (Db.initial opening tenants) principals actions

end Sample

open Sample

/-! ## Snapshots -/

/-- The snapshot with the greatest provider timestamp. -/
def Newest (snapshots : List VerifiedGitHubInstallation) (s : VerifiedGitHubInstallation) : Prop :=
  s ∈ snapshots ∧ ∀ s' ∈ snapshots, s'.state.time ≤ s.state.time

/-- After any number of deliveries with snapshots, the active repositories are those of the newest
snapshot exactly when the snapshot that was applied last has the same ones. -/
theorem reconciled_repositories (db : Db ρ σ) (principals : Table Key PrincipalRow)
    (actions : List (LinkageAction ρ σ)) :
    let w := Runs.run Linkage.step actions (Linkage.initial db principals)
    ∀ key row earlier snapshots last newest, w.platform.installations.get key = some row →
      factsOf key.installationId w.log = earlier ++ (snapshots ++ [last]).map Fact.reconciled →
      Newest (snapshots ++ [last]) newest →
      ((∀ r, Active w.platform key r ↔ r ∈ newest.repositoryIds) ↔
        ∀ r, r ∈ last.repositoryIds ↔ r ∈ newest.repositoryIds) := by
  intro w key row earlier snapshots last newest hrow hfacts _
  have hlast : (factsOf key.installationId w.log).getLast? = some (.reconciled last) := by
    rw [hfacts, List.map_append, ← List.append_assoc]
    exact List.getLast?_concat
  have hactive := (Linkage.sound_run db principals actions).reconciled key row hrow last hlast
  exact forall_congr' (fun r => iff_congr (hactive r) .rfl)

theorem overtaken_facts :
    factsOf 7001 (after (linked ++ overtaken)).log = [.bound (snapshot 10 [8001, 8002])] ++
      ([snapshot 30 [8001]] ++ [snapshot 20 [8001, 8002]]).map Fact.reconciled := by decide +kernel

theorem overtaken_newest : Newest ([snapshot 30 [8001]] ++ [snapshot 20 [8001, 8002]]) (snapshot 30 [8001]) :=
  ⟨by decide, by decide⟩

/-- A repository that the newer snapshot has no more is active. -/
theorem stale_snapshot_applied :
    ∃ key row, (after (linked ++ overtaken)).platform.installations.get key = some row ∧
      factsOf key.installationId (after (linked ++ overtaken)).log = [.bound (snapshot 10 [8001, 8002])] ++
        ([snapshot 30 [8001]] ++ [snapshot 20 [8001, 8002]]).map Fact.reconciled ∧
      Newest ([snapshot 30 [8001]] ++ [snapshot 20 [8001, 8002]]) (snapshot 30 [8001]) ∧
      ¬ ∀ r, Active (after (linked ++ overtaken)).platform key r ↔ r ∈ (snapshot 30 [8001]).repositoryIds := by
  have hs := after_sound (linked ++ overtaken)
  have hfacts := overtaken_facts
  obtain ⟨key, row, hrow, hid, -⟩ := hs.row (congrArg (List.foldl Fact.follow none) hfacts)
  rw [← hid] at hfacts
  have hlast : (factsOf key.installationId (after (linked ++ overtaken)).log).getLast? =
      some (.reconciled (snapshot 20 [8001, 8002])) := congrArg List.getLast? hfacts
  refine ⟨key, row, hrow, hfacts, overtaken_newest, fun h => ?_⟩
  have hmember := (h 8002).mp ((hs.reconciled key row hrow _ hlast 8002).mpr (by decide))
  exact absurd hmember (by decide)

theorem reconciled_repositories_sample :
    ∃ key, (∀ r, Active (after (linked ++ overtaken)).platform key r ↔ r ∈ (snapshot 30 [8001]).repositoryIds) ↔
      ∀ r, r ∈ (snapshot 20 [8001, 8002]).repositoryIds ↔ r ∈ (snapshot 30 [8001]).repositoryIds := by
  have hs := after_sound (linked ++ overtaken)
  have hfacts := overtaken_facts
  obtain ⟨key, row, hrow, hid, -⟩ := hs.row (congrArg (List.foldl Fact.follow none) hfacts)
  rw [← hid] at hfacts
  rw [after] at hrow hfacts ⊢
  exact ⟨key, reconciled_repositories (Db.initial opening tenants) principals (linked ++ overtaken) key row
    [.bound (snapshot 10 [8001, 8002])] [snapshot 30 [8001]] (snapshot 20 [8001, 8002]) (snapshot 30 [8001])
    hrow hfacts overtaken_newest⟩

/-! ## Revocations -/

/-- The newest of the snapshot and the events is a suspension or a deletion. -/
def NewestIsRevocation (s : VerifiedGitHubInstallation) (events : List GitHubAuthorizationTransition) : Prop :=
  ∃ t ∈ events, t.status ≠ .active ∧ s.state.time ≤ t.state.time ∧ ∀ t' ∈ events, t'.at' ≤ t.at'

/-- A deletion, or a suspension no older than the snapshot and every activation. -/
def RevokedAfter (s : VerifiedGitHubInstallation) (after : List GitHubAuthorizationTransition) : Prop :=
  ∃ t ∈ after, t.status = .removed ∨
    t.status = .suspended ∧ s.state.time ≤ t.state.time ∧ ∀ t' ∈ after, t'.status = .active → t'.at' ≤ t.at'

theorem statusFold_revoked (s : VerifiedGitHubInstallation) (after : List GitHubAuthorizationTransition) :
    (statusFold s.state after).status ≠ .active ↔ RevokedAfter s after := by
  obtain ⟨hstart, hevents⟩ := le_settle rank s.state (after.map GitHubAuthorizationTransition.state)
  have hmem := settle_mem rank s.state (after.map GitHubAuthorizationTransition.state)
  rw [← statusFold_eq] at hstart hevents hmem
  constructor
  · intro hne
    rcases hmem with hmem | hmem
    · exact absurd (congrArg status hmem) hne
    · obtain ⟨t, ht, hfinal⟩ := List.mem_map.mp hmem
      refine ⟨t, ht, ?_⟩
      rw [← hfinal] at hne hstart hevents
      cases hstatus : t.status with
      | active => exact absurd hstatus hne
      | removed => exact .inl rfl
      | suspended =>
        have hkept : t.state.status ≠ .removed := by simp [hstatus]
        refine .inr ⟨rfl, (time_le_of_rank_le hstart hkept).2, fun t' ht' _ => ?_⟩
        have htime := (time_le_of_rank_le (hevents t'.state (List.mem_map_of_mem ht')) hkept).2
        exact WithBot.coe_le_coe.mp htime
  · rintro ⟨t, ht, hrevoked⟩ hactive
    refine rank_le_of_active (y := t.state) hactive ?_ ?_ (hevents t.state (List.mem_map_of_mem ht))
    · rcases hrevoked with hremoved | ⟨hsuspended, -⟩
      · simp [hremoved]
      · simp [hsuspended]
    · rcases hrevoked with hremoved | ⟨-, hsnapshot, hactivations⟩
      · exact .inl hremoved
      · rcases hmem with hmem | hmem
        · rw [hmem]
          exact .inr hsnapshot
        · obtain ⟨t', ht', hfinal⟩ := List.mem_map.mp hmem
          rw [← hfinal] at hactive ⊢
          exact .inr (WithBot.coe_le_coe.mpr (hactivations t' ht' hactive))

/-- With a callback among any webhooks, a revocation that is the newest fact leaves the
installation inactive exactly when one that outlasts the snapshot is processed after the link. -/
theorem linked_revocation (db : Db ρ σ) (principals : Table Key PrincipalRow) (actions : List (LinkageAction ρ σ)) :
    let w := Runs.run Linkage.step actions (Linkage.initial db principals)
    ∀ id earlier before s after,
      factsOf id w.log = earlier ++ (before.map Fact.event ++ .bound s :: after.map Fact.event) →
      ∃ key row, w.platform.installations.get key = some row ∧ key.installationId = id ∧
        ((NewestIsRevocation s (before ++ after) → row.status ≠ .active) ↔
          (NewestIsRevocation s (before ++ after) → RevokedAfter s after)) := by
  intro w id earlier before s after hfacts
  have hs := Linkage.sound_run db principals actions
  have hfold : (factsOf id w.log).foldl Fact.follow none = some (statusFold s.state after) := by
    rw [hfacts, ← List.append_assoc, List.foldl_append, List.foldl_cons]
    exact foldl_events s.state after
  obtain ⟨key, row, hrow, hid, hauth⟩ := hs.row hfold
  refine ⟨key, row, hrow, hid, ?_⟩
  have hstatus : row.status ≠ .active ↔ RevokedAfter s after := by
    rw [← statusFold_revoked, ← hauth]
    exact .rfl
  rw [hstatus]

theorem revoked_facts :
    factsOf 7001 (after revoked).log = [] ++
      ([⟨opening + 20, .suspended⟩].map Fact.event ++ .bound (snapshot 10 [8001, 8002]) :: [].map Fact.event) := by
  decide +kernel

/-- The suspension is newer than the snapshot, and the installation is active. -/
theorem link_undoes_suspension :
    factsOf 7001 (after revoked).log = [.event ⟨opening + 20, .suspended⟩, .bound (snapshot 10 [8001, 8002])] ∧
      NewestIsRevocation (snapshot 10 [8001, 8002]) [⟨opening + 20, .suspended⟩] ∧
      ∃ key row, (after revoked).platform.installations.get key = some row ∧ key.installationId = 7001 ∧
        row.status = .active := by
  have hs := after_sound revoked
  obtain ⟨key, row, hrow, hid, hauth⟩ := hs.row (congrArg (List.foldl Fact.follow none) revoked_facts)
  refine ⟨revoked_facts, ⟨_, List.mem_cons_self, by decide, by decide, by decide⟩, key, row, hrow, hid, ?_⟩
  exact congrArg status hauth

theorem linked_revocation_sample :
    ∃ key row, (after revoked).platform.installations.get key = some row ∧ key.installationId = 7001 ∧
      ((NewestIsRevocation (snapshot 10 [8001, 8002]) [⟨opening + 20, .suspended⟩] → row.status ≠ .active) ↔
        (NewestIsRevocation (snapshot 10 [8001, 8002]) [⟨opening + 20, .suspended⟩] →
          RevokedAfter (snapshot 10 [8001, 8002]) [])) := by
  have hfacts := revoked_facts
  rw [after] at hfacts ⊢
  exact linked_revocation (Db.initial opening tenants) principals revoked 7001 [] [⟨opening + 20, .suspended⟩]
    (snapshot 10 [8001, 8002]) [] hfacts

/-! ## Status events between snapshots -/

def Fact.since (current : Option (VerifiedGitHubInstallation × List GitHubAuthorizationTransition)) (f : Fact) :
    Option (VerifiedGitHubInstallation × List GitHubAuthorizationTransition) :=
  match f with
  | .bound s => some (s, [])
  | .event t => current.map (fun c => (c.1, c.2 ++ [t]))
  | .reconciled _ | .adjusted => current

/-- The snapshot that was bound last, and the status events after it. -/
def sinceBinding (facts : List Fact) : Option (VerifiedGitHubInstallation × List GitHubAuthorizationTransition) :=
  facts.foldl Fact.since none

/-- The event is newer by the provider's time, or as new and of a higher precedence. -/
def Overtakes (current : GitHubAuthorizationState) (t : GitHubAuthorizationTransition) : Prop :=
  current.time < t.state.time ∨ current.time = t.state.time ∧ current.status.precedence < t.status.precedence

/-- A suspension or an activation that would change the status overtakes the stored provider time,
which snapshots write as well, exactly when it overtakes the time that the events alone have left. -/
def Linkage.Aligned (w : Linkage ρ σ) (action : LinkageAction ρ σ) : Prop :=
  ∀ n env e snapshot, action = .advance n env → w.intakes n = .applying e snapshot →
    ∀ key row s events t, w.platform.installations.get key = some row →
      sinceBinding (factsOf key.installationId w.log) = some (s, events) →
      webhookFact w.platform e snapshot = some (key.installationId, .event t) →
      row.status ≠ .removed → t.status ≠ .removed → t.status ≠ row.status →
      (Overtakes row.authorization t ↔ Overtakes (statusFold s.state events) t)

/-- What a step adds to the log; a status event comes from a delivery that commits. -/
theorem Linkage.step_log (w : Linkage ρ σ) (action : LinkageAction ρ σ) :
    (Linkage.step action w).log = w.log ∨ ∃ f, (Linkage.step action w).log = w.log ++ [f] ∧
      ∀ t, f.2 = .event t → ∃ n env e snapshot, action = .advance n env ∧ w.intakes n = .applying e snapshot ∧
        webhookFact w.platform e snapshot = some f := by
  cases action with
  | receive n e => exact .inl rfl
  | callback n actor stateHash id => exact .inl rfl
  | others db principals states => exact .inl rfl
  | advance n env =>
    dsimp only [Linkage.step]
    unfold Linkage.advance
    cases hn : w.intakes n with
    | idle => exact .inl rfl
    | done => exact .inl rfl
    | received e =>
      dsimp only
      split
      · exact .inl rfl
      · split
        · exact .inl rfl
        · exact .inl rfl
    | verifying actor id =>
      dsimp only
      split
      · exact .inl rfl
      · split
        · exact .inl rfl
        · exact .inl rfl
    | applying e snapshot =>
      rcases commit_cases env.fate (processWebhook e snapshot env.draws) w.platform with h | ⟨reply, p', -, h⟩
      · simp only [h]
        exact .inl rfl
      · simp only [h]
        cases hfact : webhookFact w.platform e snapshot with
        | none => exact .inl (List.append_nil w.log)
        | some f => exact .inr ⟨f, rfl, fun _ _ => ⟨n, env, e, snapshot, rfl, hn, hfact⟩⟩
    | consuming actor stateHash id =>
      rcases commit_cases env.fate (consume actor stateHash env.draws.at') w.platform with h | ⟨consumed, p', -, h⟩
      · simp only [h]
        exact .inl rfl
      · simp only [h]
        exact .inl (List.append_nil w.log)
    | binding actor snapshot =>
      rcases commit_cases env.fate (ReproForge.bind actor snapshot env.draws) w.platform with h | ⟨_, p', -, h⟩
      · simp only [h]
        exact .inl rfl
      · simp only [h]
        exact .inr ⟨_, rfl, fun _ ht => (nomatch ht)⟩

theorem reduce_status {s s' : GitHubAuthorizationState} {t : GitHubAuthorizationTransition} (hs : s.status = s'.status)
    (h : s.status ≠ .removed → t.status ≠ .removed → t.status ≠ s.status → (Overtakes s t ↔ Overtakes s' t)) :
    (reduceGitHubAuthorizationState s t).status = (reduceGitHubAuthorizationState s' t).status := by
  rw [reduceGitHubAuthorizationState_eq, reduceGitHubAuthorizationState_eq, absorb, absorb]
  by_cases hsame : t.status = s.status
  · have hsame' : t.state.status = s'.status := hsame.trans hs
    split <;> split <;> simp_all
  by_cases hremoved : s.status = .removed
  · have hlt : ¬ s.rank < t.state.rank := by
      rw [rank_lt_iff]
      simp_all
    have hlt' : ¬ s'.rank < t.state.rank := by
      rw [rank_lt_iff]
      simp_all
    rw [if_neg hlt, if_neg hlt', hs]
  by_cases hdeleted : t.status = .removed
  · have hlt : s.rank < t.state.rank := rank_lt_iff.mpr (.inl ⟨hremoved, hdeleted⟩)
    have hlt' : s'.rank < t.state.rank := rank_lt_iff.mpr (.inl ⟨hs ▸ hremoved, hdeleted⟩)
    rw [if_pos hlt, if_pos hlt']
  · have hrank : s.rank < t.state.rank ↔ Overtakes s t := by
      rw [rank_lt_iff]
      simp [hremoved, hdeleted, Overtakes]
    have hrank' : s'.rank < t.state.rank ↔ Overtakes s' t := by
      rw [rank_lt_iff]
      simp [← hs, hremoved, hdeleted, Overtakes]
    have hboth : s.rank < t.state.rank ↔ s'.rank < t.state.rank :=
      hrank.trans ((h hremoved hdeleted hsame).trans hrank'.symm)
    by_cases hlt : s.rank < t.state.rank
    · rw [if_pos hlt, if_pos (hboth.mp hlt)]
    · rw [if_neg hlt, if_neg (fun hlt' => hlt (hboth.mpr hlt')), hs]

section concat

variable {id : Nat} {log : List (Nat × Fact)} {f : Fact}

theorem track_concat (fact : Nat × Fact) : track id (log ++ [fact]) = trackFact id (track id log) fact :=
  track_append (some fact)

theorem track_concat_other {i : Nat} (hi : i ≠ id) : track id (log ++ [(i, f)]) = track id log := by
  rw [track_concat]
  exact if_neg hi

theorem factsOf_concat_other {i : Nat} (hi : i ≠ id) : factsOf id (log ++ [(i, f)]) = factsOf id log := by
  exact (factsOf_append (some (i, f))).trans (if_neg hi)

theorem sinceBinding_concat : sinceBinding (factsOf id (log ++ [(id, f)])) = Fact.since (sinceBinding (factsOf id log)) f := by
  have hfacts : factsOf id (log ++ [(id, f)]) = factsOf id log ++ [f] :=
    (factsOf_append (some (id, f))).trans (if_pos rfl)
  rw [hfacts, sinceBinding, List.foldl_append]
  rfl

end concat

/-- The status of every installation is the fold of its status events alone. -/
def Linkage.Folded (w : Linkage ρ σ) : Prop :=
  ∀ id current, track id w.log = some current → ∃ s events,
    sinceBinding (factsOf id w.log) = some (s, events) ∧ current.status = (statusFold s.state events).status

theorem statusFold_concat (start : GitHubAuthorizationState) (events : List GitHubAuthorizationTransition)
    (t : GitHubAuthorizationTransition) :
    statusFold start (events ++ [t]) = reduceGitHubAuthorizationState (statusFold start events) t := by
  rw [statusFold, List.foldl_append]
  rfl

/-- Step lemma. -/
theorem Linkage.Folded.step {w : Linkage ρ σ} (hf : w.Folded) (hs : w.Sound) {action : LinkageAction ρ σ}
    (haligned : w.Aligned action) : (Linkage.step action w).Folded := by
  intro id current htrack
  rcases w.step_log action with hlog | ⟨⟨i, f⟩, hlog, hevent⟩
  · rw [hlog] at htrack ⊢
    exact hf id current htrack
  rw [hlog] at htrack ⊢
  by_cases hi : i = id
  · subst hi
    rw [track_concat] at htrack
    have hfollow : Fact.follow (track i w.log) f = some current := (if_pos rfl).symm.trans htrack
    rw [sinceBinding_concat]
    cases f with
    | bound s =>
      obtain rfl := Option.some.inj hfollow
      exact ⟨s, [], rfl, rfl⟩
    | event t =>
      obtain ⟨before, hbefore, rfl⟩ := Option.map_eq_some_iff.mp hfollow
      obtain ⟨s, events, hsince, hstatus⟩ := hf i before hbefore
      refine ⟨s, events ++ [t], by rw [hsince]; rfl, ?_⟩
      obtain ⟨key, row, hrow, rfl⟩ := hs.stored i before hbefore
      have hauth := Option.some.inj (hbefore.symm.trans (hs.tracked key row hrow))
      obtain ⟨n, env, e, snapshot, rfl, hn, hfact⟩ := hevent t rfl
      rw [statusFold_concat]
      refine reduce_status hstatus (fun hremoved hdeleted hchange => ?_)
      rw [hauth] at hremoved hchange ⊢
      exact haligned n env e snapshot rfl hn key row s events t hrow hsince hfact hremoved hdeleted hchange
    | reconciled s =>
      obtain ⟨before, hbefore, rfl⟩ := Option.map_eq_some_iff.mp hfollow
      exact hf i before hbefore
    | adjusted =>
      obtain ⟨before, hbefore, rfl⟩ := Option.map_eq_some_iff.mp hfollow
      exact hf i before hbefore
  · rw [track_concat_other hi] at htrack
    rw [factsOf_concat_other hi]
    exact hf id current htrack

/-- An event that makes an installation active again is no older than any since the link. -/
theorem reactivation_newest {start : GitHubAuthorizationState} {events : List GitHubAuthorizationTransition}
    {t : GitHubAuthorizationTransition} (hbefore : (statusFold start events).status ≠ .active)
    (hafter : (statusFold start (events ++ [t])).status = .active) : ∀ e ∈ events, e.at' ≤ t.at' := by
  intro e he
  rw [statusFold_concat, reduceGitHubAuthorizationState_eq] at hafter
  unfold absorb at hafter
  split at hafter
  · rename_i hlt
    have hle := (le_settle rank start (events.map GitHubAuthorizationTransition.state)).2 e.state
      (List.mem_map_of_mem he)
    rw [← statusFold_eq] at hle
    have hkept : t.state.status ≠ .removed := by
      rw [hafter]
      decide
    exact WithBot.coe_le_coe.mp (time_le_of_rank_le (hle.trans hlt.le) hkept).2
  · exact absurd hafter hbefore

/-- An installation that becomes active again was linked anew, or is so by a status event that is
no older than those since it was linked. -/
theorem Linkage.Folded.reactivation {w : Linkage ρ σ} (hf : w.Folded) (hs : w.Sound)
    {action : LinkageAction ρ σ} (haligned : w.Aligned action) {key : InstallationKey} {row row' : InstallationRow}
    {s : VerifiedGitHubInstallation} {events : List GitHubAuthorizationTransition}
    (hrow : w.platform.installations.get key = some row)
    (hsince : sinceBinding (factsOf key.installationId w.log) = some (s, events))
    (hrow' : (Linkage.step action w).platform.installations.get key = some row')
    (hinactive : row.status ≠ .active) (hactive : row'.status = .active) :
    ∃ f, (Linkage.step action w).log = w.log ++ [(key.installationId, f)] ∧
      ((∃ s', f = .bound s') ∨ ∃ t, f = .event t ∧ ∀ e ∈ events, e.at' ≤ t.at') := by
  have htrack := hs.tracked key row hrow
  have htrack' := (hs.step action).tracked key row' hrow'
  have hf' := hf.step hs haligned
  have hdiffers : row'.authorization.status ≠ row.authorization.status := by
    intro hsame
    exact hinactive (hsame.symm.trans hactive)
  rcases w.step_log action with hlog | ⟨⟨i, f⟩, hlog, -⟩
  · rw [hlog, htrack] at htrack'
    exact absurd (congrArg status (Option.some.inj htrack')).symm hdiffers
  by_cases hi : i = key.installationId
  · subst hi
    refine ⟨f, hlog, ?_⟩
    have hfollow : Fact.follow (track key.installationId w.log) f = some row'.authorization := by
      rw [hlog, track_concat] at htrack'
      exact (if_pos rfl).symm.trans htrack'
    rw [htrack] at hfollow
    cases f with
    | bound s' => exact .inl ⟨s', rfl⟩
    | event t =>
      refine .inr ⟨t, rfl, ?_⟩
      obtain ⟨s₀, events₀, hsince₀, hstatus⟩ := hf key.installationId _ htrack
      obtain ⟨s₁, events₁, hsince₁, hstatus'⟩ := hf' key.installationId _ htrack'
      rw [hlog, sinceBinding_concat, hsince] at hsince₁
      obtain ⟨rfl, rfl⟩ := Prod.mk.inj (Option.some.inj hsince₁)
      obtain ⟨rfl, rfl⟩ := Prod.mk.inj (Option.some.inj (hsince.symm.trans hsince₀))
      exact reactivation_newest (hstatus ▸ hinactive) (hstatus'.symm.trans hactive)
    | reconciled s' => exact absurd (congrArg status (Option.some.inj hfollow)).symm hdiffers
    | adjusted => exact absurd (congrArg status (Option.some.inj hfollow)).symm hdiffers
  · rw [hlog, track_concat_other hi, htrack] at htrack'
    exact absurd (congrArg status (Option.some.inj htrack')).symm hdiffers

theorem reactivated_facts :
    factsOf 7001 (after (linked ++ reactivated)).log = [.bound (snapshot 10 [8001, 8002]),
      .event ⟨opening + 40, .suspended⟩, .reconciled (snapshot 20 [8001]), .event ⟨opening + 30, .active⟩] := by
  decide +kernel

/-- The next action applies no delivery. -/
def applying (w : Linkage Empty Empty) : LinkageAction Empty Empty → Bool
  | .advance n _ =>
    match w.intakes n with
    | .applying _ _ => true
    | _ => false
  | _ => false

theorem aligned_idle {w : Linkage Empty Empty} {action : LinkageAction Empty Empty} (h : applying w action = false) :
    w.Aligned action := by
  rintro n env e snapshot rfl hn
  simp only [applying, hn] at h
  cases h

theorem aligned_linked {w : Linkage ρ σ} {s : VerifiedGitHubInstallation} (action : LinkageAction ρ σ)
    (hs : w.Sound) (h : w.log = [(s.installationId, .bound s)]) : w.Aligned action := by
  intro n env e snapshot _ _ key row s' events t hrow hsince _ _ _ _
  have htrack := hs.tracked key row hrow
  rw [h] at htrack hsince
  by_cases hid : s.installationId = key.installationId
  · have hauth : s.state = row.authorization := by
      have hfollow : track key.installationId [(s.installationId, .bound s)] = some s.state := if_pos hid
      exact Option.some.inj (hfollow.symm.trans htrack)
    have hfacts : factsOf key.installationId [(s.installationId, .bound s)] = [.bound s] := by simp [factsOf, hid]
    rw [hfacts] at hsince
    obtain ⟨rfl, rfl⟩ := Prod.mk.inj (Option.some.inj hsince)
    rw [← hauth]
    exact .rfl
  · have hnone : track key.installationId [(s.installationId, .bound s)] = none := if_neg hid
    rw [hnone] at htrack
    cases htrack

theorem suspended_aligned : Runs.Guarded Linkage.step Linkage.Aligned
    (linked ++ delivered 1 (statusDelivery "delivery-1" "suspended" 40) "audit-2")
    (Linkage.initial (Db.initial opening tenants) principals) := by
  have hevaluated : ∀ i (hi : i < (linked ++ delivered 1 (statusDelivery "delivery-1" "suspended" 40) "audit-2").length),
      let w := after ((linked ++ delivered 1 (statusDelivery "delivery-1" "suspended" 40) "audit-2").take i)
      applying w (linked ++ delivered 1 (statusDelivery "delivery-1" "suspended" 40) "audit-2")[i] = false ∨
        w.log = [(7001, .bound (snapshot 10 [8001, 8002]))] := by
    decide +kernel
  refine Runs.guarded_of_take fun i hi => ?_
  rcases hevaluated i hi with hidle | hlog
  · exact aligned_idle hidle
  · have haligned := aligned_linked (s := snapshot 10 [8001, 8002])
      (linked ++ delivered 1 (statusDelivery "delivery-1" "suspended" 40) "audit-2")[i] (after_sound _) hlog
    exact haligned

end ReproForge
