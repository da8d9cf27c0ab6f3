import ReproForge.RepositoryEvents

/-!
# Folding the transitions of an authorization

What is left when any number of transitions have reached an authorization, in
any order and any number of times: a removal if there was one, else whatever
comes last, where a suspension comes after an activation of the same time.
-/
namespace ReproForge

open Registers GitHubAuthorizationState

/-- The time, then the precedence of the status. -/
def GitHubAuthorizationState.order (s : GitHubAuthorizationState) : WithBot Int ×ₗ Nat :=
  toLex (s.time, s.status.precedence)

/-- The states that a fold chooses from: those of the transitions, and the initial one if it has a time. -/
def timedStates (initial : GitHubAuthorizationState) (transitions : List GitHubAuthorizationTransition) :
    List GitHubAuthorizationState :=
  (if initial.providerUpdatedAt.isSome then [initial] else []) ++
    transitions.map GitHubAuthorizationTransition.state

/-- The times of the removals among them. -/
def removalTimes (initial : GitHubAuthorizationState) (transitions : List GitHubAuthorizationTransition) : List Instant :=
  ((timedStates initial transitions).filter (·.status = .removed)).filterMap providerUpdatedAt

variable {initial : GitHubAuthorizationState} {transitions transitions' : List GitHubAuthorizationTransition}

theorem rank_injective : Function.Injective rank := by
  intro x y h
  have hstatus := status_of_rank_eq h
  have htime : x.time = y.time :=
    (Prod.mk.inj (toLex.injective (Prod.mk.inj (toLex.injective h)).2)).1
  obtain ⟨time, status⟩ := x
  obtain ⟨time', status'⟩ := y
  rw [mk.injEq]
  exact ⟨htime, hstatus⟩

/-- A fold sees neither the order of its transitions nor how often they come. -/
theorem statusFold_eq_of_mem_iff (h : ∀ t, t ∈ transitions ↔ t ∈ transitions') :
    statusFold initial transitions = statusFold initial transitions' :=
  rank_injective
    (le_antisymm (statusFold_rank_le fun t => (h t).mp) (statusFold_rank_le fun t => (h t).mpr))

theorem mem_timedStates {x : GitHubAuthorizationState} :
    x ∈ timedStates initial transitions ↔
      (x = initial ∧ x.providerUpdatedAt.isSome = true) ∨ ∃ t ∈ transitions, t.state = x := by
  rw [timedStates, List.mem_append, List.mem_map]
  split
  · rename_i htimed
    rw [List.mem_singleton]
    constructor
    · rintro (rfl | ht)
      · exact .inl ⟨rfl, htimed⟩
      · exact .inr ht
    · rintro (⟨rfl, -⟩ | ht)
      · exact .inl rfl
      · exact .inr ht
  · rename_i huntimed
    constructor
    · rintro (hx | ht)
      · exact (List.not_mem_nil hx).elim
      · exact .inr ht
    · rintro (⟨rfl, htimed⟩ | ht)
      · exact absurd htimed huntimed
      · exact .inr ht

theorem timed_of_mem {x : GitHubAuthorizationState} (hx : x ∈ timedStates initial transitions) :
    ∃ at', x.providerUpdatedAt = some at' := by
  rcases mem_timedStates.mp hx with ⟨-, htimed⟩ | ⟨t, -, rfl⟩
  · exact Option.isSome_iff_exists.mp htimed
  · exact ⟨t.at', rfl⟩

theorem mem_removalTimes {at' : Instant} :
    at' ∈ removalTimes initial transitions ↔ ⟨some at', .removed⟩ ∈ timedStates initial transitions := by
  rw [removalTimes, List.mem_filterMap]
  constructor
  · rintro ⟨⟨time, status⟩, hx, rfl⟩
    obtain ⟨hmem, hstatus⟩ := List.mem_filter.mp hx
    have hremoved : status = .removed := by simpa using hstatus
    exact hremoved ▸ hmem
  · intro h
    exact ⟨_, List.mem_filter.mpr ⟨h, by simp⟩, rfl⟩

/-- A fold ends with one of these states, or never had a time. -/
theorem statusFold_mem (initial : GitHubAuthorizationState) (transitions : List GitHubAuthorizationTransition) :
    statusFold initial transitions ∈ timedStates initial transitions ∨
      statusFold initial transitions = initial ∧ initial.providerUpdatedAt = none := by
  rw [mem_timedStates, statusFold_eq]
  rcases settle_mem rank initial (transitions.map GitHubAuthorizationTransition.state) with he | hm
  · rw [he]
    cases htime : initial.providerUpdatedAt with
    | none => exact .inr ⟨rfl, rfl⟩
    | some at' => exact .inl (.inl ⟨rfl, rfl⟩)
  · exact .inl (.inr (List.mem_map.mp hm))

/-- None of these states ranks above the one that a fold ends with. -/
theorem rank_le_statusFold {x : GitHubAuthorizationState} (hx : x ∈ timedStates initial transitions) :
    x.rank ≤ (statusFold initial transitions).rank := by
  have hle := le_settle rank initial (transitions.map GitHubAuthorizationTransition.state)
  rw [← statusFold_eq] at hle
  rcases mem_timedStates.mp hx with ⟨rfl, -⟩ | ⟨t, ht, rfl⟩
  · exact hle.1
  · exact hle.2 _ (List.mem_map_of_mem ht)

theorem order_le_of_rank_le {x y : GitHubAuthorizationState} (hx : x.status ≠ .removed) (hy : y.status ≠ .removed)
    (h : x.rank ≤ y.rank) : x.order ≤ y.order := by
  rw [rank, rank, Prod.Lex.toLex_le_toLex] at h
  rcases h with hlt | ⟨-, hle⟩
  · have hsame : (x.status == .removed) = (y.status == .removed) := by
      rw [beq_eq_false_iff_ne.mpr hx, beq_eq_false_iff_ne.mpr hy]
    exact absurd hsame (ne_of_lt hlt)
  · exact hle

theorem time_le_of_removed {x y : GitHubAuthorizationState} (hx : x.status = .removed) (hy : y.status = .removed)
    (h : x.rank ≤ y.rank) : x.time ≤ y.time := by
  by_contra hlt
  exact absurd h (not_le.mpr (rank_lt_iff.mpr (.inr ⟨by rw [hx, hy], .inl (not_le.mp hlt)⟩)))

/-- After a removal: removed, at the latest time of a removal. -/
theorem statusFold_of_removal (h : initial.status = .removed ∨ ∃ t ∈ transitions, t.status = .removed) :
    (statusFold initial transitions).status = .removed ∧
      (statusFold initial transitions).providerUpdatedAt = (removalTimes initial transitions).max? := by
  have hremoved := statusFold_removed h
  refine ⟨hremoved, ?_⟩
  have hbound : ∀ at' ∈ removalTimes initial transitions,
      (at' : WithBot Int) ≤ (statusFold initial transitions).time := by
    intro at' hat
    exact time_le_of_removed rfl hremoved (rank_le_statusFold (mem_removalTimes.mp hat))
  cases htime : (statusFold initial transitions).providerUpdatedAt with
  | none =>
    have hnone : removalTimes initial transitions = [] := by
      rw [List.eq_nil_iff_forall_not_mem]
      intro at' hat
      have hle := hbound at' hat
      rw [time, htime] at hle
      exact absurd hle (WithBot.not_coe_le_bot _)
    rw [hnone]
    rfl
  | some latest =>
    symm
    rw [List.max?_eq_some_iff]
    constructor
    · rcases statusFold_mem initial transitions with hmem | ⟨he, hnone⟩
      · rw [mem_removalTimes, ← htime, ← hremoved]
        exact hmem
      · rw [he, hnone] at htime
        cases htime
    · intro at' hat
      have hle := hbound at' hat
      rw [time, htime] at hle
      exact WithBot.coe_le_coe.mp hle

/-- Without a removal: the last of the states. -/
theorem statusFold_of_none_removed (hinitial : initial.status ≠ .removed) (h : ∀ t ∈ transitions, t.status ≠ .removed)
    (hne : timedStates initial transitions ≠ []) :
    statusFold initial transitions ∈ timedStates initial transitions ∧
      ∀ x ∈ timedStates initial transitions, x.order ≤ (statusFold initial transitions).order := by
  have hkept : ∀ x ∈ timedStates initial transitions, x.status ≠ .removed := by
    intro x hx
    rcases mem_timedStates.mp hx with ⟨rfl, -⟩ | ⟨t, ht, rfl⟩
    · exact hinitial
    · exact h t ht
  have hmem : statusFold initial transitions ∈ timedStates initial transitions := by
    rcases statusFold_mem initial transitions with hmem | ⟨he, hnone⟩
    · exact hmem
    · -- A fold that never had a time met no transition.
      obtain ⟨x, hx⟩ := List.exists_mem_of_ne_nil _ hne
      obtain ⟨at', hat⟩ := timed_of_mem hx
      have hle := rank_le_statusFold hx
      rw [he] at hle
      have htime := (time_le_of_rank_le hle hinitial).2
      rw [time, time, hnone, hat] at htime
      exact absurd htime (WithBot.not_coe_le_bot _)
  refine ⟨hmem, ?_⟩
  intro x hx
  exact order_le_of_rank_le (hkept x hx) (hkept _ hmem) (rank_le_statusFold hx)

/-- A fold depends on which transitions it meets, not on their order or number. A removal decides it, at the latest
time of one; otherwise the last state does. -/
theorem authorization_fold (initial : GitHubAuthorizationState) (transitions : List GitHubAuthorizationTransition) :
    (∀ transitions', (∀ t, t ∈ transitions' ↔ t ∈ transitions) →
      statusFold initial transitions' = statusFold initial transitions) ∧
    ((initial.status = .removed ∨ ∃ t ∈ transitions, t.status = .removed) →
      (statusFold initial transitions).status = .removed ∧
        (statusFold initial transitions).providerUpdatedAt = (removalTimes initial transitions).max?) ∧
    (initial.status ≠ .removed → (∀ t ∈ transitions, t.status ≠ .removed) →
      timedStates initial transitions ≠ [] →
      statusFold initial transitions ∈ timedStates initial transitions ∧
        ∀ x ∈ timedStates initial transitions, x.order ≤ (statusFold initial transitions).order) ∧
    (timedStates initial transitions = [] → statusFold initial transitions = initial) := by
  refine ⟨?_, statusFold_of_removal, statusFold_of_none_removed, ?_⟩
  · intro transitions' h
    exact statusFold_eq_of_mem_iff h
  · intro hempty
    rcases statusFold_mem initial transitions with hmem | ⟨he, -⟩
    · rw [hempty] at hmem
      exact (List.not_mem_nil hmem).elim
    · exact he

/-- A suspension and an activation of the same time, in both orders, and then a removal. -/
theorem authorization_fold_sample :
    statusFold ⟨some 3, .active⟩ [⟨5, .active⟩, ⟨5, .suspended⟩, ⟨5, .active⟩] =
        statusFold ⟨some 3, .active⟩ [⟨5, .suspended⟩, ⟨5, .active⟩] ∧
      (∀ x ∈ timedStates ⟨some 3, .active⟩ [⟨5, .suspended⟩, ⟨5, .active⟩],
        x.order ≤ (statusFold ⟨some 3, .active⟩ [⟨5, .suspended⟩, ⟨5, .active⟩]).order) ∧
      (statusFold ⟨some 3, .active⟩ [⟨7, .removed⟩, ⟨5, .suspended⟩]).status = .removed ∧
      statusFold ⟨none, .suspended⟩ [] = ⟨none, .suspended⟩ :=
  ⟨(authorization_fold _ _).1 _ (by simp),
    ((authorization_fold _ _).2.2.1 (by decide) (by decide) (by decide)).2,
    ((authorization_fold _ _).2.1 (.inr (by decide))).1,
    (authorization_fold _ _).2.2.2 rfl⟩

end ReproForge
