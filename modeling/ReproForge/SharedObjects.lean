import ReproForge.Objects

/-!
# Objects that several callers share

Callers write objects under paths that they share. One that finds its path taken
may go on with the object that is there; one that created an object may delete it
again. An object that a caller goes on with is there as long as no other caller
deletes what that other caller created.
-/
namespace SharedObjects

open KeyedTable Objects

variable {κ : Type} [DecidableEq κ]

/-- The store, what each caller created and may still delete, and who did what. -/
structure Share (κ : Type) where
  store : Store κ
  held : Nat → List (κ × Object)
  created : Nat → κ → String → Prop
  removed : Nat → κ → String → Prop

/-- What was done stays done, and nobody else's objects change hands. -/
structure Share.Passes (i : Nat) (s s' : Share κ) : Prop where
  others : ∀ j, j ≠ i → s'.held j = s.held j
  created : ∀ j k etag, s.created j k etag → s'.created j k etag
  removed : ∀ j k etag, s.removed j k etag → s'.removed j k etag

/-- What a caller may do next. -/
inductive Share.Moves (i : Nat) (s s' : Share κ) : Prop where
  | quiet (passes : Share.Passes i s s') (hstore : s'.store = s.store) (hheld : List.Sublist (s'.held i) (s.held i))
  | creates (k : κ) (o : Object) (passes : Share.Passes i s s') (hfree : s.store.get k = none)
      (hstore : s'.store = s.store.insert k o) (hheld : List.Sublist (s'.held i) (s.held i ++ [(k, o)]))
      (hcreated : s'.created i k o.etag)
  | removes (k : κ) (o : Object) (passes : Share.Passes i s s') (hown : (k, o) ∈ s.held i)
      (hkept : ∀ k', k' ≠ k → s'.store.get k' = s.store.get k') (hheld : List.Sublist (s'.held i) (s.held i))
      (hgone : k ∉ (s'.held i).map Prod.fst) (hremoved : s'.removed i k o.etag)

/-- Whoever may delete an object created it, nobody else may, and it is there. -/
structure Share.Sound (s : Share κ) : Prop where
  present : ∀ i k o, (k, o) ∈ s.held i → s.store.get k = some o ∧ s.created i k o.etag
  distinct : ∀ i, ((s.held i).map Prod.fst).Nodup
  apart : ∀ i j, i ≠ j → ∀ k, k ∈ (s.held i).map Prod.fst → k ∉ (s.held j).map Prod.fst

variable {i j : Nat} {s s' : Share κ} {k : κ} {o : Object}

theorem Share.Moves.passes (h : Share.Moves i s s') : Share.Passes i s s' := by
  cases h with
  | quiet passes _ _ => exact passes
  | creates _ _ passes _ _ _ _ => exact passes
  | removes _ _ passes _ _ _ _ _ => exact passes

omit [DecidableEq κ] in
/-- Paths that a caller may delete objects of. -/
theorem mem_keys : k ∈ (s.held i).map Prod.fst ↔ ∃ o, (k, o) ∈ s.held i := by
  simp

/-- Nobody may delete at a path where nothing is. -/
theorem Share.Sound.free (h : Share.Sound s) (hfree : s.store.get k = none) (i : Nat) : k ∉ (s.held i).map Prod.fst := by
  intro hm
  obtain ⟨o, ho⟩ := mem_keys.mp hm
  rw [(h.present i k o ho).1] at hfree
  cases hfree

theorem Share.Moves.keys (h : Share.Moves i s s') (hk : k ∈ (s'.held i).map Prod.fst) :
    k ∈ (s.held i).map Prod.fst ∨ s.store.get k = none := by
  cases h with
  | quiet _ _ hheld => exact .inl ((hheld.map _).subset hk)
  | creates k' o _ hfree _ hheld _ =>
    have hm := (hheld.map Prod.fst).subset hk
    rw [List.map_append, List.mem_append] at hm
    rcases hm with hm | hm
    · exact .inl hm
    · obtain rfl := List.mem_singleton.mp hm
      exact .inr hfree
  | removes _ _ _ _ _ hheld _ _ => exact .inl ((hheld.map _).subset hk)

theorem Share.Moves.sound (hm : Share.Moves i s s') (h : Share.Sound s) : Share.Sound s' where
  present j k o hheld := by
    by_cases hj : j = i
    · subst hj
      cases hm with
      | quiet passes hstore hsub =>
        obtain ⟨hget, hcreated⟩ := h.present j k o (hsub.subset hheld)
        rw [hstore]
        exact ⟨hget, passes.created _ _ _ hcreated⟩
      | creates k' o' passes hfree hstore hsub hnew =>
        rcases List.mem_append.mp (hsub.subset hheld) with hold | hnow
        · obtain ⟨hget, hcreated⟩ := h.present j k o hold
          rw [hstore]
          exact ⟨Table.get_insert_some hget, passes.created _ _ _ hcreated⟩
        · obtain ⟨rfl, rfl⟩ := Prod.mk.inj (List.mem_singleton.mp hnow)
          rw [hstore, Table.get_insert_self hfree]
          exact ⟨rfl, hnew⟩
      | removes k' o' passes _ hkept hsub hgone _ =>
        obtain ⟨hget, hcreated⟩ := h.present j k o (hsub.subset hheld)
        have hne : k ≠ k' := by
          rintro rfl
          exact hgone (mem_keys.mpr ⟨o, hheld⟩)
        rw [hkept k hne]
        exact ⟨hget, passes.created _ _ _ hcreated⟩
    · rw [hm.passes.others j hj] at hheld
      obtain ⟨hget, hcreated⟩ := h.present j k o hheld
      refine ⟨?_, hm.passes.created _ _ _ hcreated⟩
      cases hm with
      | quiet _ hstore _ => rw [hstore, hget]
      | creates _ _ _ _ hstore _ _ =>
        rw [hstore]
        exact Table.get_insert_some hget
      | removes k' o' _ hown hkept _ _ _ =>
        have hne : k ≠ k' := by
          rintro rfl
          exact h.apart i j (Ne.symm hj) k (mem_keys.mpr ⟨o', hown⟩) (mem_keys.mpr ⟨o, hheld⟩)
        rw [hkept k hne, hget]
  distinct j := by
    by_cases hj : j = i
    · subst hj
      cases hm with
      | quiet _ _ hsub => exact (hsub.map _).nodup (h.distinct j)
      | creates k' o' _ hfree _ hsub _ =>
        apply (hsub.map _).nodup
        rw [List.map_append, List.nodup_append]
        refine ⟨h.distinct j, List.nodup_singleton _, ?_⟩
        rintro k hk _ hm rfl
        rw [List.mem_singleton.mp hm] at hk
        exact h.free hfree j hk
      | removes _ _ _ _ _ hsub _ _ => exact (hsub.map _).nodup (h.distinct j)
    · rw [hm.passes.others j hj]
      exact h.distinct j
  apart a b hab k ha hb := by
    have hkeys : ∀ {c}, k ∈ (s'.held c).map Prod.fst → k ∈ (s.held c).map Prod.fst ∨ c = i ∧ s.store.get k = none := by
      intro c hc
      by_cases hci : c = i
      · subst hci
        rcases hm.keys hc with hold | hfree
        · exact .inl hold
        · exact .inr ⟨rfl, hfree⟩
      · rw [hm.passes.others c hci] at hc
        exact .inl hc
    rcases hkeys ha with ha | ⟨hai, hfree⟩
    · rcases hkeys hb with hb | ⟨-, hfree⟩
      · exact h.apart a b hab k ha hb
      · exact h.free hfree a ha
    · rcases hkeys hb with hb | ⟨hbi, -⟩
      · exact h.free hfree b hb
      · exact hab (hai.trans hbi.symm)

/-! ## Objects that a caller goes on with -/

/-- The object is there, or another caller has created it and deleted it again. -/
def Share.Kept (s : Share κ) (j : Nat) (k : κ) (o : Object) : Prop :=
  s.store.get k = some o ∨ ∃ i, i ≠ j ∧ s.created i k o.etag ∧ s.removed i k o.etag

/-- The object is there, and no other caller may delete it. -/
def Share.Owned (s : Share κ) (j : Nat) (k : κ) (o : Object) : Prop :=
  s.store.get k = some o ∧ ∀ i, i ≠ j → k ∉ (s.held i).map Prod.fst

theorem Share.Owned.kept (h : Share.Owned s j k o) : Share.Kept s j k o := .inl h.1

/-- What a caller created and may still delete is its own. -/
theorem Share.Sound.owned (h : Share.Sound s) (hheld : (k, o) ∈ s.held j) : Share.Owned s j k o :=
  ⟨(h.present j k o hheld).1, fun i hi hm => h.apart i j hi k hm (mem_keys.mpr ⟨o, hheld⟩)⟩

/-- An object that nobody may delete is anybody's. -/
theorem owned_of_unheld (hget : s.store.get k = some o) (hfree : ∀ i, i ≠ j → s.held i = []) : Share.Owned s j k o := by
  refine ⟨hget, ?_⟩
  intro i hi
  rw [hfree i hi]
  exact List.not_mem_nil

/-- A step that removes nothing. -/
theorem Share.Kept.grows (h : Share.Kept s j k o) (hp : Share.Passes i s s')
    (hstore : ∀ k o, s.store.get k = some o → s'.store.get k = some o) : Share.Kept s' j k o := by
  rcases h with hget | ⟨c, hc, hcreated, hremoved⟩
  · exact .inl (hstore k o hget)
  · exact .inr ⟨c, hc, hp.created _ _ _ hcreated, hp.removed _ _ _ hremoved⟩

/-- What a caller goes on with is kept, or deleted by the caller that created it. -/
theorem Share.Kept.moves (h : Share.Kept s j k o) (hs : Share.Sound s) (hm : Share.Moves i s s') (hi : i ≠ j) : Share.Kept s' j k o := by
  rcases h with hget | ⟨c, hc, hcreated, hremoved⟩
  · cases hm with
    | quiet _ hstore _ => exact .inl (by rw [hstore, hget])
    | creates _ _ _ _ hstore _ _ =>
      left
      rw [hstore]
      exact Table.get_insert_some hget
    | removes k' o' passes hheld hkept _ _ hremoved =>
      by_cases hk : k = k'
      · subst hk
        obtain ⟨hget', hcreated⟩ := hs.present i k o' hheld
        obtain rfl : o' = o := Option.some.inj (hget'.symm.trans hget)
        exact .inr ⟨i, hi, passes.created _ _ _ hcreated, hremoved⟩
      · exact .inl (by rw [hkept k hk, hget])
  · exact .inr ⟨c, hc, hm.passes.created _ _ _ hcreated, hm.passes.removed _ _ _ hremoved⟩

/-- What is a caller's own stays its own as long as the caller itself removes nothing. -/
theorem Share.Owned.moves (h : Share.Owned s j k o) (hm : Share.Moves i s s') (hown : i = j → s'.store = s.store) : Share.Owned s' j k o := by
  obtain ⟨hget, hothers⟩ := h
  refine ⟨?_, ?_⟩
  · cases hm with
    | quiet _ hstore _ => rw [hstore, hget]
    | creates _ _ _ _ hstore _ _ =>
      rw [hstore]
      exact Table.get_insert_some hget
    | removes k' o' _ hheld hkept _ _ _ =>
      by_cases hi : i = j
      · rw [hown hi, hget]
      · have hk : k ≠ k' := by
          rintro rfl
          exact hothers i hi (mem_keys.mpr ⟨o', hheld⟩)
        rw [hkept k hk, hget]
  · intro c hc hm'
    by_cases hci : c = i
    · subst hci
      rcases hm.keys hm' with hold | hfree
      · exact hothers c hc hold
      · rw [hget] at hfree
        cases hfree
    · rw [hm.passes.others c hci] at hm'
      exact hothers c hc hm'

end SharedObjects
