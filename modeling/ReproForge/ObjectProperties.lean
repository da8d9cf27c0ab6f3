import ReproForge.Schemas
import ReproForge.CanonicalJson

/-!
# The properties of objects

An object lists first the keys that are indices, in ascending order, and then
the other keys in the order in which it was given them.
-/
namespace ReproForge

open JsonValues

variable {α ν : Type}

/-- A property that is assigned again stays where it is. -/
def assign (fields : List (String × α)) (f : String × α) : List (String × α) :=
  if f.1 ∈ fields.map Prod.fst then fields.map (fun g => if g.1 = f.1 then f else g) else fields ++ [f]

theorem keys_assign (fields : List (String × α)) (f : String × α) :
    (assign fields f).map Prod.fst =
      if f.1 ∈ fields.map Prod.fst then fields.map Prod.fst else fields.map Prod.fst ++ [f.1] := by
  unfold assign
  split
  · rw [List.map_map]
    apply List.map_congr_left
    intro g _
    by_cases hkey : g.1 = f.1
    · rw [Function.comp_apply, if_pos hkey, hkey]
    · rw [Function.comp_apply, if_neg hkey]
  · rw [List.map_append, List.map_singleton]

theorem mem_assign {fields : List (String × α)} {f g : String × α} (h : g ∈ assign fields f) :
    g ∈ fields ∨ g = f := by
  unfold assign at h
  split at h
  · obtain ⟨e, he, rfl⟩ := List.mem_map.mp h
    by_cases hkey : e.1 = f.1
    · rw [if_pos hkey]
      exact Or.inr rfl
    · rw [if_neg hkey]
      exact Or.inl he
  · obtain h | h := List.mem_append.mp h
    · exact Or.inl h
    · exact Or.inr (List.mem_singleton.mp h)

theorem nodup_assign {fields : List (String × α)} {f : String × α} (h : (fields.map Prod.fst).Nodup) :
    ((assign fields f).map Prod.fst).Nodup := by
  rw [keys_assign]
  split
  · exact h
  · rename_i hnew
    rw [List.nodup_append]
    refine ⟨h, List.nodup_singleton _, ?_⟩
    rintro k hk k' hk' rfl
    rw [List.mem_singleton.mp hk'] at hk
    exact hnew hk

/-- The properties of an object after it was given all of `fields`. -/
def assignAll (fields : List (String × α)) : List (String × α) := fields.foldl assign []

theorem nodup_foldl_assign (fields : List (String × α)) {before : List (String × α)}
    (h : (before.map Prod.fst).Nodup) : ((fields.foldl assign before).map Prod.fst).Nodup := by
  induction fields generalizing before with
  | nil => exact h
  | cons f rest ih => exact ih (nodup_assign h)

theorem mem_foldl_assign (fields : List (String × α)) {before : List (String × α)} {g : String × α}
    (h : g ∈ fields.foldl assign before) : g ∈ before ∨ g ∈ fields := by
  induction fields generalizing before with
  | nil => exact Or.inl h
  | cons f rest ih =>
    obtain h | h := ih h
    · obtain h | rfl := mem_assign h
      · exact Or.inl h
      · exact Or.inr List.mem_cons_self
    · exact Or.inr (List.mem_cons_of_mem f h)

/-- Distinct keys are listed as they were given. -/
theorem foldl_assign (fields before : List (String × α)) (h : ((before ++ fields).map Prod.fst).Nodup) :
    fields.foldl assign before = before ++ fields := by
  induction fields generalizing before with
  | nil => rw [List.foldl_nil, List.append_nil]
  | cons f rest ih =>
    have hnew : f.1 ∉ before.map Prod.fst := by
      intro hmem
      rw [List.map_append, List.nodup_append] at h
      exact h.2.2 f.1 hmem f.1 List.mem_cons_self rfl
    have happend : assign before f = before ++ [f] := if_neg hnew
    rw [List.foldl_cons, happend, ih (before ++ [f]) (by rwa [List.append_assoc, List.singleton_append]),
      List.append_assoc, List.singleton_append]

/-- The key that is listed first may be the first one of the two. -/
def precedes (key key' : String) : Bool :=
  match arrayIndex key, arrayIndex key' with
  | some i, some j => i ≤ j
  | none, some _ => false
  | _, none => true

def keysInOrder (keys : List String) : Bool := decide keys.Nodup && decide (keys.Pairwise (precedes · ·))

theorem keysInOrder_iff {keys : List String} :
    keysInOrder keys = true ↔ keys.Nodup ∧ keys.Pairwise (precedes · · = true) := by
  rw [keysInOrder, Bool.and_eq_true, decide_eq_true_iff, decide_eq_true_iff]

/-- The order of the indices alone. -/
def indexLE (e e' : String × Json ν) : Prop := (arrayIndex e.1).getD 0 ≤ (arrayIndex e'.1).getD 0

instance (e e' : String × Json ν) : Decidable (indexLE e e') :=
  inferInstanceAs (Decidable ((arrayIndex e.1).getD 0 ≤ (arrayIndex e'.1).getD 0))

theorem fromEntries_eq (fields : List (String × Json ν)) :
    fromEntries fields = (fields.filter (fun e => (arrayIndex e.1).isSome)).insertionSort indexLE ++
      fields.filter (fun e => (arrayIndex e.1).isNone) := rfl

instance : Std.Total (indexLE (ν := ν)) := ⟨fun _ _ => Nat.le_total _ _⟩

instance : IsTrans (String × Json ν) indexLE := ⟨fun _ _ _ h h' => Nat.le_trans h h'⟩

theorem precedes_none {key key' : String} (h : arrayIndex key = none) (hp : precedes key key' = true) :
    arrayIndex key' = none := by
  cases h' : arrayIndex key' with
  | none => rfl
  | some j =>
    rw [precedes, h, h'] at hp
    cases hp

theorem precedes_of_none {key key' : String} (h : arrayIndex key' = none) : precedes key key' = true := by
  rw [precedes, h]
  cases arrayIndex key <;> rfl

/-- Indices come first. -/
theorem filter_index {fields : List (String × Json ν)}
    (h : (fields.map Prod.fst).Pairwise (precedes · · = true)) :
    fields.filter (fun e => (arrayIndex e.1).isSome) ++ fields.filter (fun e => (arrayIndex e.1).isNone) =
      fields := by
  induction fields with
  | nil => rfl
  | cons f rest ih =>
    rw [List.map_cons, List.pairwise_cons] at h
    cases hindex : arrayIndex f.1 with
    | some n =>
      rw [List.filter_cons_of_pos (by rw [hindex]; rfl), List.filter_cons_of_neg (by rw [hindex]; simp),
        List.cons_append, ih h.2]
    | none =>
      have hrest : ∀ e ∈ rest, arrayIndex e.1 = none := by
        intro e he
        exact precedes_none hindex (h.1 e.1 (List.mem_map_of_mem he))
      have hsome : (f :: rest).filter (fun e => (arrayIndex e.1).isSome) = [] := by
        rw [List.filter_eq_nil_iff]
        intro e he
        obtain rfl | he := List.mem_cons.mp he
        · rw [hindex]
          exact Bool.false_ne_true
        · rw [hrest e he]
          exact Bool.false_ne_true
      have hnone : (f :: rest).filter (fun e => (arrayIndex e.1).isNone) = f :: rest := by
        rw [List.filter_eq_self]
        intro e he
        obtain rfl | he := List.mem_cons.mp he
        · rw [hindex]
          rfl
        · rw [hrest e he]
          rfl
      rw [hsome, hnone, List.nil_append]

theorem indexLE_of_precedes {e e' : String × Json ν} (he : (arrayIndex e.1).isSome = true)
    (he' : (arrayIndex e'.1).isSome = true) : precedes e.1 e'.1 = true ↔ indexLE e e' := by
  obtain ⟨i, hi⟩ := Option.isSome_iff_exists.mp he
  obtain ⟨j, hj⟩ := Option.isSome_iff_exists.mp he'
  rw [precedes, indexLE, hi, hj]
  exact decide_eq_true_iff

theorem fromEntries_inOrder {fields : List (String × Json ν)}
    (h : (fields.map Prod.fst).Pairwise (precedes · · = true)) : fromEntries fields = fields := by
  have hsorted : (fields.filter (fun e => (arrayIndex e.1).isSome)).Pairwise indexLE := by
    have hpairs := (List.pairwise_map.mp h).filter (fun e => (arrayIndex e.1).isSome)
    apply hpairs.imp_of_mem
    intro e e' he he' hp
    exact (indexLE_of_precedes (List.mem_filter.mp he).2 (List.mem_filter.mp he').2).mp hp
  rw [fromEntries_eq, hsorted.insertionSort_eq, filter_index h]

theorem pairwise_fromEntries (fields : List (String × Json ν)) :
    ((fromEntries fields).map Prod.fst).Pairwise (precedes · · = true) := by
  have hsome : ∀ e ∈ (fields.filter (fun e => (arrayIndex e.1).isSome)).insertionSort indexLE,
      (arrayIndex e.1).isSome = true := by
    intro e he
    exact (List.mem_filter.mp ((List.mem_insertionSort indexLE).mp he)).2
  rw [List.pairwise_map, fromEntries_eq, List.pairwise_append]
  refine ⟨?_, ?_, ?_⟩
  · apply (List.pairwise_insertionSort indexLE _).imp_of_mem
    intro e e' he he' hle
    exact (indexLE_of_precedes (hsome e he) (hsome e' he')).mpr hle
  · apply List.pairwise_of_forall_mem_list
    intro e _ e' he'
    exact precedes_of_none (Option.isNone_iff_eq_none.mp (List.mem_filter.mp he').2)
  · intro e _ e' he'
    exact precedes_of_none (Option.isNone_iff_eq_none.mp (List.mem_filter.mp he').2)

theorem nodup_fromEntries {fields : List (String × Json ν)} (h : (fields.map Prod.fst).Nodup) :
    ((fromEntries fields).map Prod.fst).Nodup := by
  have hsplit : (fromEntries fields).Perm fields := by
    rw [fromEntries_eq]
    have hparts : fields.filter (fun e => (arrayIndex e.1).isNone) =
        fields.filter (fun e => !(arrayIndex e.1).isSome) := by
      simp only [Option.not_isSome]
    rw [hparts]
    exact ((List.perm_insertionSort indexLE _).append_right _).trans (List.filter_append_perm _ _)
  exact (hsplit.map Prod.fst).nodup_iff.mpr h

instance : PropertyOrder where
  inOrder := keysInOrder
  enumerate fields := fromEntries (assignAll fields)
  enumerate_inOrder h := by
    obtain ⟨hnodup, hpairs⟩ := keysInOrder_iff.mp h
    rw [assignAll, foldl_assign _ [] hnodup, List.nil_append, fromEntries_inOrder hpairs]
  inOrder_enumerate fields := keysInOrder_iff.mpr
    ⟨nodup_fromEntries (nodup_foldl_assign fields List.nodup_nil), pairwise_fromEntries _⟩
  mem_enumerate h := by
    obtain h | h := mem_foldl_assign _ (mem_fromEntries.mp h)
    · cases h
    · exact h
  inOrder_sublist hsub h := by
    obtain ⟨hnodup, hpairs⟩ := keysInOrder_iff.mp h
    exact keysInOrder_iff.mpr ⟨hnodup.sublist hsub, hpairs.sublist hsub⟩

end ReproForge
