import Mathlib.Data.List.Nodup
import Mathlib.Combinatorics.Enumerative.DoubleCounting

/-!
# Keyed tables

A table is a finite list of rows under pairwise distinct primary keys. The key
of a row is stored beside it, so no update can change a key, and every table is
well formed by construction. Updates and deletions take a `WHERE` predicate
over the key and the row.
-/
namespace KeyedTable

variable {κ ρ : Type} [DecidableEq κ]

structure Table (κ ρ : Type) where
  rows : List (κ × ρ)
  nodup : (rows.map Prod.fst).Nodup

def lookup (k : κ) : List (κ × ρ) → Option ρ
  | [] => none
  | row :: rows => if row.1 = k then some row.2 else lookup k rows

theorem mem_of_lookup {k : κ} {r : ρ} {rows : List (κ × ρ)} (h : lookup k rows = some r) :
    (k, r) ∈ rows := by
  induction rows with
  | nil => simp [lookup] at h
  | cons row rows ih =>
    by_cases hk : row.1 = k
    · simp only [lookup, if_pos hk, Option.some.injEq] at h
      subst h; subst hk
      exact List.mem_cons_self
    · rw [lookup, if_neg hk] at h
      exact List.mem_cons_of_mem _ (ih h)

theorem lookup_of_mem {k : κ} {r : ρ} {rows : List (κ × ρ)} (hn : (rows.map Prod.fst).Nodup)
    (h : (k, r) ∈ rows) : lookup k rows = some r := by
  induction rows with
  | nil => simp at h
  | cons row rows ih =>
    rw [List.map_cons, List.nodup_cons] at hn
    rcases List.mem_cons.mp h with he | hm
    · subst he
      simp [lookup]
    · have hk : row.1 ≠ k := by
        intro he
        exact hn.1 (he ▸ List.mem_map.mpr ⟨(k, r), hm, rfl⟩)
      rw [lookup, if_neg hk]
      exact ih hn.2 hm

namespace Table

def empty : Table κ ρ := ⟨[], List.nodup_nil⟩

/-- The row under a primary key. -/
def get (t : Table κ ρ) (k : κ) : Option ρ := lookup k t.rows

/-- A row under a key that the table already holds is not inserted again. -/
def insert (t : Table κ ρ) (k : κ) (r : ρ) : Table κ ρ :=
  if h : k ∈ t.rows.map Prod.fst then t
  else ⟨t.rows ++ [(k, r)], by
    rw [List.map_append]
    exact List.Nodup.append t.nodup (List.nodup_singleton k) (by simpa using h)⟩

def update (t : Table κ ρ) (p : κ → ρ → Bool) (f : κ → ρ → ρ) : Table κ ρ :=
  ⟨t.rows.map (fun row => if p row.1 row.2 then (row.1, f row.1 row.2) else row), by
    have he : ∀ row : κ × ρ, (if p row.1 row.2 then (row.1, f row.1 row.2) else row).1 = row.1 := by
      intro row
      split <;> rfl
    simpa only [List.map_map, Function.comp_def, he] using t.nodup⟩

/-- Replace the row under one key. -/
def set (t : Table κ ρ) (k : κ) (r : ρ) : Table κ ρ :=
  t.update (fun k' _ => k' = k) (fun _ _ => r)

def delete (t : Table κ ρ) (p : κ → ρ → Bool) : Table κ ρ :=
  ⟨t.rows.filter (fun row => !p row.1 row.2), t.nodup.sublist (List.filter_sublist.map _)⟩

/-- The rows that a `WHERE` clause selects, in table order. -/
def select (t : Table κ ρ) (p : κ → ρ → Bool) : List (κ × ρ) := t.rows.filter (fun row => p row.1 row.2)

def find? (t : Table κ ρ) (p : κ → ρ → Bool) : Option (κ × ρ) := t.rows.find? (fun row => p row.1 row.2)

def count (t : Table κ ρ) (p : κ → ρ → Bool) : Nat := (t.select p).length

theorem get_eq_some {t : Table κ ρ} {k : κ} {r : ρ} : t.get k = some r ↔ (k, r) ∈ t.rows :=
  ⟨mem_of_lookup, lookup_of_mem t.nodup⟩

theorem get_eq_none {t : Table κ ρ} {k : κ} : t.get k = none ↔ k ∉ t.rows.map Prod.fst := by
  constructor
  · intro h hm
    obtain ⟨row, hrow, he⟩ := List.mem_map.mp hm
    have hg : t.get k = some row.2 := get_eq_some.mpr (he ▸ hrow)
    rw [h] at hg
    cases hg
  · intro h
    cases hg : t.get k with
    | none => rfl
    | some r => exact absurd (List.mem_map.mpr ⟨(k, r), get_eq_some.mp hg, rfl⟩) h

@[simp] theorem get_empty (k : κ) : (empty : Table κ ρ).get k = none := rfl

omit [DecidableEq κ] in
@[simp] theorem rows_empty : (empty : Table κ ρ).rows = [] := rfl

theorem rows_insert {t : Table κ ρ} {k : κ} {r : ρ} (h : t.get k = none) :
    (t.insert k r).rows = t.rows ++ [(k, r)] := by
  rw [insert, dif_neg (get_eq_none.mp h)]

theorem insert_existing {t : Table κ ρ} {k : κ} {r r' : ρ} (h : t.get k = some r') : t.insert k r = t := by
  have hm : k ∈ t.rows.map Prod.fst := List.mem_map.mpr ⟨(k, r'), get_eq_some.mp h, rfl⟩
  rw [insert, dif_pos hm]

theorem get_insert_self {t : Table κ ρ} {k : κ} {r : ρ} (h : t.get k = none) :
    (t.insert k r).get k = some r := by
  rw [get_eq_some, rows_insert h]
  simp

theorem get_insert_other {t : Table κ ρ} {k k' : κ} {r : ρ} (hk : k' ≠ k) :
    (t.insert k r).get k' = t.get k' := by
  by_cases h : t.get k = none
  · apply Option.ext
    intro r'
    rw [get_eq_some, get_eq_some, rows_insert h]
    simp [hk]
  · have hm : k ∈ t.rows.map Prod.fst := by
      by_contra hm
      exact h (get_eq_none.mpr hm)
    rw [insert, dif_pos hm]

/-- An insertion never changes a row that is there. -/
theorem get_insert_some {t : Table κ ρ} {k k' : κ} {r r' : ρ} (h : t.get k = some r) :
    (t.insert k' r').get k = some r := by
  by_cases hk : k = k'
  · subst hk
    rw [insert_existing h, h]
  · rw [get_insert_other hk, h]

/-- A row of a table after an insertion is the new one or was there. -/
theorem get_insert_cases {t : Table κ ρ} {k k' : κ} {r r' : ρ} (h : t.get k = none)
    (hget : (t.insert k r).get k' = some r') : (k' = k ∧ r' = r) ∨ t.get k' = some r' := by
  by_cases hk : k' = k
  · subst hk
    rw [get_insert_self h] at hget
    exact .inl ⟨rfl, (Option.some.inj hget).symm⟩
  · rw [get_insert_other hk] at hget
    exact .inr hget

@[simp] theorem get_update (t : Table κ ρ) (p : κ → ρ → Bool) (f : κ → ρ → ρ) (k : κ) :
    (t.update p f).get k = (t.get k).map (fun r => if p k r then f k r else r) := by
  obtain ⟨rows, hn⟩ := t
  simp only [get, update]
  clear hn
  induction rows with
  | nil => rfl
  | cons row rows ih =>
    have he : (if p row.1 row.2 then (row.1, f row.1 row.2) else row).1 = row.1 := by
      split <;> rfl
    by_cases hk : row.1 = k
    · subst hk
      simp only [List.map_cons, lookup, he, if_true, Option.map_some]
      split <;> rfl
    · simp only [List.map_cons, lookup, he, if_neg hk]
      exact ih

theorem get_set_self {t : Table κ ρ} {k : κ} {r r' : ρ} (h : t.get k = some r) :
    (t.set k r').get k = some r' := by
  simp [set, h]

theorem get_set_other (t : Table κ ρ) {k k' : κ} (r : ρ) (hk : k' ≠ k) :
    (t.set k r).get k' = t.get k' := by
  simp [set, hk]

theorem get_set (t : Table κ ρ) (k k' : κ) (r : ρ) :
    (t.set k r).get k' = if k' = k then (t.get k).map (fun _ => r) else t.get k' := by
  by_cases hk : k' = k
  · subst hk
    simp [set]
  · simp [set, hk]

/-- A row of a table after an update is the one written or was there. -/
theorem get_set_cases {t : Table κ ρ} {k k' : κ} {r r' x : ρ} (h : t.get k = some r)
    (hget : (t.set k r').get k' = some x) : (k' = k ∧ x = r') ∨ t.get k' = some x := by
  by_cases hk : k' = k
  · subst hk
    rw [get_set_self h] at hget
    exact .inl ⟨rfl, (Option.some.inj hget).symm⟩
  · rw [get_set_other _ _ hk] at hget
    exact .inr hget

theorem isSome_get_set (t : Table κ ρ) (k k' : κ) (r : ρ) : ((t.set k r).get k').isSome = (t.get k').isSome := by
  rw [get_set]
  split
  · rename_i he
    rw [he, Option.isSome_map]
  · rfl

/-- `Map.set`: the row under a key, replaced or added. -/
def put (t : Table κ ρ) (k : κ) (r : ρ) : Table κ ρ :=
  match t.get k with
  | some _ => t.set k r
  | none => t.insert k r

theorem put_of_none {t : Table κ ρ} {k : κ} (h : t.get k = none) (r : ρ) : t.put k r = t.insert k r := by
  rw [put, h]

theorem put_of_some {t : Table κ ρ} {k : κ} {r : ρ} (h : t.get k = some r) (r' : ρ) : t.put k r' = t.set k r' := by
  rw [put, h]

theorem get_put (t : Table κ ρ) (k k' : κ) (r : ρ) : (t.put k r).get k' = if k' = k then some r else t.get k' := by
  unfold put
  by_cases hk : k' = k
  · subst hk
    rw [if_pos rfl]
    split
    · rename_i old hold
      exact get_set_self hold
    · rename_i hnone
      exact get_insert_self hnone
  · rw [if_neg hk]
    split
    · exact get_set_other t r hk
    · exact get_insert_other hk

theorem get_delete (t : Table κ ρ) (p : κ → ρ → Bool) (k : κ) :
    (t.delete p).get k = (t.get k).filter (fun r => !p k r) := by
  apply Option.ext
  intro r
  rw [get_eq_some, Option.filter_eq_some_iff, get_eq_some]
  simp [delete]

theorem get_delete_other (t : Table κ ρ) {k k' : κ} (hk : k' ≠ k) :
    (t.delete (fun i _ => i = k)).get k' = t.get k' := by
  rw [get_delete]
  simp only [hk, decide_false, Bool.not_false]
  cases t.get k' <;> rfl

theorem get_delete_self (t : Table κ ρ) (k : κ) : (t.delete (fun i _ => i = k)).get k = none := by
  rw [get_delete]
  simp

theorem mem_select {t : Table κ ρ} {p : κ → ρ → Bool} {k : κ} {r : ρ} :
    (k, r) ∈ t.select p ↔ t.get k = some r ∧ p k r = true := by
  rw [get_eq_some]
  simp [select]

omit [DecidableEq κ] in
theorem select_keys_nodup (t : Table κ ρ) (p : κ → ρ → Bool) : ((t.select p).map Prod.fst).Nodup :=
  t.nodup.sublist (List.filter_sublist.map _)

theorem find?_some {t : Table κ ρ} {p : κ → ρ → Bool} {row : κ × ρ} (h : t.find? p = some row) :
    t.get row.1 = some row.2 ∧ p row.1 row.2 = true := by
  rw [find?] at h
  have hp := List.find?_some h
  exact ⟨get_eq_some.mpr (List.mem_of_find?_eq_some h), hp⟩

theorem find?_isSome {t : Table κ ρ} {p : κ → ρ → Bool} {k : κ} {r : ρ} (h : t.get k = some r)
    (hp : p k r = true) : ∃ row, t.find? p = some row := by
  rw [← Option.isSome_iff_exists, find?, List.find?_isSome]
  exact ⟨(k, r), get_eq_some.mp h, hp⟩

theorem find?_isSome_iff {t : Table κ ρ} {p : κ → ρ → Bool} :
    (t.find? p).isSome = true ↔ ∃ k r, t.get k = some r ∧ p k r = true := by
  constructor
  · intro h
    obtain ⟨row, hrow⟩ := Option.isSome_iff_exists.mp h
    exact ⟨row.1, row.2, find?_some hrow⟩
  · rintro ⟨k, r, hget, hp⟩
    exact Option.isSome_iff_exists.mpr (find?_isSome hget hp)

/-- A new row is found last. -/
theorem find?_insert {t : Table κ ρ} {p : κ → ρ → Bool} {k : κ} {r : ρ} (h : t.get k = none) :
    (t.insert k r).find? p = (t.find? p).or (if p k r then some (k, r) else none) := by
  rw [find?, find?, rows_insert h, List.find?_append, List.find?_singleton]

omit [DecidableEq κ] in
theorem find?_map_same {f : κ × ρ → κ × ρ} {p : κ × ρ → Bool} {rows : List (κ × ρ)}
    (h : ∀ row ∈ rows, p (f row) = p row) : (rows.map f).find? p = (rows.find? p).map f := by
  induction rows with
  | nil => rfl
  | cons row rest ih =>
    have hrow := h row List.mem_cons_self
    have hrest := ih (fun row' h' => h row' (List.mem_cons_of_mem row h'))
    rw [List.map_cons, List.find?_cons, List.find?_cons, hrow, hrest]
    cases p row <;> rfl

/-- A row that a search takes for the one before it is found in its place. -/
theorem find?_set {t : Table κ ρ} {p : κ → ρ → Bool} {k : κ} {r r' : ρ} (h : t.get k = some r)
    (hp : p k r' = p k r) :
    (t.set k r').find? p = (t.find? p).map (fun row => if row.1 = k then (k, r') else row) := by
  have hrows : (t.set k r').rows = t.rows.map (fun row => if row.1 = k then (k, r') else row) := by
    rw [set, update]
    refine List.map_congr_left fun row _ => ?_
    by_cases hk : row.1 = k <;> simp [hk]
  rw [find?, find?, hrows]
  refine find?_map_same fun row hrow => ?_
  by_cases hk : row.1 = k
  · have hget : t.get row.1 = some row.2 := get_eq_some.mpr hrow
    rw [hk, h] at hget
    rw [if_pos hk, hk, ← Option.some.inj hget, hp]
  · rw [if_neg hk]

/-- A search for one key under a further condition finds that key's row only. -/
theorem find?_key {t : Table κ ρ} {k : κ} {p : κ → ρ → Bool} (hp : ∀ k' r, p k' r = true → k' = k) :
    t.find? p = ((t.get k).filter (p k)).map (fun r => (k, r)) := by
  cases hf : t.find? p with
  | none =>
    cases hg : t.get k with
    | none => rfl
    | some r =>
      by_cases hr : p k r = true
      · obtain ⟨row, he⟩ := find?_isSome hg hr
        rw [hf] at he
        cases he
      · simp [Option.filter, hr]
  | some row =>
    obtain ⟨k', r⟩ := row
    obtain ⟨hg, hr⟩ := find?_some hf
    have he := hp k' r hr
    subst he
    simp only at hg hr
    simp [Option.filter, hg, hr]

omit [DecidableEq κ] in
theorem count_empty (p : κ → ρ → Bool) : (empty : Table κ ρ).count p = 0 := rfl

theorem count_insert {t : Table κ ρ} {k : κ} {r : ρ} (p : κ → ρ → Bool) (h : t.get k = none) :
    (t.insert k r).count p = t.count p + if p k r then 1 else 0 := by
  rw [count, select, rows_insert h, List.filter_append, List.length_append]
  simp only [count, select, List.filter_cons, List.filter_nil]
  split <;> rfl

/-- Each counted row of one table claims a counted row of the other, and no two
rows claim the same one: the first table counts no more rows. -/
theorem count_le_of_rel {κ' ρ' : Type} [DecidableEq κ'] {t : Table κ ρ} {t' : Table κ' ρ'}
    {p : κ → ρ → Bool} {p' : κ' → ρ' → Bool} (R : κ' → κ → Prop)
    (hclaim : ∀ k' r', t'.get k' = some r' → p' k' r' = true →
      ∃ k r, t.get k = some r ∧ p k r = true ∧ R k' k)
    (hunique : ∀ a b k, R a k → R b k → a = b) : t'.count p' ≤ t.count p := by
  have hcard : ((t'.select p').map Prod.fst).toFinset.card ≤ ((t.select p).map Prod.fst).toFinset.card := by
    refine Finset.card_le_card_of_forall_subsingleton R ?_ ?_
    · intro k' hk'
      obtain ⟨⟨k₀, r'⟩, hrow, he⟩ := List.mem_map.mp (List.mem_toFinset.mp hk')
      subst he
      obtain ⟨hg, hp⟩ := mem_select.mp hrow
      obtain ⟨k, r, hg', hp', hr⟩ := hclaim k₀ r' hg hp
      exact ⟨k, List.mem_toFinset.mpr (List.mem_map.mpr ⟨(k, r), mem_select.mpr ⟨hg', hp'⟩, rfl⟩), hr⟩
    · intro k _ a ha b hb
      exact hunique a b k ha.2 hb.2
  rwa [List.toFinset_card_of_nodup (t'.select_keys_nodup p'),
    List.toFinset_card_of_nodup (t.select_keys_nodup p), List.length_map, List.length_map] at hcard

/-- A table whose counted keys were all counted before counts no more rows. -/
theorem count_le_of_get {ρ' : Type} {t : Table κ ρ} {t' : Table κ ρ'} {p : κ → ρ → Bool}
    {p' : κ → ρ' → Bool}
    (h : ∀ k r', t'.get k = some r' → p' k r' = true → ∃ r, t.get k = some r ∧ p k r = true) :
    t'.count p' ≤ t.count p := by
  refine count_le_of_rel Eq ?_ (fun a b k ha hb => ha.trans hb.symm)
  intro k r' hg hp
  obtain ⟨r, hg', hp'⟩ := h k r' hg hp
  exact ⟨k, r, hg', hp', rfl⟩

omit [DecidableEq κ] in
/-- A sum over selected rows is at least the number of those that add something. -/
theorem count_le_sum (t : Table κ ρ) (p : κ → ρ → Bool) (f : ρ → Nat) :
    t.count (fun k r => p k r && 1 ≤ f r) ≤ ((t.select p).map (fun row => f row.2)).sum := by
  simp only [count, select]
  induction t.rows with
  | nil => simp
  | cons row rows ih =>
    by_cases hp : p row.1 row.2 = true
    · by_cases hf : 1 ≤ f row.2
      · simp only [hp, hf, Bool.true_and, decide_true, List.filter_cons_of_pos, List.length_cons,
          List.map_cons, List.sum_cons]
        omega
      · simp only [hp, hf, Bool.true_and, decide_false, Bool.false_eq_true, not_false_eq_true,
          List.filter_cons_of_neg, List.filter_cons_of_pos, List.map_cons, List.sum_cons]
        omega
    · simp only [hp, Bool.false_and, Bool.false_eq_true, not_false_eq_true, List.filter_cons_of_neg]
      exact ih

end Table

end KeyedTable
