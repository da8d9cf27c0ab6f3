import ReproForge.Json
import Mathlib.Data.List.Nodup
import Mathlib.Data.List.Zip

/-!
# Values up to the order of properties

Two values are the same but for the order in which their objects list their
properties, at every depth.
-/
namespace JsonValues

variable {ν : Type}

@[elab_as_elim]
theorem Json.induction {p : Json ν → Prop} (null : p .null) (bool : ∀ b, p (.bool b)) (num : ∀ n, p (.num n))
    (str : ∀ s, p (.str s)) (arr : ∀ items, (∀ v ∈ items, p v) → p (.arr items))
    (obj : ∀ fields : List (String × Json ν), (∀ f ∈ fields, p f.2) → p (.obj fields)) (v : Json ν) : p v := by
  refine Json.rec (motive_1 := p) (motive_2 := fun items => ∀ v ∈ items, p v)
    (motive_3 := fun fields => ∀ f ∈ fields, p f.2) (motive_4 := fun f => p f.2) null bool num str arr obj ?_ ?_ ?_ ?_
    ?_ v
  · simp
  · exact fun _ _ hv hrest => List.forall_mem_cons.mpr ⟨hv, hrest⟩
  · simp
  · exact fun _ _ hf hrest => List.forall_mem_cons.mpr ⟨hf, hrest⟩
  · exact fun _ _ hv => hv

/-! ## The keys of every object -/

mutual

/-- The keys of every object in it are as `p` wants them. -/
def Json.everyObject (p : List String → Bool) : Json ν → Bool
  | .null | .bool _ | .num _ | .str _ => true
  | .arr items => everyItem p items
  | .obj fields => p (fields.map Prod.fst) && everyField p fields

def everyItem (p : List String → Bool) : List (Json ν) → Bool
  | [] => true
  | item :: rest => item.everyObject p && everyItem p rest

def everyField (p : List String → Bool) : List (String × Json ν) → Bool
  | [] => true
  | field :: rest => field.2.everyObject p && everyField p rest

end

section everyObject

variable {p q : List String → Bool}

theorem everyItem_iff {items : List (Json ν)} : everyItem p items = true ↔ ∀ v ∈ items, v.everyObject p = true := by
  induction items with
  | nil => simp [everyItem]
  | cons item rest ih => simp [everyItem, ih]

theorem everyField_iff {fields : List (String × Json ν)} :
    everyField p fields = true ↔ ∀ f ∈ fields, f.2.everyObject p = true := by
  induction fields with
  | nil => simp [everyField]
  | cons field rest ih => simp [everyField, ih]

theorem Json.everyObject_arr {items : List (Json ν)} :
    (Json.arr items).everyObject p = true ↔ ∀ v ∈ items, v.everyObject p = true := by
  rw [Json.everyObject, everyItem_iff]

theorem Json.everyObject_obj {fields : List (String × Json ν)} :
    (Json.obj fields).everyObject p = true ↔
      p (fields.map Prod.fst) = true ∧ ∀ f ∈ fields, f.2.everyObject p = true := by
  rw [Json.everyObject, Bool.and_eq_true, everyField_iff]

theorem Json.everyObject_imp (h : ∀ keys, p keys = true → q keys = true) (v : Json ν)
    (hv : v.everyObject p = true) : v.everyObject q = true := by
  induction v using Json.induction with
  | null | bool _ | num _ | str _ => rw [Json.everyObject]
  | arr items ih => exact Json.everyObject_arr.mpr fun v hmem => ih v hmem (Json.everyObject_arr.mp hv v hmem)
  | obj fields ih =>
    obtain ⟨hkeys, hfields⟩ := Json.everyObject_obj.mp hv
    exact Json.everyObject_obj.mpr ⟨h _ hkeys, fun f hmem => ih f hmem (hfields f hmem)⟩

end everyObject

/-- No object in it has two properties of one name. -/
def Json.distinct (v : Json ν) : Bool := v.everyObject (fun keys => decide keys.Nodup)

theorem Json.distinct_arr {items : List (Json ν)} :
    (Json.arr items).distinct = true ↔ ∀ v ∈ items, v.distinct = true := Json.everyObject_arr

theorem Json.distinct_obj {fields : List (String × Json ν)} :
    (Json.obj fields).distinct = true ↔ (fields.map Prod.fst).Nodup ∧ ∀ f ∈ fields, f.2.distinct = true := by
  rw [Json.distinct, Json.everyObject_obj, decide_eq_true_iff]
  rfl

/-- Under one key there is one value. -/
theorem value_unique {fields : List (String × Json ν)} (h : (fields.map Prod.fst).Nodup) {key : String}
    {v w : Json ν} (hv : (key, v) ∈ fields) (hw : (key, w) ∈ fields) : v = w :=
  (Prod.mk.inj (List.inj_on_of_nodup_map h hv hw rfl)).2

/-! ## The relation -/

/-- The same value, but for the order in which its objects list their properties. -/
inductive Json.Reordered : Json ν → Json ν → Prop
  | null : Reordered .null .null
  | bool (b : Bool) : Reordered (.bool b) (.bool b)
  | num (n : ν) : Reordered (.num n) (.num n)
  | str (s : String) : Reordered (.str s) (.str s)
  | arr {items items' : List (Json ν)} : items.length = items'.length →
      (∀ p ∈ items.zip items', Reordered p.1 p.2) → Reordered (.arr items) (.arr items')
  | obj {fields fields' : List (String × Json ν)} : (fields.map Prod.fst).Perm (fields'.map Prod.fst) →
      (∀ key v v', (key, v) ∈ fields → (key, v') ∈ fields' → Reordered v v') →
      Reordered (.obj fields) (.obj fields')

namespace Json.Reordered

theorem same_of_mem_zip {items : List (Json ν)} {p : Json ν × Json ν} (h : p ∈ items.zip items) : p.1 = p.2 := by
  obtain ⟨i, hi, rfl⟩ := List.mem_iff_getElem.mp h
  rw [List.getElem_zip]

theorem refl (v : Json ν) (h : v.distinct = true) : v.Reordered v := by
  induction v using Json.induction with
  | null => exact .null
  | bool b => exact .bool b
  | num n => exact .num n
  | str s => exact .str s
  | arr items ih =>
    refine .arr rfl ?_
    intro p hp
    obtain ⟨hmem, -⟩ := List.of_mem_zip hp
    exact same_of_mem_zip hp ▸ ih p.1 hmem (Json.distinct_arr.mp h p.1 hmem)
  | obj fields ih =>
    obtain ⟨hkeys, hfields⟩ := Json.distinct_obj.mp h
    refine .obj (.refl _) ?_
    intro key v v' hv hv'
    exact value_unique hkeys hv hv' ▸ ih (key, v) hv (hfields (key, v) hv)

theorem symm {v w : Json ν} (h : v.Reordered w) : w.Reordered v := by
  induction h with
  | null => exact .null
  | bool b => exact .bool b
  | num n => exact .num n
  | str s => exact .str s
  | arr hlength _ ih =>
    refine .arr hlength.symm ?_
    intro p hp
    rw [← List.zip_swap] at hp
    obtain ⟨q, hq, rfl⟩ := List.mem_map.mp hp
    exact ih q hq
  | obj hkeys _ ih => exact .obj hkeys.symm fun key v v' hv hv' => ih key v' v hv' hv

theorem trans {u v w : Json ν} (h : u.Reordered v) (h' : v.Reordered w) : u.Reordered w := by
  induction h generalizing w with
  | null | bool b | num n | str s => exact h'
  | @arr items items' hlength _ ih =>
    cases h' with
    | @arr _ items'' hlength' hitems' =>
      refine .arr (hlength.trans hlength') ?_
      intro p hp
      obtain ⟨i, hi, rfl⟩ := List.mem_iff_getElem.mp hp
      rw [List.length_zip, ← hlength', ← hlength, Nat.min_self] at hi
      have hfirst : (items[i], items'[i]) ∈ items.zip items' :=
        List.mem_iff_getElem.mpr ⟨i, by rw [List.length_zip]; omega, List.getElem_zip⟩
      have hsecond : (items'[i], items''[i]) ∈ items'.zip items'' :=
        List.mem_iff_getElem.mpr ⟨i, by rw [List.length_zip]; omega, List.getElem_zip⟩
      rw [List.getElem_zip]
      exact ih _ hfirst (hitems' _ hsecond)
  | @obj fields fields' hkeys _ ih =>
    cases h' with
    | @obj _ fields'' hkeys' hfields' =>
      refine .obj (hkeys.trans hkeys') ?_
      intro key u w hu hw
      have hkey : key ∈ fields'.map Prod.fst := hkeys.mem_iff.mp (List.mem_map_of_mem hu)
      obtain ⟨⟨key', v⟩, hv, rfl⟩ := List.mem_map.mp hkey
      exact ih key' u v hu hv (hfields' key' v w hv hw)

/-- One item of an array in another order. -/
theorem arr_item {before after : List (Json ν)} {v w : Json ν} (h : v.Reordered w)
    (hrest : ∀ u ∈ before ++ after, u.distinct = true) :
    (Json.arr (before ++ v :: after)).Reordered (.arr (before ++ w :: after)) := by
  refine .arr (by simp) ?_
  have hself : ∀ items : List (Json ν), (∀ u ∈ items, u.distinct = true) →
      ∀ p ∈ items.zip items, p.1.Reordered p.2 := by
    intro items hitems p hp
    exact same_of_mem_zip hp ▸ refl p.1 (hitems p.1 (List.of_mem_zip hp).1)
  intro p hp
  rw [List.zip_append rfl, List.zip_cons_cons, List.mem_append, List.mem_cons] at hp
  obtain hp | rfl | hp := hp
  · exact hself before (fun u hu => hrest u (List.mem_append_left after hu)) p hp
  · exact h
  · exact hself after (fun u hu => hrest u (List.mem_append_right before hu)) p hp

/-- One property of an object in another order. -/
theorem obj_field {before after : List (String × Json ν)} {key : String} {v w : Json ν} (h : v.Reordered w)
    (hkeys : ((before ++ (key, v) :: after).map Prod.fst).Nodup)
    (hrest : ∀ f ∈ before ++ after, f.2.distinct = true) :
    (Json.obj (before ++ (key, v) :: after)).Reordered (.obj (before ++ (key, w) :: after)) := by
  have hnew : ∀ f ∈ before ++ after, f.1 ≠ key := by
    rintro f hf rfl
    rw [List.map_append, List.map_cons, List.nodup_middle, List.nodup_cons, ← List.map_append] at hkeys
    have hmem : f.1 ∈ (before ++ after).map Prod.fst := List.mem_map_of_mem hf
    exact hkeys.1 hmem
  have hsplit : ∀ {u : Json ν} {f : String × Json ν}, f ∈ before ++ (key, u) :: after →
      f = (key, u) ∨ f ∈ before ++ after := by
    intro u f hf
    simp only [List.mem_append, List.mem_cons] at hf ⊢
    tauto
  refine .obj (by simp) ?_
  intro key' u u' hu hu'
  obtain hold | hold := hsplit hu <;> obtain hnow | hnow := hsplit hu'
  · obtain ⟨rfl, rfl⟩ := Prod.mk.inj hold
    obtain ⟨-, rfl⟩ := Prod.mk.inj hnow
    exact h
  · exact absurd (Prod.mk.inj hold).1 (hnew _ hnow)
  · exact absurd (Prod.mk.inj hnow).1 (hnew _ hold)
  · have hnodup : ((before ++ after).map Prod.fst).Nodup := by
      rw [List.map_append, List.map_cons, List.nodup_middle, ← List.map_append] at hkeys
      exact hkeys.of_cons
    obtain rfl := value_unique hnodup hold hnow
    exact refl u (hrest _ hold)

end Json.Reordered

end JsonValues
