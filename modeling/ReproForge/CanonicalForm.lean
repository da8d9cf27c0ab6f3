import ReproForge.Bundles
import ReproForge.IntegerTexts
import ReproForge.KeyOrder
import Mathlib.Data.Nat.Digits.Defs

/-!
# Canonical forms

Canonical JSON determines a value up to the order of properties. The converse
needs an order of the keys that tells any two keys of one object apart: the sort
is stable, so that keys which compare as equal stay in the order they came in.
-/
namespace ReproForge

open JsonValues

variable {ν : Type}

/-! ## Indices -/

theorem digitsValue_eq (cs : List Char) :
    cs.foldl (fun n c => n * 10 + (c.toNat - 48)) 0 = Nat.ofDigits 10 (cs.map (fun c => c.toNat - 48)).reverse := by
  induction cs using List.reverseRecOn with
  | nil => rfl
  | append_singleton cs c ih =>
    rw [List.foldl_append, ih, List.map_append, List.reverse_append, List.map_singleton, List.reverse_singleton,
      List.singleton_append, Nat.ofDigits_cons, List.foldl_cons, List.foldl_nil, Nat.mul_comm, Nat.add_comm]

theorem isDigit_iff {c : Char} : c.isDigit = true ↔ 48 ≤ c.toNat ∧ c.toNat ≤ 57 := by
  rw [Char.isDigit, Bool.and_eq_true, decide_eq_true_iff, decide_eq_true_iff]
  rfl

/-- The digits of a positive number are read off it. -/
theorem digits_digitsValue {c : Char} {cs : List Char} (hzero : c ≠ '0') (hdigits : (c :: cs).all Char.isDigit = true) :
    Nat.digits 10 (Nat.ofDigits 10 ((c :: cs).map (fun c => c.toNat - 48)).reverse) =
      ((c :: cs).map (fun c => c.toNat - 48)).reverse := by
  have hall := List.all_eq_true.mp hdigits
  apply Nat.digits_ofDigits 10 (by decide)
  · intro d hd
    obtain ⟨e, he, rfl⟩ := List.mem_map.mp (List.mem_reverse.mp hd)
    have := isDigit_iff.mp (hall e he)
    omega
  · intro hne
    rw [List.getLast_reverse, List.head_map, List.head_cons]
    have hbounds := isDigit_iff.mp (hall c List.mem_cons_self)
    have hcode : c.toNat ≠ 48 := fun hcode => hzero (Char.ext (UInt32.toNat_inj.mp hcode))
    omega

theorem map_digits_inj {cs ds : List Char} (hcs : cs.all Char.isDigit = true) (hds : ds.all Char.isDigit = true)
    (h : cs.map (fun c => c.toNat - 48) = ds.map (fun c => c.toNat - 48)) : cs = ds := by
  induction cs generalizing ds with
  | nil => exact (List.map_eq_nil_iff.mp h.symm).symm
  | cons c cs ih =>
    cases ds with
    | nil => cases h
    | cons d ds =>
      rw [List.all_cons, Bool.and_eq_true] at hcs hds
      obtain ⟨hcode, hrest⟩ := List.cons.inj h
      have hc := isDigit_iff.mp hcs.1
      have hd := isDigit_iff.mp hds.1
      have hsame : c = d := Char.ext (UInt32.toNat_inj.mp (by simp only [Char.toNat] at hc hd hcode ⊢; omega))
      rw [hsame, ih hcs.2 hds.2 hrest]

/-- The keys that stand for an index: zero, or digits that do not start with it. -/
theorem arrayIndex_cases {key : String} {n : Nat} (h : arrayIndex key = some n) :
    key.toList = ['0'] ∧ n = 0 ∨ ∃ c cs, key.toList = c :: cs ∧ c ≠ '0' ∧ (c :: cs).all Char.isDigit = true ∧
      n = Nat.ofDigits 10 ((c :: cs).map (fun c => c.toNat - 48)).reverse := by
  unfold arrayIndex at h
  split at h
  · cases h
  · rename_i hlist
    exact Or.inl ⟨hlist, (Option.some.inj h).symm⟩
  · rename_i c cs hne hlist
    simp only at h
    split at h
    · rename_i hguard
      simp only [Bool.and_eq_true, bne_iff_ne, ne_eq, decide_eq_true_iff] at hguard
      refine Or.inr ⟨c, cs, hlist, hguard.1.1, hguard.1.2, ?_⟩
      rw [← Option.some.inj h, digitsValue_eq]
    · cases h

/-- An index has one key. -/
theorem arrayIndex_inj {key key' : String} {n : Nat} (h : arrayIndex key = some n) (h' : arrayIndex key' = some n) :
    key = key' := by
  have hpositive : ∀ {c : Char} {cs : List Char}, c ≠ '0' → (c :: cs).all Char.isDigit = true →
      Nat.ofDigits 10 ((c :: cs).map (fun c => c.toNat - 48)).reverse ≠ 0 := by
    intro c cs hzero hdigits heq
    have hback := digits_digitsValue hzero hdigits
    rw [heq] at hback
    simp at hback
  apply String.toList_inj.mp
  obtain ⟨hlist, hn⟩ | ⟨c, cs, hlist, hzero, hdigits, hn⟩ := arrayIndex_cases h <;>
    obtain ⟨hlist', hn'⟩ | ⟨c', cs', hlist', hzero', hdigits', hn'⟩ := arrayIndex_cases h'
  · rw [hlist, hlist']
  · exact absurd (hn'.symm.trans hn) (hpositive hzero' hdigits')
  · exact absurd (hn.symm.trans hn') (hpositive hzero hdigits)
  · have hmaps := digits_digitsValue hzero hdigits
    rw [← hn, hn', digits_digitsValue hzero' hdigits', List.reverse_inj] at hmaps
    rw [hlist, hlist', map_digits_inj hdigits hdigits' hmaps.symm]

/-! ## Objects -/

theorem perm_fromEntries (fields : List (String × Json ν)) : (fromEntries fields).Perm fields := by
  have hparts : fields.filter (fun e => (arrayIndex e.1).isNone) =
      fields.filter (fun e => !(arrayIndex e.1).isSome) := by
    simp only [Option.not_isSome]
  rw [fromEntries_eq, hparts]
  exact ((List.perm_insertionSort indexLE _).append_right _).trans (List.filter_append_perm _ _)

theorem filter_fromEntries (fields : List (String × Json ν)) :
    (fromEntries fields).filter (fun e => (arrayIndex e.1).isNone) =
      fields.filter (fun e => (arrayIndex e.1).isNone) := by
  have hindices : ((fields.filter (fun e => (arrayIndex e.1).isSome)).insertionSort indexLE).filter
      (fun e => (arrayIndex e.1).isNone) = [] := by
    rw [List.filter_eq_nil_iff]
    intro e he
    have hsome := (List.mem_filter.mp ((List.mem_insertionSort indexLE).mp he)).2
    rw [Option.isSome_iff_ne_none] at hsome
    simpa using hsome
  rw [fromEntries_eq, List.filter_append, hindices, List.nil_append, List.filter_filter]
  simp only [Bool.and_self]

theorem keysInOrder_nodup {keys : List String} (h : keysInOrder keys = true) : keys.Nodup := (keysInOrder_iff.mp h).1

theorem settled_distinct {v : Json ν} (h : v.settled = true) : v.distinct = true := by
  induction v using Json.induction with
  | null | bool _ | num _ | str _ => rfl
  | arr items ih => exact Json.distinct_arr.mpr fun v hv => ih v hv (Json.settled_arr.mp h v hv)
  | obj fields ih =>
    obtain ⟨hkeys, hfields⟩ := Json.settled_obj.mp h
    exact Json.distinct_obj.mpr ⟨keysInOrder_nodup hkeys, fun f hf => ih f hf (hfields f hf)⟩

/-- Objects that have the same properties are enumerated alike if the keys that
are no indices are in one order. -/
theorem fromEntries_congr {fields fields' : List (String × Json ν)} (hnodup : (fields.map Prod.fst).Nodup)
    (hperm : fields.Perm fields')
    (hnames : fields.filter (fun e => (arrayIndex e.1).isNone) = fields'.filter (fun e => (arrayIndex e.1).isNone)) :
    fromEntries fields = fromEntries fields' := by
  have hsome := hperm.filter (fun e => (arrayIndex e.1).isSome)
  rw [fromEntries_eq, fromEntries_eq, hnames]
  congr 1
  refine List.Perm.eq_of_pairwise (?_ : ∀ e e', _ → _ → indexLE e e' → indexLE e' e → e = e') ?_ ?_ ?_
  · intro e e' he he' hle hle'
    have hmem := List.mem_filter.mp ((List.mem_insertionSort indexLE).mp he)
    have hmem' := List.mem_filter.mp (hsome.mem_iff.mpr ((List.mem_insertionSort indexLE).mp he'))
    obtain ⟨i, hi⟩ := Option.isSome_iff_exists.mp hmem.2
    obtain ⟨j, hj⟩ := Option.isSome_iff_exists.mp hmem'.2
    rw [indexLE, hi, hj] at hle hle'
    have hij : i = j := Nat.le_antisymm hle hle'
    exact List.inj_on_of_nodup_map hnodup hmem.1 hmem'.1 (arrayIndex_inj hi (hij ▸ hj))
  · exact List.pairwise_insertionSort indexLE _
  · exact List.pairwise_insertionSort indexLE _
  · exact (List.perm_insertionSort indexLE _).trans (hsome.trans (List.perm_insertionSort indexLE _).symm)

/-! ## Normal forms -/

section normal

variable [LocaleCompare]

def keyLE (e e' : String × Json ν) : Prop := LocaleCompare.le e.1 e'.1 = true

instance : DecidableRel (keyLE (ν := ν)) :=
  fun e e' => inferInstanceAs (Decidable (LocaleCompare.le e.1 e'.1 = true))

instance : Std.Total (keyLE (ν := ν)) := ⟨fun e e' => Bool.or_eq_true_iff.mp (LocaleCompare.total e.1 e'.1)⟩

instance : IsTrans (String × Json ν) keyLE := ⟨fun e e' e'' => LocaleCompare.trans e.1 e'.1 e''.1⟩

theorem normalizeJson_obj (fields : List (String × Json ν)) :
    normalizeJson (.obj fields) = .obj (fromEntries ((normalizeFields fields).insertionSort keyLE)) := by
  rw [normalizeJson]
  rfl

theorem normalizeItems_eq (items : List (Json ν)) : normalizeItems items = items.map normalizeJson := by
  induction items with
  | nil => rw [normalizeItems, List.map_nil]
  | cons item rest ih => rw [normalizeItems, ih, List.map_cons]

theorem keys_normalizeFields (fields : List (String × Json ν)) :
    (normalizeFields fields).map Prod.fst = fields.map Prod.fst := by
  rw [normalizeFields_eq, List.map_map]
  rfl

theorem mem_normalizeFields {fields : List (String × Json ν)} {e : String × Json ν} :
    e ∈ normalizeFields fields ↔ ∃ v, (e.1, v) ∈ fields ∧ normalizeJson v = e.2 := by
  rw [normalizeFields_eq, List.mem_map]
  constructor
  · rintro ⟨f, hf, rfl⟩
    exact ⟨f.2, hf, rfl⟩
  · rintro ⟨v, hv, he⟩
    exact ⟨(e.1, v), hv, Prod.ext rfl he⟩

/-- A value has the content of its normal form. -/
theorem reordered_normalizeJson (v : Json ν) (h : v.distinct = true) : v.Reordered (normalizeJson v) := by
  induction v using Json.induction with
  | null => exact .null
  | bool b => exact .bool b
  | num n => exact .num n
  | str s => exact .str s
  | arr items ih =>
    rw [normalizeJson, normalizeItems_eq]
    refine .arr (List.length_map normalizeJson).symm ?_
    intro p hp
    obtain ⟨i, hi, rfl⟩ := List.mem_iff_getElem.mp hp
    rw [List.getElem_zip, List.getElem_map]
    rw [List.length_zip, List.length_map, Nat.min_self] at hi
    exact ih items[i] (List.getElem_mem hi) (Json.distinct_arr.mp h _ (List.getElem_mem hi))
  | obj fields ih =>
    obtain ⟨hkeys, hfields⟩ := Json.distinct_obj.mp h
    rw [normalizeJson_obj]
    constructor
    · rw [← keys_normalizeFields]
      exact (((perm_fromEntries _).trans (List.perm_insertionSort keyLE _)).map Prod.fst).symm
    · intro key v w hv hw
      rw [mem_fromEntries, List.mem_insertionSort] at hw
      obtain ⟨u, hu, rfl⟩ := mem_normalizeFields.mp hw
      obtain rfl := value_unique hkeys hv hu
      exact ih (key, v) hv (hfields (key, v) hv)

theorem reordered_of_normal {v w : Json ν} (hv : v.distinct = true) (hw : w.distinct = true)
    (h : normalizeJson v = normalizeJson w) : v.Reordered w :=
  (reordered_normalizeJson v hv).trans (h ▸ (reordered_normalizeJson w hw).symm)

/-- Any two of the keys that are no indices compare as different. -/
def separated (keys : List String) : Bool :=
  decide ((keys.filter (fun key => (arrayIndex key).isNone)).Pairwise
    (fun key key' => ¬(LocaleCompare.le key key' = true ∧ LocaleCompare.le key' key = true)))

theorem separated_unique {keys : List String} (h : separated keys = true) {key key' : String} (hkey : key ∈ keys)
    (hkey' : key' ∈ keys) (hname : arrayIndex key = none) (hname' : arrayIndex key' = none)
    (hle : LocaleCompare.le key key' = true) (hle' : LocaleCompare.le key' key = true) : key = key' := by
  by_contra hne
  have hpairs := of_decide_eq_true h
  have hsymm : Std.Symm (fun key key' =>
      ¬(LocaleCompare.le key key' = true ∧ LocaleCompare.le key' key = true)) := ⟨fun _ _ h h' => h ⟨h'.2, h'.1⟩⟩
  refine hpairs.forall (List.mem_filter.mpr ⟨hkey, ?_⟩) (List.mem_filter.mpr ⟨hkey', ?_⟩) hne ⟨hle, hle'⟩
  · rw [hname]
    rfl
  · rw [hname']
    rfl

/-- Objects with separated keys and the same normalized properties have one normal form. -/
theorem normal_of_perm {fields fields' : List (String × Json ν)} (hnodup : (fields.map Prod.fst).Nodup)
    (hnames : separated (fields.map Prod.fst) = true) (hperm : (normalizeFields fields).Perm (normalizeFields fields')) :
    normalizeJson (.obj fields) = normalizeJson (.obj fields') := by
  have hsorted := (List.perm_insertionSort keyLE (normalizeFields fields)).trans
    (hperm.trans (List.perm_insertionSort keyLE (normalizeFields fields')).symm)
  have hsortedNodup : (((normalizeFields fields).insertionSort keyLE).map Prod.fst).Nodup := by
    rw [((List.perm_insertionSort keyLE _).map Prod.fst).nodup_iff, keys_normalizeFields]
    exact hnodup
  rw [normalizeJson_obj, normalizeJson_obj, fromEntries_congr hsortedNodup hsorted]
  refine List.Perm.eq_of_pairwise (?_ : ∀ e e', _ → _ → keyLE e e' → keyLE e' e → e = e') ?_ ?_ ?_
  · intro e e' he he' hle hle'
    have hmem := List.mem_filter.mp he
    have hmem' := List.mem_filter.mp he'
    have hback := hsorted.mem_iff.mpr hmem'.1
    have hlisted : ∀ f ∈ (normalizeFields fields).insertionSort keyLE, f.1 ∈ fields.map Prod.fst := by
      intro f hf
      rw [← keys_normalizeFields]
      exact List.mem_map_of_mem ((List.mem_insertionSort keyLE).mp hf)
    have hkey := separated_unique hnames (hlisted e hmem.1) (hlisted e' hback) (Option.isNone_iff_eq_none.mp hmem.2)
      (Option.isNone_iff_eq_none.mp hmem'.2) hle hle'
    exact List.inj_on_of_nodup_map hsortedNodup hmem.1 hback hkey
  · exact (List.pairwise_insertionSort keyLE _).filter _
  · exact (List.pairwise_insertionSort keyLE _).filter _
  · exact hsorted.filter _

/-- Values with separated keys and one content have one normal form. -/
theorem normal_of_reordered {v w : Json ν} (h : v.Reordered w) (hv : v.distinct = true) (hw : w.distinct = true)
    (hseparated : v.everyObject separated = true) : normalizeJson v = normalizeJson w := by
  induction h with
  | null | bool b | num n | str s => rfl
  | @arr items items' hlength _ ih =>
    rw [normalizeJson, normalizeJson, normalizeItems_eq, normalizeItems_eq, Json.arr.injEq]
    apply List.ext_getElem (by rw [List.length_map, List.length_map, hlength])
    intro i hi hi'
    rw [List.length_map] at hi hi'
    rw [List.getElem_map, List.getElem_map]
    have hmem : (items[i], items'[i]) ∈ items.zip items' :=
      List.mem_iff_getElem.mpr ⟨i, by rw [List.length_zip]; omega, List.getElem_zip⟩
    exact ih _ hmem (Json.distinct_arr.mp hv _ (List.getElem_mem hi)) (Json.distinct_arr.mp hw _ (List.getElem_mem hi'))
      (Json.everyObject_arr.mp hseparated _ (List.getElem_mem hi))
  | @obj fields fields' hkeys _ ih =>
    obtain ⟨hnodup, hdistinct⟩ := Json.distinct_obj.mp hv
    obtain ⟨hnodup', hdistinct'⟩ := Json.distinct_obj.mp hw
    obtain ⟨hnames, hnested⟩ := Json.everyObject_obj.mp hseparated
    have hvalue : ∀ key u u', (key, u) ∈ fields → (key, u') ∈ fields' → normalizeJson u = normalizeJson u' :=
      fun key u u' hu hu' => ih key u u' hu hu' (hdistinct _ hu) (hdistinct' _ hu') (hnested _ hu)
    have hnormal : ((normalizeFields fields).map Prod.fst).Nodup := by rwa [keys_normalizeFields]
    have hnormal' : ((normalizeFields fields').map Prod.fst).Nodup := by rwa [keys_normalizeFields]
    have hperm : (normalizeFields fields).Perm (normalizeFields fields') := by
      rw [List.perm_ext_iff_of_nodup hnormal.of_map hnormal'.of_map]
      intro e
      rw [mem_normalizeFields, mem_normalizeFields]
      constructor
      · rintro ⟨u, hu, he⟩
        obtain ⟨⟨key, u'⟩, hu', rfl⟩ := List.mem_map.mp (hkeys.mem_iff.mp (List.mem_map_of_mem (f := Prod.fst) hu))
        exact ⟨u', hu', (hvalue _ u u' hu hu').symm.trans he⟩
      · rintro ⟨u', hu', he⟩
        obtain ⟨⟨key, u⟩, hu, rfl⟩ := List.mem_map.mp (hkeys.mem_iff.mpr (List.mem_map_of_mem (f := Prod.fst) hu'))
        exact ⟨u, hu, (hvalue _ u u' hu hu').trans he⟩
    exact normal_of_perm hnodup hnames hperm

/-! ## Keys that compare as equal -/

omit [LocaleCompare] in
theorem not_both_orders {α : Type} {l : List α} {a b : α} (hl : l.Nodup) (h : [a, b].Sublist l)
    (h' : [b, a].Sublist l) : False := by
  induction l with
  | nil => cases h
  | cons c l ih =>
    obtain ⟨hc, hl⟩ := List.nodup_cons.mp hl
    cases h with
    | cons _ h =>
      cases h' with
      | cons _ h' => exact ih hl h h'
      | cons_cons _ h' => exact hc (h.subset (List.mem_cons_of_mem a List.mem_cons_self))
    | cons_cons _ h =>
      cases h' with
      | cons _ h' => exact hc (h'.subset (List.mem_cons_of_mem b List.mem_cons_self))
      | cons_cons _ h' => exact hc (h'.subset List.mem_cons_self)

omit [LocaleCompare] in
/-- Names that are listed in an order are enumerated in it. -/
theorem names_fromEntries {fields : List (String × Json ν)} {e e' : String × Json ν} (h : [e, e'].Sublist fields)
    (hname : arrayIndex e.1 = none) (hname' : arrayIndex e'.1 = none) : [e, e'].Sublist (fromEntries fields) := by
  have hfilter : [e, e'].filter (fun e => (arrayIndex e.1).isNone) = [e, e'] := by
    simp [hname, hname']
  have hnames := h.filter (fun e => (arrayIndex e.1).isNone)
  rw [hfilter, ← filter_fromEntries] at hnames
  exact hnames.trans List.filter_sublist

omit [LocaleCompare] in
theorem pair_of_keys {fields : List (String × Json ν)} {key key' : String}
    (h : [key, key'].Sublist (fields.map Prod.fst)) :
    ∃ v v', [(key, v), (key', v')].Sublist fields := by
  obtain ⟨pair, hpair, hkeys⟩ := List.sublist_map_iff.mp h
  obtain _ | ⟨⟨name, v⟩, _ | ⟨⟨name', v'⟩, rest⟩⟩ := pair
  · cases hkeys
  · cases hkeys
  · simp only [List.map_cons, List.cons.injEq, List.nil_eq, List.map_eq_nil_iff] at hkeys
    obtain ⟨rfl, rfl, rfl⟩ := hkeys
    exact ⟨v, v', hpair⟩

/-- The sort leaves keys that compare as equal in the order in which they came. -/
theorem names_normalizeJson {fields : List (String × Json ν)} {key key' : String}
    (h : [key, key'].Sublist (fields.map Prod.fst)) (hname : arrayIndex key = none) (hname' : arrayIndex key' = none)
    (hle : LocaleCompare.le key key' = true) :
    [key, key'].Sublist ((fromEntries ((normalizeFields fields).insertionSort keyLE)).map Prod.fst) := by
  rw [← keys_normalizeFields] at h
  obtain ⟨v, v', hpair⟩ := pair_of_keys h
  have hsorted := List.pair_sublist_insertionSort (r := keyLE) (a := (key, v)) (b := (key', v')) hle hpair
  exact (names_fromEntries hsorted hname hname').map Prod.fst

/-- A value whose normal form does not depend on the order of its properties has
separated keys. -/
theorem separated_of_determined (v : Json ν) (hv : v.settled = true)
    (h : ∀ w : Json ν, w.settled = true → v.Reordered w → normalizeJson v = normalizeJson w) :
    v.everyObject separated = true := by
  induction v using Json.induction with
  | null | bool _ | num _ | str _ => rfl
  | arr items ih =>
    have hitems := Json.settled_arr.mp hv
    refine Json.everyObject_arr.mpr fun v hmem => ih v hmem (hitems v hmem) ?_
    intro w hw hvw
    obtain ⟨before, after, rfl⟩ := List.append_of_mem hmem
    have hrest : ∀ u ∈ before ++ after, u.settled = true := fun u hu => hitems u (by simp at hu ⊢; tauto)
    have hsettled : (Json.arr (before ++ w :: after)).settled = true := by
      rw [Json.settled_arr]
      intro u hu
      simp only [List.mem_append, List.mem_cons] at hu hrest
      obtain hu | rfl | hu := hu
      · exact hrest u (.inl hu)
      · exact hw
      · exact hrest u (.inr hu)
    have hsame := h _ hsettled (.arr_item hvw (fun u hu => settled_distinct (hrest u hu)))
    rw [normalizeJson, normalizeJson, normalizeItems_eq, normalizeItems_eq, List.map_append, List.map_append,
      Json.arr.injEq, List.append_cancel_left_eq, List.map_cons, List.map_cons] at hsame
    exact (List.cons.inj hsame).1
  | obj fields ih =>
    obtain ⟨hkeys, hfields⟩ := Json.settled_obj.mp hv
    have hnodup := keysInOrder_nodup hkeys
    refine Json.everyObject_obj.mpr ⟨?_, ?_⟩
    · -- two keys that compare as equal, and the same object with its names the other way round
      rw [separated, decide_eq_true_iff, List.pairwise_iff_forall_sublist]
      rintro key key' hpair ⟨hle, hle'⟩
      have hnames : ∀ name ∈ [key, key'], arrayIndex name = none := fun name hname =>
        Option.isNone_iff_eq_none.mp (List.mem_filter.mp (hpair.subset hname)).2
      have hname := hnames key List.mem_cons_self
      have hname' := hnames key' (List.mem_cons_of_mem key List.mem_cons_self)
      have hlisted : [key, key'].Sublist (fields.map Prod.fst) := hpair.trans List.filter_sublist
      have hperm : (fromEntries fields.reverse).Perm fields :=
        (perm_fromEntries _).trans (List.reverse_perm fields)
      have hnodup' : ((fromEntries fields.reverse).map Prod.fst).Nodup := (hperm.map Prod.fst).nodup_iff.mpr hnodup
      have hreversed : [key', key].Sublist ((fromEntries fields.reverse).map Prod.fst) := by
        obtain ⟨v, v', hfound⟩ := pair_of_keys hlisted
        exact (names_fromEntries hfound.reverse hname' hname).map Prod.fst
      have hsettled : (Json.obj (fromEntries fields.reverse)).settled = true := by
        refine Json.settled_obj.mpr ⟨keysInOrder_iff.mpr ⟨hnodup', pairwise_fromEntries _⟩, ?_⟩
        exact fun f hf => hfields f (hperm.mem_iff.mp hf)
      have hreordered : (Json.obj fields).Reordered (.obj (fromEntries fields.reverse)) := by
        refine .obj (hperm.map Prod.fst).symm ?_
        intro name u u' hu hu'
        obtain rfl := value_unique hnodup hu (hperm.mem_iff.mp hu')
        exact .refl u (settled_distinct (hfields _ hu))
      have hsame := h _ hsettled hreordered
      rw [normalizeJson_obj, normalizeJson_obj, Json.obj.injEq] at hsame
      have hfirst := names_normalizeJson hlisted hname hname' hle
      have hsecond := names_normalizeJson hreversed hname' hname hle'
      rw [← hsame] at hsecond
      refine not_both_orders ?_ hfirst hsecond
      rw [((perm_fromEntries _).map Prod.fst).nodup_iff,
        ((List.perm_insertionSort keyLE _).map Prod.fst).nodup_iff, keys_normalizeFields]
      exact hnodup
    · intro f hmem
      refine ih f hmem (hfields f hmem) ?_
      intro w hw hvw
      obtain ⟨key, v⟩ := f
      obtain ⟨before, after, rfl⟩ := List.append_of_mem hmem
      have hrest : ∀ f ∈ before ++ after, f.2.settled = true := fun f hf => hfields f (by simp at hf ⊢; tauto)
      have hsettled : (Json.obj (before ++ (key, w) :: after)).settled = true := by
        rw [Json.settled_obj]
        constructor
        · simpa using hkeys
        · intro f hf
          simp only [List.mem_append, List.mem_cons] at hf hrest
          obtain hf | rfl | hf := hf
          · exact hrest f (.inl hf)
          · exact hw
          · exact hrest f (.inr hf)
      have hsame := h _ hsettled (.obj_field hvw hnodup (fun f hf => settled_distinct (hrest f hf)))
      refine normalizeJson_field hsame key v w hmem ?_
      intro u hu
      have hnodup' := keysInOrder_nodup (Json.settled_obj.mp hsettled).1
      exact value_unique hnodup' hu (List.mem_append_right before List.mem_cons_self)

/-- What canonical JSON forgets is the order of properties and nothing else, and
it forgets that order in the values whose keys the comparison tells apart. -/
theorem canonical_form_exact [JsonNumber ν] :
    (∀ v w : JsonValue ν, canonicalJson v.1 = canonicalJson w.1 → v.1.Reordered w.1) ∧
      ∀ v : JsonValue ν, (∀ w : JsonValue ν, canonicalJson v.1 = canonicalJson w.1 ↔ v.1.Reordered w.1) ↔
        v.1.everyObject separated = true := by
  have hinjective : ∀ v w : JsonValue ν, canonicalJson v.1 = canonicalJson w.1 → v.1.Reordered w.1 := fun v w h =>
    reordered_of_normal (settled_distinct v.2) (settled_distinct w.2) (canonicalJson_inj h)
  refine ⟨hinjective, fun v => ⟨fun h => ?_, fun h w => ⟨hinjective v w, fun hvw => ?_⟩⟩⟩
  · refine separated_of_determined v.1 v.2 fun w hw hvw => ?_
    exact canonicalJson_inj ((h ⟨w, hw⟩).mpr hvw)
  · rw [canonicalJson, canonicalJson, normal_of_reordered hvw (settled_distinct v.2) (settled_distinct w.2) h]

end normal

end ReproForge

/-! ## Two orders of one object -/

namespace ReproForge.Sample.CanonicalForm

open JsonValues JsonValues.Decimal

scoped instance : JsonNumber Int where
  ofInt := id

/-- A comparison that ignores soft hyphens. -/
def collated (key : String) : String := String.ofList (key.toList.filter (· ≠ '\u00ad'))

scoped instance : LocaleCompare where
  le a b := decide (collated a ≤ collated b)
  trans a b c := by simpa using String.le_trans
  total a b := by simpa using String.le_total (collated a) (collated b)

def plainFirst : JsonValue Int := ⟨.obj [("re", .null), ("r\u00ade", .bool true)], by decide +kernel⟩

def hyphenFirst : JsonValue Int := ⟨.obj [("r\u00ade", .bool true), ("re", .null)], by decide +kernel⟩

theorem orders_differ :
    ¬∀ v w : JsonValue Int, canonicalJson v.1 = canonicalJson w.1 ↔ v.1.Reordered w.1 := by
  intro h
  have hreordered : plainFirst.1.Reordered hyphenFirst.1 := by
    refine .obj (List.Perm.swap _ _ _) ?_
    intro key v w hv hw
    simp only [List.mem_cons, List.not_mem_nil, or_false, Prod.mk.injEq] at hv hw
    obtain ⟨rfl, rfl⟩ | ⟨rfl, rfl⟩ := hv <;> obtain ⟨hkey, rfl⟩ | ⟨hkey, rfl⟩ := hw
    · exact absurd hkey (by decide)
    · exact .null
    · exact .bool true
    · exact absurd hkey (by decide)
  have hdiffer : canonicalJson plainFirst.1 ≠ canonicalJson hyphenFirst.1 := by decide +kernel
  exact hdiffer ((h plainFirst hyphenFirst).mpr hreordered)

end ReproForge.Sample.CanonicalForm
