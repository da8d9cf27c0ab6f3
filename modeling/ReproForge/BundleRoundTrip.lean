import ReproForge.BundleValidation
import ReproForge.CanonicalForm

/-!
# Bundles and back

A bundle is hashed before its schema has read it, and written as files. The
schemas keep the canonical form of what they read, so that the hash is that of
the bundle, and the files hold the bundle again.
-/
namespace ReproForge

open JsonValues

variable {ν α β : Type} {keys : List String} [LocaleCompare]

/-! ## Schemas that keep the canonical form -/

/-- What the schema reads is written with the same canonical form. -/
structure KeepsForm (s : Schema ν α) : Prop where
  normal : ∀ {v a}, v.distinct = true → s.decode v = some a → normalizeJson (s.encode a) = normalizeJson v

/-- What is read off properties is written as the same properties, in any order. -/
structure KeepsFields (fields : Fields keys ν α) : Prop where
  normal : ∀ {fs a}, (fs.map Prod.fst).Nodup → (∀ f ∈ fs, f.1 ∈ keys ∧ f.2.distinct = true) → fields.decode fs = some a →
      (normalizeFields (fields.encode a)).Perm (normalizeFields fs)

theorem keepsForm_of_exact {s : Schema ν α} (h : ∀ {v a}, s.decode v = some a → s.encode a = v) : KeepsForm s := by
  constructor
  intro v a _ hdecode
  rw [h hdecode]

namespace KeepsForm

theorem string (p : String → Bool) : KeepsForm (.string p : Schema ν String) := by
  apply keepsForm_of_exact
  intro v s h
  cases v with
  | str t =>
    have hread : (some t).filter p = some s := h
    rw [← Option.some.inj (Option.filter_eq_some_iff.mp hread).1]
    rfl
  | _ => cases h

theorem literal (text : String) : KeepsForm (.literal text : Schema ν Unit) := by
  apply keepsForm_of_exact
  intro v u h
  cases v with
  | str t =>
    by_cases ht : t = text
    · rw [ht]
      rfl
    · have hnone : (Schema.literal text : Schema ν Unit).decode (.str t) = none := if_neg ht
      rw [hnone] at h
      cases h
  | _ => cases h

theorem boolean : KeepsForm (.boolean : Schema ν Bool) := by
  apply keepsForm_of_exact
  intro v b h
  cases v with
  | bool c =>
    cases h
    rfl
  | _ => cases h

theorem number (p : ν → Bool) : KeepsForm (.number p : Schema ν ν) := by
  apply keepsForm_of_exact
  intro v n h
  cases v with
  | num m =>
    have hread : (some m).filter p = some n := h
    rw [← Option.some.inj (Option.filter_eq_some_iff.mp hread).1]
    rfl
  | _ => cases h

theorem enumeration {name : α → String} {members : List α}
    (hmembers : ∀ a, members.find? (fun b => name b == name a) = some a) :
    KeepsForm (.enumeration name members hmembers : Schema ν α) := by
  apply keepsForm_of_exact
  intro v a h
  cases v with
  | str s =>
    have hname := List.find?_some (p := fun a => name a == s) h
    rw [beq_iff_eq] at hname
    rw [← hname]
    rfl
  | _ => cases h

theorem unknown : KeepsForm (.unknown : Schema ν {v : Json ν // v.settled = true}) := by
  apply keepsForm_of_exact
  intro v a h
  have hform : (Schema.unknown : Schema ν {v : Json ν // v.settled = true}).decode v =
      if h : v.settled = true then some ⟨v, h⟩ else none := rfl
  rw [hform] at h
  split at h
  · cases h
    rfl
  · cases h

/-- The numbers that stand for an integer are the one that it is written as. -/
theorem integer [IntegerNumber ν]
    (hexact : ∀ (n : ν) i, IntegerNumber.toInt n = some i → IntegerNumber.ofInt i = n) (p : Int → Bool) :
    KeepsForm (.integer p : Schema ν Int) := by
  apply keepsForm_of_exact
  intro v i h
  cases v with
  | num n =>
    obtain ⟨hi, -⟩ := Option.filter_eq_some_iff.mp h
    rw [← hexact n i hi]
    rfl
  | _ => cases h

theorem items {s : Schema ν α} (hs : KeepsForm s) {vs : List (Json ν)} {as : List α}
    (hvs : ∀ v ∈ vs, v.distinct = true) (h : vs.mapM s.decode = some as) :
    normalizeItems (as.map s.encode) = normalizeItems vs := by
  induction vs generalizing as with
  | nil =>
    cases h
    rfl
  | cons v vs ih =>
    rw [List.mapM_cons] at h
    obtain ⟨a, ha, hrest⟩ := Option.bind_eq_some_iff.mp h
    obtain ⟨rest, hvs', has⟩ := Option.bind_eq_some_iff.mp hrest
    cases has
    rw [List.map_cons, normalizeItems, normalizeItems, hs.normal (hvs v List.mem_cons_self) ha,
      ih (fun w hw => hvs w (List.mem_cons_of_mem v hw)) hvs']

theorem array {s : Schema ν α} (hs : KeepsForm s) (p : List α → Bool) : KeepsForm (.array s p) := by
  constructor
  intro v as hv h
  cases v with
  | arr vs =>
    obtain ⟨has, -⟩ := Option.filter_eq_some_iff.mp h
    have hform : (Schema.array s p).encode as = .arr (as.map s.encode) := rfl
    rw [hform, normalizeJson, normalizeJson, hs.items (Json.distinct_arr.mp hv) has]
  | _ => cases h

theorem nullable {s : Schema ν α} (hs : KeepsForm s) (hnull : s.decode .null = none) :
    KeepsForm (.nullable s hnull) := by
  constructor
  intro v a hv h
  have hsome : ∀ w : Json ν, w ≠ .null → (Schema.nullable s hnull).decode w = (s.decode w).map some := by
    intro w hw
    cases w with
    | null => exact absurd rfl hw
    | _ => rfl
  by_cases hvnull : v = .null
  · subst hvnull
    cases h
    rfl
  · rw [hsome v hvnull] at h
    obtain ⟨b, hb, rfl⟩ := Option.map_eq_some_iff.mp h
    exact hs.normal hv hb

theorem refine {s : Schema ν α} (hs : KeepsForm s) (p : α → Bool) : KeepsForm (.refine s p) := by
  constructor
  intro v a hv h
  exact hs.normal hv (Option.filter_eq_some_iff.mp h).1

end KeepsForm

/-! ## Objects -/

/-- Letters and digits only, as in the keys of every schema. -/
def word (key : String) : Bool := key.toList.all Char.isAlphanum

/-- Texts of letters and digits compare as equal only if they are. -/
def SeparatesWords : Prop :=
  ∀ a b : String, word a = true → word b = true → LocaleCompare.le a b = true → LocaleCompare.le b a = true → a = b

theorem separated_words (hwords : SeparatesWords) {keys : List String} (hnodup : keys.Nodup)
    (h : ∀ key ∈ keys, word key = true) : separated keys = true := by
  rw [separated, decide_eq_true_iff]
  refine List.Pairwise.imp_of_mem ?_ (hnodup.filter _)
  intro key key' hkey hkey' hne hboth
  exact hne (hwords key key' (h key (List.mem_filter.mp hkey).1) (h key' (List.mem_filter.mp hkey').1) hboth.1 hboth.2)

omit [LocaleCompare] in
/-- The other properties of an object. -/
theorem perm_of_lookup {fs : List (String × Json ν)} (hnodup : (fs.map Prod.fst).Nodup) {key : String} {v : Json ν}
    (h : fs.lookup key = some v) : fs.Perm ((key, v) :: fs.filter (fun f => f.1 != key)) := by
  obtain ⟨before, after, rfl, hbefore⟩ := List.lookup_eq_some_iff.mp h
  rw [List.map_append, List.map_cons, List.nodup_append] at hnodup
  have hkept : before.filter (fun f => f.1 != key) = before := by
    rw [List.filter_eq_self]
    intro f hf
    have hne := hbefore f hf
    rw [bne_iff_ne] at hne ⊢
    exact fun heq => hne heq.symm
  have hkept' : after.filter (fun f => f.1 != key) = after := by
    rw [List.filter_eq_self]
    intro f hf
    rw [bne_iff_ne]
    intro heq
    have hmem : f.1 ∈ after.map Prod.fst := List.mem_map_of_mem hf
    rw [heq] at hmem
    exact (List.nodup_cons.mp hnodup.2.1).1 hmem
  rw [List.filter_append, List.filter_cons_of_neg (by simp), hkept, hkept']
  exact List.perm_middle

omit [LocaleCompare] in
theorem lookup_filter_ne {fs : List (String × Json ν)} {key key' : String} (h : key' ≠ key) :
    (fs.filter (fun f => f.1 != key)).lookup key' = fs.lookup key' := by
  induction fs with
  | nil => rfl
  | cons f fs ih =>
    by_cases hf : f.1 = key
    · rw [List.filter_cons_of_neg (by simp [hf]), ih, List.lookup_cons, hf, beq_false_of_ne h]
    · rw [List.filter_cons_of_pos (by simp [hf]), List.lookup_cons, List.lookup_cons, ih]

theorem perm_normalizeFields {fs fs' : List (String × Json ν)} (h : fs.Perm fs') :
    (normalizeFields fs).Perm (normalizeFields fs') := by
  rw [normalizeFields_eq, normalizeFields_eq]
  exact h.map _

namespace KeepsFields

theorem nil : KeepsFields (.nil : Fields [] ν Unit) := by
  constructor
  intro fs u _ hfs _
  cases fs with
  | nil => exact List.Perm.refl _
  | cons f fs => exact absurd (hfs f List.mem_cons_self).1 List.not_mem_nil

/-- One property is read, and the rest from the others. -/
theorem step {rest : Fields keys ν β} (hrest : KeepsFields rest) {key : String} (hkey : key ∉ keys)
    {fs : List (String × Json ν)} {v : Json ν} {b : β} (hnodup : (fs.map Prod.fst).Nodup)
    (hfs : ∀ f ∈ fs, f.1 ∈ key :: keys ∧ f.2.distinct = true) (hv : fs.lookup key = some v)
    (hb : rest.decode fs = some b) :
    ((key, normalizeJson v) :: normalizeFields (rest.encode b)).Perm (normalizeFields fs) := by
  have hperm := perm_of_lookup hnodup hv
  have hothers : rest.decode (fs.filter (fun f => f.1 != key)) = some b := by
    rw [← hb]
    apply rest.decode_congr
    intro k hk
    apply lookup_filter_ne
    rintro rfl
    exact hkey hk
  have hnodup' : ((fs.filter (fun f => f.1 != key)).map Prod.fst).Nodup :=
    hnodup.sublist (List.filter_sublist.map Prod.fst)
  have hrests := hrest.normal hnodup' (by
    intro f hf
    obtain ⟨hmem, hne⟩ := List.mem_filter.mp hf
    obtain ⟨hkeys, hdistinct⟩ := hfs f hmem
    refine ⟨(List.mem_cons.mp hkeys).resolve_left ?_, hdistinct⟩
    exact bne_iff_ne.mp hne) hothers
  refine List.Perm.trans (hrests.cons _) ?_
  have hform : normalizeFields ((key, v) :: fs.filter (fun f => f.1 != key)) =
      (key, normalizeJson v) :: normalizeFields (fs.filter (fun f => f.1 != key)) := by rw [normalizeFields]
  rw [← hform]
  exact perm_normalizeFields hperm.symm

theorem required {key : String} {s : Schema ν α} (hs : KeepsForm s) {rest : Fields keys ν β}
    (hrest : KeepsFields rest) (hkey : key ∉ keys) : KeepsFields (.required key s rest hkey) := by
  constructor
  intro fs a hnodup hfs h
  obtain ⟨b, hb, hothers⟩ := Option.bind_eq_some_iff.mp h
  obtain ⟨v, hv, hdecode⟩ := Option.bind_eq_some_iff.mp hb
  obtain ⟨c, hc, rfl⟩ := Option.map_eq_some_iff.mp hothers
  have hform : (Fields.required key s rest hkey).encode (b, c) = (key, s.encode b) :: rest.encode c := rfl
  rw [hform, normalizeFields, hs.normal (hfs (key, v) (mem_of_lookup hv)).2 hdecode]
  exact hrest.step hkey hnodup hfs hv hc

theorem optional {key : String} {s : Schema ν α} (hs : KeepsForm s) {rest : Fields keys ν β}
    (hrest : KeepsFields rest) (hkey : key ∉ keys) : KeepsFields (.optional key s rest hkey) := by
  constructor
  intro fs a hnodup hfs h
  simp only [Fields.optional] at h
  cases hv : fs.lookup key with
  | none =>
    rw [hv] at h
    obtain ⟨c, hc, rfl⟩ := Option.map_eq_some_iff.mp h
    refine hrest.normal hnodup ?_ hc
    intro f hf
    obtain ⟨hkeys, hdistinct⟩ := hfs f hf
    refine ⟨(List.mem_cons.mp hkeys).resolve_left ?_, hdistinct⟩
    rintro rfl
    have habsent := List.lookup_eq_none_iff.mp hv f hf
    rw [bne_self_eq_false] at habsent
    cases habsent
  | some v =>
    rw [hv] at h
    obtain ⟨b, hb, hothers⟩ := Option.bind_eq_some_iff.mp h
    obtain ⟨c, hc, rfl⟩ := Option.map_eq_some_iff.mp hothers
    have hencode : (Fields.optional key s rest hkey).encode (some b, c) = (key, s.encode b) :: rest.encode c := rfl
    rw [hencode, normalizeFields, hs.normal (hfs (key, v) (mem_of_lookup hv)).2 hb]
    exact hrest.step hkey hnodup hfs hv hc

theorem equiv {fields : Fields keys ν α} (hfields : KeepsFields fields) (e : α ≃ β) : KeepsFields (fields.equiv e) := by
  constructor
  intro fs b hnodup hfs h
  obtain ⟨a, ha, rfl⟩ := Option.map_eq_some_iff.mp h
  have hform : (fields.equiv e).encode (e a) = fields.encode a := congrArg fields.encode (e.symm_apply_apply a)
  rw [hform]
  exact hfields.normal hnodup hfs ha

end KeepsFields

/-- An object is written with its properties in another order, which its canonical form does not show. -/
theorem KeepsForm.strictObject (hwords : SeparatesWords) {fields : Fields keys ν α} (hfields : KeepsFields fields)
    (hkeys : ∀ key ∈ keys, word key = true) (horder : inOrder keys = true) :
    KeepsForm (.strictObject fields horder) := by
  constructor
  intro v a hv h
  cases v with
  | obj fs =>
    have hform : (Schema.strictObject fields horder).decode (.obj fs) =
        if fs.all (fun f => keys.contains f.1) then fields.decode fs else none := rfl
    rw [hform] at h
    split at h
    · rename_i hall
      obtain ⟨hnodup, hdistinct⟩ := Json.distinct_obj.mp hv
      have hmem : ∀ f ∈ fs, f.1 ∈ keys := fun f hf => List.contains_iff_mem.mp (List.all_eq_true.mp hall f hf)
      have hperm := hfields.normal hnodup (fun f hf => ⟨hmem f hf, hdistinct f hf⟩) h
      refine (normal_of_perm hnodup ?_ hperm.symm).symm
      apply separated_words hwords hnodup
      intro key hkey
      obtain ⟨f, hf, rfl⟩ := List.mem_map.mp hkey
      exact hkeys f.1 (hmem f hf)
    · cases h
  | _ => cases h

theorem KeepsForm.entries {s : Schema ν α} (hs : KeepsForm s) {fs : List (String × Json ν)} {entries : List (String × α)}
    (hfs : ∀ f ∈ fs, f.2.distinct = true) (h : fs.mapM s.decodeEntry = some entries) :
    normalizeFields (entries.map s.encodeEntry) = normalizeFields fs := by
  induction fs generalizing entries with
  | nil =>
    cases h
    rfl
  | cons f fs ih =>
    rw [List.mapM_cons] at h
    obtain ⟨e, he, hrest⟩ := Option.bind_eq_some_iff.mp h
    obtain ⟨rest, hfields, hentries⟩ := Option.bind_eq_some_iff.mp hrest
    cases hentries
    obtain ⟨a, ha, rfl⟩ := Option.map_eq_some_iff.mp he
    rw [List.map_cons, normalizeFields, normalizeFields, ih (fun g hg => hfs g (List.mem_cons_of_mem f hg)) hfields,
      Schema.encodeEntry, hs.normal (hfs f List.mem_cons_self) ha]

theorem KeepsForm.record {s : Schema ν α} (hs : KeepsForm s) : KeepsForm (.record s) := by
  constructor
  intro v d hv h
  cases v with
  | obj fs =>
    obtain ⟨entries, hentries, hd⟩ := Option.bind_eq_some_iff.mp h
    split at hd
    · cases hd
      have hform : (Schema.record s).encode ⟨entries, ‹_›⟩ = .obj (entries.map s.encodeEntry) := rfl
      rw [hform, normalizeJson_obj, normalizeJson_obj, hs.entries (Json.distinct_obj.mp hv).2 hentries]
    · cases hd
  | _ => cases h

/-! ## Oracles -/

section bundles

variable [DomainNumber ν] [RegExpEngine] (hwords : SeparatesWords)
  (hexact : ∀ (n : ν) i, IntegerNumber.toInt n = some i → IntegerNumber.ofInt i = n)
include hwords hexact

namespace OracleExpression

omit [RegExpEngine] in
theorem keeps_exitCode : KeepsForm (exitCodeSchema (ν := ν)) :=
  .strictObject hwords
    (.equiv (.required (.literal _) (.required (.integer hexact _) .nil (by decide)) (by decide)) _) (by decide) _

omit hexact [RegExpEngine] [DomainNumber ν] in
theorem keeps_outputContains : KeepsForm (outputContainsSchema (ν := ν)) :=
  .strictObject hwords
    (.equiv (.required (.literal _) (.required (.enumeration _) (.required (.string _) .nil (by decide)) (by decide))
      (by decide)) _) (by decide) _

omit hexact [DomainNumber ν] in
theorem keeps_outputRegex : KeepsForm (outputRegexSchema (ν := ν)) :=
  .strictObject hwords
    (.equiv (.required (.literal _) (.required (.enumeration _) (.required (.string _) .nil (by decide)) (by decide))
      (by decide)) _) (by decide) _

omit hexact [RegExpEngine] [DomainNumber ν] in
theorem keeps_jsonField : KeepsForm (jsonFieldSchema (ν := ν)) :=
  .strictObject hwords
    (.equiv (.required (.literal _) (.required (.enumeration _) (.required (.array (.string _) _)
      (.optional .unknown .nil (by decide)) (by decide)) (by decide)) (by decide)) _) (by decide) _

omit [LocaleCompare] [DomainNumber ν] [RegExpEngine] hwords hexact in
/-- An object with two properties. -/
theorem perm_pair {fs : List (String × Json ν)} (hnodup : (fs.map Prod.fst).Nodup) {key key' : String} {v v' : Json ν}
    (hkeys : ∀ f ∈ fs, f.1 = key ∨ f.1 = key') (hne : key' ≠ key) (hv : fs.lookup key = some v)
    (hv' : fs.lookup key' = some v') : fs.Perm [(key, v), (key', v')] := by
  have hfirst := perm_of_lookup hnodup hv
  have hnodup' : ((fs.filter (fun f => f.1 != key)).map Prod.fst).Nodup :=
    hnodup.sublist (List.filter_sublist.map Prod.fst)
  have hsecond := perm_of_lookup hnodup' ((lookup_filter_ne hne).trans hv')
  have hnone : (fs.filter (fun f => f.1 != key)).filter (fun f => f.1 != key') = [] := by
    rw [List.filter_eq_nil_iff]
    intro f hf
    obtain ⟨hmem, hother⟩ := List.mem_filter.mp hf
    obtain h | h := hkeys f hmem
    · exact absurd h (bne_iff_ne.mp hother)
    · rw [h, bne_self_eq_false]
      exact Bool.false_ne_true
  rw [hnone] at hsecond
  exact hfirst.trans (hsecond.cons _)

omit [LocaleCompare] hwords hexact in
theorem lookup_decodeFields (fields : List (String × Json ν)) (key : String) :
    (decodeFields fields).lookup key = (fields.lookup key).map (fun v => (decode v, decodeChildren v)) := by
  induction fields with
  | nil => rfl
  | cons f fields ih =>
    obtain ⟨k, v⟩ := f
    rw [decodeFields, List.lookup_cons, List.lookup_cons, ih]
    cases key == k <;> rfl

omit hexact [RegExpEngine] [DomainNumber ν] in
/-- An object of a type and one more property is written in one order. -/
theorem normal_pair {fields : List (String × Json ν)} (hdistinct : (Json.obj fields).distinct = true) {key type : String}
    {v w : Json ν} (hkey : word key = true) (hne : key ≠ "type")
    (hkeys : (fields.all (fun f => ["type", key].contains f.1)) = true)
    (htype : fields.lookup "type" = some (.str type)) (hv : fields.lookup key = some v)
    (hw : normalizeJson w = normalizeJson v) :
    normalizeJson (.obj [("type", .str type), (key, w)]) = normalizeJson (.obj fields) := by
  obtain ⟨hnodup, -⟩ := Json.distinct_obj.mp hdistinct
  have hmem : ∀ f ∈ fields, f.1 = "type" ∨ f.1 = key := by
    intro f hf
    have := List.contains_iff_mem.mp (List.all_eq_true.mp hkeys f hf)
    simpa using this
  have hperm := perm_normalizeFields (perm_pair hnodup hmem hne htype hv)
  refine (normal_of_perm hnodup ?_ ?_).symm
  · apply separated_words hwords hnodup
    intro k hk
    obtain ⟨f, hf, rfl⟩ := List.mem_map.mp hk
    obtain h | h := hmem f hf
    · rw [h]
      decide
    · rw [h]
      exact hkey
  · rw [normalizeFields, normalizeFields, normalizeFields, hw]
    rw [normalizeFields, normalizeFields, normalizeFields] at hperm
    exact hperm

/-- What is read off an object keeps its form where what is read off its properties does. -/
theorem keeps_ofFields {fields : List (String × Json ν)} (hdistinct : (Json.obj fields).distinct = true)
    {e : OracleExpression ν}
    (hone : ∀ f ∈ fields, ∀ c, decode f.2 = some c → normalizeJson c.encode = normalizeJson f.2)
    (hmany : ∀ f ∈ fields, ∀ es, decodeChildren f.2 = some es →
      normalizeJson (.arr (encodeItems es)) = normalizeJson f.2)
    (h : ofFields (decodeFields fields) fields = some e) : normalizeJson e.encode = normalizeJson (.obj fields) := by
  have hchildren : ∀ type es, fields.lookup "type" = some (.str type) →
      childrenOf (decodeFields fields) fields = some es →
      normalizeJson (.obj [("type", .str type), ("children", .arr (encodeItems es))]) =
        normalizeJson (.obj fields) := by
    intro type es htype hes
    rw [childrenOf] at hes
    split at hes
    · rename_i hkeys
      obtain ⟨hbind, -⟩ := Option.filter_eq_some_iff.mp hes
      rw [lookup_decodeFields] at hbind
      obtain ⟨p, hp, hpes⟩ := Option.bind_eq_some_iff.mp hbind
      obtain ⟨v, hv, rfl⟩ := Option.map_eq_some_iff.mp hp
      exact normal_pair hwords hdistinct (by decide) (by decide) hkeys htype hv
        (hmany ("children", v) (mem_of_lookup hv) es hpes)
    · cases hes
  unfold ofFields at h
  split at h
  · obtain ⟨a, ha, rfl⟩ := Option.map_eq_some_iff.mp h
    exact (keeps_exitCode hwords hexact).normal hdistinct ha
  · obtain ⟨a, ha, rfl⟩ := Option.map_eq_some_iff.mp h
    exact (keeps_outputContains hwords).normal hdistinct ha
  · obtain ⟨a, ha, rfl⟩ := Option.map_eq_some_iff.mp h
    exact (keeps_outputRegex hwords).normal hdistinct ha
  · obtain ⟨a, ha, rfl⟩ := Option.map_eq_some_iff.mp h
    exact (keeps_jsonField hwords).normal hdistinct ha
  · rename_i htype
    obtain ⟨es, hes, rfl⟩ := Option.map_eq_some_iff.mp h
    exact hchildren "all" es htype hes
  · rename_i htype
    obtain ⟨es, hes, rfl⟩ := Option.map_eq_some_iff.mp h
    exact hchildren "any" es htype hes
  · rename_i htype
    obtain ⟨c, hc, rfl⟩ := Option.map_eq_some_iff.mp h
    rw [childOf] at hc
    split at hc
    · rename_i hkeys
      rw [lookup_decodeFields] at hc
      obtain ⟨p, hp, hpc⟩ := Option.bind_eq_some_iff.mp hc
      obtain ⟨v, hv, rfl⟩ := Option.map_eq_some_iff.mp hp
      exact normal_pair hwords hdistinct (by decide) (by decide) hkeys htype hv
        (hone ("child", v) (mem_of_lookup hv) c hpc)
    · cases hc
  · cases h

/-- Both what is read as an expression and what is read as a list of them keep their form. -/
theorem keeps_decode (v : Json ν) (hv : v.distinct = true) :
    (∀ e, decode v = some e → normalizeJson e.encode = normalizeJson v) ∧
      ∀ es, decodeChildren v = some es → normalizeJson (.arr (encodeItems es)) = normalizeJson v := by
  induction v using Json.induction with
  | null | bool _ | num _ | str _ => simp [decode, decodeChildren]
  | arr items ih =>
    refine ⟨by simp [decode], ?_⟩
    have hitems := Json.distinct_arr.mp hv
    intro es hes
    rw [decodeChildren] at hes
    rw [normalizeJson, normalizeJson, Json.arr.injEq]
    clear hv
    induction items generalizing es with
    | nil =>
      rw [decodeItems] at hes
      cases hes
      rfl
    | cons item rest ih' =>
      rw [decodeItems] at hes
      obtain ⟨e, he, htail⟩ := Option.bind_eq_some_iff.mp hes
      obtain ⟨tail, hrest, rfl⟩ := Option.map_eq_some_iff.mp htail
      rw [encodeItems, normalizeItems, normalizeItems,
        (ih item List.mem_cons_self (hitems item List.mem_cons_self)).1 e he,
        ih' (fun w hw => ih w (List.mem_cons_of_mem item hw)) (fun w hw => hitems w (List.mem_cons_of_mem item hw))
          tail hrest]
  | obj fields ih =>
    refine ⟨?_, by simp [decodeChildren]⟩
    have hfields := (Json.distinct_obj.mp hv).2
    intro e he
    rw [decode] at he
    exact keeps_ofFields hwords hexact hv (fun f hf => (ih f hf (hfields f hf)).1)
      (fun f hf => (ih f hf (hfields f hf)).2) he

end OracleExpression

theorem keeps_failureOracle : KeepsForm (failureOracleSchema (ν := ν)) :=
  .strictObject hwords
    (.equiv (.required (.string _)
      (.required ⟨fun hv h => (OracleExpression.keeps_decode hwords hexact _ hv).1 _ h⟩
        (.required (.integer hexact _) .nil (by decide)) (by decide)) (by decide)) _) (by decide) _

/-! ## The parts of a bundle -/

omit [RegExpEngine]

theorem keeps_runOutputCapture : KeepsForm (runOutputCaptureSchema (ν := ν)) :=
  .strictObject hwords
    (.equiv (.required (.integer hexact _) (.required (.string _) (.required .boolean .nil (by decide)) (by decide))
      (by decide)) _) (by decide) _

theorem keeps_runCapture : KeepsForm (runCaptureSchema (ν := ν)) :=
  .strictObject hwords
    (.equiv (.required (keeps_runOutputCapture hwords hexact)
      (.required (keeps_runOutputCapture hwords hexact) .nil (by decide)) (by decide)) _) (by decide) _

theorem keeps_runResult : KeepsForm (runResultSchema (ν := ν)) :=
  .strictObject hwords
    (.equiv (.optional (keeps_runCapture hwords hexact) (.required (.string _) (.required (.string _)
      (.required (.integer hexact _) (.required (.string _) (.required (.integer hexact _) (.required (.string _)
        (.required (.string _) .nil (by decide)) (by decide)) (by decide)) (by decide)) (by decide)) (by decide))
      (by decide)) (by decide)) _) (by decide) _

theorem keeps_hypothesis : KeepsForm (hypothesisSchema (ν := ν)) := by
  have hentry : KeepsForm (hypothesisStatusHistoryEntrySchema (ν := ν)) :=
    .strictObject hwords
      (.equiv (.required (.string _) (.required (.integer hexact _) (.required (.enumeration _) .nil (by decide))
        (by decide)) (by decide)) _) (by decide) _
  exact .refine (.strictObject hwords
    (.equiv (.required (.array (.string _) _) (.required (.string _) (.required (.string _) (.required (.string _)
      (.required (.integer hexact _) (.required (.string _) (.required (.enumeration _) (.required (.array hentry _) .nil
        (by decide)) (by decide)) (by decide)) (by decide)) (by decide)) (by decide)) (by decide)) (by decide)) _)
    (by decide) _) _

theorem keeps_verificationSummary : KeepsForm (verificationSummarySchema (ν := ν)) :=
  .strictObject hwords
    (.equiv (.required (.integer hexact _) (.required .boolean (.required (.string _) (.required (.integer hexact _)
      (.required (.string _) (.required (.number _) (.required (.integer hexact _) (.required (.enumeration _)
        (.required (.integer hexact _) .nil (by decide)) (by decide)) (by decide)) (by decide)) (by decide)) (by decide))
      (by decide)) (by decide)) (by decide)) _) (by decide) _

theorem keeps_minimizationResult : KeepsForm (minimizationResultSchema (ν := ν)) := by
  have hevaluation : KeepsForm (minimizationEvaluationSchema (ν := ν)) :=
    .strictObject hwords
      (.equiv (.required (.string _) (.required (.array (.string _) _)
        (.required (keeps_verificationSummary hwords hexact) .nil (by decide)) (by decide)) (by decide)) _)
      (by decide) _
  exact .refine (.strictObject hwords
    (.equiv (.required (.nullable (.string _) rfl) (.required (.array (.string _) _) (.required (.enumeration _)
      (.required (.array hevaluation _) .nil (by decide)) (by decide)) (by decide)) (by decide)) _) (by decide) _) _

theorem keeps_bundleLock : KeepsForm (bundleLockSchema (ν := ν)) :=
  .strictObject hwords
    (.equiv (.required (.string _) (.required (.string _) (.required (.record (.string _)) (.required (.string _)
      (.required (.string _) (.required (.integer hexact _) (.required (.string _) (.required (.string _)
        (.required (.string _) (.required (.string _) (.required (.string _) (.required (.string _)
          (.required (.string _) .nil (by decide)) (by decide)) (by decide)) (by decide)) (by decide)) (by decide))
        (by decide)) (by decide)) (by decide)) (by decide)) (by decide)) (by decide)) (by decide)) _) (by decide) _

variable [RegExpEngine]

theorem keeps_reproBundle : KeepsForm (reproBundleSchema (ν := ν)) :=
  .refine (.strictObject hwords
    (.equiv (.required (.string _) (.required (.string _) (.required (.string _)
      (.required (.array (keeps_hypothesis hwords hexact) _) (.required (keeps_bundleLock hwords hexact)
        (.required (keeps_minimizationResult hwords hexact) (.required (keeps_failureOracle hwords hexact)
          (.required (.string _) (.required (.array (keeps_runResult hwords hexact) _) (.required (.literal _)
            (.required (keeps_verificationSummary hwords hexact) .nil (by decide)) (by decide)) (by decide))
            (by decide)) (by decide)) (by decide)) (by decide)) (by decide)) (by decide)) (by decide)) (by decide)) _)
    (by decide) _) _

end bundles

/-! ## Creation before the schema -/

section creation

/-- The argument of `createBundle` as it stands: its properties in the order in
which the caller wrote them, of any shape. Its type has no hash and no version. -/
structure BundleProperties (ν : Type) where
  fields : List (String × Json ν)
  settled : (Json.obj fields).settled = true
  omitted : ∀ f ∈ fields, f.1 ≠ "bundleHash" ∧ f.1 ≠ "schemaVersion"

def BundleProperties.base (input : BundleProperties ν) : List (String × Json ν) :=
  input.fields ++ [("schemaVersion", .str "1.1")]

variable [DomainNumber ν] [RegExpEngine] [Sha256]

def BundleProperties.hashed (input : BundleProperties ν) : List (String × Json ν) :=
  input.base ++ [("bundleHash", .str (hashCanonical (.obj input.base)))]

/-- `createBundle`: what is hashed is the argument, and what is returned is what the schema makes of it. -/
def createBundleOf (input : BundleProperties ν) : Option (ReproBundle ν) := reproBundleSchema.decode (.obj input.hashed)

/-- The properties of a bundle but its hash. -/
def ReproBundle.unhashed (b : ReproBundle ν) : List (String × Json ν) :=
  match reproBundleSchema.encode b with
  | .obj fields => fields.filter (fun f => f.1 != "bundleHash")
  | _ => []

omit [LocaleCompare] [Sha256] in
theorem keys_unhashed (b : ReproBundle ν) : b.unhashed.map Prod.fst =
    ["caseId", "generatedAt", "hypothesisLedger", "lock", "minimization", "oracle", "reproductionPatch", "runLog",
      "schemaVersion", "summary"] := rfl

omit [LocaleCompare] [DomainNumber ν] [RegExpEngine] [Sha256] in
theorem BundleProperties.distinct_hashed (input : BundleProperties ν) (hash : Json ν) (h : hash.distinct = true) :
    (Json.obj (input.base ++ [("bundleHash", hash)])).distinct = true := by
  obtain ⟨hnodup, hfields⟩ := Json.distinct_obj.mp (settled_distinct input.settled)
  rw [Json.distinct_obj]
  constructor
  · have hfresh : "schemaVersion" ∉ input.fields.map Prod.fst ∧ "bundleHash" ∉ input.fields.map Prod.fst := by
      constructor
      · intro hmem
        obtain ⟨f, hf, hkey⟩ := List.mem_map.mp hmem
        exact (input.omitted f hf).2 hkey
      · intro hmem
        obtain ⟨f, hf, hkey⟩ := List.mem_map.mp hmem
        exact (input.omitted f hf).1 hkey
    rw [BundleProperties.base, List.append_assoc, List.map_append, List.nodup_append]
    refine ⟨hnodup, by simp, ?_⟩
    intro key hkey key' hkey'
    simp only [List.singleton_append, List.map_cons, List.map_nil, List.mem_cons, List.not_mem_nil, or_false] at hkey'
    rintro rfl
    obtain rfl | rfl := hkey'
    · exact hfresh.1 hkey
    · exact hfresh.2 hkey
  · intro f hf
    rw [BundleProperties.base, List.append_assoc] at hf
    obtain hold | hnew := List.mem_append.mp hf
    · exact hfields f hold
    · simp only [List.singleton_append, List.mem_cons, List.not_mem_nil, or_false] at hnew
      obtain rfl | rfl := hnew
      · rfl
      · exact h

omit [DomainNumber ν] [RegExpEngine] [Sha256] in
/-- Objects with one normal form have the same normalized properties. -/
theorem perm_of_normal {fs fs' : List (String × Json ν)} (h : normalizeJson (.obj fs) = normalizeJson (.obj fs')) :
    (normalizeFields fs).Perm (normalizeFields fs') := by
  rw [normalizeJson_obj, normalizeJson_obj, Json.obj.injEq] at h
  have hleft := (perm_fromEntries _).trans (List.perm_insertionSort keyLE (normalizeFields fs))
  have hright := (perm_fromEntries _).trans (List.perm_insertionSort keyLE (normalizeFields fs'))
  rw [h] at hleft
  exact hleft.symm.trans hright

omit [DomainNumber ν] [RegExpEngine] [Sha256] in
theorem filter_normalizeFields (p : String → Bool) (fs : List (String × Json ν)) :
    (normalizeFields fs).filter (fun f => p f.1) = normalizeFields (fs.filter (fun f => p f.1)) := by
  rw [normalizeFields_eq, normalizeFields_eq, List.filter_map]
  rfl

variable (hwords : SeparatesWords) (hexact : ∀ (n : ν) i, IntegerNumber.toInt n = some i → IntegerNumber.ofInt i = n)
include hwords hexact

/-- A created bundle carries the hash of its own properties. -/
theorem createBundleOf_hash {input : BundleProperties ν} {b : ReproBundle ν} (h : createBundleOf input = some b) :
    b.bundleHash = hashCanonical (.obj b.unhashed) := by
  obtain ⟨fields, hencode⟩ : ∃ fields, reproBundleSchema.encode b =
      .obj (("bundleHash", .str b.bundleHash) :: fields) := ⟨_, rfl⟩
  have hdistinct := input.distinct_hashed (.str (hashCanonical (.obj input.base))) rfl
  have hnormal := (keeps_reproBundle hwords hexact).normal hdistinct h
  rw [hencode] at hnormal
  have hperm := perm_of_normal hnormal
  have hhash : b.bundleHash = hashCanonical (.obj input.base) := by
    have hmem : ("bundleHash", normalizeJson (.str b.bundleHash)) ∈
        normalizeFields (("bundleHash", .str b.bundleHash) :: fields) := by
      rw [normalizeFields]
      exact List.mem_cons_self
    obtain ⟨v, hv, hsame⟩ := mem_normalizeFields.mp (hperm.mem_iff.mp hmem)
    have hlast : ("bundleHash", Json.str (hashCanonical (.obj input.base))) ∈ input.hashed :=
      List.mem_append_right _ (List.mem_singleton.mpr rfl)
    obtain rfl := value_unique (Json.distinct_obj.mp hdistinct).1 hv hlast
    rw [normalizeJson, normalizeJson, Json.str.injEq] at hsame
    exact hsame.symm
  have hunhashed : b.unhashed = fields.filter (fun f => f.1 != "bundleHash") := by
    rw [ReproBundle.unhashed, hencode]
    rfl
  have hbase : input.hashed.filter (fun f => f.1 != "bundleHash") = input.base := by
    have hkept : input.base.filter (fun f => f.1 != "bundleHash") = input.base := by
      rw [List.filter_eq_self]
      intro f hf
      obtain hold | hnew := List.mem_append.mp hf
      · exact bne_iff_ne.mpr (input.omitted f hold).1
      · rw [List.mem_singleton.mp hnew]
        rfl
    rw [BundleProperties.hashed, List.filter_append, hkept]
    exact List.append_nil _
  have hothers : (normalizeFields b.unhashed).Perm (normalizeFields input.base) := by
    have hfiltered := hperm.filter (fun f => f.1 != "bundleHash")
    have hcut : (("bundleHash", Json.str b.bundleHash) :: fields).filter (fun f => f.1 != "bundleHash") =
        fields.filter (fun f => f.1 != "bundleHash") := rfl
    rw [filter_normalizeFields (fun key => key != "bundleHash"),
      filter_normalizeFields (fun key => key != "bundleHash"), hcut, ← hunhashed] at hfiltered
    rwa [← BundleProperties.hashed, hbase] at hfiltered
  have hnodup : (b.unhashed.map Prod.fst).Nodup := by
    rw [keys_unhashed]
    decide
  have hletters : ∀ key ∈ b.unhashed.map Prod.fst, word key = true := by
    rw [keys_unhashed]
    decide
  rw [hhash]
  refine congrArg Sha256.hex (congrArg Json.stringify ?_)
  exact (normal_of_perm hnodup (separated_words hwords hnodup hletters) hothers).symm

/-- Every created bundle is written as files that pass and that hold it, under the hash of its properties. -/
theorem materialization_round_trip (input : BundleProperties ν) (b : ReproBundle ν) (h : createBundleOf input = some b) :
    ∃ files, materializeBundle b = some files ∧ validateMaterializedBundle ν files = [] ∧
      bundleContents ν files = b.contents ∧
      (files "reproforge.lock.json").bind (Json.parse (ν := ν)) =
        some (.obj (("bundleHash", .str b.bundleHash) :: ("schemaVersion", .str "1.1") ::
          bundleLockFields.encode b.lock)) ∧
      b.bundleHash = hashCanonical (.obj b.unhashed) := by
  have hvalid : reproBundleSchema.valid b = true := reproBundleSchema.valid_decode h
  refine ⟨filesOf (materialized b), if_pos hvalid, ?_, contents_materialized hvalid, ?_,
    createBundleOf_hash hwords hexact h⟩
  · rw [validate_iff]
    intro f
    exact ⟨materialized b f, filesOf_path _ f, check_materialized hvalid f⟩
  · have hfile : filesOf (materialized b) "reproforge.lock.json" =
        some (prettyText (ν := ν) lockFileSchema (b.bundleHash, b.lock)) := filesOf_path _ .lock
    rw [hfile, Option.bind_some, prettyText,
      Json.parse_stringifyWith twoSpaces_space (lockFileSchema.settled_encode (b.bundleHash, b.lock))]
    rfl

end creation

end ReproForge

/-! ## A bundle with its properties in another order -/

namespace ReproForge.Sample.RoundTrip

open JsonValues ReproForge.Sample.Bundle

/-- The summary comes first. -/
def sampleProperties : BundleProperties Int where
  fields := [("summary", verificationSummarySchema.encode sampleSummary), ("caseId", .str "case-1"),
    ("generatedAt", .str "2026-07-16T04:00:00.000Z"), ("hypothesisLedger", .arr []),
    ("lock", bundleLockSchema.encode sampleLock),
    ("minimization", minimizationResultSchema.encode sampleInput.minimization),
    ("oracle", failureOracleSchema.encode sampleInput.oracle), ("reproductionPatch", .str "line\n\"quoted\""),
    ("runLog", runLogSchema.encode [sampleRun "run-0" 0, sampleRun "run-1" 1])]
  settled := by decide +kernel
  omitted := by decide +kernel

theorem sampleProperties_created : (createBundleOf sampleProperties).isSome = true := by decide +kernel

theorem separatesWords : SeparatesWords := by
  intro a b _ _ h h'
  exact String.le_antisymm (of_decide_eq_true h) (of_decide_eq_true h')

theorem materialization_round_trip_sample : ∃ b, createBundleOf sampleProperties = some b ∧
    ∃ files, materializeBundle b = some files ∧ validateMaterializedBundle Int files = [] ∧
      bundleContents Int files = b.contents ∧
      (files "reproforge.lock.json").bind (Json.parse (ν := Int)) =
        some (.obj (("bundleHash", .str b.bundleHash) :: ("schemaVersion", .str "1.1") ::
          bundleLockFields.encode b.lock)) ∧
      b.bundleHash = hashCanonical (.obj b.unhashed) := by
  obtain ⟨b, hb⟩ := Option.isSome_iff_exists.mp sampleProperties_created
  exact ⟨b, hb, materialization_round_trip separatesWords (fun n i h => (Option.some.inj h).symm) sampleProperties b hb⟩

end ReproForge.Sample.RoundTrip
