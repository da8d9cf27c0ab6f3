import ReproForge.BundleValidation
import ReproForge.CanonicalForm

/-!
# The verdict of an oracle

How an expression is evaluated against a run, and what becomes of the verdict
when the objects in it and in the output of the run list their properties in
another order: a field is compared by its text, so that an order is observed.
-/
namespace ReproForge

open JsonValues

variable {ν : Type}

/-! ## A value under a path -/

/-- What a chain of property accesses ends with. -/
inductive Located (ν : Type) where
  | value (v : Json ν)
  | objectPrototype
  | arrayPrototype
  /-- `undefined` or a function. -/
  | absent

def Located.ofOption : Option (Json ν) → Located ν
  | some v => .value v
  | none => .absent

/-- What `JSON.stringify` takes it for. -/
def Located.json : Located ν → Option (Json ν)
  | .value v => some v
  | .objectPrototype => some (.obj [])
  | .arrayPrototype => some (.arr [])
  | .absent => none

section evaluation

variable [DomainNumber ν]

/-- `current[segment]`, where an object and an array inherit from their prototypes. -/
def Located.property : Located ν → String → Located ν
  | .value (.obj fields), segment =>
    match fields.lookup segment with
    | some v => .value v
    | none => if segment = "__proto__" then .objectPrototype else .absent
  | .value (.arr items), segment =>
    match arrayIndex segment with
    | some i => .ofOption items[i]?
    | none =>
      if segment = "length" then .value (.num (JsonNumber.ofInt items.length))
      else if segment = "__proto__" then .arrayPrototype
      else .absent
  | .arrayPrototype, segment =>
    if segment = "length" then .value (.num (JsonNumber.ofInt 0))
    else if segment = "__proto__" then .objectPrototype
    else .absent
  | .objectPrototype, segment => if segment = "__proto__" then .value .null else .absent
  | _, _ => .absent

def jsonAtPath (value : Json ν) (path : List String) : Located ν := path.foldl Located.property (.value value)

/-! ## Evaluation -/

structure OracleEvaluation where
  evidence : List String
  matched : Bool
  deriving DecidableEq, Repr

def streamValue (run : RunResult) : StreamName → String
  | .stdout => run.stdout
  | .stderr => run.stderr

/-- `JSON.stringify(actual) === JSON.stringify(equals)`, if the stream is JSON. -/
def fieldMatched (run : RunResult) (stream : StreamName) (path : List String) (equals : Option (JsonValue ν)) :
    Option Bool :=
  (Json.parse (ν := ν) (streamValue run stream)).map (fun parsed =>
    (jsonAtPath parsed path).json.map Json.stringify == equals.map (fun v => v.1.stringify))

def fieldEvaluation (run : RunResult) (stream : StreamName) (path : List String) (equals : Option (JsonValue ν)) :
    OracleEvaluation :=
  match fieldMatched run stream path equals with
  | some matched =>
    ⟨[stream.text ++ "." ++ ".".intercalate path ++ (if matched then " matched" else " did not match") ++
      " expected value"], matched⟩
  | none => ⟨[stream.text ++ " was not valid JSON"], false⟩

variable [RegExpEngine]

mutual

def evaluateExpression (run : RunResult) : OracleExpression ν → OracleEvaluation
  | .exitCode expected =>
    let matched := run.exitCode == expected
    ⟨["exit code " ++ toString run.exitCode ++ (if matched then " matched " else " did not match ") ++
      toString expected], matched⟩
  | .outputContains stream value =>
    let matched := occursIn value.toList (streamValue run stream).toList
    ⟨[stream.text ++ (if matched then " contained " else " did not contain ") ++ String.ofList (quote value)], matched⟩
  | .outputRegex stream pattern =>
    let matched := RegExpEngine.test pattern (streamValue run stream)
    ⟨[stream.text ++ (if matched then " matched /" else " did not match /") ++ pattern ++ "/"], matched⟩
  | .jsonField stream path equals => fieldEvaluation run stream path equals
  | .all children =>
    let evaluated := evaluateChildren run children
    ⟨evaluated.flatMap (·.evidence), evaluated.all (·.matched)⟩
  | .any children =>
    let evaluated := evaluateChildren run children
    ⟨evaluated.flatMap (·.evidence), evaluated.any (·.matched)⟩
  | .not child =>
    let evaluated := evaluateExpression run child
    ⟨evaluated.evidence.map (fun item => "not (" ++ item ++ ")"), !evaluated.matched⟩

def evaluateChildren (run : RunResult) : List (OracleExpression ν) → List OracleEvaluation
  | [] => []
  | child :: rest => evaluateExpression run child :: evaluateChildren run rest

end

/-- An oracle that its schema refuses is not evaluated. -/
def evaluateOracle (oracle : FailureOracle ν) (run : RunResult) : Option OracleEvaluation :=
  if (failureOracleSchema (ν := ν)).valid oracle then some (evaluateExpression run oracle.root) else none

/-! ## Values with one order -/

/-- At most one of the keys is no index. -/
def oneName (keys : List String) : Bool := (keys.filter (fun key => (arrayIndex key).isNone)).length ≤ 1

/-- The comparison that tells no keys apart. -/
@[reducible] def unordered : LocaleCompare where
  le _ _ := true
  trans _ _ _ _ _ := rfl
  total _ _ := rfl

omit [DomainNumber ν] [RegExpEngine] in
theorem normalizeJson_unordered {v : Json ν} (h : v.settled = true) : @normalizeJson ν unordered v = v := by
  let := unordered
  induction v using Json.induction with
  | null | bool _ | num _ | str _ => rfl
  | arr items ih =>
    rw [normalizeJson, normalizeItems_eq]
    congr 1
    exact (List.map_congr_left fun v hv => ih v hv (Json.settled_arr.mp h v hv)).trans (List.map_id items)
  | obj fields ih =>
    obtain ⟨hkeys, hfields⟩ := Json.settled_obj.mp h
    have hsame : normalizeFields fields = fields := by
      have hfixed : ∀ f ∈ fields, (f.1, normalizeJson f.2) = id f :=
        fun f hf => Prod.ext rfl (ih f hf (hfields f hf))
      rw [normalizeFields_eq, List.map_congr_left hfixed, List.map_id]
    have hsorted : fields.Pairwise keyLE := List.pairwise_of_forall (fun _ _ => rfl)
    rw [normalizeJson_obj, hsame, hsorted.insertionSort_eq, fromEntries_inOrder (keysInOrder_iff.mp hkeys).2]

omit [DomainNumber ν] [RegExpEngine] in
theorem separated_unordered (keys : List String) : @separated unordered keys = oneName keys := by
  unfold separated oneName
  generalize keys.filter (fun key => (arrayIndex key).isNone) = names
  obtain _ | ⟨a, _ | ⟨b, rest⟩⟩ := names
  · rfl
  · simp
  · have hlong : ¬((a :: b :: rest).length ≤ 1) := by simp
    rw [decide_eq_false hlong, decide_eq_false_iff_not]
    intro hpairs
    exact (List.pairwise_cons.mp hpairs).1 b List.mem_cons_self ⟨rfl, rfl⟩

omit [DomainNumber ν] [RegExpEngine] in
theorem everyObject_unordered {v : Json ν} :
    v.everyObject (@separated unordered) = true ↔ v.everyObject oneName = true :=
  ⟨v.everyObject_imp (fun keys h => separated_unordered keys ▸ h),
    v.everyObject_imp (fun keys h => (separated_unordered keys).symm ▸ h)⟩

omit [DomainNumber ν] [RegExpEngine] in
/-- A value has one order of properties exactly when no object in it has two names. -/
theorem only_order_iff (v : JsonValue ν) :
    (∀ w : JsonValue ν, v.1.Reordered w.1 → v = w) ↔ v.1.everyObject oneName = true := by
  let := unordered
  rw [← everyObject_unordered]
  constructor
  · intro h
    refine separated_of_determined v.1 v.2 ?_
    intro w hw hvw
    rw [h ⟨w, hw⟩ hvw]
  · intro h w hvw
    have hnormal := normal_of_reordered hvw (settled_distinct v.2) (settled_distinct w.2) h
    rw [normalizeJson_unordered v.2, normalizeJson_unordered w.2] at hnormal
    exact Subtype.ext hnormal

/-! ## Paths through reordered values -/

/-- The same place, but for the order of the properties in its value. -/
inductive Located.Reordered : Located ν → Located ν → Prop
  | value {v w : Json ν} : v.settled = true → w.settled = true → v.Reordered w → Reordered (.value v) (.value w)
  | objectPrototype : Reordered .objectPrototype .objectPrototype
  | arrayPrototype : Reordered .arrayPrototype .arrayPrototype
  | absent : Reordered .absent .absent

omit [DomainNumber ν] [RegExpEngine] in
theorem lookup_eq_some {fields : List (String × Json ν)} (h : (fields.map Prod.fst).Nodup) {key : String} {v : Json ν} :
    fields.lookup key = some v ↔ (key, v) ∈ fields := by
  refine ⟨mem_of_lookup, fun hmem => ?_⟩
  cases hlookup : fields.lookup key with
  | none =>
    rw [List.lookup_eq_none_iff] at hlookup
    exact absurd (hlookup (key, v) hmem) (by simp)
  | some w => rw [value_unique h (mem_of_lookup hlookup) hmem]

omit [RegExpEngine] in
theorem Located.Reordered.property {l l' : Located ν} (h : l.Reordered l') (segment : String) :
    (l.property segment).Reordered (l'.property segment) := by
  have hnum : ∀ n : ν, (Located.value (.num n)).Reordered (.value (.num n)) := fun n => .value rfl rfl (.num n)
  cases h with
  | objectPrototype =>
    rw [Located.property]
    split
    · exact .value rfl rfl .null
    · exact .absent
  | arrayPrototype =>
    rw [Located.property]
    split
    · exact hnum _
    · split
      · exact .objectPrototype
      · exact .absent
  | absent => exact .absent
  | value hv hw hvw =>
    cases hvw with
    | null | bool _ | num _ | str _ => exact .absent
    | @arr items items' hlength hitems =>
      rw [Located.property, Located.property, hlength]
      cases hindex : arrayIndex segment with
      | some i =>
        dsimp only
        by_cases hi : i < items.length
        · have hi' : i < items'.length := hlength ▸ hi
          have hmem : (items[i], items'[i]) ∈ items.zip items' :=
            List.mem_iff_getElem.mpr ⟨i, by rw [List.length_zip]; omega, List.getElem_zip⟩
          rw [List.getElem?_eq_getElem hi, List.getElem?_eq_getElem hi']
          exact .value (Json.settled_arr.mp hv _ (List.getElem_mem hi))
            (Json.settled_arr.mp hw _ (List.getElem_mem hi')) (hitems _ hmem)
        · rw [List.getElem?_eq_none (by omega), List.getElem?_eq_none (by omega)]
          exact .absent
      | none =>
        dsimp only
        split
        · exact hnum _
        · split
          · exact .arrayPrototype
          · exact .absent
    | @obj fields fields' hkeys hfields =>
      have hnodup := keysInOrder_nodup (Json.settled_obj.mp hv).1
      have hnodup' := keysInOrder_nodup (Json.settled_obj.mp hw).1
      rw [Located.property, Located.property]
      cases hlookup : fields.lookup segment with
      | some v =>
        have hmem := (lookup_eq_some hnodup).mp hlookup
        obtain ⟨⟨key, v'⟩, hmem', rfl⟩ := List.mem_map.mp (hkeys.mem_iff.mp (List.mem_map_of_mem (f := Prod.fst) hmem))
        rw [(lookup_eq_some hnodup').mpr hmem']
        exact .value ((Json.settled_obj.mp hv).2 _ hmem) ((Json.settled_obj.mp hw).2 _ hmem') (hfields _ v v' hmem hmem')
      | none =>
        have hnone : fields'.lookup segment = none := by
          cases hlookup' : fields'.lookup segment with
          | none => rfl
          | some v' =>
            have hmem' := (lookup_eq_some hnodup').mp hlookup'
            obtain ⟨⟨key, v⟩, hmem, rfl⟩ :=
              List.mem_map.mp (hkeys.mem_iff.mpr (List.mem_map_of_mem (f := Prod.fst) hmem'))
            rw [(lookup_eq_some hnodup).mpr hmem] at hlookup
            cases hlookup
        rw [hnone]
        dsimp only
        split
        · exact .objectPrototype
        · exact .absent

omit [RegExpEngine] in
theorem jsonAtPath_reordered {v w : Json ν} (hv : v.settled = true) (hw : w.settled = true) (h : v.Reordered w)
    (path : List String) : (jsonAtPath v path).Reordered (jsonAtPath w path) := by
  have hfold : ∀ l l' : Located ν, l.Reordered l' →
      (path.foldl Located.property l).Reordered (path.foldl Located.property l') := by
    induction path with
    | nil => exact fun _ _ hl => hl
    | cons segment rest ih => exact fun l l' hl => ih _ _ (hl.property segment)
  exact hfold _ _ (.value hv hw h)

/-! ## Reordered oracles and runs -/

variable (ν) in
omit [RegExpEngine] in
/-- One text, or two texts of one JSON value. -/
def SameStream (text text' : String) : Prop :=
  text = text' ∨ ∃ v w : Json ν, Json.parse text = some v ∧ Json.parse text' = some w ∧ v.Reordered w

variable (ν) in
structure RunResult.Rearranged (run run' : RunResult) : Prop where
  stdout : SameStream ν run.stdout run'.stdout
  stderr : SameStream ν run.stderr run'.stderr
  rest : run' = { run with stdout := run'.stdout, stderr := run'.stderr }

omit [DomainNumber ν] [RegExpEngine] in
inductive EqualsReordered : Option (JsonValue ν) → Option (JsonValue ν) → Prop
  | missing : EqualsReordered none none
  | value {v w : JsonValue ν} : v.1.Reordered w.1 → EqualsReordered (some v) (some w)

omit [RegExpEngine] in
theorem RunResult.Rearranged.refl (run : RunResult) : run.Rearranged ν run := ⟨.inl rfl, .inl rfl, rfl⟩

omit [RegExpEngine] in
theorem RunResult.Rearranged.streamValue {run run' : RunResult} (h : run.Rearranged ν run') (stream : StreamName) :
    SameStream ν (streamValue run stream) (streamValue run' stream) := by
  cases stream with
  | stdout => exact h.stdout
  | stderr => exact h.stderr

omit [DomainNumber ν] [RegExpEngine] in
theorem EqualsReordered.refl (equals : Option (JsonValue ν)) : EqualsReordered equals equals := by
  cases equals with
  | none => exact .missing
  | some v => exact .value (.refl v.1 (settled_distinct v.2))

/-- A `json_field` expression. -/
structure FieldLeaf (ν : Type) where
  stream : StreamName
  path : List String
  equals : Option (JsonValue ν)

def fieldVerdict (run : RunResult) (leaf : FieldLeaf ν) : Bool :=
  (fieldEvaluation run leaf.stream leaf.path leaf.equals).matched

omit [RegExpEngine] in
theorem fieldVerdict_eq (run : RunResult) (leaf : FieldLeaf ν) :
    fieldVerdict run leaf = (fieldMatched run leaf.stream leaf.path leaf.equals).getD false := by
  rw [fieldVerdict, fieldEvaluation]
  cases fieldMatched run leaf.stream leaf.path leaf.equals <;> rfl

omit [RegExpEngine] in
theorem texts_eq_iff (l : Located ν) (equals : Option (JsonValue ν)) :
    (l.json.map Json.stringify == equals.map (fun v => v.1.stringify)) = true ↔ l.json = equals.map Subtype.val := by
  rw [beq_iff_eq]
  have htexts : equals.map (fun v => v.1.stringify) = (equals.map Subtype.val).map Json.stringify := by
    rw [Option.map_map]
    rfl
  rw [htexts]
  exact ⟨fun h => Option.map_injective (fun _ _ => Json.stringify_inj) h, fun h => by rw [h]⟩

/-- What is found has the expected content only where this has one order. -/
def Insensitive (run : RunResult) (leaf : FieldLeaf ν) : Prop :=
  ∀ parsed, Json.parse (streamValue run leaf.stream) = some parsed →
    ∀ actual, (jsonAtPath parsed leaf.path).json = some actual → ∀ expected, leaf.equals = some expected →
      actual.Reordered expected.1 → expected.1.everyObject oneName = true

omit [DomainNumber ν] [RegExpEngine] in
theorem Located.Reordered.json {l l' : Located ν} (h : l.Reordered l') :
    l.json = none ∧ l'.json = none ∨
      ∃ a a' : JsonValue ν, l.json = some a.1 ∧ l'.json = some a'.1 ∧ a.1.Reordered a'.1 := by
  cases h with
  | value hv hw hvw => exact .inr ⟨⟨_, hv⟩, ⟨_, hw⟩, rfl, rfl, hvw⟩
  | objectPrototype =>
    have hsettled : (Json.obj ([] : List (String × Json ν))).settled = true := rfl
    exact .inr ⟨⟨_, hsettled⟩, ⟨_, hsettled⟩, rfl, rfl, .refl _ (settled_distinct hsettled)⟩
  | arrayPrototype => exact .inr ⟨⟨.arr [], rfl⟩, ⟨.arr [], rfl⟩, rfl, rfl, .refl _ rfl⟩
  | absent => exact .inl ⟨rfl, rfl⟩

omit [DomainNumber ν] [RegExpEngine] in
theorem located_congr {l l' : Located ν} (h : l.Reordered l') {equals equals' : Option (JsonValue ν)}
    (he : EqualsReordered equals equals')
    (hinsensitive : ∀ actual, l.json = some actual → ∀ expected, equals = some expected →
      actual.Reordered expected.1 → expected.1.everyObject oneName = true) :
    l'.json = equals'.map Subtype.val ↔ l.json = equals.map Subtype.val := by
  obtain ⟨hnone, hnone'⟩ | ⟨a, a', ha, ha', haa⟩ := h.json
  · rw [hnone, hnone']
    cases he <;> simp
  · rw [ha, ha']
    cases he with
    | missing => simp
    | @value v w hvw =>
      rw [Option.map_some, Option.map_some, Option.some_inj, Option.some_inj]
      by_cases hav : a.1.Reordered v.1
      · have honly := (only_order_iff v).mpr (hinsensitive a.1 ha v rfl hav)
        rw [← honly a hav.symm, ← honly a' (hav.symm.trans haa), ← honly w hvw]
      · constructor
        · intro heq
          exact absurd (haa.trans (heq ▸ hvw.symm)) hav
        · intro heq
          exact absurd (heq ▸ .refl a.1 (settled_distinct a.2)) hav

omit [RegExpEngine] in
/-- A field keeps its verdict in an insensitive run. -/
theorem Insensitive.fieldVerdict {run run' : RunResult} {leaf : FieldLeaf ν} (h : Insensitive run leaf)
    (hrun : run.Rearranged ν run') {equals' : Option (JsonValue ν)} (he : EqualsReordered leaf.equals equals') :
    fieldVerdict run' { leaf with equals := equals' } = fieldVerdict run leaf := by
  rw [fieldVerdict_eq, fieldVerdict_eq, fieldMatched, fieldMatched]
  have hcongr : ∀ {v w : Json ν}, Json.parse (streamValue run leaf.stream) = some v →
      Json.parse (streamValue run' leaf.stream) = some w → v.Reordered w →
      (((jsonAtPath w leaf.path).json.map Json.stringify == equals'.map (fun v => v.1.stringify)) = true ↔
        ((jsonAtPath v leaf.path).json.map Json.stringify == leaf.equals.map (fun v => v.1.stringify)) = true) := by
    intro v w hv hw hvw
    rw [texts_eq_iff, texts_eq_iff]
    exact located_congr (jsonAtPath_reordered (Json.settled_of_parse hv) (Json.settled_of_parse hw) hvw leaf.path) he
      (h v hv)
  obtain hsame | ⟨v, w, hv, hw, hvw⟩ := hrun.streamValue leaf.stream
  · cases hv : Json.parse (ν := ν) (streamValue run leaf.stream) with
    | none => rw [← hsame, hv, Option.map_none, Option.map_none]
    | some v =>
      have hw := hv
      rw [hsame] at hw
      rw [hw, Option.map_some, Option.map_some, Option.getD_some, Option.getD_some, Bool.eq_iff_iff]
      exact hcongr hv hw (.refl v (settled_distinct (Json.settled_of_parse hv)))
  · rw [hv, hw, Option.map_some, Option.map_some, Option.getD_some, Option.getD_some, Bool.eq_iff_iff]
    exact hcongr hv hw hvw

omit [RegExpEngine] in
/-- A field that keeps its verdict under every order of its expected value. -/
theorem insensitive_of_verdicts {run : RunResult} {leaf : FieldLeaf ν}
    (h : ∀ equals', EqualsReordered leaf.equals equals' →
      fieldVerdict run { leaf with equals := equals' } = fieldVerdict run leaf) : Insensitive run leaf := by
  intro parsed hparsed actual hactual expected hexpected hreordered
  have hverdict : ∀ equals', fieldVerdict run { leaf with equals := equals' } = true ↔
      some actual = equals'.map Subtype.val := by
    intro equals'
    rw [fieldVerdict_eq, fieldMatched, hparsed, Option.map_some, Option.getD_some, texts_eq_iff, hactual]
  have hsettled : actual.settled = true := by
    have hself := jsonAtPath_reordered (Json.settled_of_parse hparsed) (Json.settled_of_parse hparsed)
      (.refl parsed (settled_distinct (Json.settled_of_parse hparsed))) leaf.path
    obtain ⟨hnone, -⟩ | ⟨a, -, ha, -, -⟩ := hself.json
    · rw [hactual] at hnone
      cases hnone
    · rw [hactual] at ha
      exact Option.some.inj ha ▸ a.2
  have hsame : ∀ w : JsonValue ν, expected.1.Reordered w.1 → (actual = w.1 ↔ actual = expected.1) := by
    intro w hw
    have hkept := h (some w) (hexpected ▸ .value hw)
    have hleaf : leaf = { leaf with equals := some expected } := by rw [← hexpected]
    rw [hleaf, Bool.eq_iff_iff, hverdict, hverdict, Option.map_some, Option.map_some, Option.some_inj,
      Option.some_inj] at hkept
    exact hkept
  have hequal : actual = expected.1 := (hsame ⟨actual, hsettled⟩ hreordered.symm).mp rfl
  rw [← only_order_iff]
  intro w hw
  exact Subtype.ext (hequal.symm.trans ((hsame w hw).mpr hequal))

/-! ## Trees of expressions -/

namespace OracleExpression

omit [DomainNumber ν] [RegExpEngine] in
@[elab_as_elim]
theorem induction {p : OracleExpression ν → Prop} (exitCode : ∀ expected, p (.exitCode expected))
    (outputContains : ∀ stream value, p (.outputContains stream value))
    (outputRegex : ∀ stream pattern, p (.outputRegex stream pattern))
    (jsonField : ∀ stream path equals, p (.jsonField stream path equals))
    (all : ∀ children, (∀ c ∈ children, p c) → p (.all children))
    (any : ∀ children, (∀ c ∈ children, p c) → p (.any children)) (not : ∀ child, p child → p (.not child))
    (e : OracleExpression ν) : p e := by
  refine OracleExpression.rec (motive_1 := p) (motive_2 := fun children => ∀ c ∈ children, p c) exitCode
    outputContains outputRegex jsonField all any not ?_ ?_ e
  · simp
  · exact fun _ _ hc hrest => List.forall_mem_cons.mpr ⟨hc, hrest⟩

/-- The same tree, but for the order of the properties in the values that fields expect. -/
inductive Reordered : OracleExpression ν → OracleExpression ν → Prop
  | exitCode (expected : Int) : Reordered (.exitCode expected) (.exitCode expected)
  | outputContains (stream : StreamName) (value : String) :
      Reordered (.outputContains stream value) (.outputContains stream value)
  | outputRegex (stream : StreamName) (pattern : String) :
      Reordered (.outputRegex stream pattern) (.outputRegex stream pattern)
  | jsonField (stream : StreamName) (path : List String) {equals equals' : Option (JsonValue ν)} :
      EqualsReordered equals equals' → Reordered (.jsonField stream path equals) (.jsonField stream path equals')
  | all {children children' : List (OracleExpression ν)} : children.length = children'.length →
      (∀ p ∈ children.zip children', Reordered p.1 p.2) → Reordered (.all children) (.all children')
  | any {children children' : List (OracleExpression ν)} : children.length = children'.length →
      (∀ p ∈ children.zip children', Reordered p.1 p.2) → Reordered (.any children) (.any children')
  | not {child child' : OracleExpression ν} : Reordered child child' → Reordered (.not child) (.not child')

mutual

def fields : OracleExpression ν → List (FieldLeaf ν)
  | .exitCode _ | .outputContains _ _ | .outputRegex _ _ => []
  | .jsonField stream path equals => [⟨stream, path, equals⟩]
  | .all children | .any children => childrenFields children
  | .not child => child.fields

def childrenFields : List (OracleExpression ν) → List (FieldLeaf ν)
  | [] => []
  | child :: rest => child.fields ++ childrenFields rest

end

mutual

/-- Nothing in it looks at the output as a text. -/
def structural : OracleExpression ν → Bool
  | .exitCode _ | .jsonField _ _ _ => true
  | .outputContains _ _ | .outputRegex _ _ => false
  | .all children | .any children => structuralChildren children
  | .not child => child.structural

def structuralChildren : List (OracleExpression ν) → Bool
  | [] => true
  | child :: rest => child.structural && structuralChildren rest

end

omit [DomainNumber ν] [RegExpEngine] in
theorem childrenFields_eq (children : List (OracleExpression ν)) :
    childrenFields children = children.flatMap fields := by
  induction children with
  | nil => rfl
  | cons child rest ih => rw [childrenFields, ih, List.flatMap_cons]

omit [DomainNumber ν] [RegExpEngine] in
theorem structuralChildren_eq (children : List (OracleExpression ν)) :
    structuralChildren children = children.all structural := by
  induction children with
  | nil => rfl
  | cons child rest ih => rw [structuralChildren, ih, List.all_cons]

theorem validItems_eq (children : List (OracleExpression ν)) : validItems children = children.all valid := by
  induction children with
  | nil => rfl
  | cons child rest ih => rw [validItems, ih, List.all_cons]

theorem evaluateChildren_eq (run : RunResult) (children : List (OracleExpression ν)) :
    evaluateChildren run children = children.map (evaluateExpression run) := by
  induction children with
  | nil => rw [evaluateChildren, List.map_nil]
  | cons child rest ih => rw [evaluateChildren, ih, List.map_cons]

omit [DomainNumber ν] [RegExpEngine] in
theorem Reordered.refl (e : OracleExpression ν) : e.Reordered e := by
  have hzip : ∀ {children : List (OracleExpression ν)}, (∀ c ∈ children, c.Reordered c) →
      ∀ p ∈ children.zip children, p.1.Reordered p.2 := by
    intro children h p hp
    obtain ⟨i, hi, rfl⟩ := List.mem_iff_getElem.mp hp
    rw [List.getElem_zip]
    exact h _ (List.getElem_mem _)
  induction e using OracleExpression.induction with
  | exitCode expected => exact .exitCode expected
  | outputContains stream value => exact .outputContains stream value
  | outputRegex stream pattern => exact .outputRegex stream pattern
  | jsonField stream path equals => exact .jsonField stream path (.refl equals)
  | all children ih => exact .all rfl (hzip ih)
  | any children ih => exact .any rfl (hzip ih)
  | not child ih => exact .not ih

end OracleExpression

def fieldVerdicts (run : RunResult) (e : OracleExpression ν) : List Bool := e.fields.map (fieldVerdict run)

omit [RegExpEngine] in
theorem fieldVerdicts_children (run : RunResult) (children : List (OracleExpression ν)) :
    (OracleExpression.childrenFields children).map (fieldVerdict run) = children.flatMap (fieldVerdicts run) := by
  rw [OracleExpression.childrenFields_eq, List.map_flatMap]
  rfl

omit [DomainNumber ν] [RegExpEngine] in
theorem map_congr_zip {α β : Type} {f g : α → β} {items items' : List α} (hlength : items.length = items'.length)
    (h : ∀ p ∈ items.zip items', f p.1 = g p.2) : items.map f = items'.map g := by
  apply List.ext_getElem (by rw [List.length_map, List.length_map, hlength])
  intro i hi hi'
  rw [List.length_map] at hi hi'
  rw [List.getElem_map, List.getElem_map]
  exact h (items[i], items'[i]) (List.mem_iff_getElem.mpr ⟨i, by rw [List.length_zip]; omega, List.getElem_zip⟩)

omit [DomainNumber ν] [RegExpEngine] in
theorem all_congr_zip {α : Type} {f g : α → Bool} {items items' : List α} (hlength : items.length = items'.length)
    (h : ∀ p ∈ items.zip items', f p.1 = g p.2) : items.all f = items'.all g := by
  have hall : ∀ (f : α → Bool) (items : List α), items.all f = (items.map f).all id := by
    intro f items
    rw [List.all_map]
    rfl
  rw [hall f, hall g, map_congr_zip hlength h]

omit [DomainNumber ν] [RegExpEngine] in
theorem any_congr_zip {α : Type} {f g : α → Bool} {items items' : List α} (hlength : items.length = items'.length)
    (h : ∀ p ∈ items.zip items', f p.1 = g p.2) : items.any f = items'.any g := by
  have hany : ∀ (f : α → Bool) (items : List α), items.any f = (items.map f).any id := by
    intro f items
    rw [List.any_map]
    rfl
  rw [hany f, hany g, map_congr_zip hlength h]

/-- A schema does not look at the expected values. -/
theorem OracleExpression.Reordered.valid {e e' : OracleExpression ν} (h : e.Reordered e') : e.valid = e'.valid := by
  have hall : ∀ {children children' : List (OracleExpression ν)}, children.length = children'.length →
      (∀ p ∈ children.zip children', p.1.valid = p.2.valid) →
      (!children.isEmpty && validItems children) = (!children'.isEmpty && validItems children') := by
    intro children children' hlength hvalid
    have hempty : children.isEmpty = children'.isEmpty := by
      rw [Bool.eq_iff_iff, List.isEmpty_iff_length_eq_zero, List.isEmpty_iff_length_eq_zero, hlength]
    rw [hempty, validItems_eq, validItems_eq, all_congr_zip hlength hvalid]
  induction h with
  | exitCode _ | outputContains _ _ | outputRegex _ _ => rfl
  | jsonField stream path he => cases he <;> rfl
  | all hlength _ ih => exact hall hlength ih
  | any hlength _ ih => exact hall hlength ih
  | not _ ih => exact ih

omit [RegExpEngine] in
/-- The fields of a child are fields of its list. -/
theorem insensitive_child {run : RunResult} {children : List (OracleExpression ν)}
    (h : ∀ leaf ∈ OracleExpression.childrenFields children, Insensitive run leaf) {c : OracleExpression ν}
    (hc : c ∈ children) : ∀ leaf ∈ c.fields, Insensitive run leaf := by
  rw [OracleExpression.childrenFields_eq] at h
  exact fun leaf hleaf => h leaf (List.mem_flatMap.mpr ⟨c, hc, hleaf⟩)

omit [RegExpEngine] in
theorem childrenVerdicts_zip {run run' : RunResult} {children children' : List (OracleExpression ν)}
    (hlength : children.length = children'.length)
    (h : ∀ p ∈ children.zip children', fieldVerdicts run' p.2 = fieldVerdicts run p.1) :
    (OracleExpression.childrenFields children').map (fieldVerdict run') =
      (OracleExpression.childrenFields children).map (fieldVerdict run) := by
  rw [fieldVerdicts_children, fieldVerdicts_children, List.flatMap_def, List.flatMap_def,
    map_congr_zip hlength fun p hp => (h p hp).symm]

/-- Insensitive fields keep their verdicts, and with them every expression that is built from them. -/
theorem OracleExpression.Reordered.kept {e e' : OracleExpression ν} {run run' : RunResult} (h : e.Reordered e')
    (hrun : run.Rearranged ν run') (hinsensitive : ∀ leaf ∈ e.fields, Insensitive run leaf) :
    fieldVerdicts run' e' = fieldVerdicts run e ∧
      (e.structural = true → (evaluateExpression run' e').matched = (evaluateExpression run e).matched) := by
  induction h with
  | exitCode expected =>
    refine ⟨rfl, fun _ => ?_⟩
    rw [evaluateExpression, evaluateExpression, hrun.rest]
  | outputContains stream value => exact ⟨rfl, fun hstructural => by cases hstructural⟩
  | outputRegex stream pattern => exact ⟨rfl, fun hstructural => by cases hstructural⟩
  | @jsonField stream path equals equals' he =>
    have hleaf : (⟨stream, path, equals⟩ : FieldLeaf ν) ∈ (OracleExpression.jsonField stream path equals).fields :=
      List.mem_singleton.mpr rfl
    have hverdict := (hinsensitive _ hleaf).fieldVerdict hrun he
    exact ⟨congrArg (fun verdict => [verdict]) hverdict, fun _ => hverdict⟩
  | @all children children' hlength _ ih =>
    have hchild : ∀ p ∈ children.zip children', fieldVerdicts run' p.2 = fieldVerdicts run p.1 ∧
        (p.1.structural = true → (evaluateExpression run' p.2).matched = (evaluateExpression run p.1).matched) :=
      fun p hp => ih p hp (insensitive_child hinsensitive (List.of_mem_zip hp).1)
    refine ⟨childrenVerdicts_zip hlength fun p hp => (hchild p hp).1, fun hstructural => ?_⟩
    rw [structural, structuralChildren_eq, List.all_eq_true] at hstructural
    rw [evaluateExpression, evaluateExpression, evaluateChildren_eq, evaluateChildren_eq, List.all_map, List.all_map]
    refine (all_congr_zip hlength fun p hp => ?_).symm
    exact ((hchild p hp).2 (hstructural p.1 (List.of_mem_zip hp).1)).symm
  | @any children children' hlength _ ih =>
    have hchild : ∀ p ∈ children.zip children', fieldVerdicts run' p.2 = fieldVerdicts run p.1 ∧
        (p.1.structural = true → (evaluateExpression run' p.2).matched = (evaluateExpression run p.1).matched) :=
      fun p hp => ih p hp (insensitive_child hinsensitive (List.of_mem_zip hp).1)
    refine ⟨childrenVerdicts_zip hlength fun p hp => (hchild p hp).1, fun hstructural => ?_⟩
    rw [structural, structuralChildren_eq, List.all_eq_true] at hstructural
    rw [evaluateExpression, evaluateExpression, evaluateChildren_eq, evaluateChildren_eq, List.any_map, List.any_map]
    refine (any_congr_zip hlength fun p hp => ?_).symm
    exact ((hchild p hp).2 (hstructural p.1 (List.of_mem_zip hp).1)).symm
  | not _ ih =>
    obtain ⟨hverdicts, hmatched⟩ := ih hinsensitive
    refine ⟨hverdicts, fun hstructural => ?_⟩
    rw [evaluateExpression, evaluateExpression]
    exact congrArg Bool.not (hmatched hstructural)

omit [RegExpEngine] in
/-- Fields that keep their verdicts in the tree keep them alone. -/
theorem insensitive_of_tree {run : RunResult} (e : OracleExpression ν)
    (h : ∀ e', e.Reordered e' → fieldVerdicts run e' = fieldVerdicts run e) :
    ∀ leaf ∈ e.fields, Insensitive run leaf := by
  have hone : ∀ {before after : List (OracleExpression ν)} {c c' : OracleExpression ν}, c.Reordered c' →
      ∀ p ∈ (before ++ c :: after).zip (before ++ c' :: after), p.1.Reordered p.2 := by
    intro before after c c' hc p hp
    have hself : ∀ {children : List (OracleExpression ν)}, ∀ p ∈ children.zip children, p.1.Reordered p.2 := by
      intro children p hp
      obtain ⟨i, hi, rfl⟩ := List.mem_iff_getElem.mp hp
      rw [List.getElem_zip]
      exact .refl _
    rw [List.zip_append rfl, List.zip_cons_cons, List.mem_append, List.mem_cons] at hp
    obtain hp | rfl | hp := hp
    · exact hself p hp
    · exact hc
    · exact hself p hp
  have hchild : ∀ {children : List (OracleExpression ν)},
      (∀ children', children.length = children'.length → (∀ p ∈ children.zip children', p.1.Reordered p.2) →
        (OracleExpression.childrenFields children').map (fieldVerdict run) =
          (OracleExpression.childrenFields children).map (fieldVerdict run)) →
      ∀ c ∈ children, ∀ c', c.Reordered c' → fieldVerdicts run c' = fieldVerdicts run c := by
    intro children hchildren c hc c' hreordered
    obtain ⟨before, after, rfl⟩ := List.append_of_mem hc
    have hsame := hchildren (before ++ c' :: after) (by simp) (hone hreordered)
    rw [fieldVerdicts_children, fieldVerdicts_children, List.flatMap_append, List.flatMap_append, List.append_cancel_left_eq, List.flatMap_cons, List.flatMap_cons,
      List.append_cancel_right_eq] at hsame
    exact hsame
  induction e using OracleExpression.induction with
  | exitCode _ | outputContains _ _ | outputRegex _ _ =>
    intro leaf hleaf
    cases hleaf
  | jsonField stream path equals =>
    intro leaf hleaf
    obtain rfl := List.mem_singleton.mp hleaf
    refine insensitive_of_verdicts fun equals' he => ?_
    exact (List.cons.inj (h _ (.jsonField stream path he))).1
  | all children ih =>
    intro leaf hleaf
    rw [OracleExpression.fields, OracleExpression.childrenFields_eq, List.mem_flatMap] at hleaf
    obtain ⟨c, hc, hleaf⟩ := hleaf
    exact ih c hc (hchild (fun children' hlength hzip => h _ (.all hlength hzip)) c hc) leaf hleaf
  | any children ih =>
    intro leaf hleaf
    rw [OracleExpression.fields, OracleExpression.childrenFields_eq, List.mem_flatMap] at hleaf
    obtain ⟨c, hc, hleaf⟩ := hleaf
    exact ih c hc (hchild (fun children' hlength hzip => h _ (.any hlength hzip)) c hc) leaf hleaf
  | not child ih => exact ih fun e' he => h (.not e') (.not he)

def verdict (oracle : FailureOracle ν) (run : RunResult) : Option Bool := (evaluateOracle oracle run).map (·.matched)

end evaluation

end ReproForge

/-! ## A field that finds its value in another order -/

namespace ReproForge.Sample.Verdict

open JsonValues ReproForge.Sample.Bundle

def expectedFirst : JsonValue Int := ⟨.obj [("code", .num 7), ("name", .str "E")], by decide +kernel⟩

def expectedSecond : JsonValue Int := ⟨.obj [("name", .str "E"), ("code", .num 7)], by decide +kernel⟩

def errorOracle (expected : JsonValue Int) : FailureOracle Int :=
  ⟨"oracle-1", .jsonField .stdout ["error"] (some expected), 1⟩

def errorRun : RunResult where
  capture := none
  id := "candidate-1"
  command := "npm run test"
  durationMs := 5
  environmentHash := "environment-1"
  exitCode := 1
  stderr := ""
  stdout := "\x7b\"error\":\x7b\"code\":7,\"name\":\"E\"\x7d\x7d"

theorem errorOracle_verdicts :
    verdict (errorOracle expectedFirst) errorRun = some true ∧
      verdict (errorOracle expectedSecond) errorRun = some false := by
  constructor <;> decide +kernel

end ReproForge.Sample.Verdict
