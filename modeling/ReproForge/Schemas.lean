import ReproForge.JsonReader
import Mathlib.Logic.Equiv.Defs

/-!
# Schemas

A schema of a type says how a value of it is written as JSON, which values it
admits, and which value it reads off a piece of JSON. What it admits it reads
back from what it wrote.
-/
namespace JsonValues

variable {ν α β : Type}

/-- The integers that numbers stand for. -/
class IntegerNumber (ν : Type) extends NumberReader ν where
  ofInt : Int → ν
  toInt : ν → Option Int
  toInt_ofInt : ∀ {i : Int}, i.natAbs ≤ 9007199254740991 → toInt (ofInt i) = some i

def safe (i : Int) : Bool := i.natAbs ≤ 9007199254740991

theorem toInt_safe [IntegerNumber ν] {i : Int} (h : safe i = true) :
    IntegerNumber.toInt (IntegerNumber.ofInt i : ν) = some i :=
  IntegerNumber.toInt_ofInt (of_decide_eq_true h)

theorem filter_self {p : α → Bool} {a : α} (h : p a = true) : (some a).filter p = some a := by
  rw [Option.filter_some, if_pos h]

variable [PropertyOrder]

structure Schema (ν α : Type) where
  encode : α → Json ν
  valid : α → Bool
  decode : Json ν → Option α
  decode_encode : ∀ {a}, valid a = true → decode (encode a) = some a
  valid_decode : ∀ {v a}, decode v = some a → valid a = true
  settled_encode : ∀ a, (encode a).settled = true

namespace Schema

/-! ## Scalars -/

def string (p : String → Bool) : Schema ν String where
  encode := .str
  valid := p
  decode
    | .str s => (some s).filter p
    | _ => none
  decode_encode := filter_self
  valid_decode := by
    intro v s h
    split at h
    · exact (Option.filter_eq_some_iff.mp h).2
    · cases h
  settled_encode _ := by rw [Json.settled]

def literal (text : String) : Schema ν Unit where
  encode _ := .str text
  valid _ := true
  decode
    | .str s => if s = text then some () else none
    | _ => none
  decode_encode _ := if_pos rfl
  valid_decode _ := rfl
  settled_encode _ := by rw [Json.settled]

def boolean : Schema ν Bool where
  encode := .bool
  valid _ := true
  decode
    | .bool b => some b
    | _ => none
  decode_encode _ := rfl
  valid_decode _ := rfl
  settled_encode _ := by rw [Json.settled]

def number (p : ν → Bool) : Schema ν ν where
  encode := .num
  valid := p
  decode
    | .num n => (some n).filter p
    | _ => none
  decode_encode := filter_self
  valid_decode := by
    intro v n h
    split at h
    · exact (Option.filter_eq_some_iff.mp h).2
    · cases h
  settled_encode _ := by rw [Json.settled]

/-- A safe integer with a property. -/
def integer [IntegerNumber ν] (p : Int → Bool) : Schema ν Int where
  encode i := .num (IntegerNumber.ofInt i)
  valid i := safe i && p i
  decode
    | .num n => (IntegerNumber.toInt n).filter (fun i => safe i && p i)
    | _ => none
  decode_encode := by
    intro i h
    have hsafe : safe i = true := (Bool.and_eq_true_iff.mp h).1
    simp only [toInt_safe hsafe]
    exact filter_self h
  valid_decode := by
    intro v i h
    split at h
    · exact (Option.filter_eq_some_iff.mp h).2
    · cases h
  settled_encode _ := by rw [Json.settled]

/-- The members of an enumeration under their names. -/
def enumeration (name : α → String) (members : List α)
    (hmembers : ∀ a, members.find? (fun b => name b == name a) = some a) : Schema ν α where
  encode a := .str (name a)
  valid _ := true
  decode
    | .str s => members.find? (fun a => name a == s)
    | _ => none
  decode_encode _ := hmembers _
  valid_decode _ := rfl
  settled_encode _ := by rw [Json.settled]

/-- Any value of JSON. -/
def unknown : Schema ν {v : Json ν // v.settled = true} where
  encode v := v.val
  valid _ := true
  decode v := if h : v.settled = true then some ⟨v, h⟩ else none
  decode_encode := by
    intro v _
    exact dif_pos v.property
  valid_decode _ := rfl
  settled_encode v := v.property

/-! ## Composed schemas -/

theorem mapM_decode (s : Schema ν α) {items : List α} (h : items.all s.valid = true) :
    (items.map s.encode).mapM s.decode = some items := by
  induction items with
  | nil => rfl
  | cons a rest ih =>
    rw [List.all_cons, Bool.and_eq_true] at h
    rw [List.map_cons, List.mapM_cons, s.decode_encode h.1, ih h.2]
    rfl

theorem all_valid (s : Schema ν α) {vs : List (Json ν)} {items : List α} (h : vs.mapM s.decode = some items) :
    items.all s.valid = true := by
  induction vs generalizing items with
  | nil =>
    cases h
    rfl
  | cons v vs ih =>
    rw [List.mapM_cons] at h
    obtain ⟨a, ha, hrest⟩ := Option.bind_eq_some_iff.mp h
    obtain ⟨rest, hvs, hitems⟩ := Option.bind_eq_some_iff.mp hrest
    cases hitems
    rw [List.all_cons, s.valid_decode ha, ih hvs, Bool.true_and]

def array (s : Schema ν α) (p : List α → Bool) : Schema ν (List α) where
  encode items := .arr (items.map s.encode)
  valid items := items.all s.valid && p items
  decode
    | .arr vs => (vs.mapM s.decode).filter p
    | _ => none
  decode_encode := by
    intro items h
    rw [Bool.and_eq_true] at h
    simp only [s.mapM_decode h.1]
    exact filter_self h.2
  valid_decode := by
    intro v items h
    split at h
    · obtain ⟨hitems, hp⟩ := Option.filter_eq_some_iff.mp h
      rw [s.all_valid hitems, hp, Bool.true_and]
    · cases h
  settled_encode items := by
    rw [Json.settled_arr]
    intro v hv
    obtain ⟨a, -, rfl⟩ := List.mem_map.mp hv
    exact s.settled_encode a

def nullable (s : Schema ν α) (hnull : s.decode .null = none := by rfl) : Schema ν (Option α) where
  encode
    | none => .null
    | some a => s.encode a
  valid a := a.all s.valid
  decode v :=
    match v with
    | .null => some none
    | v => (s.decode v).map some
  decode_encode := by
    intro a h
    cases a with
    | none => rfl
    | some a =>
      have hdecode := s.decode_encode h
      cases hv : s.encode a with
      | null =>
        rw [hv, hnull] at hdecode
        cases hdecode
      | _ =>
        rw [hv] at hdecode
        simp only [hv, hdecode, Option.map_some]
  valid_decode := by
    intro v a h
    split at h
    · cases h
      rfl
    · obtain ⟨b, hb, rfl⟩ := Option.map_eq_some_iff.mp h
      exact s.valid_decode hb
  settled_encode a := by
    cases a with
    | none => rw [Json.settled]
    | some a => exact s.settled_encode a

def refine (s : Schema ν α) (p : α → Bool) : Schema ν α where
  encode := s.encode
  valid a := s.valid a && p a
  decode v := (s.decode v).filter p
  decode_encode := by
    intro a h
    rw [Bool.and_eq_true] at h
    rw [s.decode_encode h.1, filter_self h.2]
  valid_decode := by
    intro v a h
    obtain ⟨ha, hp⟩ := Option.filter_eq_some_iff.mp h
    rw [s.valid_decode ha, hp, Bool.true_and]
  settled_encode := s.settled_encode

end Schema

/-! ## Objects -/

/-- Entries under any keys. -/
structure Dictionary (α : Type) where
  entries : List (String × α)
  ordered : inOrder (entries.map Prod.fst) = true

namespace Schema

def encodeEntry (s : Schema ν α) (e : String × α) : String × Json ν := (e.1, s.encode e.2)

def decodeEntry (s : Schema ν α) (f : String × Json ν) : Option (String × α) := (s.decode f.2).map (f.1, ·)

theorem mapM_decodeEntry (s : Schema ν α) {entries : List (String × α)}
    (h : entries.all (fun e => s.valid e.2) = true) :
    (entries.map s.encodeEntry).mapM s.decodeEntry = some entries := by
  induction entries with
  | nil => rfl
  | cons e rest ih =>
    rw [List.all_cons, Bool.and_eq_true] at h
    have he : s.decodeEntry (s.encodeEntry e) = some e := by
      rw [decodeEntry, encodeEntry, s.decode_encode h.1, Option.map_some]
    rw [List.map_cons, List.mapM_cons, he, ih h.2]
    rfl

theorem keys_decodeEntry (s : Schema ν α) {fields : List (String × Json ν)} {entries : List (String × α)}
    (h : fields.mapM s.decodeEntry = some entries) :
    entries.map Prod.fst = fields.map Prod.fst ∧ entries.all (fun e => s.valid e.2) = true := by
  induction fields generalizing entries with
  | nil =>
    cases h
    exact ⟨rfl, rfl⟩
  | cons f fields ih =>
    rw [List.mapM_cons] at h
    obtain ⟨e, he, hrest⟩ := Option.bind_eq_some_iff.mp h
    obtain ⟨rest, hfields, hentries⟩ := Option.bind_eq_some_iff.mp hrest
    cases hentries
    obtain ⟨a, ha, rfl⟩ := Option.map_eq_some_iff.mp he
    obtain ⟨hkeys, hall⟩ := ih hfields
    rw [List.map_cons, List.map_cons, hkeys, List.all_cons, hall, s.valid_decode ha]
    exact ⟨rfl, rfl⟩

theorem keys_encodeEntry (s : Schema ν α) (entries : List (String × α)) :
    (entries.map s.encodeEntry).map Prod.fst = entries.map Prod.fst := by
  rw [List.map_map]
  rfl

/-- `z.record(z.string(), s)` -/
def record (s : Schema ν α) : Schema ν (Dictionary α) where
  encode d := .obj (d.entries.map s.encodeEntry)
  valid d := d.entries.all (fun e => s.valid e.2)
  decode
    | .obj fields =>
      (fields.mapM s.decodeEntry).bind (fun entries =>
        if h : inOrder (entries.map Prod.fst) = true then some ⟨entries, h⟩ else none)
    | _ => none
  decode_encode := by
    intro d h
    simp only [s.mapM_decodeEntry h, Option.bind_some]
    exact dif_pos d.ordered
  valid_decode := by
    intro v d h
    split at h
    · obtain ⟨entries, hentries, hd⟩ := Option.bind_eq_some_iff.mp h
      split at hd
      · cases hd
        exact (s.keys_decodeEntry hentries).2
      · cases hd
    · cases h
  settled_encode d := by
    rw [Json.settled_obj, s.keys_encodeEntry]
    refine ⟨d.ordered, ?_⟩
    intro f hf
    obtain ⟨e, -, rfl⟩ := List.mem_map.mp hf
    exact s.settled_encode e.2

end Schema

/-- Properties of an object under the keys `keys`. -/
structure Fields (keys : List String) (ν α : Type) where
  encode : α → List (String × Json ν)
  valid : α → Bool
  decode : List (String × Json ν) → Option α
  keys_encode : ∀ a, ((encode a).map Prod.fst).Sublist keys
  decode_congr : ∀ {fs fs'}, (∀ key ∈ keys, fs.lookup key = fs'.lookup key) → decode fs = decode fs'
  decode_encode : ∀ {a}, valid a = true → decode (encode a) = some a
  valid_decode : ∀ {fs a}, decode fs = some a → valid a = true
  settled_encode : ∀ a, ∀ f ∈ encode a, f.2.settled = true

namespace Fields

variable {keys : List String}

def nil : Fields [] ν Unit where
  encode _ := []
  valid _ := true
  decode _ := some ()
  keys_encode _ := List.Sublist.slnil
  decode_congr _ := rfl
  decode_encode _ := rfl
  valid_decode _ := rfl
  settled_encode _ f hf := by cases hf

theorem lookup_encode (rest : Fields keys ν β) {key : String} (hkey : key ∉ keys) (b : β) :
    (rest.encode b).lookup key = none := by
  rw [List.lookup_eq_none_iff]
  intro f hf
  rw [bne_iff_ne]
  rintro rfl
  exact hkey ((rest.keys_encode b).subset (List.mem_map_of_mem hf))

/-- A property under another key does not matter. -/
theorem decode_cons (rest : Fields keys ν β) {key : String} (hkey : key ∉ keys) (v : Json ν)
    (fs : List (String × Json ν)) : rest.decode ((key, v) :: fs) = rest.decode fs := by
  apply rest.decode_congr
  intro k hk
  have hne : k ≠ key := by
    rintro rfl
    exact hkey hk
  rw [List.lookup_cons, beq_false_of_ne hne]

def required (key : String) (s : Schema ν α) (rest : Fields keys ν β) (hkey : key ∉ keys := by decide) :
    Fields (key :: keys) ν (α × β) where
  encode a := (key, s.encode a.1) :: rest.encode a.2
  valid a := s.valid a.1 && rest.valid a.2
  decode fs := ((fs.lookup key).bind s.decode).bind (fun a => (rest.decode fs).map (a, ·))
  keys_encode a := (rest.keys_encode a.2).cons_cons key
  decode_congr h := by
    rw [h key List.mem_cons_self, rest.decode_congr (fun k hk => h k (List.mem_cons_of_mem key hk))]
  decode_encode := by
    intro a h
    rw [Bool.and_eq_true] at h
    rw [List.lookup_cons_self, Option.bind_some, s.decode_encode h.1, Option.bind_some, rest.decode_cons hkey,
      rest.decode_encode h.2]
    rfl
  valid_decode := by
    intro fs a h
    obtain ⟨b, hb, hrest⟩ := Option.bind_eq_some_iff.mp h
    obtain ⟨v, -, hv⟩ := Option.bind_eq_some_iff.mp hb
    obtain ⟨c, hc, rfl⟩ := Option.map_eq_some_iff.mp hrest
    rw [s.valid_decode hv, rest.valid_decode hc, Bool.true_and]
  settled_encode a := by
    intro f hf
    obtain rfl | hf := List.mem_cons.mp hf
    · exact s.settled_encode a.1
    · exact rest.settled_encode a.2 f hf

/-- `.optional()` -/
def optional (key : String) (s : Schema ν α) (rest : Fields keys ν β) (hkey : key ∉ keys := by decide) :
    Fields (key :: keys) ν (Option α × β) where
  encode a := (a.1.map (fun a => (key, s.encode a))).toList ++ rest.encode a.2
  valid a := a.1.all s.valid && rest.valid a.2
  decode fs :=
    match fs.lookup key with
    | none => (rest.decode fs).map (none, ·)
    | some v => (s.decode v).bind (fun a => (rest.decode fs).map (some a, ·))
  keys_encode a := by
    obtain ⟨a, b⟩ := a
    cases a with
    | none => exact (rest.keys_encode b).cons key
    | some a => exact (rest.keys_encode b).cons_cons key
  decode_congr h := by
    rw [h key List.mem_cons_self, rest.decode_congr (fun k hk => h k (List.mem_cons_of_mem key hk))]
  decode_encode := by
    intro a h
    obtain ⟨a, b⟩ := a
    rw [Bool.and_eq_true] at h
    cases a with
    | none =>
      simp only [Option.map_none, Option.toList_none, List.nil_append, rest.lookup_encode hkey,
        rest.decode_encode h.2, Option.map_some]
    | some a =>
      simp only [Option.map_some, Option.toList_some, List.singleton_append, List.lookup_cons_self,
        s.decode_encode h.1, Option.bind_some, rest.decode_cons hkey, rest.decode_encode h.2]
  valid_decode := by
    intro fs a h
    split at h
    · obtain ⟨b, hb, rfl⟩ := Option.map_eq_some_iff.mp h
      exact rest.valid_decode hb
    · obtain ⟨b, hb, hrest⟩ := Option.bind_eq_some_iff.mp h
      obtain ⟨c, hc, rfl⟩ := Option.map_eq_some_iff.mp hrest
      simp only [Option.all_some, s.valid_decode hb, rest.valid_decode hc, Bool.true_and]
  settled_encode a := by
    obtain ⟨a, b⟩ := a
    intro f hf
    obtain h | h := List.mem_append.mp hf
    · cases a with
      | none => cases h
      | some a =>
        rw [List.mem_singleton.mp h]
        exact s.settled_encode a
    · exact rest.settled_encode b f h

/-- The same properties, read as another type. -/
def equiv (fields : Fields keys ν α) (e : α ≃ β) : Fields keys ν β where
  encode b := fields.encode (e.symm b)
  valid b := fields.valid (e.symm b)
  decode fs := (fields.decode fs).map e
  keys_encode b := fields.keys_encode (e.symm b)
  decode_congr h := by rw [fields.decode_congr h]
  decode_encode := by
    intro b h
    rw [fields.decode_encode h, Option.map_some, Equiv.apply_symm_apply]
  valid_decode := by
    intro fs b h
    obtain ⟨a, ha, rfl⟩ := Option.map_eq_some_iff.mp h
    rw [Equiv.symm_apply_apply]
    exact fields.valid_decode ha
  settled_encode b := fields.settled_encode (e.symm b)

end Fields

/-- `z.object(fields).strict()` -/
def Schema.strictObject {keys : List String} (fields : Fields keys ν α) (horder : inOrder keys = true := by decide) :
    Schema ν α where
  encode a := .obj (fields.encode a)
  valid := fields.valid
  decode
    | .obj fs => if fs.all (fun f => keys.contains f.1) then fields.decode fs else none
    | _ => none
  decode_encode := by
    intro a h
    have hkeys : (fields.encode a).all (fun f => keys.contains f.1) = true := by
      rw [List.all_eq_true]
      intro f hf
      rw [List.contains_iff_mem]
      exact (fields.keys_encode a).subset (List.mem_map_of_mem hf)
    simp only [hkeys, if_true]
    exact fields.decode_encode h
  valid_decode := by
    intro v a h
    split at h
    · split at h
      · exact fields.valid_decode h
      · cases h
    · cases h
  settled_encode a := by
    rw [Json.settled_obj]
    exact ⟨PropertyOrder.inOrder_sublist (fields.keys_encode a) horder, fields.settled_encode a⟩

end JsonValues
