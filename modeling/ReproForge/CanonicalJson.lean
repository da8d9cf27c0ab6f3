import ReproForge.JobUpdates
import ReproForge.Json
import Mathlib.Data.List.Sort

/-!
# Canonical JSON

The text over which fingerprints are taken: the properties of every object in
the order of their keys.
-/
namespace ReproForge

open JsonValues

/-- A total preorder of the keys. -/
class LocaleCompare where
  le : String → String → Bool
  trans : ∀ a b c, le a b = true → le b c = true → le a c = true
  total : ∀ a b, (le a b || le b a) = true

theorem codePoints_trans (a b c : String) (hab : decide (a ≤ b) = true) (hbc : decide (b ≤ c) = true) :
    decide (a ≤ c) = true := by
  simp only [decide_eq_true_eq] at hab hbc ⊢
  exact String.le_trans hab hbc

theorem codePoints_total (a b : String) : (decide (a ≤ b) || decide (b ≤ a)) = true := by
  simpa using String.le_total a b

class JsonNumber (ν : Type) extends NumberText ν where
  ofInt : Int → ν

/-- The index that a key stands for: its properties are enumerated first. -/
def arrayIndex (key : String) : Option Nat :=
  match key.toList with
  | [] => none
  | ['0'] => some 0
  | c :: rest =>
    let n := (c :: rest).foldl (fun n d => n * 10 + (d.toNat - 48)) 0
    if c != '0' && (c :: rest).all Char.isDigit && n < 4294967295 then some n else none

variable {ν : Type}

/-- `Object.fromEntries`, in the order in which its properties are enumerated. -/
def fromEntries (entries : List (String × Json ν)) : List (String × Json ν) :=
  (entries.filter (fun e => (arrayIndex e.1).isSome)).insertionSort
      (fun e e' => (arrayIndex e.1).getD 0 ≤ (arrayIndex e'.1).getD 0) ++
    entries.filter (fun e => (arrayIndex e.1).isNone)

theorem mem_fromEntries {entries : List (String × Json ν)} {e : String × Json ν} :
    e ∈ fromEntries entries ↔ e ∈ entries := by
  simp only [fromEntries, List.mem_append, List.mem_insertionSort, List.mem_filter]
  cases arrayIndex e.1 <;> simp

variable [LocaleCompare]

mutual

/-- Sorting looks at the keys alone, so that it may as well come after the values. -/
def normalizeJson : Json ν → Json ν
  | .null => .null
  | .bool b => .bool b
  | .num n => .num n
  | .str s => .str s
  | .arr items => .arr (normalizeItems items)
  | .obj fields => .obj (fromEntries ((normalizeFields fields).insertionSort (fun e e' => LocaleCompare.le e.1 e'.1)))

def normalizeItems : List (Json ν) → List (Json ν)
  | [] => []
  | item :: rest => normalizeJson item :: normalizeItems rest

def normalizeFields : List (String × Json ν) → List (String × Json ν)
  | [] => []
  | field :: rest => (field.1, normalizeJson field.2) :: normalizeFields rest

end

theorem normalizeFields_eq (fields : List (String × Json ν)) :
    normalizeFields fields = fields.map (fun f => (f.1, normalizeJson f.2)) := by
  induction fields with
  | nil => rw [normalizeFields, List.map_nil]
  | cons f rest ih => rw [normalizeFields, ih, List.map_cons]

/-- A property of an object, in normal form, is one of its normal form. -/
theorem mem_normalized {fields normal : List (String × Json ν)} {e : String × Json ν}
    (h : normalizeJson (.obj fields) = .obj normal) :
    e ∈ normal ↔ ∃ v, (e.1, v) ∈ fields ∧ normalizeJson v = e.2 := by
  rw [normalizeJson, Json.obj.injEq] at h
  rw [← h, mem_fromEntries, List.mem_insertionSort, normalizeFields_eq, List.mem_map]
  constructor
  · rintro ⟨f, hf, rfl⟩
    exact ⟨f.2, hf, rfl⟩
  · rintro ⟨v, hv, he⟩
    exact ⟨(e.1, v), hv, Prod.ext rfl he⟩

/-- Objects with one normal form agree under every key that the second one has once. -/
theorem normalizeJson_field {fields fields' : List (String × Json ν)}
    (h : normalizeJson (.obj fields) = normalizeJson (.obj fields')) (key : String) (v v' : Json ν)
    (hv : (key, v) ∈ fields) (honly : ∀ w, (key, w) ∈ fields' → w = v') : normalizeJson v = normalizeJson v' := by
  obtain ⟨normal, hnormal⟩ : ∃ normal, normalizeJson (.obj fields) = .obj normal := ⟨_, by rw [normalizeJson]⟩
  have hmem : (key, normalizeJson v) ∈ normal := (mem_normalized hnormal).mpr ⟨v, hv, rfl⟩
  rw [h] at hnormal
  obtain ⟨w, hw, hnormalized⟩ := (mem_normalized hnormal).mp hmem
  exact hnormalized.symm.trans (by rw [honly w hw])

variable [JsonNumber ν]

def canonicalJson (v : Json ν) : String := (normalizeJson v).stringify

theorem canonicalJson_inj {v w : Json ν} (h : canonicalJson v = canonicalJson w) : normalizeJson v = normalizeJson w :=
  Json.stringify_inj h

def hashCanonical [Sha256] (v : Json ν) : String := Sha256.hex (canonicalJson v)

end ReproForge
