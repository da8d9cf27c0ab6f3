import ReproForge.Schemas

/-!
# What schemas refuse

A schema is exact at a value when it reads the value off what it wrote of it if
it admits the value, and refuses what it wrote otherwise. Scalars are exact, and
what is composed of exact schemas is.
-/
namespace JsonValues

variable {ν α β : Type} [PropertyOrder]

/-- What was written of `a` is read as `a` if the schema admits it, and refused otherwise. -/
def Schema.Exact (s : Schema ν α) (a : α) : Prop := s.decode (s.encode a) = (some a).filter s.valid

def Fields.Exact {keys : List String} (fields : Fields keys ν α) (a : α) : Prop :=
  fields.decode (fields.encode a) = (some a).filter fields.valid

namespace Schema

theorem Exact.decode_none {s : Schema ν α} {a : α} (h : s.Exact a) (hvalid : s.valid a = false) :
    s.decode (s.encode a) = none := by
  rw [h, Option.filter_some, if_neg (by simp [hvalid])]

theorem exact_string (p : String → Bool) (text : String) : (string p : Schema ν String).Exact text := rfl

theorem exact_boolean (b : Bool) : (boolean : Schema ν Bool).Exact b := rfl

theorem exact_integer [IntegerNumber ν] (p : Int → Bool) {i : Int} (h : safe i = true) :
    (integer p : Schema ν Int).Exact i := by
  have hread : (integer p : Schema ν Int).decode ((integer p : Schema ν Int).encode i) =
      (IntegerNumber.toInt (IntegerNumber.ofInt i : ν)).filter (fun i => safe i && p i) := rfl
  rw [Exact, hread, toInt_safe h]
  rfl

/-- A schema that admits every value is exact. -/
theorem exact_of_valid {s : Schema ν α} {a : α} (h : s.valid a = true) : s.Exact a := by
  rw [Exact, s.decode_encode h, Option.filter_some, if_pos h]

theorem exact_nullable {s : Schema ν α} (hnull : s.decode .null = none) {a : Option α} (h : ∀ b ∈ a, s.Exact b)
    (hwritten : ∀ b, s.encode b ≠ .null) : (s.nullable hnull).Exact a := by
  cases a with
  | none => rfl
  | some b =>
    have hb := h b rfl
    have hread : (s.nullable hnull).decode (s.encode b) = (s.decode (s.encode b)).map some := by
      cases hv : s.encode b with
      | null => exact absurd hv (hwritten b)
      | _ => rfl
    change (s.nullable hnull).decode (s.encode b) = (some (some b)).filter (s.nullable hnull).valid
    rw [hread, hb, Option.filter_some, Option.filter_some]
    change ((if s.valid b = true then some b else none).map some : Option (Option α)) =
      if s.valid b = true then some (some b) else none
    cases s.valid b <;> rfl

theorem exact_refine {s : Schema ν α} {a : α} (h : s.Exact a) (p : α → Bool) : (s.refine p).Exact a := by
  change (s.decode (s.encode a)).filter p = (some a).filter (fun b => s.valid b && p b)
  rw [h, Option.filter_filter]

end Schema

namespace Fields

variable {keys : List String}

theorem exact_nil : (nil : Fields [] ν Unit).Exact () := rfl

theorem exact_required {key : String} {s : Schema ν α} {rest : Fields keys ν β} (hkey : key ∉ keys) {a : α} {b : β}
    (ha : s.Exact a) (hb : rest.Exact b) : (required key s rest hkey).Exact (a, b) := by
  change ((((key, s.encode a) :: rest.encode b).lookup key).bind s.decode).bind
      (fun a' => (rest.decode ((key, s.encode a) :: rest.encode b)).map (a', ·)) =
    (some (a, b)).filter (fun p => s.valid p.1 && rest.valid p.2)
  rw [List.lookup_cons_self, Option.bind_some, rest.decode_cons hkey, ha, hb]
  simp only [Option.filter_some]
  cases s.valid a <;> cases rest.valid b <;> rfl

theorem exact_equiv {fields : Fields keys ν α} (e : α ≃ β) {b : β} (h : fields.Exact (e.symm b)) :
    (fields.equiv e).Exact b := by
  change (fields.decode (fields.encode (e.symm b))).map e = (some b).filter (fun b => fields.valid (e.symm b))
  rw [h]
  simp only [Option.filter_some]
  cases fields.valid (e.symm b) with
  | true => exact congrArg some (e.apply_symm_apply b)
  | false => rfl

theorem exact_strictObject {fields : Fields keys ν α} (horder : inOrder keys = true) {a : α} (h : fields.Exact a) :
    (Schema.strictObject fields horder).Exact a := by
  have hkeys : (fields.encode a).all (fun f => keys.contains f.1) = true := by
    rw [List.all_eq_true]
    intro f hf
    rw [List.contains_iff_mem]
    exact (fields.keys_encode a).subset (List.mem_map_of_mem hf)
  change (if (fields.encode a).all (fun f => keys.contains f.1) then fields.decode (fields.encode a) else none) =
    (some a).filter fields.valid
  rw [if_pos hkeys, h]

end Fields

end JsonValues
