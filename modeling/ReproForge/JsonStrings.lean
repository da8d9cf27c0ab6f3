import ReproForge.JsonReader
import ReproForge.KeyOrder

/-!
# The strings in a value

The strings of a value, and what a function of strings makes of it.
-/
namespace JsonValues

variable {ν : Type}

mutual

/-- The function is applied to every string; keys are none. -/
def Json.mapStrings (f : String → String) : Json ν → Json ν
  | .null => .null
  | .bool b => .bool b
  | .num n => .num n
  | .str s => .str (f s)
  | .arr items => .arr (mapItems f items)
  | .obj fields => .obj (mapFields f fields)

def mapItems (f : String → String) : List (Json ν) → List (Json ν)
  | [] => []
  | item :: rest => item.mapStrings f :: mapItems f rest

def mapFields (f : String → String) : List (String × Json ν) → List (String × Json ν)
  | [] => []
  | field :: rest => (field.1, field.2.mapStrings f) :: mapFields f rest

end

mutual

def Json.strings : Json ν → List String
  | .null | .bool _ | .num _ => []
  | .str s => [s]
  | .arr items => itemStrings items
  | .obj fields => fieldStrings fields

def itemStrings : List (Json ν) → List String
  | [] => []
  | item :: rest => item.strings ++ itemStrings rest

def fieldStrings : List (String × Json ν) → List String
  | [] => []
  | field :: rest => field.2.strings ++ fieldStrings rest

end

theorem mapItems_eq (f : String → String) (items : List (Json ν)) : mapItems f items = items.map (Json.mapStrings f) := by
  induction items with
  | nil => rfl
  | cons item rest ih => rw [mapItems, ih, List.map_cons]

theorem mapFields_eq (f : String → String) (fields : List (String × Json ν)) :
    mapFields f fields = fields.map (fun field => (field.1, field.2.mapStrings f)) := by
  induction fields with
  | nil => rfl
  | cons field rest ih => rw [mapFields, ih, List.map_cons]

theorem keys_mapFields (f : String → String) (fields : List (String × Json ν)) :
    (mapFields f fields).map Prod.fst = fields.map Prod.fst := by
  rw [mapFields_eq, List.map_map]
  rfl

theorem itemStrings_eq (items : List (Json ν)) : itemStrings items = items.flatMap Json.strings := by
  induction items with
  | nil => rfl
  | cons item rest ih => rw [itemStrings, ih, List.flatMap_cons]

theorem fieldStrings_eq (fields : List (String × Json ν)) :
    fieldStrings fields = fields.flatMap (fun field => field.2.strings) := by
  induction fields with
  | nil => rfl
  | cons field rest ih => rw [fieldStrings, ih, List.flatMap_cons]

theorem Json.mapStrings_mapStrings (f g : String → String) (v : Json ν) :
    (v.mapStrings f).mapStrings g = v.mapStrings (g ∘ f) := by
  induction v using Json.induction with
  | null | bool _ | num _ | str _ => rfl
  | arr items ih =>
    rw [mapStrings, mapStrings, mapStrings, mapItems_eq, mapItems_eq, mapItems_eq, List.map_map]
    exact congrArg Json.arr (List.map_congr_left ih)
  | obj fields ih =>
    rw [mapStrings, mapStrings, mapStrings, mapFields_eq, mapFields_eq, mapFields_eq, List.map_map]
    exact congrArg Json.obj (List.map_congr_left fun field hfield => Prod.ext rfl (ih field hfield))

theorem Json.strings_mapStrings (f : String → String) (v : Json ν) : (v.mapStrings f).strings = v.strings.map f := by
  induction v using Json.induction with
  | null | bool _ | num _ | str _ => rfl
  | arr items ih =>
    rw [mapStrings, strings, strings, itemStrings_eq, itemStrings_eq, mapItems_eq, List.flatMap_map, List.map_flatMap]
    exact List.flatMap_congr fun v hv => ih v hv
  | obj fields ih =>
    rw [mapStrings, strings, strings, fieldStrings_eq, fieldStrings_eq, mapFields_eq, List.flatMap_map,
      List.map_flatMap]
    exact List.flatMap_congr fun field hfield => ih field hfield

theorem Json.settled_mapStrings [PropertyOrder] (f : String → String) {v : Json ν} (h : v.settled = true) :
    (v.mapStrings f).settled = true := by
  induction v using Json.induction with
  | null | bool _ | num _ | str _ => rfl
  | arr items ih =>
    rw [mapStrings, mapItems_eq, Json.settled_arr]
    intro w hw
    obtain ⟨v, hv, rfl⟩ := List.mem_map.mp hw
    exact ih v hv (Json.settled_arr.mp h v hv)
  | obj fields ih =>
    obtain ⟨hkeys, hfields⟩ := Json.settled_obj.mp h
    rw [mapStrings, Json.settled_obj, keys_mapFields]
    refine ⟨hkeys, fun w hw => ?_⟩
    rw [mapFields_eq] at hw
    obtain ⟨field, hfield, rfl⟩ := List.mem_map.mp hw
    exact ih field hfield (hfields field hfield)

end JsonValues
