import ReproForge.Bundles
import ReproForge.JsonStrings
import ReproForge.Words

/-!
# Redaction

The secrets in the strings of a value are replaced by a marker. What stands
between the markers afterwards has no secret in it, so that redacting again
changes nothing.
-/
namespace ReproForge

open JsonValues Words

variable {ν : Type}

/-- `REDACTION_MARKER` -/
def redactionMarker : String := "[REDACTED]"

/-- The distinct secrets that are not empty, the longest first. -/
def uniqueSecrets (secrets : List String) : List String :=
  (secrets.filter (fun secret => 0 < utf16Length secret)).eraseDups.insertionSort
    (fun left right => utf16Length right ≤ utf16Length left)

/-- The pattern is the alternation of the secrets in this order: where several
of them occur, the first one is taken. -/
def redactString (secrets : List String) (value : String) : String :=
  let unique := uniqueSecrets secrets
  if unique.isEmpty then value
  else String.ofList (redact (unique.map String.toList) redactionMarker.toList value.toList)

mutual

def redactSecrets (secrets : List String) : Json ν → Json ν
  | .null => .null
  | .bool b => .bool b
  | .num n => .num n
  | .str s => .str (redactString secrets s)
  | .arr items => .arr (redactItems secrets items)
  | .obj fields => .obj (enumerate (redactFields secrets fields))

def redactItems (secrets : List String) : List (Json ν) → List (Json ν)
  | [] => []
  | item :: rest => redactSecrets secrets item :: redactItems secrets rest

def redactFields (secrets : List String) : List (String × Json ν) → List (String × Json ν)
  | [] => []
  | field :: rest => (field.1, redactSecrets secrets field.2) :: redactFields secrets rest

end

/-! ## One string -/

theorem marker_borderless : Borderless redactionMarker.toList := by decide

theorem marker_ne_nil : redactionMarker.toList ≠ [] := by decide

theorem utf16Length_pos {s : String} : 0 < utf16Length s ↔ s ≠ "" := by
  have hlist : s ≠ "" ↔ s.toList ≠ [] := by
    rw [ne_eq, ne_eq, ← String.toList_inj]
    rfl
  rw [utf16Length, hlist]
  cases s.toList with
  | nil => simp
  | cons c rest =>
    rw [List.map_cons, List.sum_cons]
    constructor
    · exact fun _ => List.cons_ne_nil c rest
    · intro _
      split <;> omega

theorem mem_uniqueSecrets {secrets : List String} {secret : String} :
    secret ∈ uniqueSecrets secrets ↔ secret ∈ secrets ∧ secret ≠ "" := by
  rw [uniqueSecrets, List.mem_insertionSort, List.mem_eraseDups, List.mem_filter, decide_eq_true_iff, utf16Length_pos]

/-- The words that are looked for. -/
def secretWords (secrets : List String) : List (List Char) := (uniqueSecrets secrets).map String.toList

theorem mem_secretWords {secrets : List String} {w : List Char} :
    w ∈ secretWords secrets ↔ ∃ secret ∈ secrets, secret ≠ "" ∧ secret.toList = w := by
  rw [secretWords, List.mem_map]
  constructor
  · rintro ⟨secret, hsecret, rfl⟩
    obtain ⟨hmem, hne⟩ := mem_uniqueSecrets.mp hsecret
    exact ⟨secret, hmem, hne, rfl⟩
  · rintro ⟨secret, hmem, hne, rfl⟩
    exact ⟨secret, mem_uniqueSecrets.mpr ⟨hmem, hne⟩, rfl⟩

theorem toList_ne_nil {s : String} (h : s ≠ "") : s.toList ≠ [] := by
  intro hnil
  exact h (String.toList_inj.mp hnil)

theorem secretWords_ne_nil {secrets : List String} : ∀ w ∈ secretWords secrets, w ≠ [] := by
  intro w hw
  obtain ⟨secret, -, hne, rfl⟩ := mem_secretWords.mp hw
  exact toList_ne_nil hne

/-- A string stays as it is for want of secrets, or is redacted. -/
theorem redactString_cases (secrets : List String) (value : String) :
    redactString secrets value = value ∧ secretWords secrets = [] ∨
      (redactString secrets value).toList = redact (secretWords secrets) redactionMarker.toList value.toList := by
  by_cases hempty : (uniqueSecrets secrets).isEmpty = true
  · left
    rw [redactString, if_pos hempty, secretWords, List.isEmpty_iff.mp hempty]
    exact ⟨rfl, rfl⟩
  · right
    rw [redactString, if_neg hempty, String.toList_ofList]
    rfl

/-- `value.split(REDACTION_MARKER)` -/
def betweenMarkers (value : String) : List (List Char) := pieces [redactionMarker.toList] value.toList

theorem redactString_free {secrets : List String} {value secret : String} (hsecret : secret ∈ secrets) (hne : secret ≠ "")
    {piece : List Char} (hpiece : piece ∈ betweenMarkers (redactString secrets value)) : ¬secret.toList <:+: piece := by
  have hword : secret.toList ∈ secretWords secrets := mem_secretWords.mpr ⟨secret, hsecret, hne, rfl⟩
  obtain ⟨-, hnone⟩ | hredacted := redactString_cases secrets value
  · rw [hnone] at hword
    cases hword
  · rw [betweenMarkers, hredacted] at hpiece
    exact not_infix_redacted marker_ne_nil marker_borderless hpiece hword (toList_ne_nil hne)

theorem redactString_clean {secrets : List String} {value : String} (hmarker : ¬redactionMarker.toList <:+: value.toList)
    (h : ∀ secret ∈ secrets, secret ≠ "" → ¬secret.toList <:+: value.toList) : redactString secrets value = value := by
  obtain ⟨hsame, -⟩ | hredacted := redactString_cases secrets value
  · exact hsame
  · apply String.toList_inj.mp
    rw [hredacted]
    apply redact_clean hmarker
    intro w hw
    obtain ⟨secret, hsecret, hne, rfl⟩ := mem_secretWords.mp hw
    exact h secret hsecret hne

theorem redactString_redactString (secrets : List String) (value : String) :
    redactString secrets (redactString secrets value) = redactString secrets value := by
  obtain ⟨hsame, -⟩ | hredacted := redactString_cases secrets value
  · rw [hsame, hsame]
  · obtain ⟨hsame, -⟩ | hagain := redactString_cases secrets (redactString secrets value)
    · exact hsame
    · apply String.toList_inj.mp
      rw [hagain, hredacted, redact_redact marker_ne_nil marker_borderless secretWords_ne_nil]

/-! ## Values -/

theorem redactItems_eq (secrets : List String) (items : List (Json ν)) :
    redactItems secrets items = items.map (redactSecrets secrets) := by
  induction items with
  | nil => rfl
  | cons item rest ih => rw [redactItems, ih, List.map_cons]

theorem redactFields_eq (secrets : List String) (fields : List (String × Json ν)) :
    redactFields secrets fields = fields.map (fun field => (field.1, redactSecrets secrets field.2)) := by
  induction fields with
  | nil => rfl
  | cons field rest ih => rw [redactFields, ih, List.map_cons]

/-- An object lists the redacted properties as it listed them before. -/
theorem redactSecrets_eq (secrets : List String) {v : Json ν} (h : v.settled = true) :
    redactSecrets secrets v = v.mapStrings (redactString secrets) := by
  induction v using Json.induction with
  | null | bool _ | num _ | str _ => rfl
  | arr items ih =>
    rw [redactSecrets, redactItems_eq, Json.mapStrings, mapItems_eq]
    exact congrArg Json.arr (List.map_congr_left fun v hv => ih v hv (Json.settled_arr.mp h v hv))
  | obj fields ih =>
    obtain ⟨hkeys, hfields⟩ := Json.settled_obj.mp h
    have hredacted : redactFields secrets fields = mapFields (redactString secrets) fields := by
      rw [redactFields_eq, mapFields_eq]
      exact List.map_congr_left fun f hf => Prod.ext rfl (ih f hf (hfields f hf))
    have horder : inOrder ((mapFields (redactString secrets) fields).map Prod.fst) = true := by
      rw [keys_mapFields]
      exact hkeys
    rw [redactSecrets, hredacted, PropertyOrder.enumerate_inOrder horder, Json.mapStrings]

/-- Redaction keeps the shape of a value and every string without a secret, it
leaves no secret between two markers, and to do it again changes nothing. -/
theorem redaction_complete (v : JsonValue ν) (secrets : List String) :
    let redacted := redactSecrets secrets v.1
    redacted.settled = true ∧
      redacted.mapStrings (fun _ => "") = v.1.mapStrings (fun _ => "") ∧
      redacted.strings = v.1.strings.map (redactString secrets) ∧
      (∀ s ∈ redacted.strings, ∀ piece ∈ betweenMarkers s, ∀ secret ∈ secrets, secret ≠ "" →
        ¬secret.toList <:+: piece) ∧
      (∀ s ∈ v.1.strings, ¬redactionMarker.toList <:+: s.toList →
        (∀ secret ∈ secrets, secret ≠ "" → ¬secret.toList <:+: s.toList) → redactString secrets s = s) ∧
      redactSecrets secrets redacted = redacted := by
  have hredacted := redactSecrets_eq secrets v.2
  have hsettled := Json.settled_mapStrings (redactString secrets) v.2
  dsimp only
  rw [hredacted]
  refine ⟨hsettled, ?_, Json.strings_mapStrings _ _, ?_, ?_, ?_⟩
  · rw [Json.mapStrings_mapStrings]
    rfl
  · intro s hs piece hpiece secret hsecret hne
    rw [Json.strings_mapStrings] at hs
    obtain ⟨t, -, rfl⟩ := List.mem_map.mp hs
    exact redactString_free hsecret hne hpiece
  · exact fun s _ hmarker hclean => redactString_clean hmarker hclean
  · rw [redactSecrets_eq secrets hsettled, Json.mapStrings_mapStrings]
    congr 1
    funext s
    exact redactString_redactString secrets s

/-- Secrets that overlap, and one that is a part of the marker. -/
example : redactString ["RED", "bcd", "ab"] "xabcd[RED" = "x[REDACTED]cd[[REDACTED]" := by decide +kernel

end ReproForge
