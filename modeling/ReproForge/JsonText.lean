import Mathlib
import ReproForge.Json

/-!
# JSON texts

The numbers and the escapes that a text of JSON may hold, and the texts that
`JSON.stringify` writes with a gap.
-/
namespace JsonValues

/-! ## Numbers -/

variable {ν : Type}

def digits (cs : List Char) : Bool := !cs.isEmpty && cs.all Char.isDigit

def exponent : List Char → Bool
  | [] => true
  | c :: '+' :: ds => (c == 'e' || c == 'E') && digits ds
  | c :: '-' :: ds => (c == 'e' || c == 'E') && digits ds
  | c :: ds => (c == 'e' || c == 'E') && digits ds

def fraction : List Char → Bool
  | '.' :: rest => !(rest.takeWhile Char.isDigit).isEmpty && exponent (rest.dropWhile Char.isDigit)
  | rest => exponent rest

def unsigned : List Char → Bool
  | '0' :: rest => fraction rest
  | c :: rest => c.isDigit && fraction (rest.dropWhile Char.isDigit)
  | [] => false

/-- The numbers of JSON. -/
def jsonNumber : List Char → Bool
  | '-' :: rest => unsigned rest
  | cs => unsigned cs

/-- The number that a text rounds to, unless it is too large. -/
class NumberReader (ν : Type) extends NumberText ν where
  ofText : List Char → Option ν
  ofText_text : ∀ n, ofText (text n) = some n
  text_jsonNumber : ∀ n, jsonNumber (text n) = true

def readNumber [NumberReader ν] (cs : List Char) : Option ν :=
  if jsonNumber cs then NumberReader.ofText cs else none

theorem readNumber_text [NumberReader ν] (n : ν) : readNumber (NumberText.text n) = some n := by
  rw [readNumber, if_pos (NumberReader.text_jsonNumber n), NumberReader.ofText_text]

/-- A number starts with a sign or with a digit. -/
theorem jsonNumber_opens {cs : List Char} (h : jsonNumber cs = true) :
    ∃ c rest, cs = c :: rest ∧ (c == '-' || c.isDigit) = true := by
  cases cs with
  | nil => cases h
  | cons c rest =>
    refine ⟨c, rest, rfl, ?_⟩
    by_cases hsign : c = '-'
    · rw [hsign]
      rfl
    have hunsigned : unsigned (c :: rest) = true := by
      unfold jsonNumber at h
      split at h
      · rename_i heq
        exact absurd (List.cons.inj heq).1 hsign
      · exact h
    have hdigit : c.isDigit = true := by
      unfold unsigned at hunsigned
      split at hunsigned
      · rename_i heq
        rw [(List.cons.inj heq).1]
        rfl
      · rename_i heq
        rw [(List.cons.inj heq).1]
        exact (Bool.and_eq_true_iff.mp hunsigned).1
      · cases hunsigned
    rw [hdigit, Bool.or_true]

/-- The characters that a number goes on with. -/
def numeral (c : Char) : Bool := numberChar c || c == 'E'

def space (c : Char) : Bool := c == ' ' || c == '\t' || c == '\n' || c == '\r'

/-- Nothing that goes on with a number comes next. -/
def Ends (s : List Char) : Prop := ∀ c ∈ s.head?, numeral c = false

theorem ends_nil : Ends [] := fun _ h => (nomatch h)

theorem ends_cons {c : Char} {s : List Char} (h : numeral c = false) : Ends (c :: s) := by
  rintro _ ⟨⟩
  exact h

/-! ## Strings -/

/-- The digit of an escape. -/
def escapeDigit (c : Char) : Option Nat :=
  if c.isDigit then some (c.toNat - 48)
  else if 'a' ≤ c && c ≤ 'f' then some (c.toNat - 87)
  else if 'A' ≤ c && c ≤ 'F' then some (c.toNat - 55)
  else none

theorem escapeDigit_hexDigit {n : Nat} (h : n < 16) : escapeDigit (hexDigit n) = some n := by
  have hall : ∀ n : Fin 16, escapeDigit (hexDigit n.val) = some n.val := by decide
  exact hall ⟨n, h⟩

/-- The code unit of an escape of two characters. -/
def escaped : Char → Option Nat
  | '"' => some 34
  | '\\' => some 92
  | '/' => some 47
  | 'b' => some 8
  | 'f' => some 12
  | 'n' => some 10
  | 'r' => some 13
  | 't' => some 9
  | _ => none

/-- Pairs of surrogates are one character. A surrogate on its own is not read. -/
def scalars : List Nat → Option (List Char)
  | [] => some []
  | [n] => if h : n.isValidChar then some [Char.ofNatAux n h] else none
  | n :: m :: rest =>
    if h : n.isValidChar then (scalars (m :: rest)).map (Char.ofNatAux n h :: ·)
    else if 0xD800 ≤ n && n < 0xDC00 && 0xDC00 ≤ m && m < 0xE000 then
      (scalars rest).map (Char.ofNat (0x10000 + (n - 0xD800) * 0x400 + (m - 0xDC00)) :: ·)
    else none

theorem scalars_cons (c : Char) (units : List Nat) :
    scalars (c.toNat :: units) = (scalars units).map (c :: ·) := by
  have hvalid : c.toNat.isValidChar := c.valid
  have hchar : Char.ofNatAux c.toNat hvalid = c := by
    apply Char.ext
    apply UInt32.toNat_inj.mp
    rfl
  cases units with
  | nil =>
    rw [scalars, scalars, Option.map_some]
    exact (dif_pos hvalid).trans (by rw [hchar])
  | cons m rest => rw [scalars, dif_pos hvalid, hchar]

theorem scalars_chars (cs : List Char) : scalars (cs.map Char.toNat) = some cs := by
  induction cs with
  | nil => rw [List.map_nil, scalars]
  | cons c cs ih => rw [List.map_cons, scalars_cons, ih, Option.map_some]

/-! ## Texts with a gap -/

/-- A line break, unless the gap is empty. -/
def lineBreak (gap indent : List Char) : List Char := if gap.isEmpty then [] else '\n' :: indent

/-- The blank after a colon. -/
def colonGap (gap : List Char) : List Char := if gap.isEmpty then [] else [' ']

theorem blank_lineBreak {gap indent : List Char} (hindent : ∀ c ∈ indent, space c = true) :
    ∀ c ∈ lineBreak gap indent, space c = true := by
  intro c hc
  unfold lineBreak at hc
  split at hc
  · cases hc
  · obtain rfl | hc := List.mem_cons.mp hc
    · rfl
    · exact hindent c hc

theorem blank_colonGap (gap : List Char) : ∀ c ∈ colonGap gap, space c = true := by
  intro c hc
  unfold colonGap at hc
  split at hc
  · cases hc
  · rw [List.mem_singleton.mp hc]
    rfl

theorem blank_append {gap indent : List Char} (hgap : ∀ c ∈ gap, space c = true)
    (hindent : ∀ c ∈ indent, space c = true) : ∀ c ∈ indent ++ gap, space c = true := by
  intro c hc
  obtain h | h := List.mem_append.mp hc
  · exact hindent c h
  · exact hgap c h

theorem ends_lineBreak (gap indent : List Char) {c : Char} {s : List Char} (h : numeral c = false) :
    Ends (lineBreak gap indent ++ c :: s) := by
  unfold lineBreak
  split
  · exact ends_cons h
  · exact ends_cons rfl

section texts

variable [NumberText ν]

mutual

/-- `SerializeJSONProperty` -/
def Json.textWith (gap indent : List Char) : Json ν → List Char
  | .null => ['n', 'u', 'l', 'l']
  | .bool true => ['t', 'r', 'u', 'e']
  | .bool false => ['f', 'a', 'l', 's', 'e']
  | .num n => NumberText.text n
  | .str s => quote s
  | .arr items => '[' :: itemsTextWith gap indent true items
  | .obj fields => '{' :: fieldsTextWith gap indent true fields

def itemsTextWith (gap indent : List Char) (first : Bool) : List (Json ν) → List Char
  | [] => (if first then [] else lineBreak gap indent) ++ [']']
  | item :: rest =>
    (if first then [] else [',']) ++ (lineBreak gap (indent ++ gap) ++
      (item.textWith gap (indent ++ gap) ++ itemsTextWith gap indent false rest))

def fieldsTextWith (gap indent : List Char) (first : Bool) : List (String × Json ν) → List Char
  | [] => (if first then [] else lineBreak gap indent) ++ ['}']
  | field :: rest =>
    (if first then [] else [',']) ++ (lineBreak gap (indent ++ gap) ++
      (quote field.1 ++ ':' :: (colonGap gap ++
        (field.2.textWith gap (indent ++ gap) ++ fieldsTextWith gap indent false rest))))

end

/-- `JSON.stringify(v, null, gap)` -/
def Json.stringifyWith (gap : String) (v : Json ν) : String := String.ofList (v.textWith gap.toList [])

mutual

/-- The text without a gap. -/
theorem Json.textWith_nil (indent : List Char) (v : Json ν) : v.textWith [] indent = v.text := by
  cases v with
  | null => rw [Json.textWith, Json.text]
  | bool b => cases b <;> rw [Json.textWith, Json.text]
  | num n => rw [Json.textWith, Json.text]
  | str s => rw [Json.textWith, Json.text]
  | arr items => rw [Json.textWith, Json.text, itemsTextWith_nil]
  | obj fields => rw [Json.textWith, Json.text, fieldsTextWith_nil]

theorem itemsTextWith_nil (indent : List Char) (first : Bool) (items : List (Json ν)) :
    itemsTextWith [] indent first items = itemsText first items := by
  cases items with
  | nil =>
    rw [itemsTextWith, itemsText]
    cases first <;> rfl
  | cons item rest =>
    rw [itemsTextWith, itemsText, Json.textWith_nil, itemsTextWith_nil]
    rfl

theorem fieldsTextWith_nil (indent : List Char) (first : Bool) (fields : List (String × Json ν)) :
    fieldsTextWith [] indent first fields = fieldsText first fields := by
  cases fields with
  | nil =>
    rw [fieldsTextWith, fieldsText]
    cases first <;> rfl
  | cons field rest =>
    rw [fieldsTextWith, fieldsText, Json.textWith_nil, fieldsTextWith_nil]
    rfl

end

theorem Json.stringifyWith_empty (v : Json ν) : v.stringifyWith "" = v.stringify := by
  rw [Json.stringifyWith, Json.stringify, ← Json.textWith_nil []]
  rfl

theorem ends_items (gap indent : List Char) (items : List (Json ν)) (s : List Char) :
    Ends (itemsTextWith gap indent false items ++ s) := by
  cases items with
  | nil =>
    rw [itemsTextWith, List.append_assoc]
    exact ends_lineBreak gap indent rfl
  | cons item rest => exact ends_cons rfl

theorem ends_fields (gap indent : List Char) (fields : List (String × Json ν)) (s : List Char) :
    Ends (fieldsTextWith gap indent false fields ++ s) := by
  cases fields with
  | nil =>
    rw [fieldsTextWith, List.append_assoc]
    exact ends_lineBreak gap indent rfl
  | cons field rest => exact ends_cons rfl

end texts

variable [NumberReader ν]

/-- A value starts with no blank, and not as an array ends. -/
theorem textWith_opens (gap indent : List Char) (v : Json ν) :
    ∃ c rest, v.textWith gap indent = c :: rest ∧ space c = false ∧ c ≠ ']' := by
  cases v with
  | null => exact ⟨_, _, by rw [Json.textWith], rfl, by decide⟩
  | bool b =>
    cases b
    · exact ⟨_, _, by rw [Json.textWith], rfl, by decide⟩
    · exact ⟨_, _, by rw [Json.textWith], rfl, by decide⟩
  | num n =>
    obtain ⟨c, rest, htext, hopens⟩ := jsonNumber_opens (NumberReader.text_jsonNumber n)
    refine ⟨c, rest, by rw [Json.textWith, htext], ?_, ?_⟩
    · by_contra hspace
      simp only [space, Bool.not_eq_false, Bool.or_eq_true, beq_iff_eq] at hspace
      obtain ((rfl | rfl) | rfl) | rfl := hspace <;> cases hopens
    · rintro rfl
      cases hopens
  | str s => exact ⟨_, _, by rw [Json.textWith, quote], rfl, by decide⟩
  | arr items => exact ⟨_, _, by rw [Json.textWith], rfl, by decide⟩
  | obj fields => exact ⟨_, _, by rw [Json.textWith], rfl, by decide⟩

theorem numeral_text (n : ν) : ∀ c ∈ NumberText.text n, numeral c = true := by
  intro c hc
  rw [numeral, NumberText.chars n c hc, Bool.true_or]

/-! ## Lines -/

theorem newline_quoteChar (c : Char) : '\n' ∉ quoteChar c := by
  intro h
  have hhex : ∀ n : Fin 16, hexDigit n.val ≠ '\n' := by decide
  unfold quoteChar at h
  split at h
  · simp at h
  split at h
  · simp at h
  split at h
  · simp at h
  split at h
  · simp at h
  split at h
  · simp at h
  split at h
  · simp at h
  split at h
  · simp at h
  split at h
  · rename_i hlow
    simp only [List.mem_cons, List.not_mem_nil, or_false] at h
    obtain h | h | h | h | h | h := h
    · cases h
    · cases h
    · cases h
    · cases h
    · exact hhex ⟨c.toNat / 16, by omega⟩ h.symm
    · exact hhex ⟨c.toNat % 16, by omega⟩ h.symm
  · rename_i hten _ _ _
    rw [List.mem_singleton] at h
    rw [← h] at hten
    exact hten rfl

theorem newline_quoteChars (cs : List Char) : '\n' ∉ quoteChars cs := by
  induction cs with
  | nil =>
    rw [quoteChars]
    decide
  | cons c cs ih =>
    rw [quoteChars, List.mem_append, not_or]
    exact ⟨newline_quoteChar c, ih⟩

theorem newline_quote (s : String) : '\n' ∉ quote s := by
  rw [quote, List.mem_cons, not_or]
  exact ⟨by decide, newline_quoteChars s.toList⟩

mutual

/-- A text without a gap is one line. -/
theorem newline_text (v : Json ν) : '\n' ∉ v.text := by
  cases v with
  | null =>
    rw [Json.text]
    decide
  | bool b =>
    cases b
    · rw [Json.text]
      decide
    · rw [Json.text]
      decide
  | num n =>
    rw [Json.text]
    intro h
    have hchar := NumberText.chars n _ h
    exact absurd hchar (by decide)
  | str s =>
    rw [Json.text]
    exact newline_quote s
  | arr items =>
    rw [Json.text, List.mem_cons, not_or]
    exact ⟨by decide, newline_itemsText true items⟩
  | obj fields =>
    rw [Json.text, List.mem_cons, not_or]
    exact ⟨by decide, newline_fieldsText true fields⟩

theorem newline_itemsText (first : Bool) (items : List (Json ν)) : '\n' ∉ itemsText first items := by
  cases items with
  | nil =>
    rw [itemsText]
    decide
  | cons item rest =>
    rw [itemsText]
    simp only [List.mem_append, not_or]
    exact ⟨by cases first <;> decide, newline_text item, newline_itemsText false rest⟩

theorem newline_fieldsText (first : Bool) (fields : List (String × Json ν)) : '\n' ∉ fieldsText first fields := by
  cases fields with
  | nil =>
    rw [fieldsText]
    decide
  | cons field rest =>
    rw [fieldsText]
    simp only [List.mem_append, List.mem_cons, not_or]
    exact ⟨by cases first <;> decide, newline_quote field.1, by decide, newline_text field.2,
      newline_fieldsText false rest⟩

end

end JsonValues
