import Mathlib.Data.List.Basic
import Mathlib.Data.Char
import Mathlib.Data.String.Basic

/-!
# JSON values and their text

Values, the text that `JSON.stringify` gives them, and unique readability: a
value is determined by its text, and by where its text ends in a longer one.
-/
namespace JsonValues

/-- The characters of a number. -/
def numberChar (c : Char) : Bool := c.isDigit || c == '+' || c == '-' || c == '.' || c == 'e'

/-- `Number::toString` on the finite numbers, with the two zeros identified. -/
class NumberText (ν : Type) where
  text : ν → List Char
  nonempty : ∀ n, text n ≠ []
  chars : ∀ n, ∀ c ∈ text n, numberChar c = true
  injective : ∀ {m n}, text m = text n → m = n

/-- An object lists its properties in the order in which they are enumerated. -/
inductive Json (ν : Type) where
  | null
  | bool (b : Bool)
  | num (n : ν)
  | str (s : String)
  | arr (items : List (Json ν))
  | obj (fields : List (String × Json ν))

/-! ## Strings -/

def hexDigit (n : Nat) : Char := if n < 10 then Char.ofNat (48 + n) else Char.ofNat (87 + n)

def hexValue (c : Char) : Nat := if c.toNat < 97 then c.toNat - 48 else c.toNat - 87

/-- `QuoteJSONString` on one character. -/
def quoteChar (c : Char) : List Char :=
  if c = '"' then ['\\', '"']
  else if c = '\\' then ['\\', '\\']
  else if c.toNat = 8 then ['\\', 'b']
  else if c.toNat = 9 then ['\\', 't']
  else if c.toNat = 10 then ['\\', 'n']
  else if c.toNat = 12 then ['\\', 'f']
  else if c.toNat = 13 then ['\\', 'r']
  else if c.toNat < 32 then ['\\', 'u', '0', '0', hexDigit (c.toNat / 16), hexDigit (c.toNat % 16)]
  else [c]

/-- The character that an escaped text starts with, and what follows it. -/
def unquoteChar : List Char → Option (Char × List Char)
  | [] => none
  | '"' :: _ => none
  | '\\' :: 'u' :: _ :: _ :: a :: b :: rest => some (Char.ofNat (hexValue a * 16 + hexValue b), rest)
  | '\\' :: 'b' :: rest => some (Char.ofNat 8, rest)
  | '\\' :: 't' :: rest => some (Char.ofNat 9, rest)
  | '\\' :: 'n' :: rest => some (Char.ofNat 10, rest)
  | '\\' :: 'f' :: rest => some (Char.ofNat 12, rest)
  | '\\' :: 'r' :: rest => some (Char.ofNat 13, rest)
  | '\\' :: c :: rest => some (c, rest)
  | c :: rest => some (c, rest)

theorem hexValue_hexDigit {n : Nat} (h : n < 16) : hexValue (hexDigit n) = n := by
  have hall : ∀ n : Fin 16, hexValue (hexDigit n.val) = n.val := by decide
  exact hall ⟨n, h⟩

/-- A character that stands for itself. -/
theorem unquoteChar_plain {c : Char} (hquote : c ≠ '"') (hslash : c ≠ '\\') (rest : List Char) :
    unquoteChar (c :: rest) = some (c, rest) := by
  unfold unquoteChar
  split <;> simp_all

theorem unquoteChar_quoteChar (c : Char) (rest : List Char) :
    unquoteChar (quoteChar c ++ rest) = some (c, rest) := by
  have hback : ∀ n, c.toNat = n → some (Char.ofNat n, rest) = some (c, rest) := by
    rintro n rfl
    rw [Char.ofNat_toNat]
  unfold quoteChar
  by_cases hquote : c = '"'
  · rw [if_pos hquote, hquote]
    rfl
  by_cases hslash : c = '\\'
  · rw [if_neg hquote, if_pos hslash, hslash]
    rfl
  rw [if_neg hquote, if_neg hslash]
  split
  · exact hback 8 ‹_›
  split
  · exact hback 9 ‹_›
  split
  · exact hback 10 ‹_›
  split
  · exact hback 12 ‹_›
  split
  · exact hback 13 ‹_›
  split
  · rename_i hlow
    have hcode : hexValue (hexDigit (c.toNat / 16)) * 16 + hexValue (hexDigit (c.toNat % 16)) = c.toNat := by
      rw [hexValue_hexDigit (by omega), hexValue_hexDigit (by omega)]
      omega
    have hescape : unquoteChar (['\\', 'u', '0', '0', hexDigit (c.toNat / 16), hexDigit (c.toNat % 16)] ++ rest) =
        some (Char.ofNat (hexValue (hexDigit (c.toNat / 16)) * 16 + hexValue (hexDigit (c.toNat % 16))), rest) := rfl
    rw [hescape]
    exact hback _ hcode.symm
  · exact unquoteChar_plain hquote hslash rest

/-- The rest of a quoted string. -/
def quoteChars : List Char → List Char
  | [] => ['"']
  | c :: rest => quoteChar c ++ quoteChars rest

def quote (s : String) : List Char := '"' :: quoteChars s.toList

theorem quoteChars_inj {cs ds s t : List Char} (h : quoteChars cs ++ s = quoteChars ds ++ t) : cs = ds ∧ s = t := by
  induction cs generalizing ds with
  | nil =>
    cases ds with
    | nil => exact ⟨rfl, (List.cons.inj h).2⟩
    | cons d ds =>
      have hread := congrArg unquoteChar h
      rw [quoteChars, quoteChars, List.append_assoc, unquoteChar_quoteChar] at hread
      cases hread
  | cons c cs ih =>
    have hread := congrArg unquoteChar h
    rw [quoteChars, List.append_assoc, unquoteChar_quoteChar] at hread
    cases ds with
    | nil =>
      rw [quoteChars] at hread
      cases hread
    | cons d ds =>
      rw [quoteChars, List.append_assoc, unquoteChar_quoteChar] at hread
      obtain ⟨rfl, hrest⟩ := Prod.mk.inj (Option.some.inj hread)
      obtain ⟨rfl, rfl⟩ := ih hrest
      exact ⟨rfl, rfl⟩

/-! ## Values -/

variable {ν : Type} [NumberText ν]

mutual

/-- `JSON.stringify` -/
def Json.text : Json ν → List Char
  | .null => ['n', 'u', 'l', 'l']
  | .bool true => ['t', 'r', 'u', 'e']
  | .bool false => ['f', 'a', 'l', 's', 'e']
  | .num n => NumberText.text n
  | .str s => quote s
  | .arr items => '[' :: itemsText true items
  | .obj fields => '{' :: fieldsText true fields

/-- A comma stands before every item but the first. -/
def itemsText (first : Bool) : List (Json ν) → List Char
  | [] => [']']
  | item :: rest => (if first then [] else [',']) ++ (item.text ++ itemsText false rest)

def fieldsText (first : Bool) : List (String × Json ν) → List Char
  | [] => ['}']
  | field :: rest =>
    (if first then [] else [',']) ++ (quote field.1 ++ ':' :: (field.2.text ++ fieldsText false rest))

end

def Json.stringify (v : Json ν) : String := String.ofList v.text

/-- What comes after a value cannot go on with a number. -/
def Closed (s : List Char) : Prop := ∀ c ∈ s.head?, numberChar c = false

theorem closed_nil : Closed [] := fun _ h => (nomatch h)

theorem closed_cons {c : Char} {s : List Char} (h : numberChar c = false) : Closed (c :: s) := by
  rintro _ ⟨⟩
  exact h

theorem closed_items (items : List (Json ν)) (s : List Char) : Closed (itemsText false items ++ s) := by
  cases items with
  | nil => exact closed_cons rfl
  | cons item rest => exact closed_cons rfl

theorem closed_fields (fields : List (String × Json ν)) (s : List Char) : Closed (fieldsText false fields ++ s) := by
  cases fields with
  | nil => exact closed_cons rfl
  | cons field rest => exact closed_cons rfl

/-- The text of a number ends where the characters of a number end. -/
theorem number_inj {m n : ν} {s t : List Char} (hs : Closed s) (ht : Closed t)
    (h : NumberText.text m ++ s = NumberText.text n ++ t) : m = n ∧ s = t := by
  have hspan : ∀ (n : ν) (s : List Char), Closed s →
      (NumberText.text n ++ s).takeWhile numberChar = NumberText.text n := by
    intro n s hs
    rw [List.takeWhile_append_of_pos (NumberText.chars n)]
    have hend : s.takeWhile numberChar = [] := by
      cases s with
      | nil => rfl
      | cons c rest => simp [hs c rfl]
    rw [hend, List.append_nil]
  have htext := congrArg (List.takeWhile numberChar) h
  rw [hspan m s hs, hspan n t ht] at htext
  obtain rfl := NumberText.injective htext
  exact ⟨rfl, List.append_cancel_left h⟩

/-- The kind of a value, and the kind that its first character announces. -/
def Json.kind : Json ν → Nat
  | .null => 0
  | .bool true => 1
  | .bool false => 2
  | .num _ => 3
  | .str _ => 4
  | .arr _ => 5
  | .obj _ => 6

def kindOf (c : Char) : Nat :=
  if c = 'n' then 0
  else if c = 't' then 1
  else if c = 'f' then 2
  else if c = '"' then 4
  else if c = '[' then 5
  else if c = '{' then 6
  else if numberChar c then 3
  else 7

theorem kindOf_number {c : Char} (h : numberChar c = true) : kindOf c = 3 := by
  have hne : ∀ d, numberChar d = false → c ≠ d := by
    rintro d hd rfl
    rw [h] at hd
    cases hd
  unfold kindOf
  rw [if_neg (hne 'n' rfl), if_neg (hne 't' rfl), if_neg (hne 'f' rfl), if_neg (hne '"' rfl), if_neg (hne '[' rfl),
    if_neg (hne '{' rfl), if_pos h]

theorem Json.text_opens (a : Json ν) : ∃ c rest, a.text = c :: rest ∧ kindOf c = a.kind := by
  cases a with
  | null => exact ⟨_, _, by rw [Json.text], rfl⟩
  | bool b =>
    cases b
    · exact ⟨_, _, by rw [Json.text], rfl⟩
    · exact ⟨_, _, by rw [Json.text], rfl⟩
  | num n =>
    obtain ⟨c, rest, htext⟩ := List.exists_cons_of_ne_nil (NumberText.nonempty n)
    refine ⟨c, rest, by rw [Json.text, htext], kindOf_number (NumberText.chars n c ?_)⟩
    rw [htext]
    exact List.mem_cons_self
  | str s => exact ⟨_, _, by rw [Json.text, quote], rfl⟩
  | arr items => exact ⟨_, _, by rw [Json.text], rfl⟩
  | obj fields => exact ⟨_, _, by rw [Json.text], rfl⟩

theorem Json.kind_eq {a b : Json ν} {s t : List Char} (h : a.text ++ s = b.text ++ t) : a.kind = b.kind := by
  obtain ⟨c, rest, ha, hac⟩ := a.text_opens
  obtain ⟨d, rest', hb, hbd⟩ := b.text_opens
  rw [ha, hb] at h
  rw [← hac, ← hbd, (List.cons.inj h).1]

/-- No value starts with the end of a list. -/
theorem Json.text_ne {a : Json ν} {c : Char} {s t : List Char} (hc : kindOf c = 7) : a.text ++ s ≠ c :: t := by
  intro h
  obtain ⟨d, rest, ha, had⟩ := a.text_opens
  rw [ha] at h
  have hkind : a.kind = 7 := by rw [← had, (List.cons.inj h).1, hc]
  revert hkind
  cases a with
  | bool b => cases b <;> simp [kind]
  | _ => simp [kind]

mutual

/-- Unique readability. -/
theorem Json.text_inj (a b : Json ν) {s t : List Char} (hs : Closed s) (ht : Closed t)
    (h : a.text ++ s = b.text ++ t) : a = b ∧ s = t := by
  have hkind := Json.kind_eq h
  cases a with
  | null =>
    cases b with
    | null => exact ⟨rfl, List.append_cancel_left h⟩
    | bool b => cases b <;> cases hkind
    | _ => cases hkind
  | bool a =>
    cases b with
    | bool b =>
      cases a <;> cases b
      · exact ⟨rfl, List.append_cancel_left h⟩
      · cases hkind
      · cases hkind
      · exact ⟨rfl, List.append_cancel_left h⟩
    | _ => cases a <;> cases hkind
  | num m =>
    cases b with
    | num n =>
      rw [Json.text, Json.text] at h
      obtain ⟨rfl, rfl⟩ := number_inj hs ht h
      exact ⟨rfl, rfl⟩
    | bool b => cases b <;> cases hkind
    | _ => cases hkind
  | str a =>
    cases b with
    | str b =>
      rw [Json.text, Json.text, quote, quote] at h
      obtain ⟨hab, rfl⟩ := quoteChars_inj (List.cons.inj h).2
      exact ⟨congrArg Json.str (String.toList_inj.mp hab), rfl⟩
    | bool b => cases b <;> cases hkind
    | _ => cases hkind
  | arr xs =>
    cases b with
    | arr ys =>
      rw [Json.text, Json.text] at h
      obtain ⟨rfl, rfl⟩ := itemsText_inj true xs ys (List.cons.inj h).2
      exact ⟨rfl, rfl⟩
    | bool b => cases b <;> cases hkind
    | _ => cases hkind
  | obj xs =>
    cases b with
    | obj ys =>
      rw [Json.text, Json.text] at h
      obtain ⟨rfl, rfl⟩ := fieldsText_inj true xs ys (List.cons.inj h).2
      exact ⟨rfl, rfl⟩
    | bool b => cases b <;> cases hkind
    | _ => cases hkind

theorem itemsText_inj (first : Bool) (xs ys : List (Json ν)) {s t : List Char}
    (h : itemsText first xs ++ s = itemsText first ys ++ t) : xs = ys ∧ s = t := by
  cases xs with
  | nil =>
    cases ys with
    | nil => exact ⟨rfl, (List.cons.inj h).2⟩
    | cons y ys =>
      rw [itemsText, itemsText, List.append_assoc] at h
      cases first with
      | true => exact absurd h.symm (by rw [List.append_assoc]; exact Json.text_ne rfl)
      | false => exact absurd (List.cons.inj h).1 (by decide)
  | cons x xs =>
    cases ys with
    | nil =>
      rw [itemsText, itemsText, List.append_assoc] at h
      cases first with
      | true => exact absurd h (by rw [List.append_assoc]; exact Json.text_ne rfl)
      | false => exact absurd (List.cons.inj h).1 (by decide)
    | cons y ys =>
      simp only [itemsText, List.append_assoc] at h
      have hrest := List.append_cancel_left h
      obtain ⟨rfl, hitems⟩ := Json.text_inj x y (closed_items xs s) (closed_items ys t) hrest
      obtain ⟨rfl, rfl⟩ := itemsText_inj false xs ys hitems
      exact ⟨rfl, rfl⟩

theorem fieldsText_inj (first : Bool) (xs ys : List (String × Json ν)) {s t : List Char}
    (h : fieldsText first xs ++ s = fieldsText first ys ++ t) : xs = ys ∧ s = t := by
  cases xs with
  | nil =>
    cases ys with
    | nil => exact ⟨rfl, (List.cons.inj h).2⟩
    | cons y ys =>
      rw [fieldsText, fieldsText, List.append_assoc] at h
      cases first with
      | true => exact absurd (List.cons.inj h).1 (by decide)
      | false => exact absurd (List.cons.inj h).1 (by decide)
  | cons x xs =>
    cases ys with
    | nil =>
      rw [fieldsText, fieldsText, List.append_assoc] at h
      cases first with
      | true => exact absurd (List.cons.inj h).1 (by decide)
      | false => exact absurd (List.cons.inj h).1 (by decide)
    | cons y ys =>
      obtain ⟨k, v⟩ := x
      obtain ⟨k', v'⟩ := y
      simp only [fieldsText, quote, List.append_assoc, List.cons_append] at h
      have hrest := List.append_cancel_left h
      obtain ⟨hkey, hvalue⟩ := quoteChars_inj (List.cons.inj hrest).2
      obtain ⟨rfl, hfields⟩ := Json.text_inj v v' (closed_fields xs s) (closed_fields ys t) (List.cons.inj hvalue).2
      obtain ⟨rfl, rfl⟩ := fieldsText_inj false xs ys hfields
      rw [String.toList_inj.mp hkey]
      exact ⟨rfl, rfl⟩

end

theorem Json.stringify_inj {a b : Json ν} (h : a.stringify = b.stringify) : a = b := by
  have htext : a.text = b.text := String.ofList_injective h
  exact (Json.text_inj a b closed_nil closed_nil (by rw [htext])).1

end JsonValues
