import ReproForge.Schemas
import Mathlib.Data.List.TakeWhile

/-!
# Integers as numbers

The integers with their decimal texts are numbers of JSON.
-/
namespace JsonValues.Decimal

open Nat (toDigits ofDigitChars)

theorem digit_ne_sign {c : Char} (h : c.isDigit = true) : c ≠ '-' := by
  rintro rfl
  cases h

theorem head_toDigits {n : Nat} (h : 0 < n) : (toDigits 10 n).head? ≠ some '0' := by
  induction n using Nat.strongRecOn with
  | ind n ih =>
    rw [Nat.toDigits_eq_if (by decide)]
    split
    · rename_i hlt
      have hdigit : ∀ k : Fin 10, 0 < k.val → ([k.val.digitChar] : List Char).head? ≠ some '0' := by decide
      exact hdigit ⟨n, hlt⟩ h
    · rename_i hge
      have hhead := ih (n / 10) (by omega) (by omega)
      cases hdigits : toDigits 10 (n / 10) with
      | nil => exact absurd hdigits Nat.toDigits_ne_nil
      | cons c rest =>
        rw [hdigits] at hhead
        exact hhead

theorem isDigit_toDigits {n : Nat} {c : Char} (h : c ∈ toDigits 10 n) : c.isDigit = true :=
  Nat.isDigit_of_mem_toDigits (by decide) (by decide) h

theorem fraction_digits {cs : List Char} (h : ∀ c ∈ cs, c.isDigit = true) :
    fraction (cs.dropWhile Char.isDigit) = true := by
  have hnil : cs.dropWhile Char.isDigit = [] := List.dropWhile_eq_nil_iff.mpr h
  rw [hnil]
  rfl

theorem unsigned_toDigits (n : Nat) : unsigned (toDigits 10 n) = true := by
  by_cases hzero : n = 0
  · rw [hzero]
    rfl
  · have hhead := head_toDigits (Nat.pos_of_ne_zero hzero)
    have hdigits : ∀ c ∈ toDigits 10 n, c.isDigit = true := fun c hc => isDigit_toDigits hc
    cases hlist : toDigits 10 n with
    | nil => exact absurd hlist Nat.toDigits_ne_nil
    | cons c rest =>
      rw [hlist] at hhead hdigits
      unfold unsigned
      split
      · rename_i heq
        rw [(List.cons.inj heq).1] at hhead
        exact absurd rfl hhead
      · rename_i heq
        rw [← (List.cons.inj heq).1, ← (List.cons.inj heq).2, hdigits c List.mem_cons_self,
          fraction_digits (fun d hd => hdigits d (List.mem_cons_of_mem c hd))]
        rfl
      · rename_i heq
        cases heq

def text (i : Int) : List Char := if i < 0 then '-' :: toDigits 10 i.natAbs else toDigits 10 i.natAbs

def ofText : List Char → Option Int
  | '-' :: ds => if ds.all Char.isDigit then some (-(ofDigitChars 10 ds 0 : Int)) else none
  | ds => if ds.all Char.isDigit then some (ofDigitChars 10 ds 0 : Int) else none

theorem all_digits (n : Nat) : (toDigits 10 n).all Char.isDigit = true :=
  List.all_eq_true.mpr (fun _ hc => isDigit_toDigits hc)

theorem toDigits_opens (n : Nat) : ∃ c rest, toDigits 10 n = c :: rest ∧ c ≠ '-' := by
  cases hlist : toDigits 10 n with
  | nil => exact absurd hlist Nat.toDigits_ne_nil
  | cons c rest =>
    refine ⟨c, rest, rfl, digit_ne_sign (isDigit_toDigits (n := n) ?_)⟩
    rw [hlist]
    exact List.mem_cons_self

theorem ofText_digits (n : Nat) : ofText (toDigits 10 n) = some (n : Int) := by
  obtain ⟨c, rest, hlist, hsign⟩ := toDigits_opens n
  have hdigits : ofText (toDigits 10 n) =
      if (toDigits 10 n).all Char.isDigit then some (ofDigitChars 10 (toDigits 10 n) 0 : Int) else none := by
    rw [hlist]
    unfold ofText
    split
    · rename_i heq
      exact absurd (List.cons.inj heq).1 hsign
    · rfl
  rw [hdigits, if_pos (all_digits n), Nat.ofDigitChars_ten_toDigits]

theorem ofText_text (i : Int) : ofText (text i) = some i := by
  by_cases hneg : i < 0
  · rw [text, if_pos hneg, ofText, if_pos (all_digits _), Nat.ofDigitChars_ten_toDigits]
    congr 1
    omega
  · rw [text, if_neg hneg, ofText_digits]
    congr 1
    omega

theorem numberChar_digit {c : Char} (h : c.isDigit = true) : numberChar c = true := by
  simp [numberChar, h]

theorem chars_text (i : Int) : ∀ c ∈ text i, numberChar c = true := by
  intro c hc
  rw [text] at hc
  split at hc
  · obtain rfl | hc := List.mem_cons.mp hc
    · rfl
    · exact numberChar_digit (isDigit_toDigits hc)
  · exact numberChar_digit (isDigit_toDigits hc)

theorem jsonNumber_digits (n : Nat) : jsonNumber (toDigits 10 n) = true := by
  obtain ⟨c, rest, hlist, hsign⟩ := toDigits_opens n
  have hunsigned := unsigned_toDigits n
  rw [hlist] at hunsigned ⊢
  unfold jsonNumber
  split
  · rename_i heq
    exact absurd (List.cons.inj heq).1 hsign
  · exact hunsigned

theorem jsonNumber_text (i : Int) : jsonNumber (text i) = true := by
  rw [text]
  split
  · exact unsigned_toDigits _
  · exact jsonNumber_digits _

theorem text_ne_nil (i : Int) : text i ≠ [] := by
  rw [text]
  split
  · exact List.cons_ne_nil _ _
  · exact Nat.toDigits_ne_nil

scoped instance : IntegerNumber Int where
  text := text
  nonempty := text_ne_nil
  chars := chars_text
  injective h := by
    have hread := congrArg ofText h
    rw [ofText_text, ofText_text] at hread
    exact Option.some.inj hread
  ofText := ofText
  ofText_text := ofText_text
  text_jsonNumber := jsonNumber_text
  ofInt := id
  toInt := some
  toInt_ofInt _ := rfl

end JsonValues.Decimal
