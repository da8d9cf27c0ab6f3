import ReproForge.JsonText

/-!
# Reading JSON

`JSON.parse` as an automaton with a stack that takes a text one character at a
time, and that it reads back what `JSON.stringify` wrote.
-/
namespace JsonValues

variable {ν : Type}

/-! ## Properties -/

/-- How an object lists the properties that it was given one after another. -/
class PropertyOrder where
  /-- No key occurs twice, and the keys are listed as an object enumerates them. -/
  inOrder : List String → Bool
  enumerate : {ν : Type} → List (String × Json ν) → List (String × Json ν)
  enumerate_inOrder : ∀ {ν : Type} {fields : List (String × Json ν)},
    inOrder (fields.map Prod.fst) = true → enumerate fields = fields
  inOrder_enumerate : ∀ {ν : Type} (fields : List (String × Json ν)),
    inOrder ((enumerate fields).map Prod.fst) = true
  mem_enumerate : ∀ {ν : Type} {fields : List (String × Json ν)} {f : String × Json ν},
    f ∈ enumerate fields → f ∈ fields
  inOrder_sublist : ∀ {keys keys' : List String}, keys.Sublist keys' → inOrder keys' = true → inOrder keys = true

export PropertyOrder (inOrder enumerate)

section properties

variable [PropertyOrder]

theorem inOrder_nil : inOrder [] = true :=
  PropertyOrder.inOrder_sublist (List.nil_sublist _) (PropertyOrder.inOrder_enumerate ([] : List (String × Json Unit)))

mutual

/-- Every object in it lists its properties as an object does. -/
def Json.settled : Json ν → Bool
  | .null | .bool _ | .num _ | .str _ => true
  | .arr items => itemsSettled items
  | .obj fields => inOrder (fields.map Prod.fst) && fieldsSettled fields

def itemsSettled : List (Json ν) → Bool
  | [] => true
  | item :: rest => item.settled && itemsSettled rest

def fieldsSettled : List (String × Json ν) → Bool
  | [] => true
  | field :: rest => field.2.settled && fieldsSettled rest

end

theorem itemsSettled_iff {items : List (Json ν)} : itemsSettled items = true ↔ ∀ v ∈ items, v.settled = true := by
  induction items with
  | nil => simp [itemsSettled]
  | cons item rest ih => simp [itemsSettled, ih]

theorem fieldsSettled_iff {fields : List (String × Json ν)} :
    fieldsSettled fields = true ↔ ∀ f ∈ fields, f.2.settled = true := by
  induction fields with
  | nil => simp [fieldsSettled]
  | cons field rest ih => simp [fieldsSettled, ih]

theorem Json.settled_arr {items : List (Json ν)} :
    (Json.arr items).settled = true ↔ ∀ v ∈ items, v.settled = true := by
  rw [Json.settled, itemsSettled_iff]

theorem Json.settled_obj {fields : List (String × Json ν)} :
    (Json.obj fields).settled = true ↔
      inOrder (fields.map Prod.fst) = true ∧ ∀ f ∈ fields, f.2.settled = true := by
  rw [Json.settled, Bool.and_eq_true, fieldsSettled_iff]

end properties

/-! ## The automaton -/

/-- What is read already of the arrays and objects that are still open. -/
inductive Frame (ν : Type) where
  | arr (items : List (Json ν))
  | obj (fields : List (String × Json ν)) (key : String)

/-- What a string is read for. -/
inductive Purpose (ν : Type) where
  | value (stack : List (Frame ν))
  | key (fields : List (String × Json ν)) (stack : List (Frame ν))

inductive Escape where
  | plain
  | slash
  /-- The digits so far, and how many come after the next one. -/
  | hex (code : Nat) (missing : Nat)

inductive Reading (ν : Type) where
  /-- A value comes next. -/
  | value (stack : List (Frame ν))
  /-- An array has been opened. -/
  | array (stack : List (Frame ν))
  /-- An object has been opened. -/
  | object (stack : List (Frame ν))
  /-- A key comes next. -/
  | nextKey (fields : List (String × Json ν)) (stack : List (Frame ν))
  | colon (fields : List (String × Json ν)) (key : String) (stack : List (Frame ν))
  | string (purpose : Purpose ν) (units : List Nat) (escape : Escape)
  | number (cs : List Char) (stack : List (Frame ν))
  /-- The rest of a literal. -/
  | word (rest : List Char) (v : Json ν) (stack : List (Frame ν))
  | done (v : Json ν) (stack : List (Frame ν))

section settled

variable [PropertyOrder]

def Frame.Settled : Frame ν → Prop
  | .arr items => ∀ v ∈ items, v.settled = true
  | .obj fields _ => ∀ f ∈ fields, f.2.settled = true

def Stacked (stack : List (Frame ν)) : Prop := ∀ frame ∈ stack, frame.Settled

theorem stacked_cons {frame : Frame ν} {stack : List (Frame ν)} :
    Stacked (frame :: stack) ↔ frame.Settled ∧ Stacked stack := List.forall_mem_cons

def Purpose.Settled : Purpose ν → Prop
  | .value stack => Stacked stack
  | .key fields stack => (∀ f ∈ fields, f.2.settled = true) ∧ Stacked stack

end settled

namespace Reading

/-- The first character of a value, or a blank before it. -/
def start (c : Char) (stack : List (Frame ν)) : Option (Reading ν) :=
  if space c then some (.value stack)
  else if c = '"' then some (.string (.value stack) [] .plain)
  else if c = '[' then some (.array stack)
  else if c = '{' then some (.object stack)
  else if c = 'n' then some (.word ['u', 'l', 'l'] .null stack)
  else if c = 't' then some (.word ['r', 'u', 'e'] (.bool true) stack)
  else if c = 'f' then some (.word ['a', 'l', 's', 'e'] (.bool false) stack)
  else if c == '-' || c.isDigit then some (.number [c] stack)
  else none

/-- Where a string is read to its end. -/
def finished (cs : List Char) : Purpose ν → Reading ν
  | .value stack => .done (.str (String.ofList cs)) stack
  | .key fields stack => .colon fields (String.ofList cs) stack

def closeString (purpose : Purpose ν) (units : List Nat) : Option (Reading ν) :=
  (scalars units).map (finished · purpose)

theorem closeString_chars (purpose : Purpose ν) (cs : List Char) :
    closeString purpose (cs.map Char.toNat) = some (finished cs purpose) := by
  rw [closeString, scalars_chars, Option.map_some]

def stepString (purpose : Purpose ν) (units : List Nat) (c : Char) : Escape → Option (Reading ν)
  | .plain =>
    if c = '"' then closeString purpose units
    else if c = '\\' then some (.string purpose units .slash)
    else if c.toNat < 32 then none
    else some (.string purpose (units ++ [c.toNat]) .plain)
  | .slash =>
    if c = 'u' then some (.string purpose units (.hex 0 3))
    else (escaped c).map (fun n => .string purpose (units ++ [n]) .plain)
  | .hex code 0 => (escapeDigit c).map (fun d => .string purpose (units ++ [code * 16 + d]) .plain)
  | .hex code (missing + 1) => (escapeDigit c).map (fun d => .string purpose units (.hex (code * 16 + d) missing))

variable [PropertyOrder]

/-- What comes after a value. -/
def follow (v : Json ν) (c : Char) : List (Frame ν) → Option (Reading ν)
  | [] => if space c then some (.done v []) else none
  | .arr items :: stack =>
    if space c then some (.done v (.arr items :: stack))
    else if c = ',' then some (.value (.arr (items ++ [v]) :: stack))
    else if c = ']' then some (.done (.arr (items ++ [v])) stack)
    else none
  | .obj fields key :: stack =>
    if space c then some (.done v (.obj fields key :: stack))
    else if c = ',' then some (.nextKey (fields ++ [(key, v)]) stack)
    else if c = '}' then some (.done (.obj (enumerate (fields ++ [(key, v)]))) stack)
    else none

/-- Every value read so far is settled. -/
def Settled : Reading ν → Prop
  | .value stack | .array stack | .object stack | .number _ stack => Stacked stack
  | .nextKey fields stack | .colon fields _ stack => (∀ f ∈ fields, f.2.settled = true) ∧ Stacked stack
  | .string purpose _ _ => purpose.Settled
  | .word _ v stack | .done v stack => v.settled = true ∧ Stacked stack

theorem settled_start {c : Char} {stack : List (Frame ν)} (hstack : Stacked stack) :
    ∀ r ∈ start c stack, r.Settled := by
  intro r h
  rw [Option.mem_def] at h
  unfold start at h
  split at h
  · cases h
    exact hstack
  split at h
  · cases h
    exact hstack
  split at h
  · cases h
    exact hstack
  split at h
  · cases h
    exact hstack
  split at h
  · cases h
    exact ⟨rfl, hstack⟩
  split at h
  · cases h
    exact ⟨rfl, hstack⟩
  split at h
  · cases h
    exact ⟨rfl, hstack⟩
  split at h
  · cases h
    exact hstack
  · cases h

theorem settled_snoc {fields : List (String × Json ν)} {key : String} {v : Json ν}
    (hfields : ∀ f ∈ fields, f.2.settled = true) (hv : v.settled = true) :
    ∀ f ∈ fields ++ [(key, v)], f.2.settled = true := by
  intro f hf
  obtain h | h := List.mem_append.mp hf
  · exact hfields f h
  · rw [List.mem_singleton.mp h]
    exact hv

theorem settled_follow {v : Json ν} {c : Char} {stack : List (Frame ν)} (hv : v.settled = true)
    (hstack : Stacked stack) : ∀ r ∈ follow v c stack, r.Settled := by
  intro r h
  rw [Option.mem_def] at h
  cases stack with
  | nil =>
    rw [follow] at h
    split at h
    · cases h
      exact ⟨hv, hstack⟩
    · cases h
  | cons frame stack =>
    obtain ⟨hframe, hrest⟩ := stacked_cons.mp hstack
    cases frame with
    | arr items =>
      have hitems : ∀ w ∈ items ++ [v], w.settled = true := by
        intro w hw
        obtain h | h := List.mem_append.mp hw
        · exact hframe w h
        · rw [List.mem_singleton.mp h]
          exact hv
      rw [follow] at h
      split at h
      · cases h
        exact ⟨hv, hstack⟩
      split at h
      · cases h
        exact stacked_cons.mpr ⟨hitems, hrest⟩
      split at h
      · cases h
        exact ⟨Json.settled_arr.mpr hitems, hrest⟩
      · cases h
    | obj fields key =>
      have hfields : ∀ f ∈ fields ++ [(key, v)], f.2.settled = true := settled_snoc hframe hv
      rw [follow] at h
      split at h
      · cases h
        exact ⟨hv, hstack⟩
      split at h
      · cases h
        exact ⟨hfields, hrest⟩
      split at h
      · cases h
        refine ⟨Json.settled_obj.mpr ⟨PropertyOrder.inOrder_enumerate _, ?_⟩, hrest⟩
        intro f hf
        exact hfields f (PropertyOrder.mem_enumerate hf)
      · cases h

theorem settled_stepString {purpose : Purpose ν} {units : List Nat} {c : Char} {escape : Escape}
    (hpurpose : purpose.Settled) : ∀ r ∈ stepString purpose units c escape, r.Settled := by
  intro r h
  rw [Option.mem_def] at h
  cases escape with
  | plain =>
    rw [stepString] at h
    split at h
    · obtain ⟨cs, -, rfl⟩ := Option.map_eq_some_iff.mp h
      cases purpose with
      | value stack => exact ⟨rfl, hpurpose⟩
      | key fields stack => exact hpurpose
    split at h
    · cases h
      exact hpurpose
    split at h
    · cases h
    · cases h
      exact hpurpose
  | slash =>
    rw [stepString] at h
    split at h
    · cases h
      exact hpurpose
    · obtain ⟨n, -, rfl⟩ := Option.map_eq_some_iff.mp h
      exact hpurpose
  | hex code missing =>
    cases missing with
    | zero =>
      obtain ⟨d, -, rfl⟩ := Option.map_eq_some_iff.mp h
      exact hpurpose
    | succ missing =>
      obtain ⟨d, -, rfl⟩ := Option.map_eq_some_iff.mp h
      exact hpurpose

variable [NumberReader ν]

def step (c : Char) : Reading ν → Option (Reading ν)
  | .value stack => start c stack
  | .array stack =>
    if space c then some (.array stack)
    else if c = ']' then some (.done (.arr []) stack)
    else start c (.arr [] :: stack)
  | .object stack =>
    if space c then some (.object stack)
    else if c = '}' then some (.done (.obj []) stack)
    else if c = '"' then some (.string (.key [] stack) [] .plain)
    else none
  | .nextKey fields stack =>
    if space c then some (.nextKey fields stack)
    else if c = '"' then some (.string (.key fields stack) [] .plain)
    else none
  | .colon fields key stack =>
    if space c then some (.colon fields key stack)
    else if c = ':' then some (.value (.obj fields key :: stack))
    else none
  | .string purpose units escape => stepString purpose units c escape
  | .number cs stack =>
    if numeral c then some (.number (cs ++ [c]) stack)
    else (readNumber cs).bind (fun n => follow (.num n) c stack)
  | .word [] v stack => follow v c stack
  | .word (d :: rest) v stack => if c = d then some (.word rest v stack) else none
  | .done v stack => follow v c stack

/-- The value, where the text ends after one. -/
def finish : Reading ν → Option (Json ν)
  | .done v [] => some v
  | .word [] v [] => some v
  | .number cs [] => (readNumber cs).map .num
  | _ => none

def read (r : Reading ν) : List Char → Option (Json ν)
  | [] => finish r
  | c :: cs => (step c r).bind (fun r => read r cs)

end Reading

variable [PropertyOrder] [NumberReader ν]

/-- `JSON.parse` -/
def Json.parse (s : String) : Option (Json ν) := Reading.read (.value []) s.toList

/-! ## Reading a text back -/

namespace Reading

theorem read_cons {c : Char} {cs : List Char} {r q : Reading ν} (h : step c r = some q) :
    read r (c :: cs) = read q cs := by
  rw [read, h, Option.bind_some]

/-! ### Strings -/

theorem plain_cons {purpose : Purpose ν} {units : List Nat} {c : Char} {cs : List Char} (hquote : c ≠ '"')
    (hslash : c ≠ '\\') (hcontrol : ¬c.toNat < 32) :
    read (.string purpose units .plain) (c :: cs) = read (.string purpose (units ++ [c.toNat]) .plain) cs := by
  apply read_cons
  rw [step, stepString, if_neg hquote, if_neg hslash, if_neg hcontrol]

/-- An escape of two characters. -/
theorem escape_cons {purpose : Purpose ν} {units : List Nat} {c : Char} {n : Nat} {cs : List Char} (hu : c ≠ 'u')
    (hc : escaped c = some n) :
    read (.string purpose units .plain) ('\\' :: c :: cs) = read (.string purpose (units ++ [n]) .plain) cs := by
  have hslash : step '\\' (.string purpose units .plain) = some (.string purpose units .slash) := rfl
  have hescape : step c (.string purpose units .slash) = some (.string purpose (units ++ [n]) .plain) := by
    rw [step, stepString, if_neg hu, hc, Option.map_some]
  rw [read_cons hslash, read_cons hescape]

theorem hex_cons {purpose : Purpose ν} {units : List Nat} {n : Nat} {cs : List Char} (h : n < 256) :
    read (.string purpose units .plain)
        ('\\' :: 'u' :: '0' :: '0' :: hexDigit (n / 16) :: hexDigit (n % 16) :: cs) =
      read (.string purpose (units ++ [n]) .plain) cs := by
  have hslash : step '\\' (.string purpose units .plain) = some (.string purpose units .slash) := rfl
  have hu : step 'u' (.string purpose units .slash) = some (.string purpose units (.hex 0 3)) := rfl
  have hzero : step '0' (.string purpose units (.hex 0 3)) = some (.string purpose units (.hex 0 2)) := rfl
  have hzero' : step '0' (.string purpose units (.hex 0 2)) = some (.string purpose units (.hex 0 1)) := rfl
  have hhigh : step (hexDigit (n / 16)) (.string purpose units (.hex 0 1)) =
      some (.string purpose units (.hex (0 * 16 + n / 16) 0)) := by
    rw [step, stepString, escapeDigit_hexDigit (by omega), Option.map_some]
  have hlow : step (hexDigit (n % 16)) (.string purpose units (.hex (0 * 16 + n / 16) 0)) =
      some (.string purpose (units ++ [n]) .plain) := by
    rw [step, stepString, escapeDigit_hexDigit (by omega), Option.map_some]
    have hn : (0 * 16 + n / 16) * 16 + n % 16 = n := by omega
    rw [hn]
  rw [read_cons hslash, read_cons hu, read_cons hzero, read_cons hzero', read_cons hhigh, read_cons hlow]

theorem read_quoteChar (purpose : Purpose ν) (units : List Nat) (c : Char) (cs : List Char) :
    read (.string purpose units .plain) (quoteChar c ++ cs) =
      read (.string purpose (units ++ [c.toNat]) .plain) cs := by
  unfold quoteChar
  by_cases hquote : c = '"'
  · rw [if_pos hquote, hquote]
    exact escape_cons (by decide) rfl
  by_cases hslash : c = '\\'
  · rw [if_neg hquote, if_pos hslash, hslash]
    exact escape_cons (by decide) rfl
  rw [if_neg hquote, if_neg hslash]
  split
  · rename_i h
    rw [h]
    exact escape_cons (by decide) rfl
  split
  · rename_i h
    rw [h]
    exact escape_cons (by decide) rfl
  split
  · rename_i h
    rw [h]
    exact escape_cons (by decide) rfl
  split
  · rename_i h
    rw [h]
    exact escape_cons (by decide) rfl
  split
  · rename_i h
    rw [h]
    exact escape_cons (by decide) rfl
  split
  · exact hex_cons (by omega)
  · exact plain_cons hquote hslash ‹_›

theorem read_quoteChars (purpose : Purpose ν) (done cs s : List Char) :
    read (.string purpose (done.map Char.toNat) .plain) (quoteChars cs ++ s) =
      read (finished (done ++ cs) purpose) s := by
  induction cs generalizing done with
  | nil =>
    rw [quoteChars, List.append_nil]
    apply read_cons
    rw [step, stepString, if_pos rfl, closeString_chars]
  | cons c cs ih =>
    rw [quoteChars, List.append_assoc, read_quoteChar]
    have hdone : done.map Char.toNat ++ [c.toNat] = (done ++ [c]).map Char.toNat := by
      rw [List.map_append, List.map_cons, List.map_nil]
    rw [hdone, ih, List.append_assoc, List.singleton_append]

theorem read_string (purpose : Purpose ν) (text : String) (s : List Char) :
    read (.string purpose [] .plain) (quoteChars text.toList ++ s) = read (finished text.toList purpose) s :=
  read_quoteChars purpose [] text.toList s

/-! ### Blanks -/

/-- A reading that passes over blanks. -/
def Idle (r : Reading ν) : Prop := ∀ c, space c = true → step c r = some r

theorem idle_value (stack : List (Frame ν)) : Idle (.value stack) := by
  intro c hc
  rw [step, start, if_pos hc]

theorem idle_array (stack : List (Frame ν)) : Idle (.array stack) := by
  intro c hc
  rw [step, if_pos hc]

theorem idle_object (stack : List (Frame ν)) : Idle (.object stack) := by
  intro c hc
  rw [step, if_pos hc]

theorem idle_nextKey (fields : List (String × Json ν)) (stack : List (Frame ν)) : Idle (.nextKey fields stack) := by
  intro c hc
  rw [step, if_pos hc]

theorem idle_done (v : Json ν) (stack : List (Frame ν)) : Idle (.done v stack) := by
  intro c hc
  rw [step]
  cases stack with
  | nil => rw [follow, if_pos hc]
  | cons frame stack => cases frame <;> rw [follow, if_pos hc]

theorem read_blank {r : Reading ν} (hr : Idle r) {blank s : List Char} (hblank : ∀ c ∈ blank, space c = true) :
    read r (blank ++ s) = read r s := by
  induction blank with
  | nil => rfl
  | cons c blank ih =>
    rw [List.cons_append, read_cons (hr c (hblank c List.mem_cons_self))]
    exact ih (fun d hd => hblank d (List.mem_cons_of_mem c hd))

/-! ### Words and numbers -/

theorem read_word (rest : List Char) (v : Json ν) (stack : List (Frame ν)) (s : List Char) :
    read (.word rest v stack) (rest ++ s) = read (.done v stack) s := by
  induction rest with
  | nil =>
    cases s with
    | nil => cases stack <;> rfl
    | cons c s => rw [List.nil_append, read, read, step, step]
  | cons d rest ih =>
    rw [List.cons_append, read_cons (q := .word rest v stack) (by rw [step, if_pos rfl]), ih]

theorem read_numerals (before cs : List Char) (stack : List (Frame ν)) (s : List Char)
    (hcs : ∀ c ∈ cs, numeral c = true) :
    read (.number before stack) (cs ++ s) = read (.number (before ++ cs) stack) s := by
  induction cs generalizing before with
  | nil => rw [List.nil_append, List.append_nil]
  | cons c cs ih =>
    have hstep : step c (.number before stack) = some (.number (before ++ [c]) stack) := by
      rw [step, if_pos (hcs c List.mem_cons_self)]
    rw [List.cons_append, read_cons hstep, ih _ (fun d hd => hcs d (List.mem_cons_of_mem c hd)), List.append_assoc,
      List.singleton_append]

theorem read_number (n : ν) (stack : List (Frame ν)) {s : List Char} (hs : Ends s) :
    read (.value stack) (NumberText.text n ++ s) = read (.done (.num n) stack) s := by
  obtain ⟨c, rest, htext, hopens⟩ := jsonNumber_opens (NumberReader.text_jsonNumber n)
  have hrest : ∀ d ∈ rest, numeral d = true := by
    intro d hd
    apply numeral_text n
    rw [htext]
    exact List.mem_cons_of_mem c hd
  have hstart : step c (.value stack) = some (.number [c] stack) := by
    have hne : ∀ d, (d == '-' || d.isDigit) = false → c ≠ d := by
      rintro d hd rfl
      rw [hopens] at hd
      cases hd
    have hblank : ¬space c = true := by
      intro hspace
      simp only [space, Bool.or_eq_true, beq_iff_eq] at hspace
      obtain ((h | h) | h) | h := hspace
      · exact hne ' ' rfl h
      · exact hne '\t' rfl h
      · exact hne '\n' rfl h
      · exact hne '\r' rfl h
    rw [step, start, if_neg hblank, if_neg (hne '"' rfl), if_neg (hne '[' rfl), if_neg (hne '{' rfl),
      if_neg (hne 'n' rfl), if_neg (hne 't' rfl), if_neg (hne 'f' rfl), if_pos hopens]
  rw [htext, List.cons_append, read_cons hstart, read_numerals [c] rest stack s hrest, List.singleton_append, ← htext]
  cases s with
  | nil =>
    rw [read, read]
    cases stack with
    | nil => rw [finish, finish, readNumber_text, Option.map_some]
    | cons frame stack => rw [finish.eq_def, finish.eq_def]
  | cons d s =>
    have hd : ¬numeral d = true := by
      rw [hs d rfl]
      exact Bool.false_ne_true
    rw [read, read, step, step, if_neg hd, readNumber_text, Option.bind_some]

/-! ### Values -/

/-- The first item of an array is read as any value. -/
theorem read_array {gap indent : List Char} {v : Json ν} {stack : List (Frame ν)} {s : List Char} :
    read (.array stack) (v.textWith gap indent ++ s) =
      read (.value (.arr [] :: stack)) (v.textWith gap indent ++ s) := by
  obtain ⟨c, rest, htext, hspace, hclose⟩ := textWith_opens gap indent v
  rw [htext, List.cons_append, read, read, step, step, if_neg (by rw [hspace]; exact Bool.false_ne_true),
    if_neg hclose]

mutual

/-- The text of a value is read as that value. -/
theorem read_textWith {gap indent : List Char} (hgap : ∀ c ∈ gap, space c = true)
    (hindent : ∀ c ∈ indent, space c = true) (v : Json ν) (hv : v.settled = true) (stack : List (Frame ν))
    {s : List Char} (hs : Ends s) :
    read (.value stack) (v.textWith gap indent ++ s) = read (.done v stack) s := by
  cases v with
  | null =>
    rw [Json.textWith]
    exact (read_cons rfl).trans (read_word ['u', 'l', 'l'] .null stack s)
  | bool b =>
    cases b
    · rw [Json.textWith]
      exact (read_cons rfl).trans (read_word ['a', 'l', 's', 'e'] (.bool false) stack s)
    · rw [Json.textWith]
      exact (read_cons rfl).trans (read_word ['r', 'u', 'e'] (.bool true) stack s)
  | num n =>
    rw [Json.textWith]
    exact read_number n stack hs
  | str text =>
    rw [Json.textWith, quote, List.cons_append]
    have hopen : step '"' (.value stack) = some (.string (.value stack) [] .plain) := rfl
    rw [read_cons hopen, read_string, finished, String.ofList_toList]
  | arr items =>
    rw [Json.settled] at hv
    rw [Json.textWith, List.cons_append]
    have hopen : step '[' (.value stack) = some (.array stack) := rfl
    rw [read_cons hopen]
    cases items with
    | nil => exact read_cons rfl
    | cons item rest =>
      rw [itemsSettled, Bool.and_eq_true] at hv
      rw [itemsTextWith, if_pos rfl, List.nil_append, List.append_assoc, List.append_assoc,
        read_blank (idle_array stack) (blank_lineBreak (blank_append hgap hindent)), read_array,
        read_textWith hgap (blank_append hgap hindent) item hv.1 (.arr [] :: stack) (ends_items gap indent rest s),
        read_items hgap hindent [] item rest hv.2 stack]
      rfl
  | obj fields =>
    rw [Json.settled, Bool.and_eq_true] at hv
    obtain ⟨horder, hfields⟩ := hv
    rw [Json.textWith, List.cons_append]
    have hopen : step '{' (.value stack) = some (.object stack) := rfl
    rw [read_cons hopen]
    cases fields with
    | nil => exact read_cons rfl
    | cons field rest =>
      rw [fieldsSettled, Bool.and_eq_true] at hfields
      have hkey : step '"' (.object stack) = some (.string (.key [] stack) [] .plain) := rfl
      have hcolon : step ':' (.colon [] field.1 stack) = some (.value (.obj [] field.1 :: stack)) := rfl
      rw [fieldsTextWith, if_pos rfl, List.nil_append, quote]
      simp only [List.append_assoc, List.cons_append]
      rw [read_blank (idle_object stack) (blank_lineBreak (blank_append hgap hindent)), read_cons hkey, read_string,
        finished, String.ofList_toList, read_cons hcolon, read_blank (idle_value _) (blank_colonGap gap),
        read_textWith hgap (blank_append hgap hindent) field.2 hfields.1 (.obj [] field.1 :: stack)
          (ends_fields gap indent rest s),
        read_fields hgap hindent [] field.1 field.2 rest hfields.2 horder stack]
      rfl

theorem read_items {gap indent : List Char} (hgap : ∀ c ∈ gap, space c = true)
    (hindent : ∀ c ∈ indent, space c = true) (before : List (Json ν)) (v : Json ν) (items : List (Json ν))
    (hitems : itemsSettled items = true) (stack : List (Frame ν)) {s : List Char} :
    read (.done v (.arr before :: stack)) (itemsTextWith gap indent false items ++ s) =
      read (.done (.arr (before ++ v :: items)) stack) s := by
  cases items with
  | nil =>
    have hclose : step ']' (.done v (.arr before :: stack)) = some (.done (.arr (before ++ [v])) stack) := rfl
    rw [itemsTextWith, if_neg Bool.false_ne_true, List.append_assoc, read_blank (idle_done v _)
      (blank_lineBreak hindent), List.singleton_append, read_cons hclose]
  | cons item rest =>
    rw [itemsSettled, Bool.and_eq_true] at hitems
    have hcomma : step ',' (.done v (.arr before :: stack)) = some (.value (.arr (before ++ [v]) :: stack)) := rfl
    rw [itemsTextWith, if_neg Bool.false_ne_true]
    simp only [List.append_assoc, List.cons_append, List.nil_append]
    rw [read_cons hcomma, read_blank (idle_value _) (blank_lineBreak (blank_append hgap hindent)),
      read_textWith hgap (blank_append hgap hindent) item hitems.1 _ (ends_items gap indent rest s),
      read_items hgap hindent (before ++ [v]) item rest hitems.2 stack, List.append_assoc, List.singleton_append]

theorem read_fields {gap indent : List Char} (hgap : ∀ c ∈ gap, space c = true)
    (hindent : ∀ c ∈ indent, space c = true) (before : List (String × Json ν)) (key : String) (v : Json ν)
    (fields : List (String × Json ν)) (hfields : fieldsSettled fields = true)
    (horder : inOrder ((before ++ (key, v) :: fields).map Prod.fst) = true) (stack : List (Frame ν)) {s : List Char} :
    read (.done v (.obj before key :: stack)) (fieldsTextWith gap indent false fields ++ s) =
      read (.done (.obj (before ++ (key, v) :: fields)) stack) s := by
  cases fields with
  | nil =>
    have hclose : step '}' (.done v (.obj before key :: stack)) =
        some (.done (.obj (enumerate (before ++ [(key, v)]))) stack) := rfl
    rw [fieldsTextWith, if_neg Bool.false_ne_true, List.append_assoc, read_blank (idle_done v _)
      (blank_lineBreak hindent), List.singleton_append, read_cons hclose, PropertyOrder.enumerate_inOrder horder]
  | cons field rest =>
    rw [fieldsSettled, Bool.and_eq_true] at hfields
    have hcomma : step ',' (.done v (.obj before key :: stack)) =
        some (.nextKey (before ++ [(key, v)]) stack) := rfl
    have hkey : step '"' (.nextKey (before ++ [(key, v)]) stack) =
        some (.string (.key (before ++ [(key, v)]) stack) [] .plain) := rfl
    have hcolon : step ':' (.colon (before ++ [(key, v)]) field.1 stack) =
        some (.value (.obj (before ++ [(key, v)]) field.1 :: stack)) := rfl
    have hlist : before ++ (key, v) :: field :: rest = (before ++ [(key, v)]) ++ (field.1, field.2) :: rest := by
      rw [List.append_assoc, List.singleton_append]
    rw [fieldsTextWith, if_neg Bool.false_ne_true, quote]
    simp only [List.append_assoc, List.cons_append, List.nil_append]
    rw [read_cons hcomma, read_blank (idle_nextKey _ _) (blank_lineBreak (blank_append hgap hindent)), read_cons hkey,
      read_string, finished, String.ofList_toList, read_cons hcolon, read_blank (idle_value _) (blank_colonGap gap),
      read_textWith hgap (blank_append hgap hindent) field.2 hfields.1 _ (ends_fields gap indent rest s),
      read_fields hgap hindent (before ++ [(key, v)]) field.1 field.2 rest hfields.2 (hlist ▸ horder) stack, ← hlist]

end

end Reading

/-- `JSON.parse` undoes `JSON.stringify`, whatever blanks the gap is made of. -/
theorem Json.parse_stringifyWith {gap : String} (hgap : ∀ c ∈ gap.toList, space c = true) {v : Json ν}
    (hv : v.settled = true) : Json.parse (v.stringifyWith gap) = some v := by
  have hblank : ∀ c ∈ ([] : List Char), space c = true := by simp
  have hread := Reading.read_textWith hgap hblank v hv [] ends_nil
  rw [List.append_nil] at hread
  rw [Json.parse, Json.stringifyWith, String.toList_ofList, hread]
  rfl

theorem Json.parse_stringify {v : Json ν} (hv : v.settled = true) : Json.parse v.stringify = some v := by
  rw [← Json.stringifyWith_empty]
  exact Json.parse_stringifyWith (by simp) hv

/-! ## What is read is settled -/

namespace Reading

theorem settled_step {c : Char} {r : Reading ν} (hr : r.Settled) : ∀ r' ∈ step c r, r'.Settled := by
  intro r' h
  rw [Option.mem_def] at h
  cases r with
  | value stack => exact settled_start hr r' h
  | array stack =>
    rw [step] at h
    split at h
    · cases h
      exact hr
    split at h
    · cases h
      exact ⟨rfl, hr⟩
    · have hframe : (Frame.arr ([] : List (Json ν))).Settled := by
        intro v hv
        cases hv
      exact settled_start (stacked_cons.mpr ⟨hframe, hr⟩) r' h
  | object stack =>
    have hnone : ∀ f ∈ ([] : List (String × Json ν)), f.2.settled = true := by
      intro f hf
      cases hf
    rw [step] at h
    split at h
    · cases h
      exact hr
    split at h
    · cases h
      exact ⟨Json.settled_obj.mpr ⟨inOrder_nil, hnone⟩, hr⟩
    split at h
    · cases h
      exact ⟨hnone, hr⟩
    · cases h
  | nextKey fields stack =>
    rw [step] at h
    split at h
    · cases h
      exact hr
    split at h
    · cases h
      exact hr
    · cases h
  | colon fields key stack =>
    rw [step] at h
    split at h
    · cases h
      exact hr
    split at h
    · cases h
      exact stacked_cons.mpr hr
    · cases h
  | string purpose units escape => exact settled_stepString hr r' h
  | number cs stack =>
    rw [step] at h
    split at h
    · cases h
      exact hr
    · obtain ⟨n, -, hfollow⟩ := Option.bind_eq_some_iff.mp h
      exact settled_follow (by rw [Json.settled]) hr r' hfollow
  | word rest v stack =>
    cases rest with
    | nil => exact settled_follow hr.1 hr.2 r' h
    | cons d rest =>
      rw [step] at h
      split at h
      · cases h
        exact hr
      · cases h
  | done v stack => exact settled_follow hr.1 hr.2 r' h

theorem settled_finish {r : Reading ν} (hr : r.Settled) : ∀ v ∈ finish r, v.settled = true := by
  intro v h
  rw [Option.mem_def] at h
  unfold finish at h
  split at h
  · cases h
    exact hr.1
  · cases h
    exact hr.1
  · obtain ⟨n, -, rfl⟩ := Option.map_eq_some_iff.mp h
    rw [Json.settled]
  · cases h

theorem settled_read {r : Reading ν} {cs : List Char} (hr : r.Settled) : ∀ v ∈ read r cs, v.settled = true := by
  induction cs generalizing r with
  | nil => exact settled_finish hr
  | cons c cs ih =>
    intro v h
    obtain ⟨r', hstep, hread⟩ := Option.bind_eq_some_iff.mp h
    exact ih (settled_step hr r' hstep) v hread

end Reading

theorem Json.settled_of_parse {s : String} {v : Json ν} (h : Json.parse s = some v) : v.settled = true := by
  have hempty : (Reading.value ([] : List (Frame ν))).Settled := by
    intro frame hframe
    cases hframe
  exact Reading.settled_read hempty v h

end JsonValues
