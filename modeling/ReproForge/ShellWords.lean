import Mathlib.Data.List.Basic

/-!
# Words of a shell command

How a POSIX shell takes a command line apart into words: blanks part them, and
what is quoted stands for itself. A text that would ask the shell for more (an
expansion, an operator, an assignment, a comment) is not read.
-/
namespace Shell

inductive Quoting where
  | plain | single | double
  deriving DecidableEq, Repr

/-- Outside of quotes these characters do not stand for themselves, or not everywhere. -/
def special (c : Char) : Bool :=
  ['|', '&', ';', '<', '>', '(', ')', '$', '\u0060', '\\', '"', '\'', ' ', '\t', '\n', '*', '?', '[', ']', '#', '~',
    '=', '%', '!', '{', '}', '^'].contains c

/-- Within double quotes these characters start an expansion or an escape. -/
def expands (c : Char) : Bool := ['$', '\u0060', '\\', '!'].contains c

/-- The words of the rest of a line; `word` is what was read of the current one,
which is there as soon as a quote has been opened. -/
def read : Quoting → Option (List Char) → List Char → Option (List (List Char))
  | .plain, word, [] => some word.toList
  | _, _, [] => none
  | .plain, word, c :: rest =>
    if c = ' ' ∨ c = '\t' then (read .plain none rest).map (word.toList ++ ·)
    else if c = '\'' then read .single (some (word.getD [])) rest
    else if c = '"' then read .double (some (word.getD [])) rest
    else if special c then none
    else read .plain (some (word.getD [] ++ [c])) rest
  | .single, word, c :: rest =>
    if c = '\'' then read .plain word rest else read .single (some (word.getD [] ++ [c])) rest
  | .double, word, c :: rest =>
    if c = '"' then read .plain word rest
    else if expands c then none
    else read .double (some (word.getD [] ++ [c])) rest

/-- The words of a command line. -/
def words (line : String) : Option (List String) := (read .plain none line.toList).map (List.map String.ofList)

/-- A command and where it runs. -/
structure Invocation where
  directory : String
  executable : String
  args : List String
  deriving DecidableEq, Repr

/-- The utilities that a shell runs itself. -/
def builtins : List String :=
  ["cd", "exec", "eval", ".", "export", "set", "unset", "exit", "return", "source", "alias", "if", "while", "for", "case",
    "until", "then", "do", "else", "fi", "done", "esac", "elif", "in"]

/-- What a shell that was started in a directory runs for a line with one simple command. -/
def interpret (directory line : String) : Option Invocation :=
  match words line with
  | some (executable :: args) =>
    if builtins.contains executable then none else some ⟨directory, executable, args⟩
  | _ => none

/-! ## Reading quoted words -/

/-- A word in single quotes, with each single quote in it in double quotes. -/
def quoted (word : List Char) : List Char :=
  '\'' :: word.flatMap (fun c => if c = '\'' then ['\'', '"', '\'', '"', '\''] else [c]) ++ ['\'']

theorem read_inner (word done rest : List Char) :
    read .single (some done)
        (word.flatMap (fun c => if c = '\'' then ['\'', '"', '\'', '"', '\''] else [c]) ++ '\'' :: rest) =
      read .plain (some (done ++ word)) rest := by
  induction word generalizing done with
  | nil => rw [List.flatMap_nil, List.nil_append, read, if_pos rfl, List.append_nil]
  | cons c word ih =>
    rw [List.flatMap_cons]
    by_cases hquote : c = '\''
    · -- the quote is closed, a quote in double quotes follows, and the quote is opened again
      rw [if_pos hquote, hquote]
      have hstep : ∀ tail, read .single (some done) (['\'', '"', '\'', '"', '\''] ++ tail) =
          read .single (some (done ++ ['\''])) tail := fun _ => rfl
      rw [List.append_assoc, hstep, ih, List.append_assoc, List.singleton_append]
    · rw [if_neg hquote, List.singleton_append, List.cons_append, read, if_neg hquote, Option.getD_some, ih,
        List.append_assoc, List.singleton_append]

/-- A quoted word is read as it was before it was quoted. -/
theorem read_quoted (word rest : List Char) :
    read .plain none (quoted word ++ rest) = read .plain (some word) rest := by
  have hopen : ∀ tail, read .plain none ('\'' :: tail) = read .single (some []) tail := fun _ => rfl
  rw [quoted, List.cons_append, List.cons_append, List.append_assoc, List.singleton_append, hopen, read_inner,
    List.nil_append]

theorem read_char {c : Char} (h : special c = false) (word : Option (List Char)) (rest : List Char) :
    read .plain word (c :: rest) = read .plain (some (word.getD [] ++ [c])) rest := by
  have hother : ∀ d, special d = true → c ≠ d := by
    rintro d hd rfl
    rw [h] at hd
    cases hd
  have hblank : ¬(c = ' ' ∨ c = '\t') := by
    rintro (hspace | htab)
    · exact hother ' ' (by decide) hspace
    · exact hother '\t' (by decide) htab
  rw [read, if_neg hblank, if_neg (hother '\'' (by decide)), if_neg (hother '"' (by decide)),
    if_neg (by rw [h]; exact Bool.false_ne_true)]

theorem read_chars {word : List Char} (h : ∀ c ∈ word, special c = false) (done rest : List Char) :
    read .plain (some done) (word ++ rest) = read .plain (some (done ++ word)) rest := by
  induction word generalizing done with
  | nil => rw [List.nil_append, List.append_nil]
  | cons c word ih =>
    rw [List.cons_append, read_char (h c List.mem_cons_self), Option.getD_some,
      ih (fun d hd => h d (List.mem_cons_of_mem c hd)), List.append_assoc, List.singleton_append]

/-- A word of plain characters is read as it stands. -/
theorem read_plain {word : List Char} (hne : word ≠ []) (h : ∀ c ∈ word, special c = false) (rest : List Char) :
    read .plain none (word ++ rest) = read .plain (some word) rest := by
  obtain ⟨c, tail, rfl⟩ := List.exists_cons_of_ne_nil hne
  rw [List.cons_append, read_char (h c List.mem_cons_self), read_chars (fun d hd => h d (List.mem_cons_of_mem c hd))]
  rfl

theorem read_blank (word rest : List Char) :
    read .plain (some word) (' ' :: rest) = (read .plain none rest).map (word :: ·) := rfl

theorem read_end (word : List Char) : read .plain (some word) [] = some [word] := rfl

/-- The text is read as the word, whatever follows. -/
def Reads (text word : List Char) : Prop := ∀ rest, read .plain none (text ++ rest) = read .plain (some word) rest

/-- Texts with blanks between them are read as their words. -/
theorem read_joined {texts : List (List Char × List Char)} (hne : texts ≠ []) (h : ∀ t ∈ texts, Reads t.1 t.2) :
    read .plain none ([' '].intercalate (texts.map Prod.fst)) = some (texts.map Prod.snd) := by
  induction texts with
  | nil => exact absurd rfl hne
  | cons t texts ih =>
    have ht := h t List.mem_cons_self
    cases texts with
    | nil =>
      rw [List.map_singleton, List.intercalate_singleton, ← List.append_nil t.1, ht, read_end]
      rfl
    | cons t' texts =>
      have hrest := ih (List.cons_ne_nil t' texts) fun u hu => h u (List.mem_cons_of_mem t hu)
      rw [List.map_cons] at hrest
      rw [List.map_cons, List.map_cons, List.intercalate_cons_cons, List.append_assoc, ht, List.singleton_append,
        read_blank, hrest]
      rfl

end Shell
