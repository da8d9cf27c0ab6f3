import Mathlib

/-!
# Replacing the matches of a pattern

A pattern is a function that says how long a match at a place is, from what
stands before the place and what follows it. The leftmost matches of a text are
replaced, each search going on where the last match ended.
-/
namespace Patterns

variable {α : Type}

/-- The length of the match at a place, after the element before it. -/
abbrev Pattern (α : Type) := Option α → List α → Option Nat

/-- The text after `before`, of which `skip` elements belong to a match. -/
def replaceFrom (p : Pattern α) (replacement : List α) : Option α → Nat → List α → List α
  | _, _, [] => []
  | _, skip + 1, a :: rest => replaceFrom p replacement (some a) skip rest
  | before, 0, a :: rest =>
    match p before (a :: rest) with
    | some (n + 1) => replacement ++ replaceFrom p replacement (some a) n rest
    | _ => a :: replaceFrom p replacement (some a) 0 rest

def replaceAll (p : Pattern α) (replacement s : List α) : List α := replaceFrom p replacement none 0 s

end Patterns
