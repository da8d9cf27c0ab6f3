import Mathlib.Order.Lattice

/-!
# Registers

A register takes a value over exactly when the value ranks above its own. It
ends with a value of the highest rank, whatever the order of the values.
-/
namespace Registers

variable {ε R : Type} [LinearOrder R]

def absorb (rank : ε → R) (current e : ε) : ε := if rank current < rank e then e else current

def settle (rank : ε → R) (current : ε) (events : List ε) : ε := events.foldl (absorb rank) current

theorem absorb_eq (rank : ε → R) (current e : ε) : absorb rank current e = current ∨ absorb rank current e = e := by
  unfold absorb
  split
  · exact .inr rfl
  · exact .inl rfl

theorem le_absorb (rank : ε → R) (current e : ε) :
    rank current ≤ rank (absorb rank current e) ∧ rank e ≤ rank (absorb rank current e) := by
  unfold absorb
  split
  · rename_i h
    exact ⟨h.le, le_refl _⟩
  · rename_i h
    exact ⟨le_refl _, not_lt.mp h⟩

/-- The register holds its first value or one of the events. -/
theorem settle_mem (rank : ε → R) (current : ε) (events : List ε) :
    settle rank current events = current ∨ settle rank current events ∈ events := by
  induction events generalizing current with
  | nil => exact .inl rfl
  | cons e rest ih =>
    have hsettle : settle rank current (e :: rest) = settle rank (absorb rank current e) rest := rfl
    rw [hsettle]
    rcases ih (absorb rank current e) with hfirst | hrest
    · rw [hfirst]
      rcases absorb_eq rank current e with h | h <;> rw [h]
      · exact .inl rfl
      · exact .inr List.mem_cons_self
    · exact .inr (List.mem_cons_of_mem e hrest)

/-- No value that the register has seen ranks above the one it holds. -/
theorem le_settle (rank : ε → R) (current : ε) (events : List ε) :
    rank current ≤ rank (settle rank current events) ∧
      ∀ e ∈ events, rank e ≤ rank (settle rank current events) := by
  induction events generalizing current with
  | nil => exact ⟨le_refl _, fun e he => absurd he List.not_mem_nil⟩
  | cons e rest ih =>
    have hsettle : settle rank current (e :: rest) = settle rank (absorb rank current e) rest := rfl
    rw [hsettle]
    obtain ⟨hfirst, hrest⟩ := ih (absorb rank current e)
    have habsorb := le_absorb rank current e
    refine ⟨habsorb.1.trans hfirst, fun e' he' => ?_⟩
    rcases List.mem_cons.mp he' with rfl | he'
    · exact habsorb.2.trans hfirst
    · exact hrest e' he'

end Registers
