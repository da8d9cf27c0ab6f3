import ReproForge.Transaction

/-!
# Ways out of a program

What a program that may throw leads to: a condition on the store where it
returns, and a condition on the error and the store where it throws. Unlike a
transaction, it keeps what it did before it threw.
-/
namespace Transactions

namespace Tx

variable {σ ε α β : Type} {P R : σ → Prop} {E : ε → σ → Prop}

/-- From a store with `P`, the program returns with `Q` or throws with `E`. -/
structure Leads (P : σ → Prop) (x : Tx σ ε α) (Q : α → σ → Prop) (E : ε → σ → Prop) : Prop where
  returns : ∀ {s a s'}, P s → x s = (.ok a, s') → Q a s'
  throws : ∀ {s e s'}, P s → x s = (.error e, s') → E e s'

theorem leads_pure {Q : α → σ → Prop} (a : α) (h : ∀ s, P s → Q a s) : Leads P (pure a : Tx σ ε α) Q E where
  returns := by
    intro s b s' hs hx
    obtain ⟨rfl, rfl⟩ := pure_ok.mp hx
    exact h s' hs
  throws := by
    intro s e s' hs hx
    cases hx

/-- A check passes with its condition known, or throws and leaves the store alone. -/
theorem leads_require {b : Bool} {e : ε} (h : ∀ s, P s → b = false → E e s) :
    Leads P (require b e : Tx σ ε Unit) (fun _ s => P s ∧ b = true) E where
  returns := by
    intro s u s' hs hx
    obtain ⟨hb, rfl⟩ := require_ok.mp hx
    exact ⟨hs, hb⟩
  throws := by
    intro s f s' hs hx
    cases b with
    | true => cases hx
    | false =>
      obtain ⟨hf, rfl⟩ := Prod.mk.inj hx
      cases hf
      exact h s hs rfl

theorem leads_demand {o : Option α} {e : ε} (h : ∀ s, P s → o = none → E e s) :
    Leads P (demand o e : Tx σ ε α) (fun a s => P s ∧ o = some a) E where
  returns := by
    intro s a s' hs hx
    obtain ⟨ho, rfl⟩ := demand_ok.mp hx
    exact ⟨hs, ho⟩
  throws := by
    intro s f s' hs hx
    cases o with
    | some a => cases hx
    | none =>
      obtain ⟨hf, rfl⟩ := Prod.mk.inj hx
      cases hf
      exact h s hs rfl

/-- One program after another: what the first leads to is where the second starts. -/
theorem leads_bind {x : Tx σ ε α} {f : α → Tx σ ε β} {M : α → σ → Prop} {Q : β → σ → Prop} (hx : Leads P x M E)
    (hf : ∀ a, Leads (M a) (f a) Q E) : Leads P (x >>= f) Q E where
  returns := by
    intro s b s' hs h
    obtain ⟨a, t, ha, hb⟩ := bind_ok.mp h
    exact (hf a).returns (hx.returns hs ha) hb
  throws := by
    intro s e s' hs h
    rw [bind_apply] at h
    split at h
    · rename_i a t ha
      exact (hf a).throws (hx.returns hs ha) h
    · rename_i f t hf'
      obtain ⟨he, rfl⟩ := Prod.mk.inj h
      cases he
      exact hx.throws hs hf'

/-- A condition that holds whichever way the program ends. -/
theorem Leads.store {x : Tx σ ε α} (h : Leads P x (fun _ => R) (fun _ => R)) {s : σ} (hs : P s) : R (x s).2 := by
  cases hx : x s with
  | mk reply s' =>
    cases reply with
    | ok a => exact h.returns hs hx
    | error e => exact h.throws hs hx

theorem Leads.weaken {x : Tx σ ε α} {Q Q' : α → σ → Prop} {E' : ε → σ → Prop} (h : Leads P x Q E)
    (hP : ∀ s, R s → P s) (hQ : ∀ a s, Q a s → Q' a s) (hE : ∀ e s, E e s → E' e s) : Leads R x Q' E' where
  returns := fun hs hx => hQ _ _ (h.returns (hP _ hs) hx)
  throws := fun hs hx => hE _ _ (h.throws (hP _ hs) hx)

end Tx

end Transactions
