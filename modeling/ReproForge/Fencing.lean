import Mathlib.Order.Lattice

/-!
# Fencing

A resource carries a rank that only rises and a holder that changes only when
the rank rises. Whoever held it at a rank that has since been left never holds
it again.
-/
namespace Fencing

variable {σ R H : Type} [PartialOrder R] {rank : σ → R} {holder : σ → H}

/-- The rank rose, or neither the rank nor the holder moved. -/
def Fenced (rank : σ → R) (holder : σ → H) (s t : σ) : Prop :=
  rank s < rank t ∨ (rank s = rank t ∧ holder s = holder t)

theorem Fenced.refl (s : σ) : Fenced rank holder s s := .inr ⟨rfl, rfl⟩

theorem Fenced.trans {s t u : σ} (hst : Fenced rank holder s t) (htu : Fenced rank holder t u) :
    Fenced rank holder s u := by
  rcases hst with hlt | ⟨hr, hh⟩
  · rcases htu with hlt' | ⟨hr', -⟩
    · exact .inl (hlt.trans hlt')
    · exact .inl (hr' ▸ hlt)
  · rcases htu with hlt' | ⟨hr', hh'⟩
    · exact .inl (hr ▸ hlt')
    · exact .inr ⟨hr.trans hr', hh.trans hh'⟩

theorem Fenced.le {s t : σ} (h : Fenced rank holder s t) : rank s ≤ rank t := by
  rcases h with hlt | ⟨hr, -⟩
  · exact hlt.le
  · exact hr.le

/-- A state that no longer agrees with an earlier one has a higher rank. -/
theorem Fenced.lt_of_changed {s t : σ} (h : Fenced rank holder s t)
    (hchanged : ¬ (rank s = rank t ∧ holder s = holder t)) : rank s < rank t :=
  h.resolve_right hchanged

/-- Once superseded, always superseded. -/
theorem Fenced.superseded {s t u : σ} (hst : Fenced rank holder s t) (htu : Fenced rank holder t u)
    (hchanged : ¬ (rank s = rank t ∧ holder s = holder t)) : rank s < rank u :=
  (hst.lt_of_changed hchanged).trans_le htu.le

end Fencing
