import Mathlib.Data.List.Nodup

/-!
# Acting behind a claim

Many parties compete for keys. The first one to claim a key keeps it, and only
the party that holds a key acts on it, once. A ledger lists the claims and the
acts in the order in which they are made.
-/
namespace FirstClaims

variable {κ ι : Type}

structure Ledger (κ ι : Type) where
  claimed : List (κ × ι)
  acted : List (κ × ι)

namespace Ledger

def empty : Ledger κ ι := ⟨[], []⟩

def claim (k : κ) (i : ι) (l : Ledger κ ι) : Ledger κ ι := { l with claimed := l.claimed ++ [(k, i)] }

def act (k : κ) (i : ι) (l : Ledger κ ι) : Ledger κ ι := { l with acted := l.acted ++ [(k, i)] }

@[simp] theorem claimed_act (k : κ) (i : ι) (l : Ledger κ ι) : (l.act k i).claimed = l.claimed := rfl

@[simp] theorem acted_claim (k : κ) (i : ι) (l : Ledger κ ι) : (l.claim k i).acted = l.acted := rfl

@[simp] theorem mem_claimed_claim {k : κ} {i : ι} {l : Ledger κ ι} {e : κ × ι} :
    e ∈ (l.claim k i).claimed ↔ e ∈ l.claimed ∨ e = (k, i) := by
  simp [claim]

@[simp] theorem mem_acted_act {k : κ} {i : ι} {l : Ledger κ ι} {e : κ × ι} :
    e ∈ (l.act k i).acted ↔ e ∈ l.acted ∨ e = (k, i) := by
  simp [act]

/-- Every key is claimed once, and whoever acts on it has claimed it and acts once. -/
structure Orderly (l : Ledger κ ι) : Prop where
  claims : (l.claimed.map Prod.fst).Nodup
  acts : l.acted.Nodup
  claimants : ∀ e ∈ l.acted, e ∈ l.claimed

theorem Orderly.empty : (empty : Ledger κ ι).Orderly :=
  ⟨List.nodup_nil, List.nodup_nil, fun _ he => (nomatch he)⟩

namespace Orderly

variable {l : Ledger κ ι} {k : κ} {i j : ι}

theorem claim (h : l.Orderly) (hfree : ∀ j, (k, j) ∉ l.claimed) : (l.claim k i).Orderly where
  claims := by
    have hnew : k ∉ l.claimed.map Prod.fst := by
      intro hk
      obtain ⟨⟨k', j⟩, he, rfl⟩ := List.mem_map.mp hk
      exact hfree j he
    rw [Ledger.claim, List.map_append]
    exact List.Nodup.append h.claims (List.nodup_singleton k) (by simpa using hnew)
  acts := h.acts
  claimants := fun e he => mem_claimed_claim.mpr (.inl (h.claimants e he))

theorem act (h : l.Orderly) (hclaimed : (k, i) ∈ l.claimed) (hfirst : (k, i) ∉ l.acted) : (l.act k i).Orderly where
  claims := h.claims
  acts := List.Nodup.append h.acts (List.nodup_singleton _) (by simpa using hfirst)
  claimants := by
    intro e he
    rcases mem_acted_act.mp he with he | rfl
    · exact h.claimants e he
    · exact hclaimed

/-- Nobody else holds a key that is claimed. -/
theorem holder (h : l.Orderly) (hi : (k, i) ∈ l.claimed) (hj : (k, j) ∈ l.claimed) : i = j :=
  congrArg Prod.snd (List.inj_on_of_nodup_map h.claims hi hj rfl)

/-- A key is acted on at most once, whoever does. -/
theorem acted_once [DecidableEq κ] (h : l.Orderly) (k : κ) : (l.acted.filter (fun e => e.1 = k)).length ≤ 1 := by
  have hsame : ∀ e ∈ l.acted.filter (fun e => e.1 = k), ∀ e' ∈ l.acted.filter (fun e => e.1 = k), e = e' := by
    intro e he e' he'
    obtain ⟨hacted, hkey⟩ := List.mem_filter.mp he
    obtain ⟨hacted', hkey'⟩ := List.mem_filter.mp he'
    have hfirst : e.1 = e'.1 := (of_decide_eq_true hkey).trans (of_decide_eq_true hkey').symm
    exact List.inj_on_of_nodup_map h.claims (h.claimants e hacted) (h.claimants e' hacted') hfirst
  have hnodup := h.acts.filter (fun e => decide (e.1 = k))
  generalize l.acted.filter (fun e => decide (e.1 = k)) = acts at hsame hnodup
  cases acts with
  | nil => exact Nat.zero_le 1
  | cons e rest =>
    cases rest with
    | nil => exact Nat.le_refl 1
    | cons e' rest =>
      have heq := hsame e List.mem_cons_self e' (List.mem_cons_of_mem e List.mem_cons_self)
      exact absurd (heq ▸ List.mem_cons_self) (List.nodup_cons.mp hnodup).1

/-- Nothing but the one act on a key is on the ledger. -/
theorem acts_eq [DecidableEq κ] (h : l.Orderly) (hacted : (k, i) ∈ l.acted) :
    l.acted.filter (fun e => e.1 = k) = [(k, i)] := by
  have hmem : (k, i) ∈ l.acted.filter (fun e => e.1 = k) := List.mem_filter.mpr ⟨hacted, by simp⟩
  have honce := h.acted_once k
  generalize l.acted.filter (fun e => decide (e.1 = k)) = acts at hmem honce ⊢
  obtain ⟨e, rfl⟩ := List.length_eq_one_iff.mp (Nat.le_antisymm honce (List.length_pos_of_mem hmem))
  rw [List.mem_singleton.mp hmem]

end Orderly

/-- What one party may add to the ledger at a time: nothing, its claim of a free key, or its act
on a key that it holds. -/
inductive Step (i : ι) (l : Ledger κ ι) : Ledger κ ι → Prop
  | stay : Step i l l
  | claim (k : κ) (hfree : ∀ j, (k, j) ∉ l.claimed) : Step i l (l.claim k i)
  | act (k : κ) (hclaimed : (k, i) ∈ l.claimed) (hfirst : (k, i) ∉ l.acted) : Step i l (l.act k i)

namespace Step

variable {l l' : Ledger κ ι} {k : κ} {i j : ι}

theorem orderly (hs : Step i l l') (h : l.Orderly) : l'.Orderly := by
  cases hs with
  | stay => exact h
  | claim k hfree => exact h.claim hfree
  | act k hclaimed hfirst => exact h.act hclaimed hfirst

/-- Claims and acts stay on the ledger. -/
theorem claims (hs : Step i l l') {e : κ × ι} (he : e ∈ l.claimed) : e ∈ l'.claimed := by
  cases hs with
  | stay => exact he
  | claim k _ => exact mem_claimed_claim.mpr (.inl he)
  | act k _ _ => exact he

theorem acts (hs : Step i l l') {e : κ × ι} (he : e ∈ l.acted) : e ∈ l'.acted := by
  cases hs with
  | stay => exact he
  | claim k _ => exact he
  | act k _ _ => exact mem_acted_act.mpr (.inl he)

/-- What a step adds to the ledger is the party's own. -/
theorem claimed_other (hs : Step i l l') (hji : j ≠ i) : (k, j) ∈ l'.claimed ↔ (k, j) ∈ l.claimed := by
  cases hs with
  | stay => exact Iff.rfl
  | claim k' _ => simp [hji]
  | act k' _ _ => exact Iff.rfl

theorem acted_other (hs : Step i l l') (hji : j ≠ i) : (k, j) ∈ l'.acted ↔ (k, j) ∈ l.acted := by
  cases hs with
  | stay => exact Iff.rfl
  | claim k' _ => exact Iff.rfl
  | act k' _ _ => simp [hji]

end Step

end Ledger

end FirstClaims
