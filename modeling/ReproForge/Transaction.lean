import Mathlib.Logic.Relation

/-!
# Transactions with rollback

A transaction reads and writes a store and may fail part way, in which case the
store it leaves behind is dirty. `atomically` runs one transaction against the
committed store: a failure discards every write made before it.
-/
namespace Transactions

variable {σ ε α β : Type}

def Tx (σ ε α : Type) : Type := σ → Except ε α × σ

namespace Tx

protected def pure (a : α) : Tx σ ε α := fun s => (.ok a, s)

protected def bind (x : Tx σ ε α) (f : α → Tx σ ε β) : Tx σ ε β := fun s =>
  match x s with
  | (.ok a, s') => f a s'
  | (.error e, s') => (.error e, s')

instance : Monad (Tx σ ε) where
  pure := Tx.pure
  bind := Tx.bind

def fail (e : ε) : Tx σ ε α := fun s => (.error e, s)

def read : Tx σ ε σ := fun s => (.ok s, s)

def write (s : σ) : Tx σ ε Unit := fun _ => (.ok (), s)

def modify (f : σ → σ) : Tx σ ε Unit := fun s => (.ok (), f s)

/-- Continue only when a check holds. -/
def require (b : Bool) (e : ε) : Tx σ ε Unit := fun s => if b then (.ok (), s) else (.error e, s)

/-- Unwrap a result that may be absent. -/
def demand (o : Option α) (e : ε) : Tx σ ε α := fun s =>
  match o with
  | some a => (.ok a, s)
  | none => (.error e, s)

/-- Run a transaction for each element in turn, collecting the replies. -/
def forEach (f : α → Tx σ ε β) : List α → Tx σ ε (List β)
  | [] => Tx.pure []
  | a :: rest => Tx.bind (f a) (fun b => Tx.bind (forEach f rest) (fun bs => Tx.pure (b :: bs)))

@[simp] theorem pure_apply (a : α) (s : σ) : (pure a : Tx σ ε α) s = (.ok a, s) := rfl

theorem bind_apply (x : Tx σ ε α) (f : α → Tx σ ε β) (s : σ) :
    (x >>= f) s = match x s with
      | (.ok a, s') => f a s'
      | (.error e, s') => (.error e, s') := rfl

@[simp] theorem fail_apply (e : ε) (s : σ) : (fail e : Tx σ ε α) s = (.error e, s) := rfl
@[simp] theorem read_apply (s : σ) : (read : Tx σ ε σ) s = (.ok s, s) := rfl
@[simp] theorem write_apply (s s' : σ) : (write s' : Tx σ ε Unit) s = (.ok (), s') := rfl
@[simp] theorem modify_apply (f : σ → σ) (s : σ) : (modify f : Tx σ ε Unit) s = (.ok (), f s) := rfl
@[simp] theorem require_true (e : ε) (s : σ) : (require true e : Tx σ ε Unit) s = (.ok (), s) := rfl
@[simp] theorem require_false (e : ε) (s : σ) : (require false e : Tx σ ε Unit) s = (.error e, s) := rfl
@[simp] theorem demand_some (a : α) (e : ε) (s : σ) : (demand (some a) e : Tx σ ε α) s = (.ok a, s) := rfl
@[simp] theorem demand_none (e : ε) (s : σ) : (demand none e : Tx σ ε α) s = (.error e, s) := rfl

/-- A sequence succeeds exactly when its two halves do, one after the other. -/
theorem bind_ok {x : Tx σ ε α} {f : α → Tx σ ε β} {s s'' : σ} {b : β} :
    (x >>= f) s = (.ok b, s'') ↔ ∃ a s', x s = (.ok a, s') ∧ f a s' = (.ok b, s'') := by
  rw [bind_apply]
  constructor
  · intro h
    split at h
    · rename_i a s' hx
      exact ⟨a, s', hx, h⟩
    · simp at h
  · rintro ⟨a, s', hx, hf⟩
    rw [hx]
    exact hf

/-- A result read off the reply alone. -/
theorem ok_of_reply {x : Tx σ ε α} {s : σ} {a : α} (h : (x s).1.toOption = some a) :
    x s = (.ok a, (x s).2) := by
  cases hx : x s with
  | mk reply s' =>
    rw [hx] at h
    cases reply with
    | ok b =>
      cases h
      rfl
    | error e => cases h

theorem pure_ok {s s' : σ} {a b : α} :
    (pure a : Tx σ ε α) s = (.ok b, s') ↔ b = a ∧ s' = s := by
  simp [eq_comm]

theorem fail_ok {e : ε} {s s' : σ} {a : α} : (fail e : Tx σ ε α) s = (.ok a, s') ↔ False := by simp

theorem read_ok {s s' t : σ} : (read : Tx σ ε σ) s = (.ok t, s') ↔ s = t ∧ s = s' := by
  simp

theorem modify_ok {f : σ → σ} {s s' : σ} {u : Unit} :
    (modify f : Tx σ ε Unit) s = (.ok u, s') ↔ s' = f s := by
  simp [eq_comm]

theorem require_ok {b : Bool} {e : ε} {s s' : σ} {u : Unit} :
    (require b e : Tx σ ε Unit) s = (.ok u, s') ↔ b = true ∧ s = s' := by
  cases b <;> simp

theorem demand_ok {o : Option α} {e : ε} {s s' : σ} {a : α} :
    (demand o e : Tx σ ε α) s = (.ok a, s') ↔ o = some a ∧ s = s' := by
  cases o <;> simp

theorem forEach_nil_ok {f : α → Tx σ ε β} {s s' : σ} {bs : List β} :
    forEach f [] s = (.ok bs, s') ↔ bs = [] ∧ s' = s := pure_ok

theorem forEach_cons_ok {f : α → Tx σ ε β} {a : α} {rest : List α} {s s'' : σ} {bs : List β} :
    forEach f (a :: rest) s = (.ok bs, s'') ↔
      ∃ b s' bs', f a s = (.ok b, s') ∧ forEach f rest s' = (.ok bs', s'') ∧ bs = b :: bs' := by
  have h : forEach f (a :: rest) s = (.ok bs, s'') ↔ ∃ b s', f a s = (.ok b, s') ∧
      (forEach f rest >>= fun bs => pure (b :: bs)) s' = (.ok bs, s'') := bind_ok
  refine h.trans ?_
  simp only [bind_ok, pure_ok]
  constructor
  · rintro ⟨b, s', hb, bs', t, hr, he, ht⟩
    subst ht
    exact ⟨b, s', bs', hb, hr, he⟩
  · rintro ⟨b, s', bs', hb, hr, he⟩
    exact ⟨b, s', hb, bs', s'', hr, he, rfl⟩

/-- A loop only ever moves the store by steps that its body can make. -/
theorem forEach_steps {R : σ → σ → Prop} {f : α → Tx σ ε β}
    (hf : ∀ a b s s', f a s = (.ok b, s') → Relation.ReflTransGen R s s')
    {items : List α} {s s' : σ} {bs : List β} (h : forEach f items s = (.ok bs, s')) :
    Relation.ReflTransGen R s s' := by
  induction items generalizing s bs with
  | nil =>
    obtain ⟨-, he⟩ := forEach_nil_ok.mp h
    rw [he]
  | cons a rest ih =>
    obtain ⟨b, t, bs', hb, hr, -⟩ := forEach_cons_ok.mp h
    exact (hf a b s t hb).trans (ih hr)

/-- What holds of each reply when it is made, and is kept by later steps, holds of all replies. -/
theorem forEach_replies {P : σ → β → Prop} {f : α → Tx σ ε β}
    (hf : ∀ a b s s', f a s = (.ok b, s') → P s' b ∧ ∀ b', P s b' → P s' b')
    {items : List α} {s s' : σ} {bs : List β} (h : forEach f items s = (.ok bs, s')) :
    (∀ b ∈ bs, P s' b) ∧ ∀ b', P s b' → P s' b' := by
  induction items generalizing s bs with
  | nil =>
    obtain ⟨rfl, rfl⟩ := forEach_nil_ok.mp h
    exact ⟨fun b hb => absurd hb List.not_mem_nil, fun _ => id⟩
  | cons a rest ih =>
    obtain ⟨b, t, bs', hb, hr, rfl⟩ := forEach_cons_ok.mp h
    obtain ⟨hmade, hkept⟩ := hf a b s t hb
    obtain ⟨hrest, hkept'⟩ := ih hr
    refine ⟨?_, fun b' hp => hkept' b' (hkept b' hp)⟩
    intro c hc
    rcases List.mem_cons.mp hc with rfl | hc
    · exact hkept' c hmade
    · exact hrest c hc

/-! ## How far a transaction moves the store -/

/-- A transaction that succeeds leaves a store that `R` relates to the one it began with. -/
def Within (R : σ → σ → Prop) (x : Tx σ ε α) : Prop := ∀ s a s', x s = (.ok a, s') → R s s'

section within

variable {R : σ → σ → Prop}

theorem within_pure (hrefl : ∀ s, R s s) (a : α) : Within R (pure a : Tx σ ε α) := by
  intro s b s' h
  obtain ⟨-, rfl⟩ := pure_ok.mp h
  exact hrefl s'

theorem within_fail (e : ε) : Within R (fail e : Tx σ ε α) := fun _ _ _ h => (fail_ok.mp h).elim

theorem within_read (hrefl : ∀ s, R s s) : Within R (read : Tx σ ε σ) := by
  intro s t s' h
  obtain ⟨-, rfl⟩ := read_ok.mp h
  exact hrefl s

theorem within_require (hrefl : ∀ s, R s s) (b : Bool) (e : ε) : Within R (require b e : Tx σ ε Unit) := by
  intro s u s' h
  obtain ⟨-, rfl⟩ := require_ok.mp h
  exact hrefl s

theorem within_demand (hrefl : ∀ s, R s s) (o : Option α) (e : ε) : Within R (demand o e : Tx σ ε α) := by
  intro s a s' h
  obtain ⟨-, rfl⟩ := demand_ok.mp h
  exact hrefl s

theorem within_bind (htrans : ∀ {s t u}, R s t → R t u → R s u) {x : Tx σ ε α} {f : α → Tx σ ε β}
    (hx : Within R x) (hf : ∀ a, Within R (f a)) : Within R (x >>= f) := by
  intro s b s'' h
  obtain ⟨a, s', ha, hb⟩ := bind_ok.mp h
  exact htrans (hx s a s' ha) (hf a s' b s'' hb)

theorem within_forEach (hrefl : ∀ s, R s s) (htrans : ∀ {s t u}, R s t → R t u → R s u) {f : α → Tx σ ε β}
    (hf : ∀ a, Within R (f a)) (items : List α) : Within R (forEach f items) := by
  intro s bs s' h
  have hsteps := forEach_steps (R := R) (fun a b s s' hb => .single (hf a s b s' hb)) h
  clear h
  induction hsteps with
  | refl => exact hrefl s
  | tail _ hstep ih => exact htrans ih hstep

end within

end Tx

/-- Commit the writes of a transaction that succeeds, discard those of one that fails. -/
def atomically (tx : Tx σ ε α) (s : σ) : Except ε α × σ :=
  match tx s with
  | (.ok a, s') => (.ok a, s')
  | (.error e, _) => (.error e, s)

theorem atomically_ok {tx : Tx σ ε α} {s s' : σ} {a : α} :
    atomically tx s = (.ok a, s') ↔ tx s = (.ok a, s') := by
  unfold atomically
  split <;> simp_all

/-- A failed transaction leaves the committed store as it was. -/
theorem atomically_error {tx : Tx σ ε α} {s s' : σ} {e : ε} (h : atomically tx s = (.error e, s')) :
    s' = s := by
  unfold atomically at h
  split at h
  · simp at h
  · simpa [eq_comm] using (Prod.mk.inj h).2

end Transactions
