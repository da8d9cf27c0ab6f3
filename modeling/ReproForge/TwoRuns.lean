import ReproForge.Transaction

/-!
# Two runs of a transaction

Two transactions are alike at two stores when they reply the same there and
leave related stores behind, whether they succeed or fail. The rules follow the
structure of a transaction; a step that only one of the two stores can see is
met by `alike_read`.
-/
namespace Transactions

variable {σ ε α β : Type} {R : σ → σ → Prop} {P : α → Prop} {Q : β → Prop}

/-- `P` holds of the reply where the two runs succeed. -/
def Alike (R : σ → σ → Prop) (P : α → Prop) (x y : Tx σ ε α) (s s' : σ) : Prop :=
  ∃ reply t t', x s = (reply, t) ∧ y s' = (reply, t') ∧ R t t' ∧ ∀ a, reply = .ok a → P a

open Tx

variable {s s' : σ}

theorem alike_pure (hR : R s s') {a : α} (ha : P a) : Alike R P (pure a : Tx σ ε α) (pure a) s s' :=
  ⟨.ok a, s, s', rfl, rfl, hR, fun _ he => Except.ok.inj he ▸ ha⟩

theorem alike_fail (hR : R s s') (e : ε) : Alike R P (fail e : Tx σ ε α) (fail e) s s' :=
  ⟨.error e, s, s', rfl, rfl, hR, fun _ he => by cases he⟩

theorem alike_require (hR : R s s') (b : Bool) (e : ε) :
    Alike R (fun _ => b = true) (require b e : Tx σ ε Unit) (require b e) s s' := by
  cases b with
  | true => exact ⟨.ok (), s, s', rfl, rfl, hR, fun _ _ => rfl⟩
  | false => exact ⟨.error e, s, s', rfl, rfl, hR, fun _ he => by cases he⟩

theorem alike_demand (hR : R s s') (o : Option α) (e : ε) :
    Alike R (fun a => o = some a) (demand o e : Tx σ ε α) (demand o e) s s' := by
  cases o with
  | some a => exact ⟨.ok a, s, s', rfl, rfl, hR, fun _ he => congrArg some (Except.ok.inj he)⟩
  | none => exact ⟨.error e, s, s', rfl, rfl, hR, fun _ he => by cases he⟩

theorem alike_bind {x y : Tx σ ε α} {f g : α → Tx σ ε β} (hx : Alike R P x y s s')
    (hf : ∀ a t t', R t t' → P a → Alike R Q (f a) (g a) t t') : Alike R Q (x >>= f) (y >>= g) s s' := by
  obtain ⟨reply, t, t', hxs, hys, hR, hP⟩ := hx
  cases reply with
  | ok a =>
    obtain ⟨reply', u, u', hfs, hgs, hR', hQ⟩ := hf a t t' hR (hP a rfl)
    exact ⟨reply', u, u', by rw [bind_apply, hxs]; exact hfs, by rw [bind_apply, hys]; exact hgs, hR', hQ⟩
  | error e => exact ⟨.error e, t, t', by rw [bind_apply, hxs], by rw [bind_apply, hys], hR, fun _ he => by cases he⟩

/-- Each run sees its own store. -/
theorem alike_read {f g : σ → Tx σ ε β} (h : Alike R Q (f s) (g s') s s') :
    Alike R Q (read >>= f) (read >>= g) s s' := h

theorem Alike.weaken {P' : α → Prop} {x y : Tx σ ε α} (h : Alike R P x y s s') (hP : ∀ a, P a → P' a) :
    Alike R P' x y s s' := by
  obtain ⟨reply, t, t', hx, hy, hR, hreply⟩ := h
  exact ⟨reply, t, t', hx, hy, hR, fun a he => hP a (hreply a he)⟩

/-- A rollback undoes both runs or neither. -/
theorem alike_atomically {x y : Tx σ ε α} (hR : R s s') (h : Alike R P x y s s') :
    Alike R P (atomically x) (atomically y) s s' := by
  obtain ⟨reply, t, t', hx, hy, hRt, hP⟩ := h
  cases reply with
  | ok a => exact ⟨.ok a, t, t', by rw [atomically, hx], by rw [atomically, hy], hRt, hP⟩
  | error e => exact ⟨.error e, s, s', by rw [atomically, hx], by rw [atomically, hy], hR, fun _ he => by cases he⟩

end Transactions
