import ReproForge.Table

/-!
# An object store

Objects under paths, written once, read and deleted by path. A call to the
store may fail, before it took effect or after it.
-/
namespace Objects

open KeyedTable

variable {κ : Type} [DecidableEq κ] {σ ε α : Type}

structure Object where
  etag : String
  bytes : List UInt8
  deriving DecidableEq

abbrev Store (κ : Type) := Table κ Object

structure Metadata (κ : Type) where
  etag : String
  pathname : κ
  size : Nat
  deriving DecidableEq

def Object.metadata (pathname : κ) (o : Object) : Metadata κ := ⟨o.etag, pathname, o.bytes.length⟩

inductive Fate where
  | runs | failsBefore | failsAfter
  deriving DecidableEq, Repr

/-- A call and what becomes of it. -/
def Fate.call (fate : Fate) (failure : ε) (operation : σ → Except ε α × σ) (s : σ) : Except ε α × σ :=
  match fate with
  | .runs => operation s
  | .failsBefore => (.error failure, s)
  | .failsAfter => (.error failure, (operation s).2)

/-- An object that is there already is not overwritten. -/
def put (failure : ε) (pathname : κ) (bytes : List UInt8) (etag : String) (s : Store κ) :
    Except ε (Metadata κ) × Store κ :=
  match s.get pathname with
  | some _ => (.error failure, s)
  | none => (.ok (Object.metadata pathname ⟨etag, bytes⟩), s.insert pathname ⟨etag, bytes⟩)

def head (pathname : κ) (s : Store κ) : Except ε (Option (Metadata κ)) × Store κ :=
  (.ok ((s.get pathname).map (Object.metadata pathname)), s)

/-- A body that has not the trusted size fails the read. -/
def get (failure : ε) (pathname : κ) (trustedSize : Nat) (s : Store κ) :
    Except ε (Option (List UInt8 × Metadata κ)) × Store κ :=
  match s.get pathname with
  | none => (.ok none, s)
  | some o =>
    if o.bytes.length = trustedSize then (.ok (some (o.bytes, o.metadata pathname)), s)
    else (.error failure, s)

/-- An empty etag is no condition. -/
def Object.matches (etag : Option String) (o : Object) : Bool := etag.all (fun e => e.isEmpty || e == o.etag)

/-- `absent` is the reply where there is no object. -/
def delete (absent : Bool) (pathname : κ) (etag : Option String) (s : Store κ) :
    Except ε Bool × Store κ :=
  match s.get pathname with
  | none => (.ok absent, s)
  | some o => if o.matches etag then (.ok true, Table.delete s (fun k _ => k = pathname)) else (.ok false, s)

/-! ## What a call did -/

/-- A call that failed before it took effect left the store alone, any other did what the
operation does. -/
theorem call_store (fate : Fate) (failure : ε) (operation : σ → Except ε α × σ) (s : σ) :
    (fate.call failure operation s).2 = s ∨ (fate.call failure operation s).2 = (operation s).2 := by
  cases fate with
  | runs => exact .inr rfl
  | failsBefore => exact .inl rfl
  | failsAfter => exact .inr rfl

theorem call_ok {fate : Fate} {failure : ε} {operation : σ → Except ε α × σ} {s s' : σ} {a : α}
    (h : fate.call failure operation s = (.ok a, s')) : operation s = (.ok a, s') := by
  cases fate with
  | runs => exact h
  | failsBefore => cases h
  | failsAfter => cases h

theorem put_store (failure : ε) (pathname : κ) (bytes : List UInt8) (etag : String) (s : Store κ) :
    (put failure pathname bytes etag s).2 = s.insert pathname ⟨etag, bytes⟩ := by
  unfold put
  split
  · rename_i o ho
    exact (Table.insert_existing ho).symm
  · rfl

theorem put_ok {failure : ε} {pathname : κ} {bytes : List UInt8} {etag : String} {s s' : Store κ}
    {m : Metadata κ} (h : put failure pathname bytes etag s = (.ok m, s')) :
    s'.get pathname = some ⟨etag, bytes⟩ ∧ m = Object.metadata pathname ⟨etag, bytes⟩ := by
  unfold put at h
  split at h
  · cases h
  · rename_i hnone
    simp only [Prod.mk.injEq, Except.ok.injEq] at h
    rw [← h.2, Table.get_insert_self hnone]
    exact ⟨rfl, h.1.symm⟩

theorem head_store (pathname : κ) (s : Store κ) : (head pathname s : Except ε _ × Store κ).2 = s := rfl

theorem call_head_store (fate : Fate) (failure : ε) (pathname : κ) (s : Store κ) :
    (fate.call failure (head pathname) s).2 = s := by
  rcases call_store fate failure (head pathname) s with h | h
  · exact h
  · exact h

theorem get_store (failure : ε) (pathname : κ) (trustedSize : Nat) (s : Store κ) :
    (get failure pathname trustedSize s).2 = s := by
  unfold get
  split
  · rfl
  · split <;> rfl

theorem get_some {failure : ε} {pathname : κ} {trustedSize : Nat} {s s' : Store κ} {bytes : List UInt8}
    {m : Metadata κ} (h : get failure pathname trustedSize s = (.ok (some (bytes, m)), s')) :
    ∃ o, s.get pathname = some o ∧ bytes = o.bytes ∧ m = o.metadata pathname ∧
      o.bytes.length = trustedSize := by
  unfold get at h
  split at h
  · cases h
  · rename_i o ho
    split at h
    · rename_i hsize
      simp only [Prod.mk.injEq, Except.ok.injEq, Option.some.injEq] at h
      exact ⟨o, ho, h.1.1.symm, h.1.2.symm, hsize⟩
    · cases h

theorem delete_other {absent : Bool} {pathname k : κ} {etag : Option String} {s : Store κ} (hk : k ≠ pathname) :
    ((delete absent pathname etag s : Except ε Bool × Store κ).2).get k = s.get k := by
  unfold delete
  split
  · rfl
  · split
    · exact Table.get_delete_other s hk
    · rfl

/-- A deletion leaves the object of its path as it was, or removes it. -/
theorem delete_self (absent : Bool) (pathname : κ) (etag : Option String) (s : Store κ) :
    ((delete absent pathname etag s : Except ε Bool × Store κ).2).get pathname = s.get pathname ∨
      ((delete absent pathname etag s : Except ε Bool × Store κ).2).get pathname = none := by
  unfold delete
  split
  · exact .inl rfl
  · split
    · exact .inr (Table.get_delete_self s pathname)
    · exact .inl rfl

/-- A deletion adds nothing. -/
theorem delete_some {absent : Bool} {pathname k : κ} {etag : Option String} {s : Store κ} {o : Object}
    (h : ((delete absent pathname etag s : Except ε Bool × Store κ).2).get k = some o) : s.get k = some o := by
  by_cases hk : k = pathname
  · subst hk
    rcases delete_self (ε := ε) absent k etag s with he | he
    · exact he.symm.trans h
    · exact absurd (he.symm.trans h) nofun
  · exact (delete_other hk).symm.trans h

/-- After a reply that something was deleted there is nothing under the path. -/
theorem delete_true {absent : Bool} {pathname : κ} {etag : Option String} {s s' : Store κ}
    (h : (delete absent pathname etag s : Except ε Bool × Store κ) = (.ok true, s')) :
    s'.get pathname = none := by
  unfold delete at h
  split at h
  · rename_i hnone
    rw [← (Prod.mk.inj h).2]
    exact hnone
  · split at h
    · rw [← (Prod.mk.inj h).2]
      exact Table.get_delete_self s pathname
    · cases h

theorem delete_matching (absent : Bool) {pathname : κ} {etag : Option String} {s : Store κ} {o : Object}
    (ho : s.get pathname = some o) (hm : o.matches etag = true) :
    (delete absent pathname etag s : Except ε Bool × Store κ) =
      (.ok true, Table.delete s (fun k _ => k = pathname)) := by
  simp only [delete, ho, hm, if_true]

end Objects
