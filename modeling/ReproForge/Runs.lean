import Mathlib.Logic.Relation

/-!
# Runs of a transition system

A deterministic step function fed by a list of actions, the states that guarded
runs reach, and the rules that lift what one step preserves to a whole run.
-/
namespace Runs

variable {σ α : Type} {step : α → σ → σ} {guard : σ → α → Prop}

def run (step : α → σ → σ) : List α → σ → σ
  | [], s => s
  | a :: rest, s => run step rest (step a s)

theorem run_append (step : α → σ → σ) (first second : List α) (s : σ) :
    run step (first ++ second) s = run step second (run step first s) := by
  induction first generalizing s with
  | nil => rfl
  | cons a rest ih => exact ih (step a s)

/-- Every action of the run meets the guard in the state in which it is taken. -/
def Guarded (step : α → σ → σ) (guard : σ → α → Prop) : List α → σ → Prop
  | [], _ => True
  | a :: rest, s => guard s a ∧ Guarded step guard rest (step a s)

theorem guarded_of_forall {ok : α → Prop} {actions : List α} (h : ∀ a ∈ actions, ok a) (s : σ) :
    Guarded step (fun _ a => ok a) actions s := by
  induction actions generalizing s with
  | nil => trivial
  | cons a rest ih =>
    exact ⟨h a List.mem_cons_self, ih (fun b hb => h b (List.mem_cons_of_mem a hb)) (step a s)⟩

/-- A run is guarded if each of its actions is, after those before it. -/
theorem guarded_of_take {actions : List α} {s : σ}
    (h : ∀ i (hi : i < actions.length), guard (run step (actions.take i) s) actions[i]) :
    Guarded step guard actions s := by
  induction actions generalizing s with
  | nil => trivial
  | cons a rest ih => exact ⟨h 0 (Nat.succ_pos _), ih fun i hi => h (i + 1) (Nat.succ_lt_succ hi)⟩

/-- Guarded runs in a row. -/
theorem guarded_append {first second : List α} {s : σ} :
    Guarded step guard (first ++ second) s ↔
      Guarded step guard first s ∧ Guarded step guard second (run step first s) := by
  induction first generalizing s with
  | nil => exact ⟨fun h => ⟨trivial, h⟩, fun h => h.2⟩
  | cons a rest ih => exact (and_congr_right fun _ => ih).trans and_assoc.symm

theorem Guarded.and {other : σ → α → Prop} {actions : List α} {s : σ} (hg : Guarded step guard actions s)
    (ho : Guarded step other actions s) : Guarded step (fun s a => guard s a ∧ other s a) actions s := by
  induction actions generalizing s with
  | nil => trivial
  | cons a rest ih => exact ⟨⟨hg.1, ho.1⟩, ih hg.2 ho.2⟩

/-- An invariant that every guarded step keeps holds at the end of every guarded run. -/
theorem run_invariant {inv : σ → Prop} (hstep : ∀ s a, inv s → guard s a → inv (step a s))
    {actions : List α} {s : σ} (hs : inv s) (hg : Guarded step guard actions s) :
    inv (run step actions s) := by
  induction actions generalizing s with
  | nil => exact hs
  | cons a rest ih => exact ih (hstep s a hs hg.1) hg.2

/-- What an invariant of the guarded steps implies of each action guards the run as well. -/
theorem Guarded.of_invariant {inv : σ → Prop} {other : σ → α → Prop}
    (hstep : ∀ s a, inv s → guard s a → inv (step a s)) (hother : ∀ s a, inv s → guard s a → other s a)
    {actions : List α} {s : σ} (hs : inv s) (hg : Guarded step guard actions s) : Guarded step other actions s := by
  induction actions generalizing s with
  | nil => trivial
  | cons a rest ih => exact ⟨hother s a hs hg.1, ih (hstep s a hs hg.1) hg.2⟩

/-- Some action of the run meets the event in the state in which it is taken. -/
def Occurs (step : α → σ → σ) (event : σ → α → Prop) : List α → σ → Prop
  | [], _ => False
  | a :: rest, s => event s a ∨ Occurs step event rest (step a s)

theorem not_occurs {event : σ → α → Prop} {actions : List α} {s : σ}
    (h : Guarded step (fun s a => ¬ event s a) actions s) : ¬ Occurs step event actions s := by
  induction actions generalizing s with
  | nil => exact id
  | cons a rest ih =>
    rintro (hnow | hlater)
    · exact h.1 hnow
    · exact ih h.2 hlater

/-- The unguarded rule. -/
theorem run_keeps {inv : σ → Prop} (hstep : ∀ s a, inv s → inv (step a s)) {actions : List α} {s : σ}
    (hs : inv s) : inv (run step actions s) := by
  induction actions generalizing s with
  | nil => exact hs
  | cons a rest ih => exact ih (hstep s a hs)

/-- A reflexive and transitive relation that every step respects relates both ends of a run. -/
theorem run_relates {rel : σ → σ → Prop} (hrefl : ∀ s, rel s s)
    (htrans : ∀ {s t u}, rel s t → rel t u → rel s u) (hstep : ∀ s a, rel s (step a s))
    (actions : List α) (s : σ) : rel s (run step actions s) := by
  induction actions generalizing s with
  | nil => exact hrefl s
  | cons a rest ih => exact htrans (hstep s a) (ih (step a s))

end Runs
