import Mathlib.Logic.Function.Iterate
import Mathlib.Tactic.Common

/-!
# Bounded reading in chunks

A reader takes the chunks of a stream one at a time and gives up when there is
more in them than its bound. At the end of the stream it copies what it kept
into one buffer. What it comes to depends on the elements of the stream alone,
and until the stream ends it holds no more than the bound and one chunk.
-/
namespace Chunks

variable {α : Type}

/-- What a reader keeps at most, and how many elements will do at the end of the stream. -/
structure Bound where
  most : Nat
  accepts : Nat → Bool

inductive Refusal where
  | exceeded | mismatched | broken
  deriving DecidableEq, Repr

/-! ## The loop -/

/-- The chunks that are kept at the end of the stream and their count; a broken stream ends in an error. -/
def collect (bound : Bound) (broken : Bool) (kept : List (List α)) (count : Nat) :
    List (List α) → Except Refusal (List (List α) × Nat)
  | [] =>
    if broken then .error .broken else if bound.accepts count then .ok (kept, count) else .error .mismatched
  | value :: rest =>
    if bound.most < count + value.length then .error .exceeded
    else collect bound broken (kept ++ [value]) (count + value.length) rest

/-- `buffer.set(chunk, offset)` -/
def write (buffer : List α) (offset : Nat) (chunk : List α) : List α :=
  buffer.take offset ++ chunk ++ buffer.drop (offset + chunk.length)

def copyInto (buffer : List α) (offset : Nat) : List (List α) → List α
  | [] => buffer
  | chunk :: rest => copyInto (write buffer offset chunk) (offset + chunk.length) rest

/-- What is kept, in one buffer. -/
def assemble (blank : α) (collected : List (List α) × Nat) : List α :=
  copyInto (List.replicate collected.2 blank) 0 collected.1

/-- What a reader comes to; `blank` fills a new buffer. -/
def read (bound : Bound) (broken : Bool) (blank : α) (chunks : List (List α)) : Except Refusal (List α) :=
  (collect bound broken [] 0 chunks).map (assemble blank)

/-- The same, from the elements of the stream. -/
def outcome (bound : Bound) (broken : Bool) (elements : List α) : Except Refusal (List α) :=
  if bound.most < elements.length then .error .exceeded
  else if broken then .error .broken
  else if bound.accepts elements.length then .ok elements
  else .error .mismatched

section outcomes

variable {bound : Bound} {broken : Bool} {elements : List α}

theorem outcome_exceeded (h : bound.most < elements.length) : outcome bound broken elements = .error .exceeded :=
  if_pos h

theorem outcome_ok (hmost : elements.length ≤ bound.most) (haccepts : bound.accepts elements.length = true) :
    outcome bound false elements = .ok elements := by
  rw [outcome, if_neg (Nat.not_lt.mpr hmost), if_neg Bool.false_ne_true, if_pos haccepts]

theorem outcome_mismatched (hmost : elements.length ≤ bound.most) (haccepts : bound.accepts elements.length = false) :
    outcome bound false elements = .error .mismatched := by
  rw [outcome, if_neg (Nat.not_lt.mpr hmost), if_neg Bool.false_ne_true, haccepts, if_neg Bool.false_ne_true]

end outcomes

theorem write_blank (done rest chunk : List α) :
    write (done ++ rest) done.length chunk = done ++ chunk ++ rest.drop chunk.length := by
  rw [write, List.take_left, List.drop_append, List.drop_of_length_le (Nat.le_add_right _ _), List.nil_append,
    Nat.add_sub_cancel_left]

/-- The copy fills the buffer from left to right. -/
theorem copyInto_eq (chunks : List (List α)) :
    ∀ (done : List α) {blanks : List α}, blanks.length = chunks.flatten.length →
      copyInto (done ++ blanks) done.length chunks = done ++ chunks.flatten := by
  induction chunks with
  | nil =>
    intro done blanks hblanks
    rw [List.eq_nil_of_length_eq_zero hblanks]
    rfl
  | cons chunk rest ih =>
    intro done blanks hblanks
    rw [List.flatten_cons, List.length_append] at hblanks
    have hleft : (blanks.drop chunk.length).length = rest.flatten.length := by
      rw [List.length_drop]
      omega
    rw [copyInto, write_blank, ← List.length_append, ih _ hleft, List.flatten_cons, List.append_assoc]

theorem assemble_eq (blank : α) (chunks : List (List α)) :
    assemble blank (chunks, chunks.flatten.length) = chunks.flatten :=
  copyInto_eq chunks [] List.length_replicate

theorem length_flatten_snoc (kept : List (List α)) (value : List α) :
    (kept ++ [value]).flatten.length = kept.flatten.length + value.length := by
  rw [List.flatten_append, List.length_append, List.flatten_singleton]

/-- With chunks already kept, the rest of the stream decides as the whole would. -/
theorem collect_eq (bound : Bound) (broken : Bool) (blank : α) (chunks : List (List α)) :
    ∀ kept : List (List α), kept.flatten.length ≤ bound.most →
      (collect bound broken kept kept.flatten.length chunks).map (assemble blank) =
        outcome bound broken (kept ++ chunks).flatten := by
  induction chunks with
  | nil =>
    intro kept hkept
    rw [collect, List.append_nil, outcome, if_neg (Nat.not_lt.mpr hkept)]
    cases broken with
    | true => rfl
    | false =>
      cases bound.accepts kept.flatten.length with
      | true => exact congrArg Except.ok (assemble_eq blank kept)
      | false => rfl
  | cons value rest ih =>
    intro kept hkept
    have hsplit : kept ++ value :: rest = kept ++ [value] ++ rest := by rw [List.append_assoc, List.singleton_append]
    rw [collect, hsplit, ← length_flatten_snoc]
    by_cases hmore : bound.most < (kept ++ [value]).flatten.length
    · have hall : bound.most < (kept ++ [value] ++ rest).flatten.length := by
        rw [List.flatten_append, List.length_append]
        exact Nat.lt_add_right _ hmore
      rw [if_pos hmore, outcome, if_pos hall]
      rfl
    · rw [if_neg hmore]
      exact ih _ (Nat.not_lt.mp hmore)

/-- The reader's result is a function of the elements. -/
theorem read_eq (bound : Bound) (broken : Bool) (blank : α) (chunks : List (List α)) :
    read bound broken blank chunks = outcome bound broken chunks.flatten :=
  collect_eq bound broken blank chunks [] (Nat.zero_le _)

/-! ## The loop step by step -/

inductive State (α : Type) where
  | reading (kept : List (List α)) (count : Nat) (rest : List (List α))
  /-- A chunk was read, and its elements are counted. -/
  | received (kept : List (List α)) (count : Nat) (value : List α) (rest : List (List α))
  | copying (kept left : List (List α)) (buffer : List α) (offset : Nat)
  | ended (result : Except Refusal (List α))

def step (bound : Bound) (broken : Bool) (blank : α) : State α → State α
  | .reading kept count [] =>
    if broken then .ended (.error .broken)
    else if bound.accepts count then .copying kept kept (List.replicate count blank) 0
    else .ended (.error .mismatched)
  | .reading kept count (value :: rest) => .received kept (count + value.length) value rest
  | .received kept count value rest =>
    if bound.most < count then .ended (.error .exceeded) else .reading (kept ++ [value]) count rest
  | .copying kept (chunk :: left) buffer offset =>
    .copying kept left (write buffer offset chunk) (offset + chunk.length)
  | .copying _ [] buffer _ => .ended (.ok buffer)
  | .ended result => .ended result

/-- The state after some steps of a reader that begins with the stream. -/
def after (bound : Bound) (broken : Bool) (blank : α) (chunks : List (List α)) (steps : Nat) : State α :=
  (step bound broken blank)^[steps] (.reading [] 0 chunks)

section steps

variable (bound : Bound) (broken : Bool) (blank : α)

/-- What a state comes to. -/
def State.result : State α → Except Refusal (List α)
  | .reading kept count rest => (collect bound broken kept count rest).map (assemble blank)
  | .received kept count value rest =>
    if bound.most < count then .error .exceeded
    else (collect bound broken (kept ++ [value]) count rest).map (assemble blank)
  | .copying _ left buffer offset => .ok (copyInto buffer offset left)
  | .ended result => result

theorem result_step (s : State α) : (step bound broken blank s).result bound broken blank =
    s.result bound broken blank := by
  cases s with
  | reading kept count rest =>
    cases rest with
    | nil =>
      rw [step, State.result, collect]
      cases broken with
      | true => rfl
      | false => cases bound.accepts count <;> rfl
    | cons value rest =>
      rw [step, State.result, State.result, collect]
      split <;> rfl
  | received kept count value rest =>
    rw [step, State.result]
    split <;> rfl
  | copying kept left buffer offset => cases left <;> rfl
  | ended result => rfl

/-- A bound on the steps that are left. -/
def State.left : State α → Nat
  | .reading kept _ rest => 2 * rest.length + (kept.length + rest.length) + 2
  | .received kept _ _ rest => 2 * rest.length + 1 + (kept.length + 1 + rest.length) + 2
  | .copying _ left _ _ => left.length + 1
  | .ended _ => 0

theorem left_step (s : State α) : (step bound broken blank s).left ≤ s.left - 1 := by
  cases s with
  | reading kept count rest =>
    cases rest with
    | nil =>
      rw [step]
      split
      · exact Nat.zero_le _
      · split
        · simp only [State.left, List.length_nil]
          omega
        · exact Nat.zero_le _
    | cons value rest =>
      simp only [step, State.left, List.length_cons]
      omega
  | received kept count value rest =>
    rw [step]
    split
    · exact Nat.zero_le _
    · simp only [State.left, List.length_append, List.length_singleton]
      omega
  | copying kept left buffer offset =>
    cases left with
    | nil => exact Nat.zero_le _
    | cons chunk left => exact Nat.le_refl _
  | ended result => exact Nat.zero_le _

theorem result_iterate (s : State α) (n : Nat) :
    ((step bound broken blank)^[n] s).result bound broken blank = s.result bound broken blank := by
  induction n generalizing s with
  | zero => rfl
  | succ n ih => rw [Function.iterate_succ_apply, ih, result_step]

theorem left_iterate (s : State α) (n : Nat) : ((step bound broken blank)^[n] s).left ≤ s.left - n := by
  induction n generalizing s with
  | zero => exact Nat.le_refl _
  | succ n ih =>
    have hstep := left_step bound broken blank s
    have hrest := ih (step bound broken blank s)
    rw [Function.iterate_succ_apply]
    omega

/-- The reader ends, with its result. -/
theorem after_ends (chunks : List (List α)) {n : Nat} (hn : 3 * chunks.length + 2 ≤ n) :
    after bound broken blank chunks n = .ended (read bound broken blank chunks) := by
  have hresult := result_iterate bound broken blank (.reading [] 0 chunks) n
  have hleft := left_iterate bound broken blank (.reading [] 0 chunks) n
  have hzero : (State.reading [] 0 chunks).left - n = 0 := by
    simp only [State.left, List.length_nil]
    omega
  rw [hzero] at hleft
  rw [after]
  cases hend : (step bound broken blank)^[n] (.reading [] 0 chunks) with
  | ended result =>
    rw [hend] at hresult
    exact congrArg State.ended hresult
  | reading kept count rest => rw [hend] at hleft; cases hleft
  | received kept count value rest => rw [hend] at hleft; cases hleft
  | copying kept left buffer offset => rw [hend] at hleft; cases hleft

variable {bound : Bound} {broken : Bool} {blank : α}

/-! ## What a reader holds -/

/-- The elements that a state holds, in chunks and in the buffer. -/
def State.held : State α → Nat
  | .reading kept _ _ => kept.flatten.length
  | .received kept _ value _ => kept.flatten.length + value.length
  | .copying kept _ buffer _ => kept.flatten.length + buffer.length
  | .ended (.ok buffer) => buffer.length
  | .ended (.error _) => 0

/-- The end of the stream was not read yet. -/
def State.streaming : State α → Bool
  | .reading .. | .received .. => true
  | .copying .. | .ended _ => false

/-- What is kept is within the bound, and so is the buffer it is copied into. -/
def State.Within (bound : Bound) (chunks : List (List α)) : State α → Prop
  | .reading kept count rest => kept ++ rest = chunks ∧ count = kept.flatten.length ∧ count ≤ bound.most
  | .received kept count value rest =>
    kept ++ value :: rest = chunks ∧ count = kept.flatten.length + value.length ∧ kept.flatten.length ≤ bound.most
  | .copying kept left buffer offset =>
    kept.flatten.length ≤ bound.most ∧ buffer.length = kept.flatten.length ∧
      offset + left.flatten.length = buffer.length
  | .ended result => ∀ buffer, result = .ok buffer → buffer.length ≤ bound.most

theorem length_write {buffer chunk : List α} {offset : Nat} (h : offset + chunk.length ≤ buffer.length) :
    (write buffer offset chunk).length = buffer.length := by
  rw [write, List.length_append, List.length_append, List.length_take, List.length_drop]
  omega

theorem Within.step {chunks : List (List α)} {s : State α} (h : s.Within bound chunks) :
    (step bound broken blank s).Within bound chunks := by
  cases s with
  | reading kept count rest =>
    obtain ⟨hsplit, hcount, hmost⟩ := h
    cases rest with
    | nil =>
      rw [Chunks.step]
      split
      · exact fun _ hbuffer => nomatch hbuffer
      · split
        · refine ⟨hcount ▸ hmost, ?_, ?_⟩
          · rw [List.length_replicate, hcount]
          · rw [List.length_replicate, hcount, Nat.zero_add]
        · exact fun _ hbuffer => nomatch hbuffer
    | cons value rest => exact ⟨hsplit, by rw [hcount], hcount ▸ hmost⟩
  | received kept count value rest =>
    obtain ⟨hsplit, hcount, hmost⟩ := h
    rw [Chunks.step]
    split
    · exact fun _ hbuffer => nomatch hbuffer
    · rename_i hwithin
      refine ⟨?_, ?_, Nat.not_lt.mp hwithin⟩
      · rw [List.append_assoc, List.singleton_append, hsplit]
      · rw [length_flatten_snoc, hcount]
  | copying kept left buffer offset =>
    obtain ⟨hmost, hlength, hleft⟩ := h
    cases left with
    | nil =>
      intro buffer' hbuffer
      cases hbuffer
      rw [hlength]
      exact hmost
    | cons chunk left =>
      rw [List.flatten_cons, List.length_append] at hleft
      have hwrite : (write buffer offset chunk).length = buffer.length := length_write (by omega)
      exact ⟨hmost, hwrite.trans hlength, by rw [hwrite]; omega⟩
  | ended result => exact h

variable (bound broken blank) in
theorem within_after (chunks : List (List α)) (n : Nat) : (after bound broken blank chunks n).Within bound chunks := by
  induction n with
  | zero => exact ⟨rfl, rfl, Nat.zero_le _⟩
  | succ n ih =>
    rw [after, Function.iterate_succ_apply']
    exact Within.step ih

/-- While it reads, a reader holds no more than the bound and a chunk of the stream. -/
theorem held_streaming {chunks : List (List α)} {n : Nat} (h : (after bound broken blank chunks n).streaming = true) :
    ∃ chunk ∈ [] :: chunks, (after bound broken blank chunks n).held ≤ bound.most + chunk.length := by
  have hwithin := within_after bound broken blank chunks n
  cases hstate : after bound broken blank chunks n with
  | reading kept count rest =>
    rw [hstate] at hwithin
    obtain ⟨-, hcount, hmost⟩ := hwithin
    exact ⟨[], List.mem_cons_self, hcount ▸ hmost⟩
  | received kept count value rest =>
    rw [hstate] at hwithin
    obtain ⟨hsplit, -, hmost⟩ := hwithin
    refine ⟨value, ?_, Nat.add_le_add_right hmost _⟩
    rw [← hsplit]
    exact List.mem_cons_of_mem _ (List.mem_append_right _ List.mem_cons_self)
  | copying kept left buffer offset => rw [hstate] at h; cases h
  | ended result => rw [hstate] at h; cases h

/-- Once the stream has ended, a reader holds each element twice at most. -/
theorem held_ended {chunks : List (List α)} {n : Nat} (h : (after bound broken blank chunks n).streaming = false) :
    (after bound broken blank chunks n).held ≤ 2 * bound.most := by
  have hwithin := within_after bound broken blank chunks n
  cases hstate : after bound broken blank chunks n with
  | reading kept count rest => rw [hstate] at h; cases h
  | received kept count value rest => rw [hstate] at h; cases h
  | copying kept left buffer offset =>
    rw [hstate] at hwithin
    obtain ⟨hmost, hlength, -⟩ := hwithin
    rw [State.held]
    omega
  | ended result =>
    rw [hstate] at hwithin
    cases result with
    | ok buffer =>
      have := hwithin buffer rfl
      rw [State.held]
      omega
    | error why => exact Nat.zero_le _

/-- The steps of a reader end with its result, and on the way it holds no more
than the bound and a chunk while the stream lasts, and twice the bound after. -/
structure ReadsWithin (bound : Bound) (broken : Bool) (blank : α) (chunks : List (List α)) : Prop where
  ends : ∃ steps, after bound broken blank chunks steps = .ended (read bound broken blank chunks)
  streaming : ∀ steps, (after bound broken blank chunks steps).streaming = true →
    ∃ chunk ∈ [] :: chunks, (after bound broken blank chunks steps).held ≤ bound.most + chunk.length
  ended : ∀ steps, (after bound broken blank chunks steps).streaming = false →
    (after bound broken blank chunks steps).held ≤ 2 * bound.most

theorem readsWithin (chunks : List (List α)) : ReadsWithin bound broken blank chunks :=
  ⟨⟨3 * chunks.length + 2, after_ends bound broken blank chunks (Nat.le_refl _)⟩, fun _ => held_streaming, fun _ => held_ended⟩

end steps

end Chunks
