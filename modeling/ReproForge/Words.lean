import Mathlib.Data.List.Infix

/-!
# Occurrences of words

A text is cut at the occurrences of some words, from the left and without
overlap, the first word in the list taken where several of them occur. No piece
has an occurrence left, and a text that was joined from such pieces with a word
that does not overlap itself is cut into these pieces again.
-/
namespace Words

variable {α : Type} [DecidableEq α]

def extend (c : α) : List (List α) → List (List α)
  | [] => [[c]]
  | piece :: rest => (c :: piece) :: rest

/-- The pieces of a text, of which `skip` characters belong to an occurrence. -/
def cut (words : List (List α)) : Nat → List α → List (List α)
  | _, [] => [[]]
  | skip + 1, _ :: rest => cut words skip rest
  | 0, c :: rest =>
    match words.find? (fun w => w.isPrefixOf (c :: rest)) with
    | some w => [] :: cut words (w.length - 1) rest
    | none => extend c (cut words 0 rest)

def pieces (words : List (List α)) (s : List α) : List (List α) := cut words 0 s

/-- Every occurrence is replaced. -/
def replace (words : List (List α)) (replacement s : List α) : List α :=
  replacement.intercalate (pieces words s)

theorem pieces_nil (words : List (List α)) : pieces words [] = [[]] := by rw [pieces, cut]

theorem cut_drop (words : List (List α)) (skip : Nat) (s : List α) : cut words skip s = pieces words (s.drop skip) := by
  induction s generalizing skip with
  | nil => rw [List.drop_nil, pieces_nil, cut]
  | cons c rest ih =>
    cases skip with
    | zero => rw [List.drop_zero, pieces]
    | succ skip => rw [cut, ih, List.drop_succ_cons]

theorem pieces_cons (words : List (List α)) (c : α) (rest : List α) :
    pieces words (c :: rest) = match words.find? (fun w => w.isPrefixOf (c :: rest)) with
      | some w => [] :: pieces words (rest.drop (w.length - 1))
      | none => extend c (pieces words rest) := by
  rw [pieces, cut]
  split
  · rw [cut_drop]
  · rfl

theorem pieces_ne_nil (words : List (List α)) (s : List α) : pieces words s ≠ [] := by
  cases s with
  | nil => rw [pieces_nil]; exact List.cons_ne_nil _ _
  | cons c rest =>
    rw [pieces_cons]
    split
    · exact List.cons_ne_nil _ _
    · cases pieces words rest <;> exact List.cons_ne_nil _ _

/-! ## What is left in the pieces -/

omit [DecidableEq α] in
theorem infix_cons {w s : List α} {c : α} (h : w <:+: c :: s) : w <+: c :: s ∨ w <:+: s :=
  List.infix_cons_iff.mp h

/-- The first piece is how the text starts; the others come from the rest of it. -/
theorem pieces_spec (words : List (List α)) (s : List α) :
    (∀ p ∈ (pieces words s).head?, p <+: s ∧ ∀ w ∈ words, w ≠ [] → ¬w <:+: p) ∧
      ∀ p ∈ pieces words s, p <:+: s ∧ ∀ w ∈ words, w ≠ [] → ¬w <:+: p := by
  have hempty : ∀ w ∈ words, w ≠ [] → ¬w <:+: ([] : List α) := fun w _ hne hin => hne (List.infix_nil.mp hin)
  induction hlength : s.length using Nat.strong_induction_on generalizing s with
  | _ n ih =>
    cases s with
    | nil =>
      rw [pieces_nil]
      constructor
      · rintro p ⟨⟩
        exact ⟨List.prefix_rfl, hempty⟩
      · intro p hp
        rw [List.mem_singleton.mp hp]
        exact ⟨List.infix_rfl, hempty⟩
    | cons c rest =>
      rw [List.length_cons] at hlength
      rw [pieces_cons]
      cases hfind : words.find? (fun w => w.isPrefixOf (c :: rest)) with
      | some w =>
        dsimp only
        have hrest := ih (rest.drop (w.length - 1)).length (by rw [List.length_drop]; omega) _ rfl
        have hsuffix : rest.drop (w.length - 1) <:+: c :: rest :=
          ((List.drop_suffix _ rest).trans (List.suffix_cons c rest)).isInfix
        constructor
        · rintro p ⟨⟩
          exact ⟨List.nil_prefix, hempty⟩
        · intro p hp
          obtain rfl | hp := List.mem_cons.mp hp
          · exact ⟨List.nil_infix, hempty⟩
          · exact ⟨(hrest.2 p hp).1.trans hsuffix, (hrest.2 p hp).2⟩
      | none =>
        dsimp only
        obtain ⟨hhead, hall⟩ := ih rest.length (by omega) rest rfl
        have hnone := List.find?_eq_none.mp hfind
        cases hpieces : pieces words rest with
        | nil => exact absurd hpieces (pieces_ne_nil words rest)
        | cons p ps =>
          rw [hpieces] at hhead hall
          obtain ⟨hpre, hp⟩ := hhead p rfl
          have hstart : c :: p <+: c :: rest := List.prefix_cons_inj c |>.mpr hpre
          -- an occurrence in the longer piece starts in front, where no word does, or lies in the shorter one
          have hfirst : ∀ w ∈ words, w ≠ [] → ¬w <:+: c :: p := by
            intro w hw hne hin
            obtain hfront | hinner := infix_cons hin
            · exact hnone w hw (List.isPrefixOf_iff_prefix.mpr (hfront.trans hstart))
            · exact hp w hw hne hinner
          rw [extend]
          constructor
          · rintro q ⟨⟩
            exact ⟨hstart, hfirst⟩
          · intro q hq
            obtain rfl | hq := List.mem_cons.mp hq
            · exact ⟨hstart.isInfix, hfirst⟩
            · obtain ⟨hin, hq⟩ := hall q (List.mem_cons_of_mem p hq)
              exact ⟨hin.trans (List.suffix_cons c rest).isInfix, hq⟩

/-- No piece contains a word. -/
theorem not_infix_piece {words : List (List α)} {s p w : List α} (hp : p ∈ pieces words s) (hw : w ∈ words)
    (hne : w ≠ []) : ¬w <:+: p := ((pieces_spec words s).2 p hp).2 w hw hne

theorem infix_of_piece {words : List (List α)} {s p : List α} (hp : p ∈ pieces words s) : p <:+: s :=
  ((pieces_spec words s).2 p hp).1

/-- A text without any of the words is one piece. -/
theorem pieces_clean {words : List (List α)} {s : List α} (h : ∀ w ∈ words, ¬w <:+: s) : pieces words s = [s] := by
  induction s with
  | nil => exact pieces_nil words
  | cons c rest ih =>
    have hnone : words.find? (fun w => w.isPrefixOf (c :: rest)) = none := by
      rw [List.find?_eq_none]
      intro w hw hpre
      exact h w hw (List.isPrefixOf_iff_prefix.mp hpre).isInfix
    rw [pieces_cons, hnone, ih fun w hw hin => h w hw (hin.trans (List.suffix_cons c rest).isInfix)]
    rfl

theorem replace_clean {words : List (List α)} {s : List α} (replacement : List α) (h : ∀ w ∈ words, ¬w <:+: s) :
    replace words replacement s = s := by
  rw [replace, pieces_clean h, List.intercalate_singleton]

/-! ## Joining pieces -/

/-- The word does not end as it starts. -/
def Borderless (w : List α) : Prop := ∀ n, 0 < n → n < w.length → w.take n ≠ w.drop (w.length - n)

instance (w : List α) : Decidable (Borderless w) :=
  decidable_of_iff (∀ n < w.length, 0 < n → w.take n ≠ w.drop (w.length - n))
    ⟨fun h n hpos hlt => h n hlt hpos, fun h n hlt hpos => h n hpos hlt⟩

omit [DecidableEq α] in
/-- The word stands in front only where it was put. -/
theorem not_prefix_before {w p rest : List α} (hw : Borderless w) (hp : p ≠ []) (hclean : ¬w <:+: p) :
    ¬w <+: p ++ (w ++ rest) := by
  intro hpre
  by_cases hlength : w.length ≤ p.length
  · exact hclean (List.prefix_of_prefix_length_le hpre (List.prefix_append p _) hlength).isInfix
  · have hpositive := List.length_pos_iff.mpr hp
    -- the word goes on behind the piece with its own beginning
    have htail : w.drop p.length = w.take (w.length - p.length) := by
      obtain ⟨t, ht⟩ := hpre
      have hdrop := congrArg (List.drop p.length) ht
      rw [List.drop_left, List.drop_append_of_le_length (by omega)] at hdrop
      have htake := congrArg (List.take (w.length - p.length)) hdrop
      rw [List.take_left' (by rw [List.length_drop]), List.take_append_of_le_length (by omega)] at htake
      exact htake
    have hborder := hw (w.length - p.length) (by omega) (by omega)
    rw [show w.length - (w.length - p.length) = p.length by omega] at hborder
    exact hborder htail.symm

theorem pieces_append {w p rest : List α} (hne : w ≠ []) (hw : Borderless w) (hclean : ¬w <:+: p) :
    pieces [w] (p ++ (w ++ rest)) = p :: pieces [w] rest := by
  induction p with
  | nil =>
    obtain ⟨c, tail, rfl⟩ := List.exists_cons_of_ne_nil hne
    have hfind : [c :: tail].find? (fun v => v.isPrefixOf (c :: tail ++ rest)) = some (c :: tail) := by
      rw [List.find?_cons_of_pos]
      exact List.isPrefixOf_iff_prefix.mpr (List.prefix_append _ rest)
    rw [List.nil_append, List.cons_append, pieces_cons]
    rw [List.cons_append] at hfind
    rw [hfind]
    dsimp only
    rw [List.length_cons, Nat.add_sub_cancel, List.drop_left]
  | cons c p ih =>
    have hnone : [w].find? (fun v => v.isPrefixOf (c :: p ++ (w ++ rest))) = none := by
      rw [List.find?_eq_none]
      intro v hv hpre
      rw [List.mem_singleton.mp hv] at hpre
      exact not_prefix_before hw (List.cons_ne_nil c p) hclean (List.isPrefixOf_iff_prefix.mp hpre)
    rw [List.cons_append] at hnone ⊢
    rw [pieces_cons, hnone, ih fun hin => hclean (hin.trans (List.suffix_cons c p).isInfix)]
    rfl

/-- Pieces without the word are found again after they were joined with it. -/
theorem pieces_intercalate {w : List α} (hne : w ≠ []) (hw : Borderless w) {ps : List (List α)} (hps : ps ≠ [])
    (hclean : ∀ p ∈ ps, ¬w <:+: p) : pieces [w] (w.intercalate ps) = ps := by
  induction ps with
  | nil => exact absurd rfl hps
  | cons p ps ih =>
    have hp := hclean p List.mem_cons_self
    cases ps with
    | nil =>
      rw [List.intercalate_singleton]
      apply pieces_clean
      intro v hv
      rw [List.mem_singleton.mp hv]
      exact hp
    | cons q ps =>
      rw [List.intercalate_cons_cons, List.append_assoc, pieces_append hne hw hp,
        ih (List.cons_ne_nil q ps) fun r hr => hclean r (List.mem_cons_of_mem p hr)]

omit [DecidableEq α] in
theorem intercalate_append (w : List α) {ps qs : List (List α)} (hps : ps ≠ []) (hqs : qs ≠ []) :
    w.intercalate (ps ++ qs) = w.intercalate ps ++ (w ++ w.intercalate qs) := by
  induction ps with
  | nil => exact absurd rfl hps
  | cons p ps ih =>
    cases ps with
    | nil =>
      obtain ⟨q, qs, rfl⟩ := List.exists_cons_of_ne_nil hqs
      rw [List.singleton_append, List.intercalate_cons_cons, List.intercalate_singleton, List.append_assoc]
    | cons p' ps =>
      rw [List.cons_append, List.cons_append, List.intercalate_cons_cons, ← List.cons_append,
        ih (List.cons_ne_nil p' ps), List.intercalate_cons_cons]
      simp only [List.append_assoc]

omit [DecidableEq α] in
/-- Joined texts joined again. -/
theorem intercalate_flatMap {β : Type} (w : List α) (f : β → List (List α)) (items : List β) (hf : ∀ b, f b ≠ []) :
    w.intercalate (items.map (fun b => w.intercalate (f b))) = w.intercalate (items.flatMap f) := by
  induction items with
  | nil => rfl
  | cons b rest ih =>
    cases rest with
    | nil => rw [List.map_singleton, List.intercalate_singleton, List.flatMap_singleton]
    | cons b' rest =>
      have hne : (b' :: rest).flatMap f ≠ [] := by
        rw [List.flatMap_cons]
        exact List.append_ne_nil_of_left_ne_nil (hf b') _
      have hsplit : (b :: b' :: rest).flatMap f = f b ++ (b' :: rest).flatMap f := List.flatMap_cons
      rw [List.map_cons] at ih
      rw [List.map_cons, List.map_cons, List.intercalate_cons_cons, ih, hsplit, intercalate_append w (hf b) hne,
        List.append_assoc]

/-! ## Redaction -/

section redact

variable {words : List (List α)} {marker : List α}

/-- Every word outside the markers is replaced by a marker. -/
def redact (words : List (List α)) (marker s : List α) : List α :=
  marker.intercalate ((pieces [marker] s).map (replace words marker))

theorem redact_eq (words : List (List α)) (marker s : List α) :
    redact words marker s = marker.intercalate ((pieces [marker] s).flatMap (pieces words)) := by
  rw [← intercalate_flatMap marker (pieces words) _ (pieces_ne_nil words)]
  rfl

/-- Cut at the markers, a redacted text falls into the pieces that the words left. -/
theorem pieces_redact (hne : marker ≠ []) (hmarker : Borderless marker) (s : List α) :
    pieces [marker] (redact words marker s) = (pieces [marker] s).flatMap (pieces words) := by
  rw [redact_eq]
  refine pieces_intercalate hne hmarker ?_ ?_
  · obtain ⟨p, ps, hp⟩ := List.exists_cons_of_ne_nil (pieces_ne_nil [marker] s)
    rw [hp, List.flatMap_cons]
    exact List.append_ne_nil_of_left_ne_nil (pieces_ne_nil words p) _
  · intro p hp hin
    obtain ⟨segment, hsegment, hp⟩ := List.mem_flatMap.mp hp
    exact not_infix_piece hsegment (List.mem_singleton.mpr rfl) hne (hin.trans (infix_of_piece hp))

theorem not_infix_redacted (hne : marker ≠ []) (hmarker : Borderless marker) {s p w : List α}
    (hp : p ∈ pieces [marker] (redact words marker s)) (hw : w ∈ words) (hword : w ≠ []) : ¬w <:+: p := by
  rw [pieces_redact hne hmarker] at hp
  obtain ⟨segment, -, hp⟩ := List.mem_flatMap.mp hp
  exact not_infix_piece hp hw hword

theorem redact_redact (hne : marker ≠ []) (hmarker : Borderless marker) (hwords : ∀ w ∈ words, w ≠ []) (s : List α) :
    redact words marker (redact words marker s) = redact words marker s := by
  have hfixed : ∀ p ∈ (pieces [marker] s).flatMap (pieces words), replace words marker p = id p := by
    intro p hp
    obtain ⟨segment, -, hp⟩ := List.mem_flatMap.mp hp
    exact replace_clean marker fun w hw => not_infix_piece hp hw (hwords w hw)
  rw [redact, pieces_redact hne hmarker, List.map_congr_left hfixed, List.map_id, ← redact_eq]

theorem redact_clean {s : List α} (hmarker : ¬marker <:+: s) (h : ∀ w ∈ words, ¬w <:+: s) :
    redact words marker s = s := by
  have hone : pieces [marker] s = [s] := by
    apply pieces_clean
    intro w hw
    rw [List.mem_singleton.mp hw]
    exact hmarker
  rw [redact, hone, List.map_singleton, replace_clean marker h, List.intercalate_singleton]

end redact

end Words
