import Mathlib.Data.List.Perm.Subperm
import Mathlib.Data.List.Sort
import Mathlib.Order.Defs.LinearOrder
import Mathlib.Tactic.Common

/-!
# Pages behind a key

Rows are handed out in the order of their keys, a page at a time: the first so
many behind a cursor, and the key of the last of them as the next cursor when
there are more. What the pages come to is stated for listings that may change
from one page to the next.
-/
namespace Keyset

variable {κ ρ β σ : Type} [LinearOrder κ]

structure Page (κ ρ : Type) where
  rows : List ρ
  next : Option κ
  deriving DecidableEq, Repr

/-- The rows behind a cursor, in the order of their keys. -/
def beyond (key : ρ → κ) (cursor : Option κ) (rows : List ρ) : List ρ :=
  (rows.filter (fun r => cursor.all (fun k => decide (k < key r)))).mergeSort (fun a b => decide (key a ≤ key b))

/-- One row more than the limit is looked for, to tell whether a page is the last one. -/
def page (key : ρ → κ) (limit : Nat) (cursor : Option κ) (rows : List ρ) : Page κ ρ :=
  let found := (beyond key cursor rows).take (limit + 1)
  let shown := found.take limit
  ⟨shown, if limit < found.length then shown.getLast?.map key else none⟩

/-- The row comes after the cursor. -/
def After (key : ρ → κ) (cursor : Option κ) (r : ρ) : Prop := ∀ k, cursor = some k → k < key r

theorem After.of_none (key : ρ → κ) (r : ρ) : After key none r := fun _ h => nomatch h

theorem After.trans {key : ρ → κ} {cursor : Option κ} {a b : ρ} (h : After key cursor a) (hab : key a < key b) :
    After key cursor b :=
  fun k hk => (h k hk).trans hab

/-! ## One page -/

section page

variable {key : ρ → κ} {limit : Nat} {cursor : Option κ} {rows : List ρ}

theorem mem_beyond {r : ρ} : r ∈ beyond key cursor rows ↔ r ∈ rows ∧ After key cursor r := by
  rw [beyond, List.mem_mergeSort, List.mem_filter]
  cases cursor with
  | none => simp [After]
  | some k => simp [After]

theorem beyond_perm (key : ρ → κ) (rows : List ρ) : (beyond key none rows).Perm rows := by
  have hall : rows.filter (fun r => (none : Option κ).all (fun k => decide (k < key r))) = rows :=
    List.filter_eq_self.mpr fun _ _ => rfl
  rw [beyond, hall]
  exact List.mergeSort_perm _ _

/-- Different keys stand in strict order. -/
theorem beyond_sorted (cursor : Option κ) (hkeys : (rows.map key).Nodup) :
    (beyond key cursor rows).Pairwise (fun a b => key a < key b) := by
  have hsorted : (beyond key cursor rows).Pairwise (fun a b => decide (key a ≤ key b) = true) := by
    apply List.pairwise_mergeSort
    · intro a b c hab hbc
      simp only [decide_eq_true_eq] at hab hbc ⊢
      exact hab.trans hbc
    · intro a b
      simp only [Bool.or_eq_true, decide_eq_true_eq]
      exact le_total _ _
  have hdistinct : (beyond key cursor rows).Pairwise (fun a b => key a ≠ key b) := by
    have hnodup : ((rows.filter (fun r => cursor.all (fun k => decide (k < key r)))).map key).Nodup :=
      (List.filter_sublist.map key).nodup hkeys
    exact List.pairwise_map.mp (((List.mergeSort_perm _ _).map key).nodup_iff.mpr hnodup)
  refine (hsorted.and hdistinct).imp ?_
  rintro a b ⟨hle, hne⟩
  exact lt_of_le_of_ne (decide_eq_true_eq.mp hle) hne

/-- A page is how the rows behind its cursor begin. -/
theorem page_rows : (page key limit cursor rows).rows = (beyond key cursor rows).take limit := by
  rw [page, List.take_take, Nat.min_eq_left (Nat.le_succ limit)]

theorem page_next_none (hlimit : 0 < limit) (h : (page key limit cursor rows).next = none) :
    (page key limit cursor rows).rows = beyond key cursor rows := by
  rw [page_rows]
  apply List.take_of_length_le
  by_contra hmore
  have hfound : limit < ((beyond key cursor rows).take (limit + 1)).length := by
    rw [List.length_take]
    omega
  have hshown : (((beyond key cursor rows).take (limit + 1)).take limit).length = limit := by
    rw [List.length_take]
    omega
  simp only [page, if_pos hfound, Option.map_eq_none_iff, List.getLast?_eq_none_iff] at h
  rw [h, List.length_nil] at hshown
  omega

/-- The next cursor is the key of the last row, and what lies behind it is what the page leaves. -/
theorem page_next_some (hkeys : (rows.map key).Nodup) {k : κ} (h : (page key limit cursor rows).next = some k) :
    (∃ r ∈ (page key limit cursor rows).rows, key r = k) ∧
      (∀ r ∈ (page key limit cursor rows).rows, key r ≤ k) ∧
      ∀ r ∈ beyond key cursor rows, r ∈ (page key limit cursor rows).rows ∨ k < key r := by
  have hsorted := beyond_sorted cursor hkeys
  have hnext : (page key limit cursor rows).rows.getLast?.map key = some k := by
    simp only [page] at h ⊢
    split at h
    · exact h
    · cases h
  obtain ⟨last, hlast, rfl⟩ := Option.map_eq_some_iff.mp hnext
  have hsplit := List.take_append_drop limit (beyond key cursor rows)
  rw [← page_rows] at hsplit
  obtain ⟨front, hfront⟩ := List.getLast?_eq_some_iff.mp hlast
  rw [← hsplit, List.pairwise_append] at hsorted
  obtain ⟨hpage, -, hrest⟩ := hsorted
  have hmem : last ∈ (page key limit cursor rows).rows := List.mem_of_getLast? hlast
  refine ⟨⟨last, hmem, rfl⟩, ?_, ?_⟩
  · intro r hr
    rw [hfront] at hr hpage
    rcases List.mem_append.mp hr with hr | hr
    · exact le_of_lt ((List.pairwise_append.mp hpage).2.2 r hr last List.mem_cons_self)
    · rw [List.mem_singleton.mp hr]
  · intro r hr
    rw [← hsplit] at hr
    rcases List.mem_append.mp hr with hr | hr
    · exact .inl hr
    · exact .inr (hrest last hmem r hr)

theorem mem_page {r : ρ} (h : r ∈ (page key limit cursor rows).rows) : r ∈ rows ∧ After key cursor r := by
  rw [page_rows] at h
  exact mem_beyond.mp (List.mem_of_mem_take h)

theorem page_sorted (hkeys : (rows.map key).Nodup) :
    (page key limit cursor rows).rows.Pairwise (fun a b => key a < key b) := by
  rw [page_rows]
  exact (beyond_sorted cursor hkeys).sublist (List.take_sublist _ _)

theorem beyond_map {f : β → ρ} {items : List β} :
    beyond key cursor (items.map f) = (beyond (key ∘ f) cursor items).map f := by
  rw [beyond, beyond, List.filter_map, List.map_mergeSort]
  · rfl
  · intro a _ b _
    rfl

/-- A page of values is the page of what they were computed from. -/
theorem page_map {f : β → ρ} {items : List β} : page key limit cursor (items.map f) =
    ⟨(page (key ∘ f) limit cursor items).rows.map f, (page (key ∘ f) limit cursor items).next⟩ := by
  simp only [page, beyond_map, ← List.map_take, List.length_map, List.getLast?_map, Option.map_map]

end page

/-! ## All pages -/

/-- The pages that following the cursors gives, one from each state, until there is no next one. -/
inductive Traversal (fetch : σ → Option κ → Option (Page κ ρ)) : Option κ → List σ → List (List ρ) → Prop
  | last {cursor s p} : fetch s cursor = some p → p.next = none → Traversal fetch cursor [s] [p.rows]
  | more {cursor s p k states pages} : fetch s cursor = some p → p.next = some k →
      Traversal fetch (some k) states pages → Traversal fetch cursor (s :: states) (p.rows :: pages)

section traversal

variable {key : ρ → κ} {limit : Nat} {cursor : Option κ} {listing : σ → List ρ}
  {fetch : σ → Option κ → Option (Page κ ρ)} {states : List σ} {pages : List (List ρ)}

/-- Every answer is the page of what is listed, and no key is listed twice. -/
structure Serves (key : ρ → κ) (limit : Nat) (listing : σ → List ρ) (fetch : σ → Option κ → Option (Page κ ρ)) :
    Prop where
  positive : 0 < limit
  keys : ∀ s, ((listing s).map key).Nodup
  answers : ∀ {s cursor p}, fetch s cursor = some p → p = page key limit cursor (listing s)

theorem Serves.next_some (h : Serves key limit listing fetch) {s : σ} {p : Page κ ρ} (hfetch : fetch s cursor = some p)
    {k : κ} (hnext : p.next = some k) :
    (∃ r ∈ p.rows, key r = k) ∧ (∀ r ∈ p.rows, key r ≤ k) ∧
      ∀ r ∈ beyond key cursor (listing s), r ∈ p.rows ∨ k < key r := by
  obtain rfl := h.answers hfetch
  exact page_next_some (h.keys s) hnext

/-- What was handed out was listed when it was, and lies behind the cursor. -/
theorem Traversal.listed (h : Serves key limit listing fetch) (ht : Traversal fetch cursor states pages) {r : ρ}
    (hr : r ∈ pages.flatten) : (∃ s ∈ states, r ∈ listing s) ∧ After key cursor r := by
  induction ht with
  | last hfetch _ =>
    obtain rfl := h.answers hfetch
    rw [List.flatten_singleton] at hr
    obtain ⟨hlisted, hafter⟩ := mem_page hr
    exact ⟨⟨_, List.mem_cons_self, hlisted⟩, hafter⟩
  | more hfetch hnext _ ih =>
    obtain ⟨⟨last, hlast, hkey⟩, -, -⟩ := h.next_some hfetch hnext
    obtain rfl := h.answers hfetch
    rw [List.flatten_cons] at hr
    rcases List.mem_append.mp hr with hr | hr
    · obtain ⟨hlisted, hafter⟩ := mem_page hr
      exact ⟨⟨_, List.mem_cons_self, hlisted⟩, hafter⟩
    · obtain ⟨⟨s, hs, hlisted⟩, hbehind⟩ := ih hr
      have hafter := (mem_page hlast).2
      exact ⟨⟨s, List.mem_cons_of_mem _ hs, hlisted⟩, hafter.trans (hkey ▸ hbehind _ rfl)⟩

/-- The rows of all pages stand in strict order, so that no key is handed out twice. -/
theorem Traversal.sorted (h : Serves key limit listing fetch) (ht : Traversal fetch cursor states pages) :
    pages.flatten.Pairwise (fun a b => key a < key b) := by
  induction ht with
  | last hfetch _ =>
    obtain rfl := h.answers hfetch
    rw [List.flatten_singleton]
    exact page_sorted (h.keys _)
  | more hfetch hnext hrest ih =>
    obtain ⟨-, hmost, -⟩ := h.next_some hfetch hnext
    obtain rfl := h.answers hfetch
    rw [List.flatten_cons, List.pairwise_append]
    refine ⟨page_sorted (h.keys _), ih, ?_⟩
    intro a ha b hb
    exact (hmost a ha).trans_lt ((hrest.listed h hb).2 _ rfl)

/-- A key that is listed in every state is handed out. -/
theorem Traversal.complete (h : Serves key limit listing fetch) (ht : Traversal fetch cursor states pages) {k : κ}
    (hbehind : ∀ c, cursor = some c → c < k) (hlisted : ∀ s ∈ states, k ∈ (listing s).map key) :
    k ∈ pages.flatten.map key := by
  have hbeyond : ∀ {cursor : Option κ} {s : σ}, (∀ c, cursor = some c → c < k) → k ∈ (listing s).map key →
      ∃ r ∈ beyond key cursor (listing s), key r = k := by
    intro cursor s hbehind hmem
    obtain ⟨r, hr, rfl⟩ := List.mem_map.mp hmem
    exact ⟨r, mem_beyond.mpr ⟨hr, hbehind⟩, rfl⟩
  induction ht with
  | last hfetch hnext =>
    obtain ⟨r, hr, rfl⟩ := hbeyond hbehind (hlisted _ List.mem_cons_self)
    obtain rfl := h.answers hfetch
    rw [List.flatten_singleton, page_next_none h.positive hnext]
    exact List.mem_map.mpr ⟨r, hr, rfl⟩
  | more hfetch hnext _ ih =>
    obtain ⟨r, hr, rfl⟩ := hbeyond hbehind (hlisted _ List.mem_cons_self)
    obtain ⟨-, -, hall⟩ := h.next_some hfetch hnext
    rw [List.flatten_cons, List.map_append, List.mem_append]
    rcases hall r hr with hr | hr
    · exact .inl (List.mem_map.mpr ⟨r, hr, rfl⟩)
    · refine .inr (ih ?_ fun s hs => hlisted s (List.mem_cons_of_mem _ hs))
      intro c hc
      obtain rfl := Option.some.inj hc
      exact hr

/-- Over a listing that stays as it is, the pages are the listing in the order of its keys. -/
theorem Traversal.flatten_eq (h : Serves key limit listing fetch) (ht : Traversal fetch none states pages) {s : σ}
    (hstates : ∀ t ∈ states, t = s) : pages.flatten = beyond key none (listing s) := by
  have hsorted := ht.sorted h
  have hwhole := beyond_sorted none (h.keys s)
  have hnodup : ∀ {rows : List ρ}, rows.Pairwise (fun a b => key a < key b) → rows.Nodup :=
    fun hp => hp.imp fun hab heq => absurd (congrArg key heq) (ne_of_lt hab)
  have hmem : ∀ r, r ∈ pages.flatten ↔ r ∈ beyond key none (listing s) := by
    intro r
    constructor
    · intro hr
      obtain ⟨⟨t, ht', hlisted⟩, -⟩ := ht.listed h hr
      rw [hstates t ht'] at hlisted
      exact mem_beyond.mpr ⟨hlisted, .of_none key r⟩
    · intro hr
      have hlisted := (mem_beyond.mp hr).1
      have hkey : key r ∈ pages.flatten.map key :=
        ht.complete h (fun _ hc => nomatch hc) fun t ht' => hstates t ht' ▸ List.mem_map.mpr ⟨r, hlisted, rfl⟩
      obtain ⟨r', hr', heq⟩ := List.mem_map.mp hkey
      obtain ⟨⟨t, ht', hlisted'⟩, -⟩ := ht.listed h hr'
      rw [hstates t ht'] at hlisted'
      rw [← List.inj_on_of_nodup_map (h.keys s) hlisted' hlisted heq]
      exact hr'
  have hperm := (List.perm_ext_iff_of_nodup (hnodup hsorted) (hnodup hwhole)).mpr hmem
  exact hperm.eq_of_pairwise (fun _ _ _ _ hab hba => absurd hab (lt_asymm hba)) hsorted hwhole

/-- Over a listing that stays as it is, following the cursors comes to an end. -/
theorem Serves.exists_traversal (h : Serves key limit listing fetch) {s : σ}
    (hserves : ∀ cursor, (∀ k, cursor = some k → k ∈ (listing s).map key) → ∃ p, fetch s cursor = some p) :
    ∀ (bound : Nat) (cursor : Option κ), (∀ k, cursor = some k → k ∈ (listing s).map key) →
      (beyond key cursor (listing s)).length ≤ bound →
      ∃ n ≤ bound, ∃ pages, Traversal fetch cursor (List.replicate (n + 1) s) pages := by
  intro bound
  induction bound with
  | zero =>
    intro cursor hcursor hlength
    obtain ⟨p, hfetch⟩ := hserves cursor hcursor
    refine ⟨0, Nat.le_refl 0, [p.rows], .last hfetch ?_⟩
    cases hnext : p.next with
    | none => rfl
    | some k =>
      obtain ⟨⟨r, hr, -⟩, -⟩ := h.next_some hfetch hnext
      obtain rfl := h.answers hfetch
      have hbeyond := mem_beyond.mpr (mem_page hr)
      exact absurd hlength (Nat.not_le.mpr (List.length_pos_of_mem hbeyond))
  | succ bound ih =>
    intro cursor hcursor hlength
    obtain ⟨p, hfetch⟩ := hserves cursor hcursor
    cases hnext : p.next with
    | none => exact ⟨0, Nat.zero_le _, [p.rows], .last hfetch hnext⟩
    | some k =>
      obtain ⟨⟨last, hlast, hkey⟩, -, -⟩ := h.next_some hfetch hnext
      obtain rfl := h.answers hfetch
      have hmem := (mem_page hlast).1
      -- the last row of the page is behind the next cursor no longer
      have hfewer : (beyond key (some k) (listing s)).length < (beyond key cursor (listing s)).length := by
        have hsub : last :: beyond key (some k) (listing s) ⊆ beyond key cursor (listing s) := by
          intro r hr
          rcases List.mem_cons.mp hr with rfl | hr
          · exact mem_beyond.mpr (mem_page hlast)
          · obtain ⟨hlisted, hafter⟩ := mem_beyond.mp hr
            exact mem_beyond.mpr ⟨hlisted, (mem_page hlast).2.trans (hkey ▸ hafter k rfl)⟩
        have hnodup : (last :: beyond key (some k) (listing s)).Nodup := by
          refine List.nodup_cons.mpr ⟨fun hin => ?_, ?_⟩
          · exact absurd ((mem_beyond.mp hin).2 k rfl) (hkey ▸ lt_irrefl _)
          · exact (beyond_sorted (some k) (h.keys s)).imp fun hab heq => absurd (congrArg key heq) (ne_of_lt hab)
        exact (hnodup.subperm hsub).length_le
      obtain ⟨n, hn, pages, hrest⟩ := ih (some k)
        (fun k' hk' => Option.some.inj hk' ▸ hkey ▸ List.mem_map.mpr ⟨last, hmem, rfl⟩) (by omega)
      exact ⟨n + 1, Nat.succ_le_succ hn, _, .more hfetch hnext hrest⟩

end traversal

end Keyset
