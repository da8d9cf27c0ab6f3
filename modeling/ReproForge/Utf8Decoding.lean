import Mathlib

/-!
# Decoding UTF-8 with replacement

The decoder that takes any bytes: it reads them one at a time, gives a character
for each well-formed sequence, and the replacement character for each maximal
part that is none.
-/
namespace Utf8

/-! ## Parts -/

/-- What the decoder makes one character of. -/
inductive Part where
  | scalar : Char → Part
  | malformed : List UInt8 → Part
  deriving DecidableEq, Repr

def replacement : Char := Char.ofNat 0xFFFD

namespace Part

def char : Part → Char
  | .scalar c => c
  | .malformed _ => replacement

def bytes : Part → List UInt8
  | .scalar c => String.utf8EncodeChar c
  | .malformed bytes => bytes

/-- How many bytes longer its character is than the part. -/
def growth : Part → Nat
  | .scalar _ => 0
  | .malformed bytes => 3 - bytes.length

def Proper : Part → Prop
  | .scalar _ => True
  | .malformed bytes => 1 ≤ bytes.length ∧ bytes.length ≤ 3

theorem size_replacement : replacement.utf8Size = 3 := by decide

theorem size_char {part : Part} (h : part.Proper) : part.char.utf8Size = part.bytes.length + part.growth := by
  cases part with
  | scalar c => exact (String.length_utf8EncodeChar c).symm
  | malformed bytes =>
    obtain ⟨-, hlength⟩ := h
    have hsize : (Part.malformed bytes).char.utf8Size = 3 := size_replacement
    have hbytes : (Part.malformed bytes).bytes.length = bytes.length := rfl
    have hgrowth : (Part.malformed bytes).growth = 3 - bytes.length := rfl
    omega

theorem bytes_pos {part : Part} (h : part.Proper) : 1 ≤ part.bytes.length := by
  cases part with
  | scalar c =>
    have hlength := String.length_utf8EncodeChar c
    have hpos := Char.utf8Size_pos c
    change 1 ≤ (String.utf8EncodeChar c).length
    omega
  | malformed bytes => exact h.1

end Part

/-! ## The decoder -/

/-- A sequence that is not complete: its bytes, the bits of its code point, how many
bytes it needs, and between which bounds the next one lies. -/
structure Sequence where
  bytes : List UInt8
  codePoint : Nat
  needed : Nat
  lower : Nat
  upper : Nat
  deriving DecidableEq, Repr

/-- The first byte of a sequence. -/
def lead (b : UInt8) : Option Sequence × List Part :=
  let n := b.toNat
  if n ≤ 0x7F then (none, [.scalar (Char.ofNat n)])
  else if 0xC2 ≤ n ∧ n ≤ 0xDF then (some ⟨[b], n % 32, 1, 0x80, 0xBF⟩, [])
  else if 0xE0 ≤ n ∧ n ≤ 0xEF then
    (some ⟨[b], n % 16, 2, if n = 0xE0 then 0xA0 else 0x80, if n = 0xED then 0x9F else 0xBF⟩, [])
  else if 0xF0 ≤ n ∧ n ≤ 0xF4 then
    (some ⟨[b], n % 8, 3, if n = 0xF0 then 0x90 else 0x80, if n = 0xF4 then 0x8F else 0xBF⟩, [])
  else (none, [.malformed [b]])

/-- A byte that does not continue a sequence is read again as a first one. -/
def step : Option Sequence → UInt8 → Option Sequence × List Part
  | none, b => lead b
  | some s, b =>
    let n := b.toNat
    if s.lower ≤ n ∧ n ≤ s.upper then
      let codePoint := s.codePoint * 64 + n % 64
      if s.needed = 1 then (none, [.scalar (Char.ofNat codePoint)])
      else (some ⟨s.bytes ++ [b], codePoint, s.needed - 1, 0x80, 0xBF⟩, [])
    else ((lead b).1, .malformed s.bytes :: (lead b).2)

def pending : Option Sequence → List UInt8
  | none => []
  | some s => s.bytes

/-- The end of the bytes, where an open sequence is malformed. -/
def flush : Option Sequence → List Part
  | none => []
  | some s => [.malformed s.bytes]

def partsFrom (state : Option Sequence) : List UInt8 → List Part
  | [] => flush state
  | b :: bytes => (step state b).2 ++ partsFrom (step state b).1 bytes

def parts (bytes : List UInt8) : List Part := partsFrom none bytes

def decode (bytes : List UInt8) : List Char := (parts bytes).map Part.char

def encode (cs : List Char) : List UInt8 := cs.flatMap String.utf8EncodeChar

/-- How many bytes longer the decoded text is than the bytes. -/
def growth (bytes : List UInt8) : Nat := ((parts bytes).map Part.growth).sum

/-! ## Sequences of one to four bytes -/

theorem val_ofNat {n : Nat} (h : n.isValidChar) : (Char.ofNat n).val.toNat = n := by
  rw [Char.ofNat, dif_pos h]
  exact UInt32.toNat_ofNatLT

theorem ofNat_val {c : Char} {n : Nat} (h : c.val.toNat = n) : Char.ofNat n = c := by
  rw [← h]
  exact Char.ofNat_toNat c

theorem byte_eq {b : UInt8} {n : Nat} (h : n = b.toNat) : UInt8.ofNat n = b := by
  rw [h, UInt8.ofNat_toNat]

section encoded

variable {b b' b'' b''' : UInt8} {c : Char}

theorem encode_one (hb : b.toNat ≤ 0x7F) (hc : c.val.toNat = b.toNat) : String.utf8EncodeChar c = [b] := by
  rw [String.utf8EncodeChar, hc]
  rw [if_pos hb, byte_eq rfl]

theorem encode_two (hb : 0xC2 ≤ b.toNat) (hb' : b.toNat ≤ 0xDF) (hb₁ : 0x80 ≤ b'.toNat) (hb₁' : b'.toNat ≤ 0xBF)
    (hc : c.val.toNat = b.toNat % 32 * 64 + b'.toNat % 64) : String.utf8EncodeChar c = [b, b'] := by
  rw [String.utf8EncodeChar, hc]
  rw [if_neg (by omega), if_pos (by omega), byte_eq (b := b) (by omega), byte_eq (b := b') (by omega)]

theorem encode_three (hb : 0xE0 ≤ b.toNat) (hb' : b.toNat ≤ 0xEF) (hb₁ : (if b.toNat = 0xE0 then 0xA0 else 0x80) ≤ b'.toNat)
    (hb₁' : b'.toNat ≤ 0xBF) (hb₂ : 0x80 ≤ b''.toNat) (hb₂' : b''.toNat ≤ 0xBF)
    (hc : c.val.toNat = (b.toNat % 16 * 64 + b'.toNat % 64) * 64 + b''.toNat % 64) :
    String.utf8EncodeChar c = [b, b', b''] := by
  rw [String.utf8EncodeChar, hc]
  split at hb₁ <;>
    rw [if_neg (by omega), if_neg (by omega), if_pos (by omega), byte_eq (b := b) (by omega),
      byte_eq (b := b') (by omega), byte_eq (b := b'') (by omega)]

theorem encode_four (hb : 0xF0 ≤ b.toNat) (hb' : b.toNat ≤ 0xF4) (hb₁ : (if b.toNat = 0xF0 then 0x90 else 0x80) ≤ b'.toNat)
    (hb₁' : b'.toNat ≤ 0xBF) (hb₂ : 0x80 ≤ b''.toNat) (hb₂' : b''.toNat ≤ 0xBF)
    (hb₃ : 0x80 ≤ b'''.toNat) (hb₃' : b'''.toNat ≤ 0xBF)
    (hc : c.val.toNat = ((b.toNat % 8 * 64 + b'.toNat % 64) * 64 + b''.toNat % 64) * 64 + b'''.toNat % 64) :
    String.utf8EncodeChar c = [b, b', b'', b'''] := by
  rw [String.utf8EncodeChar, hc]
  split at hb₁ <;>
    rw [if_neg (by omega), if_neg (by omega), if_neg (by omega), byte_eq (b := b) (by omega),
      byte_eq (b := b') (by omega), byte_eq (b := b'') (by omega), byte_eq (b := b''') (by omega)]

end encoded

/-! ## What the decoder has read -/

/-- The bounds of the second byte of a sequence of three. -/
def low₃ (n : Nat) : Nat := if n = 0xE0 then 0xA0 else 0x80

def high₃ (n : Nat) : Nat := if n = 0xED then 0x9F else 0xBF

/-- The bounds of the second byte of a sequence of four. -/
def low₄ (n : Nat) : Nat := if n = 0xF0 then 0x90 else 0x80

def high₄ (n : Nat) : Nat := if n = 0xF4 then 0x8F else 0xBF

theorem high₃_le (n : Nat) : high₃ n ≤ 0xBF := by
  rw [high₃]
  split <;> omega

theorem high₄_le (n : Nat) : high₄ n ≤ 0xBF := by
  rw [high₄]
  split <;> omega

/-- The sequences that the decoder can be inside of. -/
inductive Sequence.Open : Sequence → Prop
  | two {b : UInt8} : 0xC2 ≤ b.toNat → b.toNat ≤ 0xDF → Sequence.Open ⟨[b], b.toNat % 32, 1, 0x80, 0xBF⟩
  | three {b : UInt8} : 0xE0 ≤ b.toNat → b.toNat ≤ 0xEF →
      Sequence.Open ⟨[b], b.toNat % 16, 2, low₃ b.toNat, high₃ b.toNat⟩
  | threeNext {b b' : UInt8} : 0xE0 ≤ b.toNat → b.toNat ≤ 0xEF → low₃ b.toNat ≤ b'.toNat → b'.toNat ≤ high₃ b.toNat →
      Sequence.Open ⟨[b, b'], b.toNat % 16 * 64 + b'.toNat % 64, 1, 0x80, 0xBF⟩
  | four {b : UInt8} : 0xF0 ≤ b.toNat → b.toNat ≤ 0xF4 →
      Sequence.Open ⟨[b], b.toNat % 8, 3, low₄ b.toNat, high₄ b.toNat⟩
  | fourNext {b b' : UInt8} : 0xF0 ≤ b.toNat → b.toNat ≤ 0xF4 → low₄ b.toNat ≤ b'.toNat → b'.toNat ≤ high₄ b.toNat →
      Sequence.Open ⟨[b, b'], b.toNat % 8 * 64 + b'.toNat % 64, 2, 0x80, 0xBF⟩
  | fourLast {b b' b'' : UInt8} : 0xF0 ≤ b.toNat → b.toNat ≤ 0xF4 → low₄ b.toNat ≤ b'.toNat →
      b'.toNat ≤ high₄ b.toNat → 0x80 ≤ b''.toNat → b''.toNat ≤ 0xBF →
      Sequence.Open ⟨[b, b', b''], (b.toNat % 8 * 64 + b'.toNat % 64) * 64 + b''.toNat % 64, 1, 0x80, 0xBF⟩

def Open (state : Option Sequence) : Prop := ∀ s ∈ state, s.Open

theorem open_none : Open none := fun _ h => (nomatch h)

theorem open_some {s : Sequence} (h : s.Open) : Open (some s) := by
  intro s' hs'
  rw [← Option.some.inj hs']
  exact h

theorem Sequence.Open.length {s : Sequence} (h : s.Open) : 1 ≤ s.bytes.length ∧ s.bytes.length ≤ 3 := by
  cases h <;> simp

/-- The last byte of a sequence completes a character. -/
theorem Sequence.Open.complete {s : Sequence} (h : s.Open) {b : UInt8} (hlow : s.lower ≤ b.toNat)
    (hhigh : b.toNat ≤ s.upper) (hneeded : s.needed = 1) :
    String.utf8EncodeChar (Char.ofNat (s.codePoint * 64 + b.toNat % 64)) = s.bytes ++ [b] := by
  cases h with
  | @two b₀ hb hb' =>
    have hvalid : (b₀.toNat % 32 * 64 + b.toNat % 64).isValidChar := .inl (by omega)
    exact encode_two hb hb' hlow hhigh (val_ofNat hvalid)
  | three hb hb' => cases hneeded
  | @threeNext b₀ b₁ hb hb' hb₁ hb₁' =>
    have hvalid : ((b₀.toNat % 16 * 64 + b₁.toNat % 64) * 64 + b.toNat % 64).isValidChar := by
      rw [high₃] at hb₁'
      rw [low₃] at hb₁
      by_cases hsurrogates : b₀.toNat = 0xED
      · rw [if_pos hsurrogates] at hb₁'
        rw [if_neg (by omega)] at hb₁
        exact .inl (by omega)
      · rcases Nat.lt_or_gt_of_ne hsurrogates with hlt | hgt
        · exact .inl (by omega)
        · exact .inr ⟨by omega, by omega⟩
    exact encode_three hb hb' hb₁ (Nat.le_trans hb₁' (high₃_le _)) hlow hhigh (val_ofNat hvalid)
  | four hb hb' => cases hneeded
  | fourNext hb hb' hb₁ hb₁' => cases hneeded
  | @fourLast b₀ b₁ b₂ hb hb' hb₁ hb₁' hb₂ hb₂' =>
    have hvalid : (((b₀.toNat % 8 * 64 + b₁.toNat % 64) * 64 + b₂.toNat % 64) * 64 + b.toNat % 64).isValidChar := by
      rw [high₄] at hb₁'
      rw [low₄] at hb₁
      refine .inr ?_
      split at hb₁ <;> split at hb₁' <;> constructor <;> omega
    exact encode_four hb hb' hb₁ (Nat.le_trans hb₁' (high₄_le _)) hb₂ hb₂' hlow hhigh (val_ofNat hvalid)

/-- A byte in the middle of a sequence leaves it open. -/
theorem Sequence.Open.extend {s : Sequence} (h : s.Open) {b : UInt8} (hlow : s.lower ≤ b.toNat)
    (hhigh : b.toNat ≤ s.upper) (hneeded : s.needed ≠ 1) :
    Sequence.Open ⟨s.bytes ++ [b], s.codePoint * 64 + b.toNat % 64, s.needed - 1, 0x80, 0xBF⟩ := by
  cases h with
  | two => exact absurd rfl hneeded
  | three hb hb' => exact .threeNext hb hb' hlow hhigh
  | threeNext => exact absurd rfl hneeded
  | four hb hb' => exact .fourNext hb hb' hlow hhigh
  | fourNext hb hb' hb₁ hb₁' => exact .fourLast hb hb' hb₁ hb₁' hlow hhigh
  | fourLast => exact absurd rfl hneeded

/-- What one byte does: the parts it ends and what stays open are what was open, and the byte. -/
structure Reads (before : List UInt8) (after : Option Sequence × List Part) : Prop where
  stays : Open after.1
  proper : ∀ part ∈ after.2, part.Proper
  bytes : after.2.flatMap Part.bytes ++ pending after.1 = before

theorem reads_lead (b : UInt8) : Reads [b] (lead b) := by
  simp only [lead]
  split
  next hascii =>
    refine ⟨open_none, fun part hpart => ?_, ?_⟩
    · rw [List.mem_singleton.mp hpart]
      trivial
    · have hbytes := encode_one hascii (c := Char.ofNat b.toNat) (val_ofNat (.inl (by omega)))
      simp [Part.bytes, hbytes, pending]
  next =>
    split
    next htwo => exact ⟨open_some (.two htwo.1 htwo.2), by simp, rfl⟩
    next =>
      split
      next hthree => exact ⟨open_some (.three hthree.1 hthree.2), by simp, rfl⟩
      next =>
        split
        next hfour => exact ⟨open_some (.four hfour.1 hfour.2), by simp, rfl⟩
        next =>
          refine ⟨open_none, fun part hpart => ?_, rfl⟩
          rw [List.mem_singleton.mp hpart]
          exact ⟨Nat.le_refl 1, by simp⟩

theorem reads_step {state : Option Sequence} (h : Open state) (b : UInt8) :
    Reads (pending state ++ [b]) (step state b) := by
  cases state with
  | none => exact reads_lead b
  | some s =>
    have hs : s.Open := h s rfl
    simp only [step]
    split
    next hwithin =>
      split
      next hneeded =>
        have hbytes := hs.complete hwithin.1 hwithin.2 hneeded
        refine ⟨open_none, fun part hpart => ?_, ?_⟩
        · rw [List.mem_singleton.mp hpart]
          trivial
        · simp [Part.bytes, hbytes, pending]
      next hneeded => exact ⟨open_some (hs.extend hwithin.1 hwithin.2 hneeded), by simp, rfl⟩
    next =>
      have hlead := reads_lead b
      refine ⟨hlead.stays, ?_, ?_⟩
      · intro part hpart
        rcases List.mem_cons.mp hpart with rfl | hpart
        · exact hs.length
        · exact hlead.proper part hpart
      · rw [List.flatMap_cons, List.append_assoc, hlead.bytes]
        rfl

/-! ## The parts of the bytes -/

theorem proper_partsFrom (bytes : List UInt8) :
    ∀ {state : Option Sequence}, Open state → ∀ part ∈ partsFrom state bytes, part.Proper := by
  induction bytes with
  | nil =>
    intro state h part hpart
    cases state with
    | none => cases hpart
    | some s =>
      rw [List.mem_singleton.mp hpart]
      exact (h s rfl).length
  | cons b rest ih =>
    intro state h part hpart
    have hreads := reads_step h b
    rcases List.mem_append.mp hpart with hpart | hpart
    · exact hreads.proper part hpart
    · exact ih hreads.stays part hpart

theorem bytes_partsFrom (bytes : List UInt8) :
    ∀ {state : Option Sequence}, Open state → (partsFrom state bytes).flatMap Part.bytes = pending state ++ bytes := by
  induction bytes with
  | nil =>
    intro state _
    cases state <;> simp [partsFrom, flush, pending, Part.bytes]
  | cons b rest ih =>
    intro state h
    have hreads := reads_step h b
    rw [partsFrom, List.flatMap_append, ih hreads.stays, ← List.append_assoc, hreads.bytes]
    simp

theorem proper_parts {bytes : List UInt8} {part : Part} (h : part ∈ parts bytes) : part.Proper :=
  proper_partsFrom bytes open_none part h

/-- No byte is lost: the parts are the bytes, in order. -/
theorem bytes_parts (bytes : List UInt8) : (parts bytes).flatMap Part.bytes = bytes :=
  bytes_partsFrom bytes open_none

/-! ## Sizes -/

theorem length_encode (cs : List Char) : (encode cs).length = (cs.map Char.utf8Size).sum := by
  rw [encode, List.length_flatMap]
  simp

theorem size_parts (ps : List Part) (h : ∀ part ∈ ps, part.Proper) :
    (encode (ps.map Part.char)).length = (ps.flatMap Part.bytes).length + (ps.map Part.growth).sum := by
  induction ps with
  | nil => rfl
  | cons part rest ih =>
    have hpart : part.char.utf8Size = part.bytes.length + part.growth := Part.size_char (h part List.mem_cons_self)
    have hrest := ih fun p hp => h p (List.mem_cons_of_mem part hp)
    simp only [length_encode, List.map_cons, List.sum_cons, List.flatMap_cons, List.length_append] at hrest ⊢
    omega

/-- The text of the bytes is longer than they are by its replaced parts. -/
theorem length_encode_decode (bytes : List UInt8) : (encode (decode bytes)).length = bytes.length + growth bytes := by
  have hsize := size_parts (parts bytes) fun _ h => proper_parts h
  rw [bytes_parts] at hsize
  exact hsize

theorem growth_le_parts (ps : List Part) (h : ∀ part ∈ ps, part.Proper) :
    (ps.map Part.growth).sum ≤ 2 * (ps.flatMap Part.bytes).length := by
  induction ps with
  | nil => exact Nat.le_refl 0
  | cons part rest ih =>
    have hpart : 1 ≤ part.bytes.length := Part.bytes_pos (h part List.mem_cons_self)
    have hgrowth : part.growth ≤ 2 := by
      cases part with
      | scalar c => exact Nat.zero_le 2
      | malformed bytes =>
        have hbytes : 1 ≤ bytes.length := hpart
        change 3 - bytes.length ≤ 2
        omega
    have hrest := ih fun p hp => h p (List.mem_cons_of_mem part hp)
    rw [List.map_cons, List.sum_cons, List.flatMap_cons, List.length_append]
    omega

/-- At most three bytes come of one. -/
theorem growth_le (bytes : List UInt8) : growth bytes ≤ 2 * bytes.length := by
  have hle := growth_le_parts (parts bytes) fun _ h => proper_parts h
  rwa [bytes_parts] at hle

/-- A measure of characters that their bytes bound is bounded by the bytes they are decoded from. -/
theorem sum_decode_le {f : Char → Nat} (hf : ∀ c, f c ≤ c.utf8Size) (hreplacement : f replacement ≤ 1)
    (bytes : List UInt8) : ((decode bytes).map f).sum ≤ bytes.length := by
  have hparts : ∀ ps : List Part, (∀ part ∈ ps, part.Proper) →
      ((ps.map Part.char).map f).sum ≤ (ps.flatMap Part.bytes).length := by
    intro ps
    induction ps with
    | nil => exact fun _ => Nat.le_refl 0
    | cons part rest ih =>
      intro h
      have hpart : f part.char ≤ part.bytes.length := by
        cases part with
        | scalar c =>
          have hlength := String.length_utf8EncodeChar c
          have hc := hf c
          change f c ≤ (String.utf8EncodeChar c).length
          omega
        | malformed bytes =>
          have hbytes : 1 ≤ bytes.length := (h _ List.mem_cons_self).1
          exact Nat.le_trans hreplacement hbytes
      have hrest := ih fun p hp => h p (List.mem_cons_of_mem part hp)
      simp only [List.map_cons, List.sum_cons, List.flatMap_cons, List.length_append]
      omega
  have hle := hparts (parts bytes) fun _ h => proper_parts h
  rwa [bytes_parts] at hle

/-! ## Well-formed bytes -/

/-- The bytes of a character, by their number. -/
inductive Shape (c : Char) : List UInt8 → Prop
  | one {b : UInt8} : b.toNat ≤ 0x7F → Char.ofNat b.toNat = c → Shape c [b]
  | two {b b' : UInt8} : 0xC2 ≤ b.toNat → b.toNat ≤ 0xDF → 0x80 ≤ b'.toNat → b'.toNat ≤ 0xBF →
      Char.ofNat (b.toNat % 32 * 64 + b'.toNat % 64) = c → Shape c [b, b']
  | three {b b' b'' : UInt8} : 0xE0 ≤ b.toNat → b.toNat ≤ 0xEF → low₃ b.toNat ≤ b'.toNat → b'.toNat ≤ high₃ b.toNat →
      0x80 ≤ b''.toNat → b''.toNat ≤ 0xBF →
      Char.ofNat ((b.toNat % 16 * 64 + b'.toNat % 64) * 64 + b''.toNat % 64) = c → Shape c [b, b', b'']
  | four {b b' b'' b''' : UInt8} : 0xF0 ≤ b.toNat → b.toNat ≤ 0xF4 → low₄ b.toNat ≤ b'.toNat →
      b'.toNat ≤ high₄ b.toNat → 0x80 ≤ b''.toNat → b''.toNat ≤ 0xBF → 0x80 ≤ b'''.toNat → b'''.toNat ≤ 0xBF →
      Char.ofNat (((b.toNat % 8 * 64 + b'.toNat % 64) * 64 + b''.toNat % 64) * 64 + b'''.toNat % 64) = c →
      Shape c [b, b', b'', b''']

theorem toNat_byte {n : Nat} (h : n < 256) : (UInt8.ofNat n).toNat = n := by
  rw [UInt8.toNat_ofNat']
  omega

theorem shape_encode (c : Char) : Shape c (String.utf8EncodeChar c) := by
  obtain ⟨v, hv⟩ : ∃ v, c.val.toNat = v := ⟨_, rfl⟩
  have hvalid : v < 0xD800 ∨ 0xDFFF < v ∧ v < 0x110000 := by
    rw [← hv]
    exact c.valid
  rw [String.utf8EncodeChar, hv]
  by_cases hone : v ≤ 0x7F
  · rw [if_pos hone]
    have hb := toNat_byte (show v < 256 by omega)
    exact .one (by omega) (ofNat_val (by omega))
  rw [if_neg hone]
  by_cases htwo : v ≤ 0x7FF
  · rw [if_pos htwo]
    have hb := toNat_byte (show v / 64 % 32 + 192 < 256 by omega)
    have hb' := toNat_byte (show v % 64 + 128 < 256 by omega)
    exact .two (by omega) (by omega) (by omega) (by omega) (ofNat_val (by omega))
  rw [if_neg htwo]
  have hlast := toNat_byte (show v % 64 + 128 < 256 by omega)
  have hsecond := toNat_byte (show v / 64 % 64 + 128 < 256 by omega)
  by_cases hthree : v ≤ 0xFFFF
  · rw [if_pos hthree]
    have hb := toNat_byte (show v / 4096 % 16 + 224 < 256 by omega)
    have hlow : low₃ (v / 4096 % 16 + 224) ≤ v / 64 % 64 + 128 := by
      rw [low₃]
      split <;> omega
    have hhigh : v / 64 % 64 + 128 ≤ high₃ (v / 4096 % 16 + 224) := by
      rw [high₃]
      split <;> omega
    exact .three (by omega) (by omega) (by rwa [hb, hsecond]) (by rwa [hb, hsecond]) (by omega) (by omega)
      (ofNat_val (by omega))
  · rw [if_neg hthree]
    have hb := toNat_byte (show v / 262144 % 8 + 240 < 256 by omega)
    have hb' := toNat_byte (show v / 4096 % 64 + 128 < 256 by omega)
    have hlow : low₄ (v / 262144 % 8 + 240) ≤ v / 4096 % 64 + 128 := by
      rw [low₄]
      split <;> omega
    have hhigh : v / 4096 % 64 + 128 ≤ high₄ (v / 262144 % 8 + 240) := by
      rw [high₄]
      split <;> omega
    exact .four (by omega) (by omega) (by rwa [hb, hb']) (by rwa [hb, hb']) (by omega) (by omega) (by omega) (by omega)
      (ofNat_val (by omega))

/-! ## One sequence after another -/

theorem lead_two {b : UInt8} (h : 0xC2 ≤ b.toNat) (h' : b.toNat ≤ 0xDF) :
    lead b = (some ⟨[b], b.toNat % 32, 1, 0x80, 0xBF⟩, []) := by
  simp only [lead]
  rw [if_neg (by omega), if_pos ⟨h, h'⟩]

theorem lead_three {b : UInt8} (h : 0xE0 ≤ b.toNat) (h' : b.toNat ≤ 0xEF) :
    lead b = (some ⟨[b], b.toNat % 16, 2, low₃ b.toNat, high₃ b.toNat⟩, []) := by
  simp only [lead]
  rw [if_neg (by omega), if_neg (by omega), if_pos ⟨h, h'⟩]
  rfl

theorem lead_four {b : UInt8} (h : 0xF0 ≤ b.toNat) (h' : b.toNat ≤ 0xF4) :
    lead b = (some ⟨[b], b.toNat % 8, 3, low₄ b.toNat, high₄ b.toNat⟩, []) := by
  simp only [lead]
  rw [if_neg (by omega), if_neg (by omega), if_neg (by omega), if_pos ⟨h, h'⟩]
  rfl

theorem step_last {s : Sequence} {b : UInt8} (hlow : s.lower ≤ b.toNat) (hhigh : b.toNat ≤ s.upper)
    (hneeded : s.needed = 1) : step (some s) b = (none, [.scalar (Char.ofNat (s.codePoint * 64 + b.toNat % 64))]) := by
  simp only [step]
  rw [if_pos ⟨hlow, hhigh⟩, if_pos hneeded]

theorem step_middle {s : Sequence} {b : UInt8} (hlow : s.lower ≤ b.toNat) (hhigh : b.toNat ≤ s.upper)
    (hneeded : s.needed ≠ 1) :
    step (some s) b = (some ⟨s.bytes ++ [b], s.codePoint * 64 + b.toNat % 64, s.needed - 1, 0x80, 0xBF⟩, []) := by
  simp only [step]
  rw [if_pos ⟨hlow, hhigh⟩, if_neg hneeded]

/-- Where the decoder is after some bytes, when these end no part. -/
def Waits (state : Option Sequence) (bytes : List UInt8) (s : Sequence) : Prop :=
  ∀ rest, partsFrom state (bytes ++ rest) = partsFrom (some s) rest

theorem Waits.step {state : Option Sequence} {bytes : List UInt8} {s s' : Sequence} {b : UInt8}
    (h : Waits state bytes s) (hstep : Utf8.step (some s) b = (some s', [])) : Waits state (bytes ++ [b]) s' := by
  intro rest
  rw [List.append_assoc, h ([b] ++ rest), List.singleton_append, partsFrom, hstep]
  rfl

theorem waits_lead {b : UInt8} {s : Sequence} (hlead : lead b = (some s, [])) : Waits none [b] s := by
  intro rest
  rw [List.singleton_append, partsFrom, Utf8.step, hlead]
  rfl

/-- A sequence that is complete after its next byte. -/
theorem Waits.last {bytes : List UInt8} {s : Sequence} {b : UInt8} {c : Char} (h : Waits none bytes s)
    (hstep : Utf8.step (some s) b = (none, [.scalar c])) (rest : List UInt8) :
    partsFrom none (bytes ++ [b] ++ rest) = .scalar c :: partsFrom none rest := by
  rw [List.append_assoc, h ([b] ++ rest), List.singleton_append, partsFrom, hstep]
  rfl

theorem Waits.cut {bytes : List UInt8} {s : Sequence} (h : Waits none bytes s) (hbytes : s.bytes = bytes) :
    parts bytes = [.malformed bytes] := by
  have hparts := h []
  rw [List.append_nil] at hparts
  rw [parts, hparts, partsFrom, flush, hbytes]

section shapes

variable {b b' b'' : UInt8}

theorem waits_two (hb : 0xC2 ≤ b.toNat) (hb' : b.toNat ≤ 0xDF) : Waits none [b] ⟨[b], b.toNat % 32, 1, 0x80, 0xBF⟩ :=
  waits_lead (lead_two hb hb')

theorem waits_three (hb : 0xE0 ≤ b.toNat) (hb' : b.toNat ≤ 0xEF) :
    Waits none [b] ⟨[b], b.toNat % 16, 2, low₃ b.toNat, high₃ b.toNat⟩ :=
  waits_lead (lead_three hb hb')

theorem waits_threeNext (hb : 0xE0 ≤ b.toNat) (hb' : b.toNat ≤ 0xEF) (hlow : low₃ b.toNat ≤ b'.toNat)
    (hhigh : b'.toNat ≤ high₃ b.toNat) :
    Waits none [b, b'] ⟨[b, b'], b.toNat % 16 * 64 + b'.toNat % 64, 1, 0x80, 0xBF⟩ :=
  (waits_three hb hb').step (step_middle hlow hhigh (by simp))

theorem waits_four (hb : 0xF0 ≤ b.toNat) (hb' : b.toNat ≤ 0xF4) :
    Waits none [b] ⟨[b], b.toNat % 8, 3, low₄ b.toNat, high₄ b.toNat⟩ :=
  waits_lead (lead_four hb hb')

theorem waits_fourNext (hb : 0xF0 ≤ b.toNat) (hb' : b.toNat ≤ 0xF4) (hlow : low₄ b.toNat ≤ b'.toNat)
    (hhigh : b'.toNat ≤ high₄ b.toNat) :
    Waits none [b, b'] ⟨[b, b'], b.toNat % 8 * 64 + b'.toNat % 64, 2, 0x80, 0xBF⟩ :=
  (waits_four hb hb').step (step_middle hlow hhigh (by simp))

theorem waits_fourLast (hb : 0xF0 ≤ b.toNat) (hb' : b.toNat ≤ 0xF4) (hlow : low₄ b.toNat ≤ b'.toNat)
    (hhigh : b'.toNat ≤ high₄ b.toNat) (hlow' : 0x80 ≤ b''.toNat) (hhigh' : b''.toNat ≤ 0xBF) :
    Waits none [b, b', b''] ⟨[b, b', b''], (b.toNat % 8 * 64 + b'.toNat % 64) * 64 + b''.toNat % 64, 1, 0x80, 0xBF⟩ :=
  (waits_fourNext hb hb' hlow hhigh).step (step_middle hlow' hhigh' (by simp))

end shapes

theorem partsFrom_shape {c : Char} {bytes : List UInt8} (h : Shape c bytes) (rest : List UInt8) :
    partsFrom none (bytes ++ rest) = .scalar c :: partsFrom none rest := by
  cases h with
  | one hb hc =>
    rw [List.singleton_append, partsFrom, Utf8.step, lead, if_pos hb, hc]
    rfl
  | two hb hb' hlow hhigh hc =>
    rw [← hc]
    exact (waits_two hb hb').last (step_last hlow hhigh rfl) rest
  | three hb hb' hlow hhigh hlow' hhigh' hc =>
    rw [← hc]
    exact (waits_threeNext hb hb' hlow hhigh).last (step_last hlow' hhigh' rfl) rest
  | four hb hb' hlow hhigh hlow' hhigh' hlow'' hhigh'' hc =>
    rw [← hc]
    exact (waits_fourLast hb hb' hlow hhigh hlow' hhigh').last (step_last hlow'' hhigh'' rfl) rest

/-- A character that is cut off is one malformed part. -/
theorem parts_cut {c : Char} {bytes : List UInt8} (h : Shape c bytes) {k : Nat} (hk : 0 < k) (hlength : k < bytes.length) :
    parts (bytes.take k) = [.malformed (bytes.take k)] := by
  cases h with
  | one => simp only [List.length_singleton] at hlength; omega
  | two hb hb' =>
    obtain rfl : k = 1 := by simp only [List.length_cons, List.length_nil] at hlength; omega
    exact (waits_two hb hb').cut rfl
  | three hb hb' hlow hhigh =>
    obtain rfl | rfl : k = 1 ∨ k = 2 := by simp only [List.length_cons, List.length_nil] at hlength; omega
    · exact (waits_three hb hb').cut rfl
    · exact (waits_threeNext hb hb' hlow hhigh).cut rfl
  | four hb hb' hlow hhigh hlow' hhigh' =>
    obtain rfl | rfl | rfl : k = 1 ∨ k = 2 ∨ k = 3 := by
      simp only [List.length_cons, List.length_nil] at hlength
      omega
    · exact (waits_four hb hb').cut rfl
    · exact (waits_fourNext hb hb' hlow hhigh).cut rfl
    · exact (waits_fourLast hb hb' hlow hhigh hlow' hhigh').cut rfl

/-! ## Texts -/

theorem encode_cons (c : Char) (cs : List Char) : encode (c :: cs) = String.utf8EncodeChar c ++ encode cs := rfl

theorem parts_encode_append (cs : List Char) (bytes : List UInt8) :
    parts (encode cs ++ bytes) = cs.map .scalar ++ parts bytes := by
  induction cs with
  | nil => rfl
  | cons c rest ih =>
    rw [parts] at ih
    rw [parts, encode_cons, List.append_assoc, partsFrom_shape (shape_encode c), ih]
    rfl

theorem parts_encode (cs : List Char) : parts (encode cs) = cs.map .scalar := by
  have hparts := parts_encode_append cs []
  rw [List.append_nil] at hparts
  rw [hparts]
  exact List.append_nil _

theorem decode_encode (cs : List Char) : decode (encode cs) = cs := by
  rw [decode, parts_encode, List.map_map]
  exact List.map_id cs

theorem growth_encode (cs : List Char) : growth (encode cs) = 0 := by
  rw [growth, parts_encode, List.map_map]
  exact List.sum_eq_zero (by simp [Part.growth])

/-- `cut` is nothing, or the first bytes of the character after `kept`. -/
structure Cut (cs kept : List Char) (cut : List UInt8) : Prop where
  leading : kept <+: cs
  next : cut = [] ∨ ∃ c k, kept ++ [c] <+: cs ∧ 0 < k ∧ k < c.utf8Size ∧ cut = (String.utf8EncodeChar c).take k

theorem Cut.cons {cs kept : List Char} {cut : List UInt8} (h : Cut cs kept cut) (c : Char) :
    Cut (c :: cs) (c :: kept) cut := by
  obtain ⟨hkept, hcut⟩ := h
  constructor
  · exact (List.prefix_cons_inj c).mpr hkept
  · rcases hcut with hcut | ⟨d, k, hd, hk⟩
    · exact .inl hcut
    · exact .inr ⟨d, k, (List.prefix_cons_inj c).mpr hd, hk⟩

/-- The first bytes of a text are those of its first characters, and of a part of the next. -/
theorem take_encode (cs : List Char) :
    ∀ n, ∃ kept cut, (encode cs).take n = encode kept ++ cut ∧ Cut cs kept cut := by
  induction cs with
  | nil => exact fun n => ⟨[], [], List.take_nil, List.prefix_rfl, .inl rfl⟩
  | cons c rest ih =>
    intro n
    have hsize := String.length_utf8EncodeChar c
    rw [encode_cons, List.take_append, hsize]
    by_cases hfits : c.utf8Size ≤ n
    · obtain ⟨kept, cut, htake, hcut⟩ := ih (n - c.utf8Size)
      have hall : (String.utf8EncodeChar c).take n = String.utf8EncodeChar c := List.take_of_length_le (by omega)
      rw [hall, htake]
      exact ⟨c :: kept, cut, by rw [encode_cons, List.append_assoc], hcut.cons c⟩
    · have hnone : (encode rest).take (n - c.utf8Size) = [] := by
        rw [show n - c.utf8Size = 0 by omega, List.take_zero]
      rw [hnone, List.append_nil]
      by_cases hzero : n = 0
      · rw [hzero]
        exact ⟨[], [], List.take_zero, List.nil_prefix, .inl rfl⟩
      · refine ⟨[], (String.utf8EncodeChar c).take n, rfl, List.nil_prefix, .inr ?_⟩
        exact ⟨c, n, by simp, by omega, by omega, rfl⟩

theorem decode_cut {cs kept : List Char} {cut : List UInt8} (h : Cut cs kept cut) :
    decode (encode kept ++ cut) = kept ∨
      decode (encode kept ++ cut) = kept ++ [replacement] ∧ ∃ c, kept ++ [c] <+: cs := by
  rcases h.next with rfl | ⟨c, k, hc, hk, hsize, rfl⟩
  · rw [List.append_nil]
    exact .inl (decode_encode kept)
  · have hlength := String.length_utf8EncodeChar c
    rw [decode, parts_encode_append, parts_cut (shape_encode c) hk (by omega), List.map_append, List.map_map]
    refine .inr ⟨?_, c, hc⟩
    exact congrArg (· ++ [replacement]) (List.map_id kept)

/-- A cut text grows by no more than the rest of its last character. -/
theorem growth_cut {cs kept : List Char} {cut : List UInt8} (h : Cut cs kept cut) :
    growth (encode kept ++ cut) + cut.length ≤ 3 ∧ (cut = [] → growth (encode kept ++ cut) = 0) := by
  constructor
  · rcases h.next with rfl | ⟨c, k, -, hk, hsize, rfl⟩
    · rw [List.append_nil, growth_encode]
      exact Nat.zero_le 3
    · have hlength := String.length_utf8EncodeChar c
      have hfour := Char.utf8Size_le_four c
      have htake : ((String.utf8EncodeChar c).take k).length = k := by
        rw [List.length_take]
        omega
      have hscalars : ((kept.map Part.scalar).map Part.growth).sum = 0 := List.sum_eq_zero (by simp [Part.growth])
      rw [growth, parts_encode_append, parts_cut (shape_encode c) hk (by omega), List.map_append, List.sum_append,
        hscalars, List.map_singleton, List.sum_singleton, Part.growth, htake]
      omega
  · rintro rfl
    rw [List.append_nil]
    exact growth_encode kept

theorem encode_append (cs ds : List Char) : encode (cs ++ ds) = encode cs ++ encode ds := List.flatMap_append

end Utf8
