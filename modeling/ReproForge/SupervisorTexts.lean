import ReproForge.SupervisorResults

/-!
# Runs that print text

What a command prints is read as it printed it, up to the limit of a stream and
the character that the limit cuts, when its strings leave room in the document.
-/
namespace ReproForge

open JsonValues

variable {ν : Type}

/-! ## The size of a document -/

/-- The bytes of some characters. -/
def sizeOf (cs : List Char) : Nat := (Utf8.encode cs).length

namespace Document

theorem size_append (cs ds : List Char) : sizeOf (cs ++ ds) = sizeOf cs + sizeOf ds := by
  rw [sizeOf, Utf8.encode_append, List.length_append]
  rfl

theorem size_cons (c : Char) (cs : List Char) : sizeOf (c :: cs) = c.utf8Size + sizeOf cs := by
  rw [sizeOf, Utf8.encode_cons, List.length_append, String.length_utf8EncodeChar]
  rfl

theorem size_nil : sizeOf [] = 0 := rfl

theorem size_ascii {cs : List Char} (h : ∀ c ∈ cs, c.toNat ≤ 0x7F) : sizeOf cs = cs.length := by
  induction cs with
  | nil => rfl
  | cons c rest ih =>
    have hc : c.utf8Size = 1 := Char.utf8Size_eq_one_iff.mpr (UInt32.le_iff_toNat_le.mpr (h c List.mem_cons_self))
    rw [size_cons, hc, ih fun d hd => h d (List.mem_cons_of_mem c hd), List.length_cons]
    omega

theorem ascii_numberChar {c : Char} (h : numberChar c = true) : c.toNat ≤ 0x7F := by
  rw [numberChar] at h
  simp only [Bool.or_eq_true, beq_iff_eq] at h
  rcases h with (((h | rfl) | rfl) | rfl) | rfl
  · have hdigit : '0' ≤ c ∧ c ≤ '9' := by simpa [Char.isDigit, Char.le_def] using h
    have hle : c.toNat ≤ '9'.toNat := hdigit.2
    exact hle.trans (by decide)
  all_goals decide

theorem ascii_lowerHex {c : Char} (h : lowerHex c = true) : c.toNat ≤ 0x7F ∧ quoteChar c = [c] := by
  have hrange : c.toNat ≤ 0x7F ∧ 48 ≤ c.toNat ∧ c ≠ '\\' := by
    rw [lowerHex, Bool.or_eq_true, Bool.and_eq_true, decide_eq_true_iff, decide_eq_true_iff] at h
    rcases h with h | ⟨hlow, hhigh⟩
    · have hdigit : '0' ≤ c ∧ c ≤ '9' := by simpa [Char.isDigit, Char.le_def] using h
      have hlow : '0'.toNat ≤ c.toNat := hdigit.1
      have hhigh : c.toNat ≤ '9'.toNat := hdigit.2
      have hzero : '0'.toNat = 48 := rfl
      have hnine : '9'.toNat = 57 := rfl
      refine ⟨by omega, by omega, ?_⟩
      rintro rfl
      exact absurd hhigh (by decide)
    · have hlow' : 'a'.toNat ≤ c.toNat := hlow
      have hhigh' : c.toNat ≤ 'f'.toNat := hhigh
      have ha : 'a'.toNat = 97 := rfl
      have hf : 'f'.toNat = 102 := rfl
      refine ⟨by omega, by omega, ?_⟩
      rintro rfl
      exact absurd hlow' (by decide)
  obtain ⟨hascii, hlow, hslash⟩ := hrange
  have hquote : c ≠ '"' := by
    rintro rfl
    exact absurd hlow (by decide)
  refine ⟨hascii, ?_⟩
  rw [quoteChar, if_neg hquote, if_neg hslash]
  simp only [show ¬c.toNat = 8 by omega, show ¬c.toNat = 9 by omega, show ¬c.toNat = 10 by omega,
    show ¬c.toNat = 12 by omega, show ¬c.toNat = 13 by omega, show ¬c.toNat < 32 by omega, if_false]

theorem quoteChars_plain {cs : List Char} (h : ∀ c ∈ cs, quoteChar c = [c]) : quoteChars cs = cs ++ ['"'] := by
  induction cs with
  | nil => rfl
  | cons c rest ih =>
    rw [quoteChars, h c List.mem_cons_self, ih fun d hd => h d (List.mem_cons_of_mem c hd)]
    rfl

theorem size_hexDigest {digest : String} {n : Nat} (h : hexDigest n digest = true) : sizeOf (quote digest) = n + 2 := by
  rw [hexDigest, Bool.and_eq_true, beq_iff_eq, List.all_eq_true] at h
  obtain ⟨hlength, hall⟩ := h
  have hplain := quoteChars_plain fun c hc => (ascii_lowerHex (hall c hc)).2
  have hsize := size_ascii fun c hc => (ascii_lowerHex (hall c hc)).1
  have hmark : ('"' : Char).utf8Size = 1 := by decide
  rw [quote, hplain, size_cons, size_append, hsize, size_cons, size_nil, hmark, hlength]
  omega

section documents

variable [IntegerNumber ν]

theorem size_number (n : ν) : sizeOf (NumberText.text n) = (NumberText.text n).length :=
  size_ascii fun c hc => ascii_numberChar (NumberText.chars n c hc)

/-- A property of an object, with the comma before it and the colon after its key. -/
theorem size_fields (first : Bool) (key : String) (v : Json ν) (rest : List (String × Json ν)) :
    sizeOf (fieldsText first ((key, v) :: rest)) =
      (if first then 0 else 1) + sizeOf (quote key) + 1 + sizeOf (Json.text v) + sizeOf (fieldsText false rest) := by
  have hcolon : (':' : Char).utf8Size = 1 := by decide
  have hcomma : sizeOf [','] = 1 := by decide
  rw [fieldsText, size_append, size_append, size_cons, size_append, hcolon]
  cases first with
  | true =>
    simp only [if_true, size_nil]
    omega
  | false =>
    simp only [Bool.false_eq_true, if_false, hcomma]
    omega

theorem size_object (fields : List (String × Json ν)) : sizeOf (Json.text (.obj fields)) = 1 + sizeOf (fieldsText true fields) := by
  rw [Json.text, size_cons]
  rfl

theorem size_end : sizeOf (fieldsText (ν := ν) false []) = 1 := rfl

theorem size_boolean (b : Bool) : sizeOf (Json.text (.bool b : Json ν)) = if b then 4 else 5 := by
  cases b <;> rfl

theorem size_captured (c : CapturedOutput) : sizeOf (Json.text (c.json (ν := ν))) =
    49 + (NumberText.text (IntegerNumber.ofInt c.originalBytes : ν)).length + sizeOf (quote c.sha256) +
      sizeOf (quote c.text) + (if c.truncated then 4 else 5) := by
  have horiginal : sizeOf (quote "originalBytes") = 15 := by decide
  have hsha256 : sizeOf (quote "sha256") = 8 := by decide
  have htext : sizeOf (quote "text") = 6 := by decide
  have htruncated : sizeOf (quote "truncated") = 11 := by decide
  rw [CapturedOutput.json, size_object, size_fields, size_fields, size_fields, size_fields, size_end, size_boolean,
    horiginal, hsha256, htext, htruncated, Json.text, size_number, Json.text, Json.text]
  simp only [if_true, Bool.false_eq_true, if_false]
  omega

theorem size_termination (t : Option Termination) :
    sizeOf (Json.text (t.elim .null fun t => .str t.text : Json ν)) ≤ 22 := by
  cases t with
  | none =>
    change sizeOf ['n', 'u', 'l', 'l'] ≤ 22
    decide
  | some t =>
    change sizeOf (quote t.text) ≤ 22
    cases t <;> decide

/-- A document is larger than the two texts in it by less than four hundred bytes. -/
theorem size_document [ContentHash] (hhash : ∀ bytes, hexDigest 64 (ContentHash.sha256 bytes) = true)
    (hnumbers : ∀ i, safe i = true → (NumberText.text (IntegerNumber.ofInt i : ν)).length ≤ 17)
    {r : SupervisorResult} (hsafe : r.Safe) (hdigests : ∀ stream, ∃ bytes, (r.capture stream).sha256 = ContentHash.sha256 bytes) :
    (r.document ν).length ≤ sizeOf (quote r.stdout.text) + sizeOf (quote r.stderr.text) + 400 := by
  have hdurationKey : sizeOf (quote "durationMs") = 12 := by decide
  have hexitKey : sizeOf (quote "exitCode") = 10 := by decide
  have hstderrKey : sizeOf (quote "stderr") = 8 := by decide
  have hstdoutKey : sizeOf (quote "stdout") = 8 := by decide
  have hterminationKey : sizeOf (quote "termination") = 13 := by decide
  have hdigest : ∀ stream, sizeOf (quote (r.capture stream).sha256) = 66 := by
    intro stream
    obtain ⟨bytes, hbytes⟩ := hdigests stream
    rw [hbytes, size_hexDigest (hhash bytes)]
  have hout : sizeOf (quote r.stdout.sha256) = 66 := hdigest .stdout
  have herr : sizeOf (quote r.stderr.sha256) = 66 := hdigest .stderr
  have htermination := size_termination (ν := ν) r.termination
  have hsize : (r.document ν).length = sizeOf (Json.text (r.json (ν := ν))) := rfl
  have hnumber : ∀ i, safe i = true → sizeOf (Json.text (.num (IntegerNumber.ofInt i) : Json ν)) ≤ 17 := by
    intro i hi
    rw [Json.text, size_number]
    exact hnumbers i hi
  have htimes := hnumber _ hsafe.duration
  have hcodes := hnumber _ hsafe.exitCode
  have hstdout := hnumbers _ (hsafe.captured .stdout)
  have hstderr := hnumbers _ (hsafe.captured .stderr)
  simp only [SupervisorResult.capture] at hstdout hstderr
  rw [hsize, SupervisorResult.json, size_object, size_fields, size_fields, size_fields, size_fields, size_fields, size_end,
    size_captured, size_captured, hdurationKey, hexitKey, hstderrKey, hstdoutKey, hterminationKey, hout, herr]
  simp only [if_true, Bool.false_eq_true, if_false]
  split <;> split <;> omega

end documents

end Document

/-! ## Texts -/

/-- What is retained of a stream that carries text. -/
structure Retained (L : Nat) (text : List Char) (retained : List Char) : Prop where
  /-- All of it, if the limit leaves room. -/
  whole : sizeOf text ≤ L → retained = text
  /-- Otherwise its first characters, and the replacement of one that was cut. -/
  cut : L < sizeOf text → ∃ kept, kept <+: text ∧ sizeOf kept ≤ L ∧ L ≤ sizeOf kept + 3 ∧
    (retained = kept ∨ retained = kept ++ [Utf8.replacement])

theorem retained_encode (L : Nat) (text : List Char) : Retained L text (Utf8.decode ((Utf8.encode text).take L)) := by
  constructor
  · intro hroom
    rw [List.take_of_length_le hroom, Utf8.decode_encode]
  · intro hlong
    obtain ⟨kept, cut, htake, hcut⟩ := Utf8.take_encode text L
    have hlength : ((Utf8.encode text).take L).length = L := by
      rw [List.length_take]
      exact Nat.min_eq_left (Nat.le_of_lt hlong)
    have hgrowth := (Utf8.growth_cut hcut).1
    rw [htake, List.length_append] at hlength
    rw [htake]
    refine ⟨kept, hcut.leading, ?_, ?_, ?_⟩
    · rw [sizeOf]
      omega
    · rw [sizeOf]
      omega
    · rcases Utf8.decode_cut hcut with h | ⟨h, -⟩
      · exact .inl h
      · exact .inr h

/-- A text is reported that fits, or that is longer than the limit and a cut character. -/
theorem reported_encode {text : List Char}
    (h : sizeOf text ≤ Supervisor.perStreamLimit runLimits ∨ Supervisor.perStreamLimit runLimits + 2 < sizeOf text) :
    Reported (Utf8.encode text) := by
  rw [Reported]
  split
  next => exact Utf8.growth_encode text
  next hlong =>
    have hlarge : Supervisor.perStreamLimit runLimits + 2 < (Utf8.encode text).length := h.resolve_left hlong
    obtain ⟨kept, cut, htake, hcut⟩ := Utf8.take_encode text (Supervisor.perStreamLimit runLimits)
    have hgrowth : Utf8.growth (Utf8.encode kept ++ cut) ≤ 2 := by
      obtain ⟨hle, hnone⟩ := Utf8.growth_cut hcut
      by_cases hempty : cut = []
      · rw [hnone hempty]
        exact Nat.zero_le 2
      · have hpos := List.length_pos_iff.mpr hempty
        omega
    rw [htake]
    omega

/-- A run whose streams carry text is read when it took no longer than it may, when each text
fits its limit or is clearly larger, and when what is retained of them fits the document. What
the executor reads of a stream is then its text, up to a character at the limit. -/
theorem text_output_read (ν : Type) [IntegerNumber ν] [ContentHash]
    (hhash : ∀ bytes, hexDigest 64 (ContentHash.sha256 bytes) = true)
    (hnumbers : ∀ i, safe i = true → (NumberText.text (IntegerNumber.ofInt i : ν)).length ≤ 17)
    (events : List ChildEvent) (elapsed : Int) (helapsed : elapsed ≤ runLimits.commandTimeoutMs + 5000)
    (texts : StreamName → List Char) (htexts : ∀ stream, written stream (handled events) = Utf8.encode (texts stream))
    (hsizes : ∀ stream, sizeOf (texts stream) ≤ Supervisor.perStreamLimit runLimits ∨
      Supervisor.perStreamLimit runLimits + 2 < sizeOf (texts stream))
    (hsafe : ∀ stream, sizeOf (texts stream) ≤ 9007199254740991) {r : SupervisorResult}
    (hresult : (Supervisor.run runLimits events).result elapsed = some r)
    (hroom : sizeOf (quote r.stdout.text) + sizeOf (quote r.stderr.text) + 400 ≤ maxResultBytes) :
    readSupervisorResult ν (some (r.document ν)) = r.outcome ∧
      ∀ stream, Retained (Supervisor.perStreamLimit runLimits) (texts stream) (r.capture stream).text.toList := by
  have hsupervised := supervised_run hresult
  have hwritten : ∀ stream, (written stream (handled events)).length ≤ 9007199254740991 := by
    intro stream
    rw [htexts stream]
    exact hsafe stream
  have hlast : runLimits.commandTimeoutMs + 5000 = 125000 := rfl
  have htime : elapsed ≤ 8640000000000000 := by omega
  have hcaptured : ∀ stream, (r.capture stream).text.toList =
      Utf8.decode ((Utf8.encode (texts stream)).take (Supervisor.perStreamLimit runLimits)) := by
    intro stream
    rw [hsupervised.captured stream, htexts stream, capturedOutput, String.toList_ofList]
  have hdigests : ∀ stream, ∃ bytes, (r.capture stream).sha256 = ContentHash.sha256 bytes := by
    intro stream
    rw [hsupervised.captured stream]
    exact ⟨_, rfl⟩
  have hsize := Document.size_document (ν := ν) hhash hnumbers (hsupervised.safe htime hwritten) hdigests
  have hreadable : Readable ν events elapsed r := by
    refine ⟨hsize.trans hroom, helapsed, fun stream => ?_⟩
    rw [htexts stream]
    exact reported_encode (hsizes stream)
  refine ⟨(hsupervised.read ν hhash htime hwritten).1 hreadable, fun stream => ?_⟩
  rw [hcaptured stream]
  exact retained_encode _ _

end ReproForge

/-! ## A character in two chunks -/

namespace ReproForge.Sample.SupervisedText

open JsonValues JsonValues.Decimal

/-- The digests of what the two streams carry. -/
scoped instance : ContentHash where
  sha256 bytes :=
    if bytes = [] then "e3b0c44298fc1c149afbf4c8996fb92427ae41e4649b934ca495991b7852b855"
    else "4a99557e4033c3539de2eb65472017cad5f9557f7a0625a09f1c3f6e2ba69c4c"

def events : List ChildEvent := [.data .stdout [0xC3], .data .stdout [0xA9], .close (some 1) false]

def texts : StreamName → List Char
  | .stdout => ['é']
  | .stderr => []

def result : SupervisorResult where
  durationMs := 12
  exitCode := 1
  stderr := ⟨0, "e3b0c44298fc1c149afbf4c8996fb92427ae41e4649b934ca495991b7852b855", "", false⟩
  stdout := ⟨2, "4a99557e4033c3539de2eb65472017cad5f9557f7a0625a09f1c3f6e2ba69c4c", "é", false⟩
  termination := none

theorem hash_sample (bytes : List UInt8) : hexDigest 64 (ContentHash.sha256 bytes) = true := by
  simp only [ContentHash.sha256]
  split <;> decide

theorem numbers_sample (i : Int) (h : safe i = true) : (NumberText.text (IntegerNumber.ofInt i : Int)).length ≤ 17 := by
  have hi : i.natAbs ≤ 9007199254740991 := of_decide_eq_true h
  have hdigits : (Nat.toDigits 10 i.natAbs).length ≤ 16 :=
    (Nat.length_toDigits_le_iff (by decide) (by decide)).mpr (by omega)
  change (JsonValues.Decimal.text i).length ≤ 17
  rw [JsonValues.Decimal.text]
  split
  · rw [List.length_cons]
    omega
  · omega

theorem text_output_read_sample : readSupervisorResult Int (some (result.document Int)) = .ok result :=
  (text_output_read Int hash_sample numbers_sample events 12 (by decide) texts (fun stream => by cases stream <;> decide)
    (fun stream => by cases stream <;> exact .inl (by decide)) (fun stream => by cases stream <;> decide)
    (r := result) (by decide +kernel) (by decide)).1

end ReproForge.Sample.SupervisedText
