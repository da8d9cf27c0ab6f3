import ReproForge.ObjectProperties

/-!
# Reproduction bundles

The failure oracle, the runs, the hypotheses, the verification and the
minimization of a reproduction with the schemas that parse them, and the bundle
that holds them under their hash.
-/
namespace ReproForge

open JsonValues

/-- Whether `new RegExp` takes a pattern, and whether a pattern is found in a text. -/
class RegExpEngine where
  compiles : String → Bool
  test : String → String → Bool

/-- The numbers that the domain computes with. -/
class DomainNumber (ν : Type) extends IntegerNumber ν where
  ratio : Nat → Nat → ν
  /-- `0 ≤ n` and `n ≤ 1`. -/
  fraction : ν → Bool
  fraction_ratio : ∀ {m n : Nat}, m ≤ n → fraction (ratio m n) = true

instance {ν : Type} [DomainNumber ν] : JsonNumber ν where
  ofInt := IntegerNumber.ofInt

variable {ν : Type}

/-! ## Strings -/

def nonempty (s : String) : Bool := s ≠ ""

/-- `^\d+\.\d+\.\d+$` -/
def releaseVersion (s : String) : Bool :=
  match s.toList.splitOn '.' with
  | [major, minor, patch] => [major, minor, patch].all (fun part => !part.isEmpty && part.all Char.isDigit)
  | _ => false

/-- Two digits, at least `low` and at most `high`. -/
def twoDigits (low high : Nat) (tens units : Char) : Bool :=
  let n := (tens.toNat - 48) * 10 + (units.toNat - 48)
  tens.isDigit && units.isDigit && low ≤ n && n ≤ high

def leapYear (year : Nat) : Bool := year % 4 == 0 && (year % 100 != 0 || year % 400 == 0)

def daysIn (year month : Nat) : Nat :=
  if month = 2 then (if leapYear year then 29 else 28)
  else if month = 4 ∨ month = 6 ∨ month = 9 ∨ month = 11 then 30
  else 31

def digitsValue (cs : List Char) : Nat := cs.foldl (fun n c => n * 10 + (c.toNat - 48)) 0

/-- The seconds, which may be missing, and the fraction of a second. -/
def datetimeSeconds : List Char → Bool
  | ['Z'] => true
  | ':' :: a :: b :: 'Z' :: [] => twoDigits 0 59 a b
  | ':' :: a :: b :: '.' :: rest =>
    twoDigits 0 59 a b && rest.getLast? == some 'Z' && !rest.dropLast.isEmpty && rest.dropLast.all Char.isDigit
  | _ => false

/-- `z.string().datetime()` -/
def isoDatetime (s : String) : Bool :=
  match s.toList with
  | y₁ :: y₂ :: y₃ :: y₄ :: '-' :: m₁ :: m₂ :: '-' :: d₁ :: d₂ :: 'T' :: h₁ :: h₂ :: ':' :: n₁ :: n₂ :: rest =>
    [y₁, y₂, y₃, y₄].all Char.isDigit && twoDigits 1 12 m₁ m₂ &&
      twoDigits 1 (daysIn (digitsValue [y₁, y₂, y₃, y₄]) (digitsValue [m₁, m₂])) d₁ d₂ && twoDigits 0 23 h₁ h₂ &&
      twoDigits 0 59 n₁ n₂ && datetimeSeconds rest
  | _ => false

def positive (i : Int) : Bool := 0 < i

def nonnegative (i : Int) : Bool := 0 ≤ i

/-! ## Runs -/

structure RunOutputCapture where
  originalBytes : Int
  sha256 : String
  truncated : Bool
  deriving DecidableEq, Repr

structure RunCapture where
  stderr : RunOutputCapture
  stdout : RunOutputCapture
  deriving DecidableEq, Repr

structure RunResult where
  capture : Option RunCapture
  id : String
  command : String
  durationMs : Int
  environmentHash : String
  exitCode : Int
  stderr : String
  stdout : String
  deriving DecidableEq, Repr

section schemas

variable [DomainNumber ν]

def runOutputCaptureSchema : Schema ν RunOutputCapture :=
  .strictObject <| .equiv
    (.required "originalBytes" (.integer nonnegative) <|
      .required "sha256" (.string (hexDigest 64)) <|
      .required "truncated" .boolean .nil)
    { toFun := fun ⟨originalBytes, sha256, truncated, _⟩ => ⟨originalBytes, sha256, truncated⟩
      invFun := fun c => ⟨c.originalBytes, c.sha256, c.truncated, ()⟩
      left_inv := fun _ => rfl
      right_inv := fun _ => rfl }

def runCaptureSchema : Schema ν RunCapture :=
  .strictObject <| .equiv
    (.required "stderr" runOutputCaptureSchema <| .required "stdout" runOutputCaptureSchema .nil)
    { toFun := fun ⟨stderr, stdout, _⟩ => ⟨stderr, stdout⟩
      invFun := fun c => ⟨c.stderr, c.stdout, ()⟩
      left_inv := fun _ => rfl
      right_inv := fun _ => rfl }

def runResultSchema : Schema ν RunResult :=
  .strictObject <| .equiv
    (.optional "capture" runCaptureSchema <|
      .required "id" (.string nonempty) <|
      .required "command" (.string nonempty) <|
      .required "durationMs" (.integer nonnegative) <|
      .required "environmentHash" (.string nonempty) <|
      .required "exitCode" (.integer (fun _ => true)) <|
      .required "stderr" (.string (fun _ => true)) <|
      .required "stdout" (.string (fun _ => true)) .nil)
    { toFun := fun ⟨capture, id, command, durationMs, environmentHash, exitCode, stderr, stdout, _⟩ =>
        ⟨capture, id, command, durationMs, environmentHash, exitCode, stderr, stdout⟩
      invFun := fun r =>
        ⟨r.capture, r.id, r.command, r.durationMs, r.environmentHash, r.exitCode, r.stderr, r.stdout, ()⟩
      left_inv := fun _ => rfl
      right_inv := fun _ => rfl }

end schemas

/-! ## Oracles -/

theorem settled_pair {key key' : String} {v v' : Json ν} (horder : inOrder [key, key'] = true)
    (hv : v.settled = true) (hv' : v'.settled = true) : (Json.obj [(key, v), (key', v')]).settled = true := by
  rw [Json.settled_obj]
  refine ⟨horder, ?_⟩
  intro f hf
  obtain rfl | hf := List.mem_cons.mp hf
  · exact hv
  · rw [List.mem_singleton.mp hf]
    exact hv'

theorem mem_of_lookup {α β : Type} [BEq α] [LawfulBEq α] {entries : List (α × β)} {a : α} {b : β}
    (h : entries.lookup a = some b) : (a, b) ∈ entries := by
  obtain ⟨before, after, rfl, -⟩ := List.lookup_eq_some_iff.mp h
  exact List.mem_append_right before List.mem_cons_self

inductive StreamName where
  | stdout | stderr
  deriving DecidableEq, Repr

def StreamName.text : StreamName → String
  | .stdout => "stdout"
  | .stderr => "stderr"

/-- A value as JavaScript holds it. -/
abbrev JsonValue (ν : Type) := {v : Json ν // v.settled = true}

inductive OracleExpression (ν : Type) where
  | exitCode (expected : Int)
  | outputContains (stream : StreamName) (value : String)
  | outputRegex (stream : StreamName) (pattern : String)
  | jsonField (stream : StreamName) (path : List String) (equals : Option (JsonValue ν))
  | all (children : List (OracleExpression ν))
  | any (children : List (OracleExpression ν))
  | not (child : OracleExpression ν)

structure FailureOracle (ν : Type) where
  id : String
  root : OracleExpression ν
  version : Int

def streamSchema : Schema ν StreamName :=
  .enumeration StreamName.text [.stdout, .stderr] (by rintro ⟨⟩ <;> rfl)

section oracles

variable [DomainNumber ν] [RegExpEngine]

namespace OracleExpression

/-- A pattern has at most 256 code units, and compiles. -/
def validRegex (pattern : String) : Bool := utf16Length pattern ≤ 256 && RegExpEngine.compiles pattern

def exitCodeSchema : Schema ν Int :=
  .strictObject <| .equiv (.required "type" (.literal "exit_code") <| .required "expected" (.integer (fun _ => true)) .nil)
    { toFun := fun ⟨_, expected, _⟩ => expected
      invFun := fun expected => ⟨(), expected, ()⟩
      left_inv := fun _ => rfl
      right_inv := fun _ => rfl }

def outputContainsSchema : Schema ν (StreamName × String) :=
  .strictObject <| .equiv
    (.required "type" (.literal "output_contains") <|
      .required "stream" streamSchema <|
      .required "value" (.string (fun _ => true)) .nil)
    { toFun := fun ⟨_, stream, value, _⟩ => ⟨stream, value⟩
      invFun := fun e => ⟨(), e.1, e.2, ()⟩
      left_inv := fun _ => rfl
      right_inv := fun _ => rfl }

def outputRegexSchema : Schema ν (StreamName × String) :=
  .strictObject <| .equiv
    (.required "type" (.literal "output_regex") <|
      .required "stream" streamSchema <|
      .required "pattern" (.string validRegex) .nil)
    { toFun := fun ⟨_, stream, pattern, _⟩ => ⟨stream, pattern⟩
      invFun := fun e => ⟨(), e.1, e.2, ()⟩
      left_inv := fun _ => rfl
      right_inv := fun _ => rfl }

def jsonFieldSchema : Schema ν (StreamName × List String × Option (JsonValue ν)) :=
  .strictObject <| .equiv
    (.required "type" (.literal "json_field") <|
      .required "stream" streamSchema <|
      .required "path" (.array (.string (fun _ => true)) (fun path => !path.isEmpty)) <|
      .optional "equals" .unknown .nil)
    { toFun := fun ⟨_, stream, path, equals, _⟩ => ⟨stream, path, equals⟩
      invFun := fun e => ⟨(), e.1, e.2.1, e.2.2, ()⟩
      left_inv := fun _ => rfl
      right_inv := fun _ => rfl }

mutual

def encode : OracleExpression ν → Json ν
  | .exitCode expected => exitCodeSchema.encode expected
  | .outputContains stream value => outputContainsSchema.encode (stream, value)
  | .outputRegex stream pattern => outputRegexSchema.encode (stream, pattern)
  | .jsonField stream path equals => jsonFieldSchema.encode (stream, path, equals)
  | .all children => .obj [("type", .str "all"), ("children", .arr (encodeItems children))]
  | .any children => .obj [("type", .str "any"), ("children", .arr (encodeItems children))]
  | .not child => .obj [("type", .str "not"), ("child", child.encode)]

def encodeItems : List (OracleExpression ν) → List (Json ν)
  | [] => []
  | e :: rest => e.encode :: encodeItems rest

end

mutual

def valid : OracleExpression ν → Bool
  | .exitCode expected => (exitCodeSchema (ν := ν)).valid expected
  | .outputContains stream value => (outputContainsSchema (ν := ν)).valid (stream, value)
  | .outputRegex stream pattern => (outputRegexSchema (ν := ν)).valid (stream, pattern)
  | .jsonField stream path equals => jsonFieldSchema.valid (stream, path, equals)
  | .all children | .any children => !children.isEmpty && validItems children
  | .not child => child.valid

def validItems : List (OracleExpression ν) → Bool
  | [] => true
  | e :: rest => e.valid && validItems rest

end

/-- What the properties of an object are as expressions, and as lists of expressions. -/
abbrev Decoded (ν : Type) := List (String × Option (OracleExpression ν) × Option (List (OracleExpression ν)))

def childrenOf (decoded : Decoded ν) (fields : List (String × Json ν)) : Option (List (OracleExpression ν)) :=
  if fields.all (fun f => ["type", "children"].contains f.1) then
    ((decoded.lookup "children").bind (·.2)).filter (fun children => !children.isEmpty)
  else none

def childOf (decoded : Decoded ν) (fields : List (String × Json ν)) : Option (OracleExpression ν) :=
  if fields.all (fun f => ["type", "child"].contains f.1) then (decoded.lookup "child").bind (·.1) else none

/-- `z.discriminatedUnion("type", [..])` -/
def ofFields (decoded : Decoded ν) (fields : List (String × Json ν)) : Option (OracleExpression ν) :=
  match fields.lookup "type" with
  | some (.str "exit_code") => (exitCodeSchema.decode (.obj fields)).map .exitCode
  | some (.str "output_contains") => (outputContainsSchema.decode (.obj fields)).map (fun e => .outputContains e.1 e.2)
  | some (.str "output_regex") => (outputRegexSchema.decode (.obj fields)).map (fun e => .outputRegex e.1 e.2)
  | some (.str "json_field") => (jsonFieldSchema.decode (.obj fields)).map (fun e => .jsonField e.1 e.2.1 e.2.2)
  | some (.str "all") => (childrenOf decoded fields).map .all
  | some (.str "any") => (childrenOf decoded fields).map .any
  | some (.str "not") => (childOf decoded fields).map .not
  | _ => none

mutual

def decode : Json ν → Option (OracleExpression ν)
  | .obj fields => ofFields (decodeFields fields) fields
  | _ => none

def decodeFields : List (String × Json ν) → Decoded ν
  | [] => []
  | f :: rest => (f.1, decode f.2, decodeChildren f.2) :: decodeFields rest

def decodeChildren : Json ν → Option (List (OracleExpression ν))
  | .arr items => decodeItems items
  | _ => none

def decodeItems : List (Json ν) → Option (List (OracleExpression ν))
  | [] => some []
  | item :: rest => (decode item).bind (fun e => (decodeItems rest).map (e :: ·))

end

theorem childrenOf_encode (type : String) {es : List (OracleExpression ν)} (hne : (!es.isEmpty) = true)
    (hes : decodeItems (encodeItems es) = some es) :
    childrenOf (decodeFields [("type", .str type), ("children", .arr (encodeItems es))])
      [("type", .str type), ("children", .arr (encodeItems es))] = some es := by
  have hchildren : decodeChildren (.arr (encodeItems es)) = some es := by rw [decodeChildren, hes]
  have hlookup : (decodeFields [("type", Json.str (ν := ν) type), ("children", .arr (encodeItems es))]).lookup
      "children" = some (decode (.arr (encodeItems es)), decodeChildren (.arr (encodeItems es))) := rfl
  have hkeys : ([("type", Json.str type), ("children", .arr (encodeItems es))].all
      (fun f => ["type", "children"].contains f.1)) = true := rfl
  rw [childrenOf, if_pos hkeys, hlookup, Option.bind_some, hchildren]
  exact filter_self hne

mutual

theorem decode_encode (e : OracleExpression ν) (h : e.valid = true) : decode e.encode = some e := by
  cases e with
  | exitCode expected =>
    have hdecode := exitCodeSchema.decode_encode (ν := ν) h
    exact congrArg (Option.map OracleExpression.exitCode) hdecode
  | outputContains stream value =>
    have hdecode := outputContainsSchema.decode_encode (ν := ν) h
    exact congrArg (Option.map (fun e : StreamName × String => OracleExpression.outputContains e.1 e.2)) hdecode
  | outputRegex stream pattern =>
    have hdecode := outputRegexSchema.decode_encode (ν := ν) h
    exact congrArg (Option.map (fun e : StreamName × String => OracleExpression.outputRegex e.1 e.2)) hdecode
  | jsonField stream path equals =>
    have hdecode := jsonFieldSchema.decode_encode h
    exact congrArg (Option.map (fun e : StreamName × List String × Option (JsonValue ν) =>
      OracleExpression.jsonField e.1 e.2.1 e.2.2)) hdecode
  | all children =>
    rw [valid, Bool.and_eq_true] at h
    have hchildren := childrenOf_encode "all" h.1 (decodeItems_encodeItems children h.2)
    rw [encode, decode]
    exact congrArg (Option.map OracleExpression.all) hchildren
  | any children =>
    rw [valid, Bool.and_eq_true] at h
    have hchildren := childrenOf_encode "any" h.1 (decodeItems_encodeItems children h.2)
    rw [encode, decode]
    exact congrArg (Option.map OracleExpression.any) hchildren
  | not child =>
    have hchild := decode_encode child h
    rw [encode, decode]
    have hlookup : childOf (decodeFields [("type", Json.str (ν := ν) "not"), ("child", child.encode)])
        [("type", .str "not"), ("child", child.encode)] = decode child.encode := rfl
    exact congrArg (Option.map OracleExpression.not) (hlookup.trans hchild)

theorem decodeItems_encodeItems (es : List (OracleExpression ν)) (h : validItems es = true) :
    decodeItems (encodeItems es) = some es := by
  cases es with
  | nil => rw [encodeItems, decodeItems]
  | cons e rest =>
    rw [validItems, Bool.and_eq_true] at h
    rw [encodeItems, decodeItems, decode_encode e h.1, decodeItems_encodeItems rest h.2]
    rfl

end

/-- What is read off an object is valid where what is read off its properties is. -/
theorem valid_ofFields {decoded : Decoded ν} {fields : List (String × Json ν)} {e : OracleExpression ν}
    (hone : ∀ key p, (key, p) ∈ decoded → ∀ e ∈ p.1, e.valid = true)
    (hmany : ∀ key p, (key, p) ∈ decoded → ∀ es ∈ p.2, validItems es = true)
    (h : ofFields decoded fields = some e) : e.valid = true := by
  have hchildren : ∀ es ∈ childrenOf decoded fields, (!es.isEmpty && validItems es) = true := by
    intro es hes
    rw [Option.mem_def, childrenOf] at hes
    split at hes
    · obtain ⟨hbind, hne⟩ := Option.filter_eq_some_iff.mp hes
      obtain ⟨p, hp, hchildren⟩ := Option.bind_eq_some_iff.mp hbind
      rw [hne, hmany _ p (mem_of_lookup hp) es hchildren, Bool.true_and]
    · cases hes
  have hchild : ∀ e ∈ childOf decoded fields, e.valid = true := by
    intro e he
    rw [Option.mem_def, childOf] at he
    split at he
    · obtain ⟨p, hp, hchild⟩ := Option.bind_eq_some_iff.mp he
      exact hone _ p (mem_of_lookup hp) e hchild
    · cases he
  unfold ofFields at h
  split at h
  · obtain ⟨a, ha, rfl⟩ := Option.map_eq_some_iff.mp h
    exact exitCodeSchema.valid_decode ha
  · obtain ⟨a, ha, rfl⟩ := Option.map_eq_some_iff.mp h
    exact outputContainsSchema.valid_decode ha
  · obtain ⟨a, ha, rfl⟩ := Option.map_eq_some_iff.mp h
    exact outputRegexSchema.valid_decode ha
  · obtain ⟨a, ha, rfl⟩ := Option.map_eq_some_iff.mp h
    exact jsonFieldSchema.valid_decode ha
  · obtain ⟨es, hes, rfl⟩ := Option.map_eq_some_iff.mp h
    exact hchildren es hes
  · obtain ⟨es, hes, rfl⟩ := Option.map_eq_some_iff.mp h
    exact hchildren es hes
  · obtain ⟨c, hc, rfl⟩ := Option.map_eq_some_iff.mp h
    exact hchild c hc
  · cases h

mutual

theorem valid_decode (v : Json ν) : ∀ e ∈ decode v, e.valid = true := by
  cases v with
  | obj fields =>
    intro e h
    rw [Option.mem_def, decode] at h
    exact valid_ofFields (fun key p hp => (valid_decodeFields fields key p hp).1)
      (fun key p hp => (valid_decodeFields fields key p hp).2) h
  | _ =>
    intro e h
    simp [decode] at h

theorem valid_decodeFields (fields : List (String × Json ν)) :
    ∀ key p, (key, p) ∈ decodeFields fields →
      (∀ e ∈ p.1, e.valid = true) ∧ ∀ es ∈ p.2, validItems es = true := by
  intro key p hp
  cases fields with
  | nil =>
    rw [decodeFields] at hp
    cases hp
  | cons f rest =>
    rw [decodeFields] at hp
    obtain h | h := List.mem_cons.mp hp
    · cases h
      exact ⟨valid_decode f.2, valid_decodeChildren f.2⟩
    · exact valid_decodeFields rest key p h

theorem valid_decodeChildren (v : Json ν) : ∀ es ∈ decodeChildren v, validItems es = true := by
  cases v with
  | arr items =>
    intro es h
    rw [decodeChildren] at h
    exact valid_decodeItems items es h
  | _ =>
    intro es h
    simp [decodeChildren] at h

theorem valid_decodeItems (items : List (Json ν)) : ∀ es ∈ decodeItems items, validItems es = true := by
  cases items with
  | nil =>
    intro es h
    rw [decodeItems] at h
    cases h
    rw [validItems]
  | cons item rest =>
    intro es h
    rw [decodeItems] at h
    obtain ⟨e, he, hrest⟩ := Option.bind_eq_some_iff.mp h
    obtain ⟨tail, htail, rfl⟩ := Option.map_eq_some_iff.mp hrest
    rw [validItems, valid_decode item e he, valid_decodeItems rest tail htail, Bool.true_and]

end

mutual

theorem settled_encode (e : OracleExpression ν) : e.encode.settled = true := by
  cases e with
  | exitCode expected => exact exitCodeSchema.settled_encode expected
  | outputContains stream value => exact outputContainsSchema.settled_encode (stream, value)
  | outputRegex stream pattern => exact outputRegexSchema.settled_encode (stream, pattern)
  | jsonField stream path equals => exact jsonFieldSchema.settled_encode (stream, path, equals)
  | all children =>
    rw [encode]
    exact settled_pair (by decide) rfl (by rw [Json.settled, settled_encodeItems children])
  | any children =>
    rw [encode]
    exact settled_pair (by decide) rfl (by rw [Json.settled, settled_encodeItems children])
  | not child =>
    rw [encode]
    exact settled_pair (by decide) rfl (settled_encode child)

theorem settled_encodeItems (es : List (OracleExpression ν)) : itemsSettled (encodeItems es) = true := by
  cases es with
  | nil => rw [encodeItems, itemsSettled]
  | cons e rest => rw [encodeItems, itemsSettled, settled_encode e, settled_encodeItems rest, Bool.true_and]

end

end OracleExpression

def oracleExpressionSchema : Schema ν (OracleExpression ν) where
  encode := OracleExpression.encode
  valid := OracleExpression.valid
  decode := OracleExpression.decode
  decode_encode h := OracleExpression.decode_encode _ h
  valid_decode h := OracleExpression.valid_decode _ _ h
  settled_encode := OracleExpression.settled_encode

def failureOracleSchema : Schema ν (FailureOracle ν) :=
  .strictObject <| .equiv
    (.required "id" (.string nonempty) <|
      .required "root" oracleExpressionSchema <|
      .required "version" (.integer positive) .nil)
    { toFun := fun ⟨id, root, version, _⟩ => ⟨id, root, version⟩
      invFun := fun o => ⟨o.id, o.root, o.version, ()⟩
      left_inv := fun _ => rfl
      right_inv := fun _ => rfl }

end oracles

/-! ## Evidence -/

inductive EvidenceClassification where
  | reported | observed | inferred | unknown
  deriving DecidableEq, Repr

def EvidenceClassification.text : EvidenceClassification → String
  | .reported => "reported"
  | .observed => "observed"
  | .inferred => "inferred"
  | .unknown => "unknown"

structure EvidenceItem where
  classification : EvidenceClassification
  content : String
  id : String
  source : String
  deriving DecidableEq, Repr

inductive HypothesisStatus where
  | proposed | supported | contradicted | inconclusive
  deriving DecidableEq, Repr

def HypothesisStatus.text : HypothesisStatus → String
  | .proposed => "proposed"
  | .supported => "supported"
  | .contradicted => "contradicted"
  | .inconclusive => "inconclusive"

structure HypothesisStatusHistoryEntry where
  reason : String
  sequence : Int
  status : HypothesisStatus
  deriving DecidableEq, Repr

structure Hypothesis where
  evidenceIds : List String
  expectedSignal : String
  falsificationCondition : String
  id : String
  priority : Int
  statement : String
  status : HypothesisStatus
  statusHistory : List HypothesisStatusHistoryEntry
  deriving DecidableEq, Repr

def ascending : List Int → Bool
  | [] | [_] => true
  | i :: j :: rest => i < j && ascending (j :: rest)

/-- The refinement of `hypothesisSchema`. -/
def Hypothesis.historyAgrees (h : Hypothesis) : Bool :=
  h.statusHistory.getLast?.map (·.status) == some h.status && ascending (h.statusHistory.map (·.sequence))

/-! ## Verification -/

inductive VerificationStatus where
  | verified | unstable | notReproduced | blocked
  deriving DecidableEq, Repr

def VerificationStatus.text : VerificationStatus → String
  | .verified => "VERIFIED"
  | .unstable => "UNSTABLE"
  | .notReproduced => "NOT_REPRODUCED"
  | .blocked => "BLOCKED"

structure VerificationSummary (ν : Type) where
  candidateMatches : Int
  controlMatched : Bool
  oracleId : String
  oracleVersion : Int
  reason : String
  repeatability : ν
  requiredRuns : Int
  status : VerificationStatus
  totalCandidateRuns : Int

/-! ## Minimization -/

inductive MinimizationClaim where
  | locallyMinimized | baselineRetained
  deriving DecidableEq, Repr

def MinimizationClaim.text : MinimizationClaim → String
  | .locallyMinimized => "locally-minimized"
  | .baselineRetained => "baseline-retained"

structure MinimizationEvaluation (ν : Type) where
  id : String
  removedInputs : List String
  summary : VerificationSummary ν

structure MinimizationResult (ν : Type) where
  acceptedReductionId : Option String
  acceptedRemovedInputs : List String
  claim : MinimizationClaim
  evaluations : List (MinimizationEvaluation ν)

/-- The refinement of `minimizationResultSchema`. -/
def MinimizationResult.claimAgrees (m : MinimizationResult ν) : Bool :=
  match m.acceptedReductionId with
  | none => m.claim == .baselineRetained && m.acceptedRemovedInputs.isEmpty
  | some id =>
    (m.evaluations.find? (fun e => e.id == id)).any (fun e => e.summary.status == .verified) &&
      m.claim == .locallyMinimized

/-! ## Bundles -/

structure BundleLock where
  command : String
  dependencyLockHash : String
  environment : Dictionary String
  environmentHash : String
  oracleId : String
  oracleVersion : Int
  packageManager : String
  repository : String
  repositoryTreeHash : String
  reproForgeVersion : String
  revision : String
  runner : String
  runtime : String

structure ReproBundleInput (ν : Type) where
  caseId : String
  generatedAt : String
  hypothesisLedger : List Hypothesis
  lock : BundleLock
  minimization : MinimizationResult ν
  oracle : FailureOracle ν
  reproductionPatch : String
  runLog : List RunResult
  summary : VerificationSummary ν

/-- The schema version of every bundle is 1.1. -/
structure ReproBundle (ν : Type) extends ReproBundleInput ν where
  bundleHash : String

/-- The refinements of `reproBundleSchema`. -/
def ReproBundleInput.verifiedAndAgrees (b : ReproBundleInput ν) : Bool :=
  b.summary.status == .verified && b.summary.oracleId == b.oracle.id && b.summary.oracleVersion == b.oracle.version &&
    b.lock.oracleId == b.oracle.id && b.lock.oracleVersion == b.oracle.version

section bundles

variable [DomainNumber ν]

def evidenceItemSchema : Schema ν EvidenceItem :=
  .strictObject <| .equiv
    (.required "classification" (.enumeration EvidenceClassification.text [.reported, .observed, .inferred, .unknown]
        (by rintro ⟨⟩ <;> rfl)) <|
      .required "content" (.string nonempty) <|
      .required "id" (.string nonempty) <|
      .required "source" (.string nonempty) .nil)
    { toFun := fun ⟨classification, content, id, source, _⟩ => ⟨classification, content, id, source⟩
      invFun := fun e => ⟨e.classification, e.content, e.id, e.source, ()⟩
      left_inv := fun _ => rfl
      right_inv := fun _ => rfl }

def hypothesisStatusSchema : Schema ν HypothesisStatus :=
  .enumeration HypothesisStatus.text [.proposed, .supported, .contradicted, .inconclusive] (by rintro ⟨⟩ <;> rfl)

def hypothesisStatusHistoryEntrySchema : Schema ν HypothesisStatusHistoryEntry :=
  .strictObject <| .equiv
    (.required "reason" (.string nonempty) <|
      .required "sequence" (.integer nonnegative) <|
      .required "status" hypothesisStatusSchema .nil)
    { toFun := fun ⟨reason, sequence, status, _⟩ => ⟨reason, sequence, status⟩
      invFun := fun e => ⟨e.reason, e.sequence, e.status, ()⟩
      left_inv := fun _ => rfl
      right_inv := fun _ => rfl }

def hypothesisSchema : Schema ν Hypothesis :=
  .refine (.strictObject <| .equiv
    (.required "evidenceIds" (.array (.string nonempty) (fun ids => !ids.isEmpty)) <|
      .required "expectedSignal" (.string nonempty) <|
      .required "falsificationCondition" (.string nonempty) <|
      .required "id" (.string nonempty) <|
      .required "priority" (.integer (fun i => 1 ≤ i && i ≤ 5)) <|
      .required "statement" (.string nonempty) <|
      .required "status" hypothesisStatusSchema <|
      .required "statusHistory" (.array hypothesisStatusHistoryEntrySchema (fun history => !history.isEmpty)) .nil)
    { toFun := fun ⟨evidenceIds, expectedSignal, falsificationCondition, id, priority, statement, status, history, _⟩ =>
        ⟨evidenceIds, expectedSignal, falsificationCondition, id, priority, statement, status, history⟩
      invFun := fun h =>
        ⟨h.evidenceIds, h.expectedSignal, h.falsificationCondition, h.id, h.priority, h.statement, h.status,
          h.statusHistory, ()⟩
      left_inv := fun _ => rfl
      right_inv := fun _ => rfl })
    Hypothesis.historyAgrees

def verificationSummarySchema : Schema ν (VerificationSummary ν) :=
  .strictObject <| .equiv
    (.required "candidateMatches" (.integer nonnegative) <|
      .required "controlMatched" .boolean <|
      .required "oracleId" (.string nonempty) <|
      .required "oracleVersion" (.integer positive) <|
      .required "reason" (.string nonempty) <|
      .required "repeatability" (.number DomainNumber.fraction) <|
      .required "requiredRuns" (.integer positive) <|
      .required "status" (.enumeration VerificationStatus.text [.verified, .unstable, .notReproduced, .blocked]
        (by rintro ⟨⟩ <;> rfl)) <|
      .required "totalCandidateRuns" (.integer nonnegative) .nil)
    { toFun := fun ⟨candidateMatches, controlMatched, oracleId, oracleVersion, reason, repeatability, requiredRuns,
          status, totalCandidateRuns, _⟩ =>
        ⟨candidateMatches, controlMatched, oracleId, oracleVersion, reason, repeatability, requiredRuns, status,
          totalCandidateRuns⟩
      invFun := fun s =>
        ⟨s.candidateMatches, s.controlMatched, s.oracleId, s.oracleVersion, s.reason, s.repeatability, s.requiredRuns,
          s.status, s.totalCandidateRuns, ()⟩
      left_inv := fun _ => rfl
      right_inv := fun _ => rfl }

def minimizationEvaluationSchema : Schema ν (MinimizationEvaluation ν) :=
  .strictObject <| .equiv
    (.required "id" (.string nonempty) <|
      .required "removedInputs" (.array (.string nonempty) (fun inputs => !inputs.isEmpty)) <|
      .required "summary" verificationSummarySchema .nil)
    { toFun := fun ⟨id, removedInputs, summary, _⟩ => ⟨id, removedInputs, summary⟩
      invFun := fun e => ⟨e.id, e.removedInputs, e.summary, ()⟩
      left_inv := fun _ => rfl
      right_inv := fun _ => rfl }

def minimizationResultSchema : Schema ν (MinimizationResult ν) :=
  .refine (.strictObject <| .equiv
    (.required "acceptedReductionId" (.nullable (.string nonempty)) <|
      .required "acceptedRemovedInputs" (.array (.string nonempty) (fun _ => true)) <|
      .required "claim" (.enumeration MinimizationClaim.text [.locallyMinimized, .baselineRetained]
        (by rintro ⟨⟩ <;> rfl)) <|
      .required "evaluations" (.array minimizationEvaluationSchema (fun _ => true)) .nil)
    { toFun := fun ⟨acceptedReductionId, acceptedRemovedInputs, claim, evaluations, _⟩ =>
        ⟨acceptedReductionId, acceptedRemovedInputs, claim, evaluations⟩
      invFun := fun m => ⟨m.acceptedReductionId, m.acceptedRemovedInputs, m.claim, m.evaluations, ()⟩
      left_inv := fun _ => rfl
      right_inv := fun _ => rfl })
    MinimizationResult.claimAgrees

abbrev bundleLockKeys : List String :=
  ["command", "dependencyLockHash", "environment", "environmentHash", "oracleId", "oracleVersion", "packageManager",
    "repository", "repositoryTreeHash", "reproForgeVersion", "revision", "runner", "runtime"]

def bundleLockFields : Fields bundleLockKeys ν BundleLock :=
  .equiv
    (.required "command" (.string nonempty) <|
      .required "dependencyLockHash" (.string (hexDigest 64)) <|
      .required "environment" (.record (.string (fun _ => true))) <|
      .required "environmentHash" (.string nonempty) <|
      .required "oracleId" (.string nonempty) <|
      .required "oracleVersion" (.integer positive) <|
      .required "packageManager" (.string nonempty) <|
      .required "repository" (.string nonempty) <|
      .required "repositoryTreeHash" (.string (hexDigest 64)) <|
      .required "reproForgeVersion" (.string releaseVersion) <|
      .required "revision" (.string nonempty) <|
      .required "runner" (.string nonempty) <|
      .required "runtime" (.string nonempty) .nil)
    { toFun := fun ⟨command, dependencyLockHash, environment, environmentHash, oracleId, oracleVersion, packageManager,
          repository, repositoryTreeHash, reproForgeVersion, revision, runner, runtime, _⟩ =>
        ⟨command, dependencyLockHash, environment, environmentHash, oracleId, oracleVersion, packageManager, repository,
          repositoryTreeHash, reproForgeVersion, revision, runner, runtime⟩
      invFun := fun l =>
        ⟨l.command, l.dependencyLockHash, l.environment, l.environmentHash, l.oracleId, l.oracleVersion,
          l.packageManager, l.repository, l.repositoryTreeHash, l.reproForgeVersion, l.revision, l.runner, l.runtime, ()⟩
      left_inv := fun _ => rfl
      right_inv := fun _ => rfl }

def bundleLockSchema : Schema ν BundleLock := .strictObject bundleLockFields

variable [RegExpEngine]

def reproBundleSchema : Schema ν (ReproBundle ν) :=
  .refine (.strictObject <| .equiv
    (.required "bundleHash" (.string (hexDigest 64)) <|
      .required "caseId" (.string nonempty) <|
      .required "generatedAt" (.string isoDatetime) <|
      .required "hypothesisLedger" (.array hypothesisSchema (fun _ => true)) <|
      .required "lock" bundleLockSchema <|
      .required "minimization" minimizationResultSchema <|
      .required "oracle" failureOracleSchema <|
      .required "reproductionPatch" (.string (fun _ => true)) <|
      .required "runLog" (.array runResultSchema (fun _ => true)) <|
      .required "schemaVersion" (.literal "1.1") <|
      .required "summary" verificationSummarySchema .nil)
    { toFun := fun ⟨bundleHash, caseId, generatedAt, hypothesisLedger, lock, minimization, oracle, reproductionPatch,
          runLog, _, summary, _⟩ =>
        ⟨⟨caseId, generatedAt, hypothesisLedger, lock, minimization, oracle, reproductionPatch, runLog, summary⟩,
          bundleHash⟩
      invFun := fun b =>
        ⟨b.bundleHash, b.caseId, b.generatedAt, b.hypothesisLedger, b.lock, b.minimization, b.oracle,
          b.reproductionPatch, b.runLog, (), b.summary, ()⟩
      left_inv := fun _ => rfl
      right_inv := fun _ => rfl })
    (fun b => b.verifiedAndAgrees)

end bundles

end ReproForge
