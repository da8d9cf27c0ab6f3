import ReproForge.OracleVerdict
import ReproForge.Selection

/-!
# Verification and minimization

The summary that an oracle's verdicts on a control and its candidates add up
to, and the reduction that is chosen among the proposals that verify.
-/
namespace ReproForge

open JsonValues Selection

variable {ν : Type} [DomainNumber ν]

/-! ## Verification -/

section verification

variable [RegExpEngine]

/-- An array has fewer than 2 ^ 32 elements. -/
def arrayLength (length : Nat) : Bool := length < 4294967296

structure VerificationInput (ν : Type) where
  oracle : FailureOracle ν
  control : RunResult
  candidates : List RunResult
  requiredRuns : Int

/-- `verificationInputSchema`, its default filled in -/
def VerificationInput.valid (input : VerificationInput ν) : Bool :=
  (failureOracleSchema (ν := ν)).valid input.oracle && (runResultSchema (ν := ν)).valid input.control &&
    input.candidates.all (runResultSchema (ν := ν)).valid && arrayLength input.candidates.length &&
    safe input.requiredRuns && positive input.requiredRuns

/-- The summary of runs of which the oracle matched the control or not, and so many candidates. -/
def VerificationInput.summarize (input : VerificationInput ν) (controlMatched : Bool) (candidateMatches : Nat) :
    VerificationSummary ν :=
  let total := input.candidates.length
  let hashes := (input.control.environmentHash :: input.candidates.map (·.environmentHash)).dedup
  let (status, reason) :=
    if controlMatched then
      (VerificationStatus.blocked, "The failure oracle also matched the negative control.")
    else if hashes.length ≠ 1 then
      (.blocked, "Verification runs did not use one pinned environment.")
    else if input.requiredRuns ≤ total ∧ candidateMatches = total then
      (.verified, "The oracle matched all " ++ toString total ++
        " clean candidate runs and did not match the control.")
    else if 0 < candidateMatches then
      (.unstable, "The oracle matched " ++ toString candidateMatches ++ " of " ++ toString total ++ " candidate runs.")
    else (.notReproduced, "The oracle matched none of " ++ toString total ++ " candidate runs.")
  { candidateMatches
    controlMatched
    oracleId := input.oracle.id
    oracleVersion := input.oracle.version
    reason
    -- without candidates the quotient would not be a number
    repeatability := if total = 0 then DomainNumber.ratio 0 1 else DomainNumber.ratio candidateMatches total
    requiredRuns := input.requiredRuns
    status
    totalCandidateRuns := total }

/-- `none` when a schema refuses the input or the summary. -/
def verifyReproduction (input : VerificationInput ν) : Option (VerificationSummary ν) :=
  if input.valid then
    (verdict input.oracle input.control).bind (fun controlMatched =>
      (input.candidates.mapM (verdict input.oracle)).bind (fun matched =>
        let summary := input.summarize controlMatched (matched.count true)
        if verificationSummarySchema.valid summary then some summary else none))
  else none

/-- The verdict on a run, of an oracle that its schema accepts. -/
def matchedBy (oracle : FailureOracle ν) (run : RunResult) : Bool := (evaluateExpression run oracle.root).matched

theorem verdict_ok {oracle : FailureOracle ν} (h : (failureOracleSchema (ν := ν)).valid oracle = true)
    (run : RunResult) : verdict oracle run = some (matchedBy oracle run) := by
  rw [verdict, evaluateOracle, if_pos h]
  rfl

omit [DomainNumber ν] [RegExpEngine] in
theorem mapM_some {α β : Type} {f : α → Option β} {g : α → β} {l : List α} (h : ∀ a ∈ l, f a = some (g a)) :
    l.mapM f = some (l.map g) := by
  induction l with
  | nil => rfl
  | cons a l ih =>
    rw [List.mapM_cons, h a List.mem_cons_self, ih (fun b hb => h b (List.mem_cons_of_mem a hb))]
    rfl

theorem mapM_verdict {oracle : FailureOracle ν} (h : (failureOracleSchema (ν := ν)).valid oracle = true)
    (runs : List RunResult) : runs.mapM (verdict oracle) = some (runs.map (matchedBy oracle)) :=
  mapM_some (fun run _ => verdict_ok h run)

omit [RegExpEngine] in
theorem summary_valid_iff (s : VerificationSummary ν) :
    verificationSummarySchema.valid s = (safe s.candidateMatches && nonnegative s.candidateMatches &&
      nonempty s.oracleId && safe s.oracleVersion && positive s.oracleVersion && nonempty s.reason &&
      DomainNumber.fraction s.repeatability && safe s.requiredRuns && positive s.requiredRuns &&
      safe s.totalCandidateRuns && nonnegative s.totalCandidateRuns) := by
  have hform : verificationSummarySchema.valid s =
      ((safe s.candidateMatches && nonnegative s.candidateMatches) && (true && (nonempty s.oracleId &&
        ((safe s.oracleVersion && positive s.oracleVersion) && (nonempty s.reason &&
          (DomainNumber.fraction s.repeatability && ((safe s.requiredRuns && positive s.requiredRuns) && (true &&
            ((safe s.totalCandidateRuns && nonnegative s.totalCandidateRuns) && true))))))))) := rfl
  rw [hform]
  simp only [Bool.true_and, Bool.and_true, Bool.and_assoc]

theorem oracle_valid {oracle : FailureOracle ν} (h : (failureOracleSchema (ν := ν)).valid oracle = true) :
    nonempty oracle.id = true ∧ safe oracle.version = true ∧ positive oracle.version = true := by
  have hform : (failureOracleSchema (ν := ν)).valid oracle = (nonempty oracle.id &&
      ((oracleExpressionSchema (ν := ν)).valid oracle.root &&
        ((safe oracle.version && positive oracle.version) && true))) := rfl
  rw [hform] at h
  simp only [Bool.and_true, Bool.and_eq_true] at h
  exact ⟨h.1, h.2.2⟩

theorem summarize_valid {input : VerificationInput ν} (h : input.valid = true) (controlMatched : Bool) {matched : Nat}
    (hmatched : matched ≤ input.candidates.length) :
    verificationSummarySchema.valid (input.summarize controlMatched matched) = true := by
  simp only [VerificationInput.valid, arrayLength, Bool.and_eq_true, decide_eq_true_iff] at h
  obtain ⟨⟨⟨⟨⟨horacle, -⟩, -⟩, hlength⟩, hsafe⟩, hpositive⟩ := h
  obtain ⟨hid, hversion, hversion'⟩ := oracle_valid horacle
  have hcount : ∀ n : Nat, n ≤ input.candidates.length → safe (n : Int) = true ∧ nonnegative (n : Int) = true := by
    intro n hn
    rw [safe, nonnegative, decide_eq_true_iff, decide_eq_true_iff]
    omega
  have htotal := hcount input.candidates.length (Nat.le_refl _)
  have hmatched' := hcount matched hmatched
  have hratio : DomainNumber.fraction (if input.candidates.length = 0 then DomainNumber.ratio 0 1
      else DomainNumber.ratio matched input.candidates.length : ν) = true := by
    split
    · exact DomainNumber.fraction_ratio (Nat.zero_le 1)
    · exact DomainNumber.fraction_ratio hmatched
  have hreason : nonempty (input.summarize controlMatched matched).reason = true := by
    have hstart : ∀ word rest : String, nonempty word = true → nonempty (word ++ rest) = true := by
      intro word rest hword
      rw [nonempty, decide_eq_true_iff] at hword ⊢
      intro hempty
      exact hword (String.append_eq_empty_iff.mp hempty).1
    simp only [VerificationInput.summarize]
    split
    · decide
    · split
      · decide
      · split
        · exact hstart _ _ (hstart _ _ (by decide))
        · split
          · exact hstart _ _ (hstart _ _ (hstart _ _ (hstart _ _ (by decide))))
          · exact hstart _ _ (hstart _ _ (by decide))
  rw [summary_valid_iff, hreason]
  simp only [VerificationInput.summarize, hmatched'.1, hmatched'.2, htotal.1, htotal.2, hid, hversion, hversion',
    hratio, hsafe, hpositive, Bool.and_self]

/-- The summary of the verdicts on the runs. -/
def VerificationInput.outcome (input : VerificationInput ν) : VerificationSummary ν :=
  input.summarize (matchedBy input.oracle input.control) ((input.candidates.map (matchedBy input.oracle)).count true)

theorem VerificationInput.outcome_valid {input : VerificationInput ν} (h : input.valid = true) :
    verificationSummarySchema.valid input.outcome = true := by
  apply summarize_valid h
  have hcount := List.count_le_length (a := true) (l := input.candidates.map (matchedBy input.oracle))
  rwa [List.length_map] at hcount

/-- Verification is total on what its schema accepts. -/
theorem verifyReproduction_ok {input : VerificationInput ν} (h : input.valid = true) :
    verifyReproduction input = some input.outcome := by
  have horacle : (failureOracleSchema (ν := ν)).valid input.oracle = true := by
    simp only [VerificationInput.valid, Bool.and_eq_true] at h
    exact h.1.1.1.1.1
  rw [verifyReproduction, if_pos h, verdict_ok horacle, mapM_verdict horacle, Option.bind_some, Option.bind_some]
  exact if_pos (VerificationInput.outcome_valid h)

end verification

/-! ## Minimization -/

structure MinimizationProposal where
  candidates : List RunResult
  control : RunResult
  description : String
  id : String
  removedInputs : List String
  deriving DecidableEq, Repr

/-- `minimizationProposalSchema` -/
def MinimizationProposal.valid (ν : Type) [DomainNumber ν] (p : MinimizationProposal) : Bool :=
  p.candidates.all (runResultSchema (ν := ν)).valid && arrayLength p.candidates.length &&
    (runResultSchema (ν := ν)).valid p.control && nonempty p.description && nonempty p.id &&
    p.removedInputs.all nonempty && !p.removedInputs.isEmpty && decide p.removedInputs.Nodup

structure Baseline where
  candidates : List RunResult
  control : RunResult
  deriving DecidableEq, Repr

structure MinimizationInput (ν : Type) where
  baseline : Baseline
  oracle : FailureOracle ν
  proposals : List MinimizationProposal
  requiredRuns : Option Int

def MinimizationInput.runs (input : MinimizationInput ν) : Int := input.requiredRuns.getD 3

inductive MinimizationError where
  | invalidInput | baselineNotVerified | invalidResult
  deriving DecidableEq, Repr

section minimization

variable [RegExpEngine]

/-- `minimizationInputSchema` -/
def MinimizationInput.valid (input : MinimizationInput ν) : Bool :=
  input.baseline.candidates.all (runResultSchema (ν := ν)).valid && arrayLength input.baseline.candidates.length &&
    (runResultSchema (ν := ν)).valid input.baseline.control && (failureOracleSchema (ν := ν)).valid input.oracle &&
    input.proposals.all (MinimizationProposal.valid ν) && safe input.runs && positive input.runs

def MinimizationInput.verify (input : MinimizationInput ν) (control : RunResult) (candidates : List RunResult) :
    Option (VerificationSummary ν) :=
  verifyReproduction ⟨input.oracle, control, candidates, input.runs⟩

def MinimizationInput.evaluate (input : MinimizationInput ν) (p : MinimizationProposal) :
    Option (MinimizationEvaluation ν) :=
  (input.verify p.control p.candidates).map (fun summary => ⟨p.id, p.removedInputs, summary⟩)

def MinimizationEvaluation.verified (e : MinimizationEvaluation ν) : Bool := e.summary.status == .verified

section choice

variable [LocaleCompare]

/-- The evaluation that is sorted before another: more inputs removed, or as many under a lesser id. -/
def MinimizationEvaluation.precedes (left right : MinimizationEvaluation ν) : Bool :=
  right.removedInputs.length < left.removedInputs.length ||
    right.removedInputs.length == left.removedInputs.length && LocaleCompare.le left.id right.id

def acceptedEvaluation (evaluations : List (MinimizationEvaluation ν)) : Option (MinimizationEvaluation ν) :=
  first MinimizationEvaluation.precedes (evaluations.filter MinimizationEvaluation.verified)

def minimizationResult (evaluations : List (MinimizationEvaluation ν)) : MinimizationResult ν :=
  let accepted := acceptedEvaluation evaluations
  { acceptedReductionId := accepted.map (·.id)
    acceptedRemovedInputs := (accepted.map (·.removedInputs)).getD []
    claim := if accepted.isSome then .locallyMinimized else .baselineRetained
    evaluations }

def minimizeReproduction (input : MinimizationInput ν) : Except MinimizationError (MinimizationResult ν) :=
  if input.valid then
    match input.verify input.baseline.control input.baseline.candidates with
    | none => .error .invalidInput
    | some baselineSummary =>
      if baselineSummary.status ≠ .verified then .error .baselineNotVerified
      else
        match input.proposals.mapM input.evaluate with
        | none => .error .invalidInput
        | some evaluations =>
          let result := minimizationResult evaluations
          if minimizationResultSchema.valid result then .ok result else .error .invalidResult
  else .error .invalidInput

end choice

/-- The runs verify under the oracle. -/
def MinimizationInput.verifies (input : MinimizationInput ν) (control : RunResult) (candidates : List RunResult) : Bool :=
  (input.verify control candidates).any (fun summary => summary.status == .verified)

def MinimizationInput.proves (input : MinimizationInput ν) (p : MinimizationProposal) : Bool :=
  input.verifies p.control p.candidates

/-- The evaluation of a valid proposal. -/
def MinimizationInput.evaluation (input : MinimizationInput ν) (p : MinimizationProposal) : MinimizationEvaluation ν :=
  ⟨p.id, p.removedInputs, VerificationInput.outcome ⟨input.oracle, p.control, p.candidates, input.runs⟩⟩

theorem MinimizationInput.proposal_valid {input : MinimizationInput ν} (h : input.valid = true)
    {p : MinimizationProposal} (hp : p ∈ input.proposals) : p.valid ν = true := by
  simp only [MinimizationInput.valid, Bool.and_eq_true] at h
  exact List.all_eq_true.mp h.1.1.2 p hp

theorem MinimizationInput.verification_valid {input : MinimizationInput ν} (h : input.valid = true)
    {p : MinimizationProposal} (hp : p ∈ input.proposals) :
    VerificationInput.valid ⟨input.oracle, p.control, p.candidates, input.runs⟩ = true := by
  have hproposal := input.proposal_valid h hp
  simp only [MinimizationProposal.valid, Bool.and_eq_true] at hproposal
  obtain ⟨⟨⟨⟨⟨⟨⟨hcandidates, hlength⟩, hcontrol⟩, -⟩, -⟩, -⟩, -⟩, -⟩ := hproposal
  simp only [MinimizationInput.valid, Bool.and_eq_true] at h
  obtain ⟨⟨⟨⟨-, horacle⟩, -⟩, hsafe⟩, hpositive⟩ := h
  rw [VerificationInput.valid, horacle, hcontrol, hcandidates, hlength, hsafe, hpositive]
  rfl

theorem MinimizationInput.verify_proposal {input : MinimizationInput ν} (h : input.valid = true)
    {p : MinimizationProposal} (hp : p ∈ input.proposals) :
    input.verify p.control p.candidates = some (input.evaluation p).summary :=
  verifyReproduction_ok (input.verification_valid h hp)

theorem MinimizationInput.evaluate_ok {input : MinimizationInput ν} (h : input.valid = true)
    {p : MinimizationProposal} (hp : p ∈ input.proposals) : input.evaluate p = some (input.evaluation p) := by
  rw [MinimizationInput.evaluate, input.verify_proposal h hp]
  rfl

theorem MinimizationInput.proves_eq {input : MinimizationInput ν} (h : input.valid = true)
    {p : MinimizationProposal} (hp : p ∈ input.proposals) : input.proves p = (input.evaluation p).verified := by
  rw [MinimizationInput.proves, MinimizationInput.verifies, input.verify_proposal h hp]
  rfl

theorem MinimizationInput.evaluation_valid {input : MinimizationInput ν} (h : input.valid = true)
    {p : MinimizationProposal} (hp : p ∈ input.proposals) :
    minimizationEvaluationSchema.valid (input.evaluation p) = true := by
  have hform : minimizationEvaluationSchema.valid (input.evaluation p) = (nonempty p.id &&
      ((p.removedInputs.all nonempty && !p.removedInputs.isEmpty) &&
        (verificationSummarySchema.valid (input.evaluation p).summary && true))) := rfl
  have hsummary : verificationSummarySchema.valid (input.evaluation p).summary = true :=
    VerificationInput.outcome_valid (input.verification_valid h hp)
  have hproposal := input.proposal_valid h hp
  simp only [MinimizationProposal.valid, Bool.and_eq_true] at hproposal
  obtain ⟨⟨⟨⟨-, hid⟩, hinputs⟩, hsome⟩, -⟩ := hproposal
  rw [hform, hid, hinputs, hsome, hsummary]
  rfl

variable [LocaleCompare]

/-- The proposal that is preferred to another: it removes more inputs, or as many under a lesser id. -/
def MinimizationProposal.precedes (left right : MinimizationProposal) : Bool :=
  right.removedInputs.length < left.removedInputs.length ||
    right.removedInputs.length == left.removedInputs.length && LocaleCompare.le left.id right.id

omit [RegExpEngine] [DomainNumber ν] in
theorem MinimizationProposal.precedes_trans (p q r : MinimizationProposal) (hpq : p.precedes q = true)
    (hqr : q.precedes r = true) : p.precedes r = true := by
  simp only [MinimizationProposal.precedes, Bool.or_eq_true, Bool.and_eq_true, decide_eq_true_iff, beq_iff_eq] at *
  obtain hpq | ⟨hpq, hle⟩ := hpq
  · left
    omega
  · obtain hqr | ⟨hqr, hle'⟩ := hqr
    · left
      omega
    · exact .inr ⟨by omega, LocaleCompare.trans _ _ _ hle hle'⟩

omit [RegExpEngine] [DomainNumber ν] in
theorem MinimizationProposal.precedes_total (p q : MinimizationProposal) :
    (p.precedes q || q.precedes p) = true := by
  have htotal := LocaleCompare.total p.id q.id
  simp only [MinimizationProposal.precedes, Bool.or_eq_true, Bool.and_eq_true, decide_eq_true_iff, beq_iff_eq] at *
  obtain hlt | heq | hgt := Nat.lt_trichotomy p.removedInputs.length q.removedInputs.length
  · exact .inr (.inl hlt)
  · obtain hle | hle := htotal
    · exact .inl (.inr ⟨heq.symm, hle⟩)
    · exact .inr (.inr ⟨heq, hle⟩)
  · exact .inl (.inl hgt)

/-- The proposal whose evaluation is accepted. -/
def MinimizationInput.accepted (input : MinimizationInput ν) : Option MinimizationProposal :=
  first MinimizationProposal.precedes (input.proposals.filter input.proves)

theorem MinimizationInput.acceptedEvaluation_eq {input : MinimizationInput ν} (h : input.valid = true) :
    acceptedEvaluation (input.proposals.map input.evaluation) = input.accepted.map input.evaluation := by
  have hprecedes : ∀ p q : MinimizationProposal,
      p.precedes q = (input.evaluation p).precedes (input.evaluation q) := fun _ _ => rfl
  rw [acceptedEvaluation, MinimizationInput.accepted, List.filter_map, ← first_map hprecedes]
  refine congrArg (fun l => first _ (l.map input.evaluation)) (List.filter_congr ?_)
  intro p hp
  exact (input.proves_eq h hp).symm

/-- The evaluation that the schema looks up is that of the first proposal with the id. -/
theorem MinimizationInput.claimAgrees_eq {input : MinimizationInput ν} (h : input.valid = true) :
    (minimizationResult (input.proposals.map input.evaluation)).claimAgrees =
      input.accepted.all (fun p => (input.proposals.find? (fun q => q.id == p.id)).any input.proves) := by
  rw [MinimizationResult.claimAgrees, minimizationResult, input.acceptedEvaluation_eq h]
  cases haccepted : input.accepted with
  | none => rfl
  | some p =>
    simp only [Option.map_some, Option.isSome_some, if_true, Option.all_some, List.find?_map, Option.any_map,
      BEq.rfl, Bool.and_true]
    have hsame : ((fun e => e.id == (input.evaluation p).id) ∘ input.evaluation) = fun q => q.id == p.id := rfl
    rw [hsame]
    cases hfind : input.proposals.find? (fun q => q.id == p.id) with
    | none => rfl
    | some q => exact (input.proves_eq h (List.mem_of_find?_eq_some hfind)).symm

theorem MinimizationInput.accepted_mem {input : MinimizationInput ν} {p : MinimizationProposal}
    (h : input.accepted = some p) : p ∈ input.proposals ∧ input.proves p = true :=
  List.mem_filter.mp (first_mem h)

/-- All but the claim of the result passes the schema. -/
theorem MinimizationInput.result_valid {input : MinimizationInput ν} (h : input.valid = true) :
    minimizationResultSchema.valid (minimizationResult (input.proposals.map input.evaluation)) =
      (minimizationResult (input.proposals.map input.evaluation)).claimAgrees := by
  have hform : ∀ m : MinimizationResult ν, minimizationResultSchema.valid m =
      ((m.acceptedReductionId.all nonempty && ((m.acceptedRemovedInputs.all nonempty && true) && (true &&
        ((m.evaluations.all minimizationEvaluationSchema.valid && true) && true)))) && m.claimAgrees) := by
    rintro ⟨⟨⟩, _, _, _⟩ <;> rfl
  have hevaluations : (input.proposals.map input.evaluation).all minimizationEvaluationSchema.valid = true := by
    rw [List.all_map, List.all_eq_true]
    intro p hp
    exact input.evaluation_valid h hp
  have haccepted : ∀ p, input.accepted = some p → nonempty p.id = true ∧ p.removedInputs.all nonempty = true := by
    intro p hp
    have hproposal := input.proposal_valid h (input.accepted_mem hp).1
    simp only [MinimizationProposal.valid, Bool.and_eq_true] at hproposal
    exact ⟨hproposal.1.1.1.2, hproposal.1.1.2⟩
  rw [hform]
  simp only [minimizationResult, input.acceptedEvaluation_eq h, hevaluations, Bool.and_true]
  cases hchoice : input.accepted with
  | none => rfl
  | some p =>
    obtain ⟨hid, hinputs⟩ := haccepted p hchoice
    have hid' : nonempty (input.evaluation p).id = true := hid
    have hinputs' : (input.evaluation p).removedInputs.all nonempty = true := hinputs
    simp only [Option.map_some, Option.all_some, Option.getD_some, hid', hinputs', Bool.and_true, Bool.true_and]

/-- What minimization returns for a baseline that verifies. -/
theorem minimizeReproduction_eq {input : MinimizationInput ν} (h : input.valid = true)
    (hbaseline : input.verifies input.baseline.control input.baseline.candidates = true) :
    minimizeReproduction input =
      if input.accepted.all (fun p => (input.proposals.find? (fun q => q.id == p.id)).any input.proves) then
        .ok (minimizationResult (input.proposals.map input.evaluation))
      else .error .invalidResult := by
  have hevaluations : input.proposals.mapM input.evaluate = some (input.proposals.map input.evaluation) :=
    mapM_some (fun p hp => input.evaluate_ok h hp)
  rw [MinimizationInput.verifies] at hbaseline
  rw [minimizeReproduction, if_pos h]
  cases hverify : input.verify input.baseline.control input.baseline.candidates with
  | none =>
    rw [hverify] at hbaseline
    cases hbaseline
  | some summary =>
    rw [hverify, Option.any_some, beq_iff_eq] at hbaseline
    dsimp only
    rw [if_neg (not_not_intro hbaseline), hevaluations]
    dsimp only
    rw [input.result_valid h, input.claimAgrees_eq h]

/-! ## Which inputs are minimized -/

/-- The proposal verifies, and is preferred to every other that does. -/
def MinimizationInput.Preferred (input : MinimizationInput ν) (p : MinimizationProposal) : Prop :=
  p ∈ input.proposals ∧ input.proves p = true ∧ ∀ q ∈ input.proposals, input.proves q = true → p.precedes q = true

/-- The first proposal with the id of a preferred one verifies too. -/
def MinimizationInput.FirstProves (input : MinimizationInput ν) : Prop :=
  ∀ p, input.Preferred p → ∃ q, input.proposals.find? (fun q => q.id == p.id) = some q ∧ input.proves q = true

omit [LocaleCompare] in
/-- The reduction of a result is backed by a proposal that verifies, and no other that does removes more. -/
structure MinimizationInput.Minimized (input : MinimizationInput ν) (result : MinimizationResult ν) : Prop where
  accepted : (∃ p ∈ input.proposals, input.proves p = true) →
    ∃ p ∈ input.proposals, input.proves p = true ∧
      (∀ q ∈ input.proposals, input.proves q = true → q.removedInputs.length ≤ p.removedInputs.length) ∧
      result.acceptedReductionId = some p.id ∧ result.acceptedRemovedInputs = p.removedInputs ∧
      result.claim = .locallyMinimized
  retained : (∀ p ∈ input.proposals, input.proves p = false) →
    result.acceptedReductionId = none ∧ result.acceptedRemovedInputs = [] ∧ result.claim = .baselineRetained

omit [RegExpEngine] [LocaleCompare] [DomainNumber ν] in
/-- Two results that chose the same reduction. -/
def MinimizationResult.SameChoice (result result' : MinimizationResult ν) : Prop :=
  result'.acceptedReductionId = result.acceptedReductionId ∧
    result'.acceptedRemovedInputs = result.acceptedRemovedInputs ∧ result'.claim = result.claim

/-- The input has a minimized result and, if the ids are distinct, the same choice in any other order. -/
def MinimizationInput.Minimizes (input : MinimizationInput ν) : Prop :=
  ∃ result, minimizeReproduction input = .ok result ∧ input.Minimized result ∧
    ∀ proposals, proposals.Perm input.proposals → (input.proposals.map (·.id)).Nodup →
      ∃ result', minimizeReproduction { input with proposals } = .ok result' ∧ result.SameChoice result'

theorem MinimizationInput.preferred_of_accepted {input : MinimizationInput ν} {p : MinimizationProposal}
    (h : input.accepted = some p) : input.Preferred p := by
  obtain ⟨hp, hproves⟩ := input.accepted_mem h
  refine ⟨hp, hproves, ?_⟩
  intro q hq hproves'
  exact first_le MinimizationProposal.precedes_trans MinimizationProposal.precedes_total h
    (List.mem_filter.mpr ⟨hq, hproves'⟩)

theorem MinimizationInput.accepted_eq_none {input : MinimizationInput ν} :
    input.accepted = none ↔ ∀ p ∈ input.proposals, input.proves p = false := by
  rw [MinimizationInput.accepted, first_eq_none, List.filter_eq_nil_iff]
  simp only [Bool.not_eq_true]

theorem MinimizationInput.minimized {input : MinimizationInput ν} (h : input.valid = true) :
    input.Minimized (minimizationResult (input.proposals.map input.evaluation)) := by
  constructor
  · rintro ⟨q, hq, hproves⟩
    cases haccepted : input.accepted with
    | none =>
      rw [input.accepted_eq_none.mp haccepted q hq] at hproves
      cases hproves
    | some p =>
      obtain ⟨hp, hproves', hbest⟩ := input.preferred_of_accepted haccepted
      refine ⟨p, hp, hproves', ?_, ?_⟩
      · intro r hr hproves''
        have hle := hbest r hr hproves''
        simp only [MinimizationProposal.precedes, Bool.or_eq_true, Bool.and_eq_true, decide_eq_true_iff,
          beq_iff_eq] at hle
        omega
      · rw [minimizationResult, input.acceptedEvaluation_eq h, haccepted]
        exact ⟨rfl, rfl, rfl⟩
  · intro hnone
    rw [minimizationResult, input.acceptedEvaluation_eq h, input.accepted_eq_none.mpr hnone]
    exact ⟨rfl, rfl, rfl⟩

/-- With distinct ids every proposal is the first with its id. -/
theorem MinimizationInput.firstProves_of_nodup {input : MinimizationInput ν}
    (h : (input.proposals.map (·.id)).Nodup) : input.FirstProves := by
  intro p hpreferred
  refine ⟨p, ?_, hpreferred.2.1⟩
  cases hfind : input.proposals.find? (fun q => q.id == p.id) with
  | none =>
    have hno := List.find?_eq_none.mp hfind p hpreferred.1
    exact absurd (beq_self_eq_true p.id) hno
  | some q =>
    have hid : q.id = p.id := beq_iff_eq.mp (List.find?_some (p := fun q : MinimizationProposal => q.id == p.id) hfind)
    rw [List.inj_on_of_nodup_map h (List.mem_of_find?_eq_some hfind) hpreferred.1 hid]

section separation

variable (separates : ∀ a b : String, LocaleCompare.le a b = true → LocaleCompare.le b a = true → a = b)
include separates

omit [RegExpEngine] [DomainNumber ν] in
theorem MinimizationProposal.precedes_anti {p q : MinimizationProposal} (hpq : p.precedes q = true)
    (hqp : q.precedes p = true) : p.id = q.id := by
  simp only [MinimizationProposal.precedes, Bool.or_eq_true, Bool.and_eq_true, decide_eq_true_iff, beq_iff_eq] at *
  obtain hlt | ⟨heq, hle⟩ := hpq
  · omega
  · obtain hlt | ⟨-, hle'⟩ := hqp
    · omega
    · exact separates _ _ hle hle'

/-- All preferred proposals carry one id, so that it does not matter which of them is accepted. -/
theorem MinimizationInput.firstProves_iff {input : MinimizationInput ν} :
    input.accepted.all (fun p => (input.proposals.find? (fun q => q.id == p.id)).any input.proves) = true ↔
      input.FirstProves := by
  constructor
  · intro hall p hpreferred
    cases haccepted : input.accepted with
    | none =>
      have hproves := hpreferred.2.1
      rw [input.accepted_eq_none.mp haccepted p hpreferred.1] at hproves
      cases hproves
    | some a =>
      obtain ⟨ha, hproves, hbest⟩ := input.preferred_of_accepted haccepted
      have hid : a.id = p.id := MinimizationProposal.precedes_anti separates (hbest p hpreferred.1 hpreferred.2.1)
        (hpreferred.2.2 a ha hproves)
      rw [haccepted, Option.all_some, Option.any_eq_true, hid] at hall
      exact hall
  · intro hfirst
    cases haccepted : input.accepted with
    | none => rfl
    | some a =>
      rw [Option.all_some, Option.any_eq_true]
      exact hfirst a (input.preferred_of_accepted haccepted)

theorem MinimizationInput.accepted_perm {input : MinimizationInput ν} (h : (input.proposals.map (·.id)).Nodup)
    {proposals : List MinimizationProposal} (hperm : proposals.Perm input.proposals) :
    MinimizationInput.accepted { input with proposals } = input.accepted := by
  refine first_perm MinimizationProposal.precedes_trans MinimizationProposal.precedes_total ?_ (hperm.filter _)
  intro p hp q hq hpq hqp
  have hid := MinimizationProposal.precedes_anti separates hpq hqp
  exact List.inj_on_of_nodup_map h (List.mem_filter.mp hp).1 (List.mem_filter.mp hq).1 hid

/-- Minimization is total and optimal exactly if the first proposal with the id
of a preferred one verifies: it is the one that the schema of the result looks up. -/
theorem minimization_exact (input : MinimizationInput ν) (h : input.valid = true)
    (hbaseline : input.verifies input.baseline.control input.baseline.candidates = true) :
    input.Minimizes ↔ input.FirstProves := by
  constructor
  · rintro ⟨result, hresult, -, -⟩
    rw [minimizeReproduction_eq h hbaseline] at hresult
    split at hresult
    · rename_i hall
      exact (input.firstProves_iff separates).mp hall
    · cases hresult
  · intro hfirst
    refine ⟨_, ?_, input.minimized h, ?_⟩
    · rw [minimizeReproduction_eq h hbaseline, if_pos ((input.firstProves_iff separates).mpr hfirst)]
    · intro proposals hperm hids
      have hvalid : MinimizationInput.valid { input with proposals } = true := by
        have hall : proposals.all (MinimizationProposal.valid ν) = input.proposals.all (MinimizationProposal.valid ν) :=
          hperm.all_eq
        rw [← h]
        simp only [MinimizationInput.valid, MinimizationInput.runs, hall]
      have hids' : (proposals.map (·.id)).Nodup := (hperm.map _).nodup_iff.mpr hids
      have hfirst' : MinimizationInput.FirstProves { input with proposals } :=
        MinimizationInput.firstProves_of_nodup hids'
      refine ⟨_, (minimizeReproduction_eq hvalid hbaseline).trans
        (if_pos ((MinimizationInput.firstProves_iff separates).mpr hfirst')), ?_⟩
      have haccepted := input.accepted_perm separates hids hperm
      rw [MinimizationResult.SameChoice, minimizationResult, minimizationResult, input.acceptedEvaluation_eq h,
        MinimizationInput.acceptedEvaluation_eq hvalid, haccepted]
      cases input.accepted <;> exact ⟨rfl, rfl, rfl⟩

end separation

end minimization

end ReproForge

/-! ## Two proposals with one id -/

namespace ReproForge.Sample.Reduction

open JsonValues ReproForge.Sample.Bundle

def failing : RunResult := sampleRun "run-1" 1

def passing : RunResult := sampleRun "run-0" 0

/-- A proposal of one run, to remove one input. -/
def sampleProposal (id : String) (run : RunResult) : MinimizationProposal :=
  ⟨[run], passing, "Drop an input.", id, ["input"]⟩

def reductionInput (proposals : List MinimizationProposal) : MinimizationInput Int :=
  ⟨⟨[failing], passing⟩, ⟨"oracle-1", .exitCode 1, 1⟩, proposals, some 1⟩

/-- The first proposal with the id does not verify, and the second one does. -/
def repeated : MinimizationInput Int := reductionInput [sampleProposal "x" passing, sampleProposal "x" failing]

def single : MinimizationInput Int := reductionInput [sampleProposal "x" failing]

theorem separates (a b : String) (h : LocaleCompare.le a b = true) (h' : LocaleCompare.le b a = true) : a = b :=
  String.le_antisymm (of_decide_eq_true h) (of_decide_eq_true h')

theorem repeated_valid : repeated.valid = true := by decide +kernel

theorem repeated_baseline : repeated.verifies repeated.baseline.control repeated.baseline.candidates = true := by
  decide +kernel

theorem minimization_exact_sample : single.Minimizes ↔ single.FirstProves :=
  minimization_exact separates single (by decide +kernel) (by decide +kernel)

theorem repeated_refused : minimizeReproduction repeated = .error .invalidResult := by
  rw [minimizeReproduction_eq repeated_valid repeated_baseline, if_neg]
  decide +kernel

theorem minimization_not_total :
    ¬∀ input : MinimizationInput Int, input.valid = true →
      input.verifies input.baseline.control input.baseline.candidates = true → input.Minimizes := by
  intro h
  obtain ⟨result, hresult, -⟩ := h repeated repeated_valid repeated_baseline
  rw [repeated_refused] at hresult
  cases hresult

end ReproForge.Sample.Reduction
