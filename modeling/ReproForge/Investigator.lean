import ReproForge.BundleValidation

/-!
# The investigator

`ResponsesInvestigator.investigate` talks to a model that may answer anything.
Each turn sends the history so far; the calls in the answer are executed and go
into the history with their outputs, until an answer has no call. The calls
record evidence, hypotheses about it and experiments for these.
-/
namespace ReproForge

open JsonValues

variable {ν : Type}

/-! ## What the tools record -/

inductive ExperimentRecipe where
  | control | reproduce
  deriving DecidableEq, Repr

def ExperimentRecipe.text : ExperimentRecipe → String
  | .control => "control"
  | .reproduce => "reproduce"

structure ExperimentProposal where
  expectedSignal : String
  hypothesisId : String
  id : String
  rationale : String
  recipe : ExperimentRecipe
  deriving DecidableEq, Repr

structure HypothesisArguments where
  evidenceIds : List String
  expectedSignal : String
  falsificationCondition : String
  id : String
  priority : Int
  statement : String
  deriving DecidableEq, Repr

structure InvestigationInput where
  issue : String
  maxToolCalls : Option Int
  repository : String
  deriving DecidableEq, Repr

/-- `.default(6)` -/
def InvestigationInput.toolCallBudget (input : InvestigationInput) : Nat := (input.maxToolCalls.getD 6).toNat

structure Accumulator where
  evidence : List EvidenceItem
  experiments : List ExperimentProposal
  hypotheses : List Hypothesis
  deriving DecidableEq, Repr

structure InvestigationPlan extends Accumulator where
  model : String
  summary : String
  toolCalls : Nat
  deriving DecidableEq, Repr

def liveModel : String := "gpt-5.6-sol"

section schemas

variable [DomainNumber ν]

def experimentProposalSchema : Schema ν ExperimentProposal :=
  .strictObject <| .equiv
    (.required "expectedSignal" (.string nonempty) <|
      .required "hypothesisId" (.string nonempty) <|
      .required "id" (.string nonempty) <|
      .required "rationale" (.string nonempty) <|
      .required "recipe" (.enumeration ExperimentRecipe.text [.control, .reproduce] (by rintro ⟨⟩ <;> rfl)) .nil)
    { toFun := fun ⟨expectedSignal, hypothesisId, id, rationale, recipe, _⟩ =>
        ⟨expectedSignal, hypothesisId, id, rationale, recipe⟩
      invFun := fun x => ⟨x.expectedSignal, x.hypothesisId, x.id, x.rationale, x.recipe, ()⟩
      left_inv := fun _ => rfl
      right_inv := fun _ => rfl }

def recordHypothesisArgumentsSchema : Schema ν HypothesisArguments :=
  .strictObject <| .equiv
    (.required "evidenceIds" (.array (.string nonempty) (fun ids => !ids.isEmpty)) <|
      .required "expectedSignal" (.string nonempty) <|
      .required "falsificationCondition" (.string nonempty) <|
      .required "id" (.string nonempty) <|
      .required "priority" (.integer (fun i => 1 ≤ i && i ≤ 5)) <|
      .required "statement" (.string nonempty) .nil)
    { toFun := fun ⟨evidenceIds, expectedSignal, falsificationCondition, id, priority, statement, _⟩ =>
        ⟨evidenceIds, expectedSignal, falsificationCondition, id, priority, statement⟩
      invFun := fun h =>
        ⟨h.evidenceIds, h.expectedSignal, h.falsificationCondition, h.id, h.priority, h.statement, ()⟩
      left_inv := fun _ => rfl
      right_inv := fun _ => rfl }

def investigationInputSchema : Schema ν InvestigationInput :=
  .strictObject <| .equiv
    (.required "issue" (.string (fun s => 1 ≤ utf16Length s && utf16Length s ≤ 10000)) <|
      .optional "maxToolCalls" (.integer (fun i => 1 ≤ i && i ≤ 12)) <|
      .required "repository" (.string (fun s => 1 ≤ utf16Length s && utf16Length s ≤ 500)) .nil)
    { toFun := fun ⟨issue, maxToolCalls, repository, _⟩ => ⟨issue, maxToolCalls, repository⟩
      invFun := fun i => ⟨i.issue, i.maxToolCalls, i.repository, ()⟩
      left_inv := fun _ => rfl
      right_inv := fun _ => rfl }

variable (ν)

/-- `investigationPlanSchema` -/
def InvestigationPlan.valid (plan : InvestigationPlan) : Bool :=
  !plan.evidence.isEmpty && plan.evidence.all (evidenceItemSchema (ν := ν)).valid &&
    !plan.experiments.isEmpty && plan.experiments.all (experimentProposalSchema (ν := ν)).valid &&
    !plan.hypotheses.isEmpty && plan.hypotheses.all (hypothesisSchema (ν := ν)).valid &&
    nonempty plan.model && nonempty plan.summary && plan.toolCalls ≤ maxSafeInteger &&
    plan.hypotheses.all (fun h => h.evidenceIds.all (plan.evidence.map EvidenceItem.id).contains) &&
    plan.experiments.all (fun x => (plan.hypotheses.map Hypothesis.id).contains x.hypothesisId)

end schemas

/-! ## Function calls -/

structure InvestigatorFunctionCall where
  arguments : String
  callId : String
  name : String
  deriving DecidableEq, Repr

def isNull : Json ν → Bool
  | .null => true
  | _ => false

/-- A property of an item that is a string. -/
def textProperty (key : String) : Json ν → Option String
  | .obj fields =>
    match fields.lookup key with
    | some (.str text) => some text
    | _ => none
  | _ => none

/-- `isFunctionCall`, with the call. -/
def functionCall (item : Json ν) : Option InvestigatorFunctionCall :=
  if textProperty "type" item = some "function_call" then
    match textProperty "arguments" item, textProperty "call_id" item, textProperty "name" item with
    | some arguments, some callId, some name => some ⟨arguments, callId, name⟩
    | _, _, _ => none
  else none

def functionCalls (items : List (Json ν)) : List InvestigatorFunctionCall := items.filterMap functionCall

section tools

variable [DomainNumber ν]

def toolOutput (call : InvestigatorFunctionCall) (value : Json ν) : Json ν :=
  .obj [("call_id", .str call.callId), ("output", .str value.stringify), ("type", .str "function_call_output")]

def accepted (call : InvestigatorFunctionCall) (id : String) : Json ν :=
  toolOutput call (.obj [("accepted", .bool true), ("id", .str id)])

def rejected (call : InvestigatorFunctionCall) (error : String) : Json ν :=
  toolOutput call (.obj [("accepted", .bool false), ("error", .str error)])

/-- What a call adds to the accumulator. -/
inductive ToolRecord where
  | evidence (e : EvidenceItem)
  | experiment (x : ExperimentProposal)
  | hypothesis (h : Hypothesis)
  deriving DecidableEq, Repr

def Accumulator.push (accumulator : Accumulator) : ToolRecord → Accumulator
  | .evidence e => { accumulator with evidence := accumulator.evidence ++ [e] }
  | .experiment x => { accumulator with experiments := accumulator.experiments ++ [x] }
  | .hypothesis h => { accumulator with hypotheses := accumulator.hypotheses ++ [h] }

def HypothesisArguments.proposed (h : HypothesisArguments) : Hypothesis where
  evidenceIds := h.evidenceIds
  expectedSignal := h.expectedSignal
  falsificationCondition := h.falsificationCondition
  id := h.id
  priority := h.priority
  statement := h.statement
  status := .proposed
  statusHistory := [⟨"Recorded by the bounded GPT investigator.", 0, .proposed⟩]

def recordEvidence (call : InvestigatorFunctionCall) (rawArguments : Json ν) (accumulator : Accumulator) :
    Json ν × Option ToolRecord :=
  match evidenceItemSchema.decode rawArguments with
  | none => (rejected call "Evidence arguments are invalid", none)
  | some item =>
    if accumulator.evidence.any (fun e => e.id = item.id) then (rejected call "Evidence ID already exists", none)
    else (accepted call item.id, some (.evidence item))

def recordHypothesis (call : InvestigatorFunctionCall) (rawArguments : Json ν) (accumulator : Accumulator) :
    Json ν × Option ToolRecord :=
  match recordHypothesisArgumentsSchema.decode rawArguments with
  | none => (rejected call "Hypothesis arguments are invalid", none)
  | some h =>
    if h.evidenceIds.any (fun id => !(accumulator.evidence.map EvidenceItem.id).contains id) then
      (rejected call "Hypothesis references evidence that has not been recorded", none)
    else if accumulator.hypotheses.any (fun g => g.id = h.id) then (rejected call "Hypothesis ID already exists", none)
    else (accepted call h.id, some (.hypothesis h.proposed))

def proposeExperiment (call : InvestigatorFunctionCall) (rawArguments : Json ν) (accumulator : Accumulator) :
    Json ν × Option ToolRecord :=
  match experimentProposalSchema.decode rawArguments with
  | none => (rejected call "Experiment arguments are invalid", none)
  | some x =>
    if !accumulator.hypotheses.any (fun h => h.id = x.hypothesisId) then
      (rejected call "Experiment references a hypothesis that has not been recorded", none)
    else if accumulator.experiments.any (fun y => y.id = x.id) then (rejected call "Experiment ID already exists", none)
    else (accepted call x.id, some (.experiment x))

/-- The output of a call, and what it records. -/
def executeToolCall (call : InvestigatorFunctionCall) (accumulator : Accumulator) : Json ν × Option ToolRecord :=
  match Json.parse call.arguments with
  | none => (rejected call "Arguments are not valid JSON", none)
  | some rawArguments =>
    if call.name = "record_evidence" then recordEvidence call rawArguments accumulator
    else if call.name = "record_hypothesis" then recordHypothesis call rawArguments accumulator
    else if call.name = "propose_experiment" then proposeExperiment call rawArguments accumulator
    else (rejected call "Unknown tool", none)

/-! ## The loop -/

/-- An answer of the model, whose text need not be one. -/
structure InvestigatorResponse (ν : Type) where
  output : List (Json ν)
  outputText : Option String

/-- The variables of the loop, the histories that were sent and the calls that were executed with what they
recorded. -/
structure Investigation (ν : Type) where
  accumulator : Accumulator
  history : List (Json ν)
  toolCalls : Nat
  requests : List (List (Json ν))
  executed : List (InvestigatorFunctionCall × Option ToolRecord)

inductive InvestigationError where
  | invalidInput | transportFailed | malformedResponse | budgetExceeded | unfinished | invalidPlan
  deriving DecidableEq, Repr

def inputMessage (input : InvestigationInput) : Json ν :=
  .obj [
    ("type", .str "message"),
    ("role", .str "user"),
    ("content", .arr [.obj [
      ("type", .str "input_text"),
      ("text", .str <| Json.stringify (ν := ν) <| .obj [
        ("issue", .str input.issue),
        ("repository", .str input.repository),
        ("toolCallBudget", .num (IntegerNumber.ofInt input.toolCallBudget)),
        ("permittedRecipes", .arr [.str "control", .str "reproduce"])])]])]

/-- The calls of an answer, one after the other. -/
def executeCalls : List InvestigatorFunctionCall → Accumulator →
    List (Json ν) × List (InvestigatorFunctionCall × Option ToolRecord) × Accumulator
  | [], accumulator => ([], [], accumulator)
  | call :: rest, accumulator =>
    let (output, recorded) : Json ν × Option ToolRecord := executeToolCall call accumulator
    let (outputs, executed, final) : List (Json ν) × List (InvestigatorFunctionCall × Option ToolRecord) × Accumulator :=
      executeCalls rest (recorded.elim accumulator accumulator.push)
    (output :: outputs, (call, recorded) :: executed, final)

inductive TurnResult (ν : Type) where
  | completed (summary : String)
  | failed (error : InvestigationError)
  | continued (s : Investigation ν)

def Investigation.send (s : Investigation ν) : Investigation ν := { s with requests := s.requests ++ [s.history] }

/-- What an answer makes of the variables; `none` is a call of the transport that throws. A `null` among the items
has no properties to read. -/
def Investigation.turn (budget : Nat) (s : Investigation ν) : Option (InvestigatorResponse ν) → TurnResult ν
  | none => .failed .transportFailed
  | some response =>
    if response.output.any isNull then .failed .malformedResponse
    else
      let calls := functionCalls response.output
      if calls.length = 0 then
        match response.outputText with
        | none => .failed .malformedResponse
        | some text => .completed (String.ofList (trim text.toList))
      else if s.toolCalls + calls.length > budget then .failed .budgetExceeded
      else
        let (outputs, executed, accumulator) : List (Json ν) × List (InvestigatorFunctionCall × Option ToolRecord) ×
          Accumulator := executeCalls calls s.accumulator
        .continued {
          accumulator := accumulator
          history := s.history ++ response.output ++ outputs
          toolCalls := s.toolCalls + calls.length
          requests := s.requests
          executed := s.executed ++ executed }

/-- `for (let turn = 0; turn <= input.maxToolCalls; turn += 1)`, with the number of turns that are left. -/
def converse (budget : Nat) (responses : Nat → Option (InvestigatorResponse ν)) :
    Nat → Nat → Investigation ν → Except InvestigationError String × Investigation ν
  | 0, _, s => (.error .unfinished, s)
  | left + 1, turn, s =>
    match s.send.turn budget (responses turn) with
    | .completed summary => (.ok summary, s.send)
    | .failed error => (.error error, s.send)
    | .continued s => converse budget responses left (turn + 1) s

def Investigation.plan (s : Investigation ν) (summary : String) : InvestigationPlan where
  toAccumulator := s.accumulator
  model := liveModel
  summary := if summary = "" then "Evidence and falsifiable experiment proposals were recorded." else summary
  toolCalls := s.toolCalls

/-- The plan or the error, and what was done to get there. -/
def investigate (raw : Json ν) (responses : Nat → Option (InvestigatorResponse ν)) :
    Except InvestigationError InvestigationPlan × Investigation ν :=
  match investigationInputSchema.decode raw with
  | none => (.error .invalidInput, ⟨⟨[], [], []⟩, [], 0, [], []⟩)
  | some input =>
    match converse input.toolCallBudget responses (input.toolCallBudget + 1) 0
      ⟨⟨[], [], []⟩, [inputMessage input], 0, [], []⟩ with
    | (.error error, s) => (.error error, s)
    | (.ok summary, s) =>
      if (s.plan summary).valid ν then (.ok (s.plan summary), s) else (.error .invalidPlan, s)

end tools

/-! ## What is recorded -/

namespace ToolRecord

def item : ToolRecord → Option EvidenceItem
  | .evidence e => some e
  | _ => none

def proposal : ToolRecord → Option ExperimentProposal
  | .experiment x => some x
  | _ => none

def claim : ToolRecord → Option Hypothesis
  | .hypothesis h => some h
  | _ => none

/-- The references of what is recorded go to what was recorded before, and its identifier is new. -/
def Follows (before : List ToolRecord) : ToolRecord → Prop
  | .evidence e => ∀ e', .evidence e' ∈ before → e'.id ≠ e.id
  | .experiment x => (∃ h, .hypothesis h ∈ before ∧ h.id = x.hypothesisId) ∧
    ∀ x', .experiment x' ∈ before → x'.id ≠ x.id
  | .hypothesis h => (∀ id ∈ h.evidenceIds, ∃ e, .evidence e ∈ before ∧ e.id = id) ∧
    ∀ h', .hypothesis h' ∈ before → h'.id ≠ h.id

/-- What was recorded, in this order. -/
def accumulator (journal : List ToolRecord) : Accumulator :=
  ⟨journal.filterMap item, journal.filterMap proposal, journal.filterMap claim⟩

theorem mem_evidence {journal : List ToolRecord} {e : EvidenceItem} :
    e ∈ (accumulator journal).evidence ↔ .evidence e ∈ journal := by
  rw [accumulator, List.mem_filterMap]
  constructor
  · rintro ⟨r, hr, he⟩
    cases r with
    | evidence e' => cases he; exact hr
    | _ => cases he
  · exact fun h => ⟨_, h, rfl⟩

theorem mem_experiments {journal : List ToolRecord} {x : ExperimentProposal} :
    x ∈ (accumulator journal).experiments ↔ .experiment x ∈ journal := by
  rw [accumulator, List.mem_filterMap]
  constructor
  · rintro ⟨r, hr, he⟩
    cases r with
    | experiment x' => cases he; exact hr
    | _ => cases he
  · exact fun h => ⟨_, h, rfl⟩

theorem mem_hypotheses {journal : List ToolRecord} {h : Hypothesis} :
    h ∈ (accumulator journal).hypotheses ↔ .hypothesis h ∈ journal := by
  rw [accumulator, List.mem_filterMap]
  constructor
  · rintro ⟨r, hr, he⟩
    cases r with
    | hypothesis h' => cases he; exact hr
    | _ => cases he
  · exact fun h => ⟨_, h, rfl⟩

theorem push_accumulator (journal : List ToolRecord) (r : ToolRecord) :
    (accumulator journal).push r = accumulator (journal ++ [r]) := by
  rw [accumulator, accumulator, List.filterMap_append, List.filterMap_append, List.filterMap_append]
  cases r <;> simp [Accumulator.push, item, proposal, claim]

/-- Each record follows those before it. -/
def Orderly (journal : List ToolRecord) : Prop :=
  ∀ before r after, journal = before ++ r :: after → r.Follows before

theorem orderly_nil : Orderly [] := by
  intro before r after h
  cases before <;> cases h

theorem Orderly.concat {journal : List ToolRecord} (h : Orderly journal) {r : ToolRecord} (hr : r.Follows journal) :
    Orderly (journal ++ [r]) := by
  intro before r' after hsplit
  rcases List.eq_nil_or_concat after with rfl | ⟨rest, last, rfl⟩
  · obtain ⟨rfl, hlast⟩ := List.append_inj' hsplit rfl
    cases hlast
    exact hr
  · rw [List.concat_eq_append, ← List.cons_append, ← List.append_assoc] at hsplit
    obtain ⟨hjournal, -⟩ := List.append_inj' hsplit rfl
    exact h before r' rest hjournal

/-- Records of one kind have different identifiers. -/
theorem Orderly.distinct {α : Type} {journal : List ToolRecord} (h : Orderly journal) (kind : ToolRecord → Option α)
    (id : α → String)
    (hnew : ∀ before r a, r.Follows before → kind r = some a → ∀ b ∈ before.filterMap kind, id b ≠ id a) :
    ((journal.filterMap kind).map id).Nodup := by
  induction journal using List.reverseRecOn with
  | nil => exact List.nodup_nil
  | append_singleton journal r ih =>
    have hprefix : Orderly journal := by
      intro before r' after hsplit
      refine h before r' (after ++ [r]) ?_
      rw [hsplit, List.append_assoc, List.cons_append]
    rw [List.filterMap_append, List.map_append, List.nodup_append]
    refine ⟨ih hprefix, ?_, ?_⟩
    · rw [List.filterMap_cons]
      cases kind r <;> simp
    · intro i hi j hj
      obtain ⟨b, hb, rfl⟩ := List.mem_map.mp hi
      obtain ⟨a, ha, rfl⟩ := List.mem_map.mp hj
      obtain ⟨r', hr', hkind⟩ := List.mem_filterMap.mp ha
      rw [List.mem_singleton.mp hr'] at hkind
      exact hnew journal r a (h journal r [] rfl) hkind b hb

end ToolRecord

/-! ## What is answered -/

/-- The call that an output is for. -/
def outputCall (item : Json ν) : Option String :=
  if textProperty "type" item = some "function_call_output" then textProperty "call_id" item else none

/-- What one answer adds to the history. -/
structure Round (ν : Type) where
  items : List (Json ν)
  outputs : List (Json ν)

def Round.content (r : Round ν) : List (Json ν) := r.items ++ r.outputs

/-- One output for each call, in the order of the calls. -/
def Round.Answered (r : Round ν) : Prop :=
  r.outputs.map outputCall = (functionCalls r.items).map (fun call => some call.callId)

/-- A history opens with a message, and goes on with rounds that are answered. -/
def Conversation (opening : Json ν) (rounds : List (Round ν)) (history : List (Json ν)) : Prop :=
  history = opening :: rounds.flatMap Round.content ∧ ∀ r ∈ rounds, r.Answered

theorem functionCall_of_output {item : Json ν} {id : String} (h : outputCall item = some id) :
    functionCall item = none := by
  rw [outputCall] at h
  split at h
  · rename_i htype
    rw [functionCall, htype, if_neg (by decide)]
  · cases h

section answers

variable [DomainNumber ν]

@[simp] theorem outputCall_toolOutput (call : InvestigatorFunctionCall) (value : Json ν) :
    outputCall (toolOutput call value) = some call.callId := rfl

/-- What a tool may answer to a call: an output for it, and perhaps a record that follows the others. -/
def Replies (call : InvestigatorFunctionCall) (journal : List ToolRecord) (reply : Json ν × Option ToolRecord) : Prop :=
  outputCall reply.1 = some call.callId ∧ ∀ r ∈ reply.2, r.Follows journal

theorem replies_rejected (call : InvestigatorFunctionCall) (journal : List ToolRecord) (error : String) :
    Replies call journal (rejected (ν := ν) call error, none) :=
  ⟨rfl, fun r hr => by cases hr⟩

theorem recordEvidence_replies (call : InvestigatorFunctionCall) (rawArguments : Json ν) (journal : List ToolRecord) :
    Replies call journal (recordEvidence call rawArguments (ToolRecord.accumulator journal)) := by
  rw [recordEvidence]
  split
  · exact replies_rejected call journal _
  · rename_i item _
    split
    · exact replies_rejected call journal _
    · rename_i hnew
      refine ⟨rfl, ?_⟩
      rintro r hr
      cases Option.mem_some_iff.mp hr
      intro e he hsame
      exact hnew (List.any_eq_true.mpr ⟨e, ToolRecord.mem_evidence.mpr he, decide_eq_true hsame⟩)

theorem recordHypothesis_replies (call : InvestigatorFunctionCall) (rawArguments : Json ν) (journal : List ToolRecord) :
    Replies call journal (recordHypothesis call rawArguments (ToolRecord.accumulator journal)) := by
  rw [recordHypothesis]
  split
  · exact replies_rejected call journal _
  · rename_i h _
    split
    · exact replies_rejected call journal _
    · rename_i hknown
      split
      · exact replies_rejected call journal _
      · rename_i hnew
        refine ⟨rfl, ?_⟩
        rintro r hr
        cases Option.mem_some_iff.mp hr
        constructor
        · intro id hid
          have hlisted : id ∈ (ToolRecord.accumulator journal).evidence.map EvidenceItem.id := by
            by_contra hmissing
            refine hknown (List.any_eq_true.mpr ⟨id, hid, ?_⟩)
            rw [Bool.not_eq_true', List.contains_eq_mem, decide_eq_false_iff_not]
            exact hmissing
          obtain ⟨e, he, rfl⟩ := List.mem_map.mp hlisted
          exact ⟨e, ToolRecord.mem_evidence.mp he, rfl⟩
        · intro g hg hsame
          exact hnew (List.any_eq_true.mpr ⟨g, ToolRecord.mem_hypotheses.mpr hg, decide_eq_true hsame⟩)

theorem proposeExperiment_replies (call : InvestigatorFunctionCall) (rawArguments : Json ν) (journal : List ToolRecord) :
    Replies call journal (proposeExperiment call rawArguments (ToolRecord.accumulator journal)) := by
  rw [proposeExperiment]
  split
  · exact replies_rejected call journal _
  · rename_i x _
    split
    · exact replies_rejected call journal _
    · rename_i hknown
      rw [Bool.not_eq_true', Bool.not_eq_false, List.any_eq_true] at hknown
      split
      · exact replies_rejected call journal _
      · rename_i hnew
        refine ⟨rfl, ?_⟩
        rintro r hr
        cases Option.mem_some_iff.mp hr
        constructor
        · obtain ⟨h, hh, hsame⟩ := hknown
          exact ⟨h, ToolRecord.mem_hypotheses.mp hh, of_decide_eq_true hsame⟩
        · intro y hy hsame
          exact hnew (List.any_eq_true.mpr ⟨y, ToolRecord.mem_experiments.mpr hy, decide_eq_true hsame⟩)

theorem executeToolCall_replies (call : InvestigatorFunctionCall) (journal : List ToolRecord) :
    Replies call journal (executeToolCall (ν := ν) call (ToolRecord.accumulator journal)) := by
  rw [executeToolCall]
  split
  · exact replies_rejected call journal _
  · split
    · exact recordEvidence_replies call _ journal
    · split
      · exact recordHypothesis_replies call _ journal
      · split
        · exact proposeExperiment_replies call _ journal
        · exact replies_rejected call journal _

/-- The calls of an answer are executed in their order, each of them once. -/
theorem executeCalls_spec (calls : List InvestigatorFunctionCall) {journal : List ToolRecord}
    (hjournal : ToolRecord.Orderly journal) {outputs : List (Json ν)}
    {executed : List (InvestigatorFunctionCall × Option ToolRecord)} {final : Accumulator}
    (h : executeCalls calls (ToolRecord.accumulator journal) = (outputs, executed, final)) :
    outputs.map outputCall = calls.map (fun call => some call.callId) ∧ executed.map Prod.fst = calls ∧
      final = ToolRecord.accumulator (journal ++ executed.filterMap Prod.snd) ∧
      ToolRecord.Orderly (journal ++ executed.filterMap Prod.snd) := by
  induction calls generalizing journal outputs executed final with
  | nil =>
    cases h
    simp [hjournal]
  | cons call rest ih =>
    obtain ⟨houtput, hfollows⟩ := executeToolCall_replies (ν := ν) call journal
    rw [executeCalls] at h
    revert h houtput hfollows
    cases executeToolCall (ν := ν) call (ToolRecord.accumulator journal) with
    | mk output recorded =>
    intro h houtput hfollows
    dsimp only at h houtput hfollows
    obtain ⟨outputs', executed', final', hrest⟩ : ∃ outputs' executed' final',
        executeCalls (ν := ν) rest
          (recorded.elim (ToolRecord.accumulator journal) (ToolRecord.accumulator journal).push) =
            (outputs', executed', final') := ⟨_, _, _, rfl⟩
    rw [hrest] at h
    cases h
    cases recorded with
    | none =>
      obtain ⟨houtputs, hexecuted, hfinal, horderly⟩ := ih hjournal hrest
      refine ⟨?_, ?_, hfinal, horderly⟩
      · rw [List.map_cons, List.map_cons, houtput, houtputs]
      · rw [List.map_cons, hexecuted]
    | some r =>
      rw [Option.elim_some, ToolRecord.push_accumulator] at hrest
      obtain ⟨houtputs, hexecuted, hfinal, horderly⟩ := ih (hjournal.concat (hfollows r rfl)) hrest
      rw [List.append_assoc, List.singleton_append] at hfinal horderly
      refine ⟨?_, ?_, hfinal, horderly⟩
      · rw [List.map_cons, List.map_cons, houtput, houtputs]
      · rw [List.map_cons, hexecuted]

/-! ## The loop keeps its bounds -/

/-- What holds of an investigation however it ends. -/
structure Investigation.Kept (opening : Json ν) (budget : Nat) (s : Investigation ν) : Prop where
  sent : s.requests.length ≤ budget + 1
  executed : s.executed.length ≤ budget
  counted : s.toolCalls = s.executed.length
  requests : ∀ history ∈ s.requests, ∃ rounds, Conversation opening rounds history
  orderly : ToolRecord.Orderly (s.executed.filterMap Prod.snd)
  accumulated : s.accumulator = ToolRecord.accumulator (s.executed.filterMap Prod.snd)

/-- What holds before a turn: each turn before it has executed a call. -/
structure Investigation.Sound (opening : Json ν) (budget turn : Nat) (s : Investigation ν) : Prop where
  kept : s.Kept opening budget
  history : ∃ rounds, Conversation opening rounds s.history
  advanced : turn ≤ s.toolCalls
  turns : s.requests.length = turn

section loop

variable {opening : Json ν} {budget n : Nat} {s s' : Investigation ν} {response : Option (InvestigatorResponse ν)}

omit [DomainNumber ν] in
theorem Investigation.Sound.send (h : s.Sound opening budget n) : s.send.Kept opening budget where
  sent := by
    have hwithin := h.kept.executed
    have hadvanced := h.advanced
    have hcounted := h.kept.counted
    have hturns := h.turns
    rw [Investigation.send]
    simp only [List.length_append, List.length_singleton]
    omega
  executed := h.kept.executed
  counted := h.kept.counted
  requests := by
    intro history hmem
    rcases List.mem_append.mp hmem with hmem | hmem
    · exact h.kept.requests history hmem
    · rw [List.mem_singleton.mp hmem]
      exact h.history
  orderly := h.kept.orderly
  accumulated := h.kept.accumulated

/-- What a turn that goes on does. -/
theorem turn_continued (h : s.turn budget response = .continued s') :
    ∃ answer outputs executed accumulator, response = some answer ∧ functionCalls answer.output ≠ [] ∧
      s.toolCalls + (functionCalls answer.output).length ≤ budget ∧
      executeCalls (functionCalls answer.output) s.accumulator = (outputs, executed, accumulator) ∧
      s' = ⟨accumulator, s.history ++ answer.output ++ outputs, s.toolCalls + (functionCalls answer.output).length,
        s.requests, s.executed ++ executed⟩ := by
  cases response with
  | none => cases h
  | some answer =>
    rw [Investigation.turn] at h
    split at h
    · cases h
    · dsimp only at h
      split at h
      · split at h <;> cases h
      · rename_i hcalls
        split at h
        · cases h
        · rename_i hbudget
          refine ⟨answer, _, _, _, rfl, ?_, not_lt.mp hbudget, rfl, ?_⟩
          · exact fun hnone => hcalls (List.length_eq_zero_iff.mpr hnone)
          · cases h
            rfl

theorem turn_failed {error : InvestigationError} (h : s.turn budget response = .failed error) : error ≠ .unfinished := by
  cases response with
  | none =>
    cases h
    decide
  | some answer =>
    rw [Investigation.turn] at h
    split at h
    · cases h
      decide
    · dsimp only at h
      split at h
      · split at h
        · cases h
          decide
        · cases h
      · split at h
        · cases h
          decide
        · cases h

/-- Step lemma. -/
theorem Investigation.Sound.turn (h : s.Sound opening budget n)
    (hturn : s.send.turn budget response = .continued s') : s'.Sound opening budget (n + 1) := by
  obtain ⟨answer, outputs, executed, accumulator, -, hcalls, hbudget, hexecute, rfl⟩ := turn_continued hturn
  have hsent := h.send
  have hstart : s.send.accumulator = ToolRecord.accumulator (s.executed.filterMap Prod.snd) := h.kept.accumulated
  rw [hstart] at hexecute
  obtain ⟨houtputs, hexecuted, hfinal, horderly⟩ :=
    executeCalls_spec (functionCalls answer.output) h.kept.orderly hexecute
  have hlength : executed.length = (functionCalls answer.output).length := by
    rw [← hexecuted, List.length_map]
  have hpositive : 0 < (functionCalls answer.output).length := List.length_pos_of_ne_nil hcalls
  have hcounted : s.send.toolCalls = s.executed.length := h.kept.counted
  refine ⟨⟨hsent.sent, ?_, ?_, hsent.requests, ?_, ?_⟩, ?_, ?_, ?_⟩
  · simp only [Investigation.send, List.length_append] at hbudget hcounted ⊢
    omega
  · simp only [Investigation.send, List.length_append] at hcounted ⊢
    omega
  · simp only [Investigation.send, List.filterMap_append]
    exact horderly
  · simp only [Investigation.send, List.filterMap_append]
    exact hfinal
  · obtain ⟨rounds, hhistory, hanswered⟩ := h.history
    refine ⟨rounds ++ [⟨answer.output, outputs⟩], ?_, ?_⟩
    · simp only [Investigation.send, hhistory, List.flatMap_append, List.flatMap_cons, List.flatMap_nil,
        Round.content, List.append_nil, List.cons_append, List.append_assoc]
    · intro r hr
      rcases List.mem_append.mp hr with hr | hr
      · exact hanswered r hr
      · rw [List.mem_singleton.mp hr]
        exact houtputs
  · have hadvanced : n ≤ s.send.toolCalls := h.advanced
    simp only
    omega
  · simp only [Investigation.send, List.length_append, List.length_singleton, h.turns]

/-- Run lemma. The turns that are left never run out. -/
theorem converse_kept {responses : Nat → Option (InvestigatorResponse ν)} {left : Nat}
    (hleft : left + n = budget + 1) (h : s.Sound opening budget n) {ending : Except InvestigationError String}
    (hend : converse budget responses left n s = (ending, s')) :
    ending ≠ .error .unfinished ∧ s'.Kept opening budget := by
  induction left generalizing n s with
  | zero =>
    have hwithin := h.kept.executed
    have hadvanced := h.advanced
    have hcounted := h.kept.counted
    omega
  | succ left ih =>
    rw [converse] at hend
    split at hend
    · cases hend
      exact ⟨fun hunfinished => (by cases hunfinished), h.send⟩
    · rename_i error hfailed
      cases hend
      refine ⟨?_, h.send⟩
      intro hunfinished
      cases hunfinished
      exact turn_failed hfailed rfl
    · rename_i s₁ hturn
      exact ih (by omega) (h.turn hturn) hend

end loop

end answers

/-! ## Calls with their outputs -/

section once

def callIds (items : List (Json ν)) : List String := (functionCalls items).map InvestigatorFunctionCall.callId

def outputIds (items : List (Json ν)) : List String := items.filterMap outputCall

theorem callIds_append (items items' : List (Json ν)) : callIds (items ++ items') = callIds items ++ callIds items' := by
  rw [callIds, functionCalls, List.filterMap_append, List.map_append]
  rfl

theorem outputIds_append (items items' : List (Json ν)) :
    outputIds (items ++ items') = outputIds items ++ outputIds items' := List.filterMap_append

/-- The outputs of a round are for its calls. -/
theorem Round.Answered.ids {r : Round ν} (h : r.Answered) :
    outputIds r.outputs = callIds r.items ∧ ∀ o ∈ r.outputs, functionCall o = none := by
  constructor
  · have hids := congrArg (List.filterMap id) h
    rw [List.filterMap_map, List.filterMap_map] at hids
    rw [outputIds, callIds, ← List.filterMap_eq_map]
    exact hids
  · intro o ho
    have hmem : outputCall o ∈ (functionCalls r.items).map (fun call => some call.callId) :=
      h ▸ List.mem_map_of_mem ho
    obtain ⟨call, -, hcall⟩ := List.mem_map.mp hmem
    exact functionCall_of_output hcall.symm

theorem callIds_of_none {items : List (Json ν)} (h : ∀ o ∈ items, functionCall o = none) : callIds items = [] := by
  rw [callIds, functionCalls, List.filterMap_eq_nil_iff.mpr h, List.map_nil]

/-- From any place in a round on, the calls do not outnumber the outputs. -/
theorem Round.Answered.suffix {r : Round ν} (h : r.Answered) {before after : List (Json ν)}
    (hsplit : r.content = before ++ after) (id : String) : (callIds after).count id ≤ (outputIds after).count id := by
  obtain ⟨hids, hnone⟩ := h.ids
  rw [Round.content] at hsplit
  rcases List.append_eq_append_iff.mp hsplit with ⟨front, rfl, houtputs⟩ | ⟨rest, hitems, rfl⟩
  · have hcalls : callIds after = [] := callIds_of_none fun o ho => hnone o (by
      rw [houtputs]
      exact List.mem_append_right front ho)
    rw [hcalls, List.count_nil]
    exact Nat.zero_le _
  · rw [callIds_append, outputIds_append, callIds_of_none hnone, List.append_nil, List.count_append, hids, hitems,
      callIds_append, List.count_append]
    omega

theorem suffix_le {rounds : List (Round ν)} (h : ∀ r ∈ rounds, r.Answered) {before after : List (Json ν)}
    (hsplit : rounds.flatMap Round.content = before ++ after) (id : String) :
    (callIds after).count id ≤ (outputIds after).count id := by
  induction rounds generalizing before after with
  | nil =>
    rw [List.flatMap_nil, List.nil_eq, List.append_eq_nil_iff] at hsplit
    rw [hsplit.2]
    exact le_refl _
  | cons r rest ih =>
    have hrest : ∀ r' ∈ rest, r'.Answered := fun r' hr' => h r' (List.mem_cons_of_mem r hr')
    rw [List.flatMap_cons] at hsplit
    rcases List.append_eq_append_iff.mp hsplit with ⟨front, rfl, hafter⟩ | ⟨back, hcontent, rfl⟩
    · exact ih hrest hafter
    · have hfirst := (h r List.mem_cons_self).suffix hcontent id
      have hlater := ih hrest (List.nil_append _).symm
      rw [callIds_append, outputIds_append, List.count_append, List.count_append]
      omega

/-- No call is left without an output, and no output is for nothing, where the answers list no outputs. -/
theorem outputIds_eq {rounds : List (Round ν)} (h : ∀ r ∈ rounds, r.Answered)
    (hown : ∀ r ∈ rounds, ∀ item ∈ r.items, outputCall item = none) :
    outputIds (rounds.flatMap Round.content) = callIds (rounds.flatMap Round.content) := by
  induction rounds with
  | nil => rfl
  | cons r rest ih =>
    obtain ⟨hids, hnone⟩ := (h r List.mem_cons_self).ids
    have hitems : outputIds r.items = [] := List.filterMap_eq_nil_iff.mpr (hown r List.mem_cons_self)
    have hrest := ih (fun r' hr' => h r' (List.mem_cons_of_mem r hr'))
      (fun r' hr' => hown r' (List.mem_cons_of_mem r hr'))
    rw [List.flatMap_cons, outputIds_append, callIds_append, hrest, Round.content, outputIds_append, callIds_append,
      hitems, hids, callIds_of_none hnone, List.nil_append, List.append_nil]

/-- Exactly one output for its call follows each call. -/
def AnsweredOnce (history : List (Json ν)) : Prop :=
  ∀ before item after call, history = before ++ item :: after → functionCall item = some call →
    (outputIds after).count call.callId = 1

/-- The calls of a conversation are answered once, where no two of them have one identifier. -/
theorem Conversation.answeredOnce {opening : Json ν} {rounds : List (Round ν)} {history : List (Json ν)}
    (h : Conversation opening rounds history) (hcall : functionCall opening = none)
    (houtput : outputCall opening = none) (hdistinct : (callIds history).Nodup)
    (hown : ∀ r ∈ rounds, ∀ item ∈ r.items, outputCall item = none) : AnsweredOnce history := by
  intro before item after call hsplit hitem
  obtain ⟨rfl, hanswered⟩ := h
  have hnone : outputCall item = none := by
    cases houtputItem : outputCall item with
    | none => rfl
    | some id =>
      rw [functionCall_of_output houtputItem] at hitem
      cases hitem
  have hids : outputIds (opening :: rounds.flatMap Round.content) = callIds (opening :: rounds.flatMap Round.content) := by
    rw [outputIds, List.filterMap_cons, houtput, callIds, functionCalls, List.filterMap_cons, hcall]
    exact outputIds_eq hanswered hown
  -- the suffix from the call on has an output for it, and the whole has no second call
  have hafter : outputIds (item :: after) = outputIds after := by rw [outputIds, List.filterMap_cons, hnone]; rfl
  have hlisted : callIds (item :: after) = call.callId :: callIds after := by
    rw [callIds, functionCalls, List.filterMap_cons, hitem]
    rfl
  have hatLeast : (callIds (item :: after)).count call.callId ≤ (outputIds (item :: after)).count call.callId := by
    cases before with
    | nil =>
      rw [List.nil_append, List.cons.injEq] at hsplit
      rw [← hsplit.1, hcall] at hitem
      cases hitem
    | cons first before =>
      rw [List.cons_append, List.cons.injEq] at hsplit
      exact suffix_le hanswered hsplit.2 call.callId
  have hatMost : (outputIds (item :: after)).count call.callId ≤ 1 := by
    have hwhole := List.nodup_iff_count_le_one.mp hdistinct call.callId
    rw [← hids, hsplit, outputIds_append, List.count_append] at hwhole
    omega
  rw [hlisted, List.count_cons_self, hafter] at hatLeast
  rw [hafter] at hatMost
  omega

end once

/-! ## The investigation -/

end ReproForge

/-! ## Two calls with one identifier -/

namespace ReproForge.Sample.Investigations

open JsonValues JsonValues.Decimal ReproForge.Sample.Bundle

def sampleInput : InvestigationInput := ⟨"The script fails.", some 4, "fixture://cli-spaces"⟩

def sampleRaw : Json Int := investigationInputSchema.encode sampleInput

theorem sampleRaw_decodes : (investigationInputSchema (ν := Int)).decode sampleRaw = some sampleInput :=
  investigationInputSchema.decode_encode (by decide +kernel)

def callItem (callId : String) : Json Int :=
  .obj [("type", .str "function_call"), ("arguments", .str "{}"), ("call_id", .str callId),
    ("name", .str "record_evidence")]

/-- One answer with these items, and then none. -/
def answering (items : List (Json Int)) : Nat → Option (InvestigatorResponse Int)
  | 0 => some ⟨items, some ""⟩
  | _ => none

end ReproForge.Sample.Investigations
