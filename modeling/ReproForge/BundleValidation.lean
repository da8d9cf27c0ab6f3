import ReproForge.Bundles
import ReproForge.IntegerTexts

/-!
# Bundles as files

How a bundle is created under its hash and written as files, and what the
validation of such files finds out: it looks at one file after another, and at
no two of them together.
-/
namespace ReproForge

open JsonValues

variable {ν α : Type}

/-! ## The files of a bundle -/

inductive BundleFile where
  | markdown | lock | signature | patch | runLog | ledger | minimization | summary
  deriving DecidableEq, Repr

def BundleFile.path : BundleFile → String
  | .markdown => "REPRO.md"
  | .lock => "reproforge.lock.json"
  | .signature => "failure-signature.json"
  | .patch => "reproduction.patch"
  | .runLog => "artifacts/redacted-run-log.jsonl"
  | .ledger => "artifacts/hypothesis-ledger.json"
  | .minimization => "artifacts/minimization.json"
  | .summary => "artifacts/verification-summary.json"

/-- `REQUIRED_BUNDLE_FILES` -/
def requiredBundleFiles : List BundleFile :=
  [.markdown, .lock, .signature, .patch, .runLog, .ledger, .minimization, .summary]

theorem mem_requiredBundleFiles (f : BundleFile) : f ∈ requiredBundleFiles := by cases f <;> decide

theorem BundleFile.path_inj {f g : BundleFile} (h : f.path = g.path) : f = g := by
  cases f <;> cases g <;> first | rfl | exact absurd h (by decide)

/-- The texts under their paths. -/
abbrev BundleFiles := String → Option String

/-- The text of each file under its path, and nothing else. -/
def filesOf (texts : BundleFile → String) : BundleFiles :=
  fun path => (requiredBundleFiles.find? (fun f => f.path == path)).map texts

theorem filesOf_path (texts : BundleFile → String) (f : BundleFile) : filesOf texts f.path = some (texts f) := by
  have hfind : requiredBundleFiles.find? (fun g => g.path == f.path) = some f := by cases f <;> rfl
  rw [filesOf, hfind, Option.map_some]

theorem occursIn_append (word before after : List Char) : occursIn word (before ++ (word ++ after)) = true := by
  induction before with
  | nil =>
    have hpre : word.isPrefixOf (word ++ after) = true := List.isPrefixOf_iff_prefix.mpr (List.prefix_append _ _)
    rw [List.nil_append]
    cases hlist : word ++ after with
    | nil =>
      rw [occursIn, (List.append_eq_nil_iff.mp hlist).1]
      rfl
    | cons c rest => rw [occursIn, ← hlist, hpre, Bool.true_or]
  | cons c before ih => rw [List.cons_append, occursIn, ih, Bool.or_true]

def BundleFiles.alter (files : BundleFiles) (f : BundleFile) (text : String) : BundleFiles :=
  fun path => if path = f.path then some text else files path

theorem alter_same (files : BundleFiles) (f : BundleFile) (text : String) : files.alter f text f.path = some text :=
  if_pos rfl

theorem alter_other (files : BundleFiles) {f g : BundleFile} (text : String) (h : g ≠ f) :
    files.alter f text g.path = files g.path :=
  if_neg (fun hpath => h (BundleFile.path_inj hpath))

section json

variable [DomainNumber ν]

/-- The lock file holds the hash and the schema version before the lock. -/
def lockFileSchema : Schema ν (String × BundleLock) :=
  .strictObject <| .equiv
    (.required "bundleHash" (.string (hexDigest 64)) <| .required "schemaVersion" (.literal "1.1") bundleLockFields)
    { toFun := fun ⟨bundleHash, _, lock⟩ => ⟨bundleHash, lock⟩
      invFun := fun l => ⟨l.1, (), l.2⟩
      left_inv := fun _ => rfl
      right_inv := fun _ => rfl }

def hypothesisLedgerSchema : Schema ν (List Hypothesis) := .array hypothesisSchema (fun _ => true)

def runLogSchema : Schema ν (List RunResult) := .array runResultSchema (fun _ => true)

/-- `schema.parse(JSON.parse(text))` -/
def parseText (s : Schema ν α) (text : String) : Option α := (Json.parse text).bind s.decode

/-- `JSON.stringify(value, null, 2)` -/
def prettyText (s : Schema ν α) (a : α) : String := (s.encode a).stringifyWith "  "

theorem twoSpaces_space : ∀ c ∈ "  ".toList, space c = true := by simp [space]

theorem parseText_pretty (s : Schema ν α) {a : α} (h : s.valid a = true) : parseText s (prettyText s a) = some a := by
  rw [parseText, prettyText, Json.parse_stringifyWith twoSpaces_space (s.settled_encode a), Option.bind_some,
    s.decode_encode h]

theorem isSome_pretty (s : Schema ν α) {a : α} (h : s.valid a = true) :
    (parseText s (prettyText s a)).isSome = true := by
  rw [parseText_pretty s h, Option.isSome_some]

theorem parseText_stringify (s : Schema ν α) {a : α} (h : s.valid a = true) :
    parseText s (s.encode a).stringify = some a := by
  rw [parseText, Json.parse_stringify (s.settled_encode a), Option.bind_some, s.decode_encode h]

theorem valid_parseText {s : Schema ν α} {text : String} {a : α} (h : parseText s text = some a) :
    s.valid a = true := by
  obtain ⟨v, -, hv⟩ := Option.bind_eq_some_iff.mp h
  exact s.valid_decode hv

theorem valid_bind {s : Schema ν α} {text : Option String} {a : α} (h : text.bind (parseText s) = some a) :
    s.valid a = true := by
  obtain ⟨t, -, ht⟩ := Option.bind_eq_some_iff.mp h
  exact valid_parseText ht

theorem lockFile_valid {hash : String} {lock : BundleLock} :
    (lockFileSchema (ν := ν)).valid (hash, lock) = true ↔
      hexDigest 64 hash = true ∧ (bundleLockSchema (ν := ν)).valid lock = true := by
  have hvalid : (lockFileSchema (ν := ν)).valid (hash, lock) =
      (hexDigest 64 hash && (true && (bundleLockSchema (ν := ν)).valid lock)) := rfl
  rw [hvalid, Bool.true_and, Bool.and_eq_true]

/-! ### The run log -/

/-- The lines of a text that are not empty. -/
def runLogLines (text : String) : List String :=
  ((text.toList.splitOn '\n').map String.ofList).filter (fun line => decide (line ≠ ""))

def parseRunLog (ν : Type) [DomainNumber ν] (text : String) : Option (List RunResult) :=
  (runLogLines text).mapM (parseText (ν := ν) runResultSchema)

def runLine (ν : Type) [DomainNumber ν] (run : RunResult) : List Char :=
  (runResultSchema (ν := ν) |>.encode run).text

def runLogText (ν : Type) [DomainNumber ν] (runs : List RunResult) : String :=
  String.ofList (['\n'].intercalate (runs.map (runLine ν)))

theorem runLogLines_runLogText (runs : List RunResult) :
    runLogLines (runLogText ν runs) = runs.map (fun run => String.ofList (runLine ν run)) := by
  rw [runLogLines, runLogText, String.toList_ofList]
  cases runs with
  | nil => rfl
  | cons run rest =>
    have hsplit : (['\n'].intercalate ((run :: rest).map (runLine ν))).splitOn '\n' =
        (run :: rest).map (runLine ν) := by
      apply List.splitOn_intercalate
      · intro line hline
        obtain ⟨r, -, rfl⟩ := List.mem_map.mp hline
        exact newline_text _
      · exact List.cons_ne_nil _ _
    rw [hsplit, List.map_map, List.filter_eq_self.mpr]
    · rfl
    · intro line hline
      obtain ⟨r, -, rfl⟩ := List.mem_map.mp hline
      have hopens : ∃ rest, runLine ν r = '{' :: rest := ⟨_, by rw [runLine]; rfl⟩
      obtain ⟨rest, hrest⟩ := hopens
      rw [Function.comp_apply, hrest, decide_eq_true_iff]
      intro hempty
      have hlist := congrArg String.toList hempty
      rw [String.toList_ofList] at hlist
      cases hlist

theorem parseRunLog_text {runs : List RunResult} (h : (runLogSchema (ν := ν)).valid runs = true) :
    parseRunLog ν (runLogText ν runs) = some runs := by
  have hall : runs.all (runResultSchema (ν := ν)).valid = true := (Bool.and_eq_true_iff.mp h).1
  rw [parseRunLog, runLogLines_runLogText]
  clear h
  induction runs with
  | nil => rfl
  | cons run rest ih =>
    rw [List.all_cons, Bool.and_eq_true] at hall
    have hrun := parseText_stringify (runResultSchema (ν := ν)) hall.1
    rw [List.map_cons, List.mapM_cons, ih hall.2]
    exact congrArg (fun r => r.bind (fun run => (some rest).bind (fun rest => some (run :: rest)))) hrun

theorem valid_parseRunLog {text : String} {runs : List RunResult} (h : parseRunLog ν text = some runs) :
    (runLogSchema (ν := ν)).valid runs = true := by
  have hall : runs.all (runResultSchema (ν := ν)).valid = true := by
    rw [parseRunLog] at h
    generalize runLogLines text = texts at h
    induction texts generalizing runs with
    | nil =>
      cases h
      rfl
    | cons line rest ih =>
      rw [List.mapM_cons] at h
      obtain ⟨run, hrun, hrest⟩ := Option.bind_eq_some_iff.mp h
      obtain ⟨tail, htail, hruns⟩ := Option.bind_eq_some_iff.mp hrest
      cases hruns
      rw [List.all_cons, valid_parseText hrun, ih htail, Bool.true_and]
  exact Bool.and_eq_true_iff.mpr ⟨hall, rfl⟩

end json

/-! ## Creation and materialization -/

section creation

variable [DomainNumber ν] [RegExpEngine]

/-- What a bundle is hashed over. -/
def ReproBundleInput.base (b : ReproBundleInput ν) : Json ν :=
  .obj [("caseId", .str b.caseId), ("generatedAt", .str b.generatedAt),
    ("hypothesisLedger", hypothesisLedgerSchema.encode b.hypothesisLedger), ("lock", bundleLockSchema.encode b.lock),
    ("minimization", minimizationResultSchema.encode b.minimization), ("oracle", failureOracleSchema.encode b.oracle),
    ("reproductionPatch", .str b.reproductionPatch), ("runLog", runLogSchema.encode b.runLog),
    ("summary", verificationSummarySchema.encode b.summary), ("schemaVersion", .str "1.1")]

def createBundle [LocaleCompare] [Sha256] (input : ReproBundleInput ν) : Option (ReproBundle ν) :=
  let bundle : ReproBundle ν := ⟨input, hashCanonical input.base⟩
  if reproBundleSchema.valid bundle then some bundle else none

def reproductionMarkdown (b : ReproBundle ν) : String :=
  "\n".intercalate ["# Reproduction", "", "Case: `" ++ b.caseId ++ "`", "Bundle: `" ++ b.bundleHash ++ "`", "", "## Run",
    "", "```bash", b.lock.command, "```", "", "## Expected failure", "", b.summary.reason, ""]

def materialized (b : ReproBundle ν) : BundleFile → String
  | .markdown => reproductionMarkdown b
  | .lock => prettyText (ν := ν) lockFileSchema (b.bundleHash, b.lock)
  | .signature => prettyText failureOracleSchema b.oracle
  | .patch => b.reproductionPatch
  | .runLog => runLogText ν b.runLog
  | .ledger => prettyText (ν := ν) hypothesisLedgerSchema b.hypothesisLedger
  | .minimization => prettyText minimizationResultSchema b.minimization
  | .summary => prettyText verificationSummarySchema b.summary

def materializeBundle (b : ReproBundle ν) : Option BundleFiles :=
  if reproBundleSchema.valid b then some (filesOf (materialized b)) else none

theorem materializeBundle_some {b : ReproBundle ν} {out : BundleFiles} (h : materializeBundle b = some out) :
    reproBundleSchema.valid b = true ∧ out = filesOf (materialized b) := by
  rw [materializeBundle] at h
  split at h
  · exact ⟨‹_›, (Option.some.inj h).symm⟩
  · cases h

end creation

/-! ## Validation -/

section validation

variable [DomainNumber ν]

def parseErrors (files : BundleFiles) (path : String) (s : Schema ν α) : List String :=
  if (parseText s ((files path).getD "")).isSome then [] else ["Invalid " ++ path]

theorem parseErrors_nil {files : BundleFiles} {path text : String} {s : Schema ν α} (h : files path = some text) :
    parseErrors files path s = [] ↔ (parseText s text).isSome = true := by
  rw [parseErrors, h, Option.getD_some]
  split
  · rename_i hparsed
    exact iff_of_true rfl hparsed
  · rename_i hparsed
    exact iff_of_false (List.cons_ne_nil _ _) hparsed

variable (ν)

/-- The loop stops at the first line that does not parse. -/
def runLogErrors : List String → List String
  | [] => []
  | line :: rest =>
    if (parseText (ν := ν) runResultSchema line).isSome then runLogErrors rest
    else ["Invalid artifacts/redacted-run-log.jsonl"]

theorem runLogErrors_nil (texts : List String) :
    runLogErrors ν texts = [] ↔ (texts.mapM (parseText (ν := ν) runResultSchema)).isSome = true := by
  induction texts with
  | nil => exact iff_of_true rfl rfl
  | cons line rest ih =>
    rw [runLogErrors, List.mapM_cons]
    cases hline : parseText (ν := ν) runResultSchema line with
    | none => exact iff_of_false (List.cons_ne_nil _ _) Bool.false_ne_true
    | some run =>
      rw [if_pos (Option.isSome_some), ih]
      cases rest.mapM (parseText (ν := ν) runResultSchema) with
      | none => exact Iff.rfl
      | some runs => exact Iff.rfl

variable [RegExpEngine]

/-- The errors, of which there are none on success. -/
def validateMaterializedBundle (files : BundleFiles) : List String :=
  (requiredBundleFiles.filter (fun f => (files f.path).isNone)).map (fun f => "Missing required file: " ++ f.path) ++
    (parseErrors files "failure-signature.json" (failureOracleSchema (ν := ν)) ++
      (parseErrors files "reproforge.lock.json" (lockFileSchema (ν := ν)) ++
        (parseErrors files "artifacts/hypothesis-ledger.json" (hypothesisLedgerSchema (ν := ν)) ++
          (parseErrors files "artifacts/minimization.json" (minimizationResultSchema (ν := ν)) ++
            (parseErrors files "artifacts/verification-summary.json" (verificationSummarySchema (ν := ν)) ++
              ((if occursIn "## Run".toList ((files "REPRO.md").getD "").toList then []
                else ["REPRO.md does not contain a run command"]) ++
                runLogErrors ν (runLogLines ((files "artifacts/redacted-run-log.jsonl").getD ""))))))))

/-- What the validation asks of each file. -/
def BundleFile.check (text : String) : BundleFile → Bool
  | .markdown => occursIn "## Run".toList text.toList
  | .lock => (parseText (ν := ν) lockFileSchema text).isSome
  | .signature => (parseText (ν := ν) failureOracleSchema text).isSome
  | .patch => true
  | .runLog => (parseRunLog ν text).isSome
  | .ledger => (parseText (ν := ν) hypothesisLedgerSchema text).isSome
  | .minimization => (parseText (ν := ν) minimizationResultSchema text).isSome
  | .summary => (parseText (ν := ν) verificationSummarySchema text).isSome

/-- Every file is there, and passes its own check. -/
def Checked (files : BundleFiles) : Prop :=
  ∀ f : BundleFile, ∃ text, files f.path = some text ∧ f.check ν text = true

theorem markdown_check (b : ReproBundle ν) : BundleFile.markdown.check ν (reproductionMarkdown b) = true := by
  have hsplit : ∃ before after, (reproductionMarkdown b).toList = before ++ ("## Run".toList ++ after) := by
    refine ⟨("# Reproduction\n\nCase: `" ++ b.caseId ++ "`\nBundle: `" ++ b.bundleHash ++ "`\n\n").toList,
      ("\n\n```bash\n" ++ b.lock.command ++ "\n```\n\n## Expected failure\n\n" ++ b.summary.reason ++ "\n").toList, ?_⟩
    simp [reproductionMarkdown]
  obtain ⟨before, after, hsplit⟩ := hsplit
  rw [BundleFile.check, hsplit]
  exact occursIn_append _ _ _

theorem validate_iff (files : BundleFiles) : validateMaterializedBundle ν files = [] ↔ Checked ν files := by
  rw [validateMaterializedBundle]
  simp only [List.append_eq_nil_iff, List.map_eq_nil_iff, List.filter_eq_nil_iff]
  constructor
  · rintro ⟨hmissing, hsignature, hlock, hledger, hminimization, hsummary, hmarkdown, hrunLog⟩ f
    have hthere : ∀ f : BundleFile, ∃ text, files f.path = some text := by
      intro f
      cases htext : files f.path with
      | none => exact absurd (by rw [htext]; rfl) (hmissing f (mem_requiredBundleFiles f))
      | some text => exact ⟨text, rfl⟩
    obtain ⟨text, htext⟩ := hthere f
    refine ⟨text, htext, ?_⟩
    cases f with
    | markdown =>
      have hpath : files "REPRO.md" = some text := htext
      rw [hpath, Option.getD_some] at hmarkdown
      by_contra hcheck
      have habsent : ¬occursIn "## Run".toList text.toList = true := hcheck
      rw [if_neg habsent] at hmarkdown
      cases hmarkdown
    | lock => exact (parseErrors_nil htext).mp hlock
    | signature => exact (parseErrors_nil htext).mp hsignature
    | patch => rfl
    | runLog =>
      have hpath : files "artifacts/redacted-run-log.jsonl" = some text := htext
      rw [hpath, Option.getD_some] at hrunLog
      exact (runLogErrors_nil ν _).mp hrunLog
    | ledger => exact (parseErrors_nil htext).mp hledger
    | minimization => exact (parseErrors_nil htext).mp hminimization
    | summary => exact (parseErrors_nil htext).mp hsummary
  · intro hchecked
    have hparsed : ∀ (f : BundleFile) {α : Type} (s : Schema ν α),
        (∀ text, f.check ν text = (parseText s text).isSome) → parseErrors files f.path s = [] := by
      intro f α s hcheck
      obtain ⟨text, htext, htrue⟩ := hchecked f
      rw [hcheck] at htrue
      exact (parseErrors_nil htext).mpr htrue
    refine ⟨?_, hparsed .signature failureOracleSchema (fun _ => rfl), hparsed .lock lockFileSchema (fun _ => rfl),
      hparsed .ledger hypothesisLedgerSchema (fun _ => rfl),
      hparsed .minimization minimizationResultSchema (fun _ => rfl),
      hparsed .summary verificationSummarySchema (fun _ => rfl), ?_, ?_⟩
    · intro f _ hnone
      obtain ⟨text, htext, -⟩ := hchecked f
      rw [htext] at hnone
      cases hnone
    · obtain ⟨text, htext, htrue⟩ := hchecked .markdown
      have hpath : files "REPRO.md" = some text := htext
      rw [hpath, Option.getD_some]
      exact if_pos htrue
    · obtain ⟨text, htext, htrue⟩ := hchecked .runLog
      have hpath : files "artifacts/redacted-run-log.jsonl" = some text := htext
      rw [hpath, Option.getD_some]
      exact (runLogErrors_nil ν _).mpr htrue

end validation

/-! ## Contents -/

/-- What the files hold, read one by one. -/
structure BundleContents (ν : Type) where
  markdown : Option String
  lock : Option (String × BundleLock)
  oracle : Option (FailureOracle ν)
  reproductionPatch : Option String
  runLog : Option (List RunResult)
  hypothesisLedger : Option (List Hypothesis)
  minimization : Option (MinimizationResult ν)
  summary : Option (VerificationSummary ν)

section integrity

variable [DomainNumber ν] [RegExpEngine]

variable (ν) in
def bundleContents (files : BundleFiles) : BundleContents ν where
  markdown := files "REPRO.md"
  lock := (files "reproforge.lock.json").bind (parseText (ν := ν) lockFileSchema)
  oracle := (files "failure-signature.json").bind (parseText failureOracleSchema)
  reproductionPatch := files "reproduction.patch"
  runLog := (files "artifacts/redacted-run-log.jsonl").bind (parseRunLog ν)
  hypothesisLedger := (files "artifacts/hypothesis-ledger.json").bind (parseText (ν := ν) hypothesisLedgerSchema)
  minimization := (files "artifacts/minimization.json").bind (parseText minimizationResultSchema)
  summary := (files "artifacts/verification-summary.json").bind (parseText verificationSummarySchema)

def ReproBundle.contents (b : ReproBundle ν) : BundleContents ν where
  markdown := some (reproductionMarkdown b)
  lock := some (b.bundleHash, b.lock)
  oracle := some b.oracle
  reproductionPatch := some b.reproductionPatch
  runLog := some b.runLog
  hypothesisLedger := some b.hypothesisLedger
  minimization := some b.minimization
  summary := some b.summary

theorem reproBundle_valid {b : ReproBundle ν} :
    reproBundleSchema.valid b = true ↔
      hexDigest 64 b.bundleHash = true ∧ nonempty b.caseId = true ∧ isoDatetime b.generatedAt = true ∧
        (hypothesisLedgerSchema (ν := ν)).valid b.hypothesisLedger = true ∧
        (bundleLockSchema (ν := ν)).valid b.lock = true ∧ minimizationResultSchema.valid b.minimization = true ∧
        failureOracleSchema.valid b.oracle = true ∧ (runLogSchema (ν := ν)).valid b.runLog = true ∧
        verificationSummarySchema.valid b.summary = true ∧ b.verifiedAndAgrees = true := by
  have hvalid : reproBundleSchema.valid b =
      ((hexDigest 64 b.bundleHash && (nonempty b.caseId && (isoDatetime b.generatedAt &&
        ((hypothesisLedgerSchema (ν := ν)).valid b.hypothesisLedger && ((bundleLockSchema (ν := ν)).valid b.lock &&
          (minimizationResultSchema.valid b.minimization && (failureOracleSchema.valid b.oracle &&
            (true && ((runLogSchema (ν := ν)).valid b.runLog && (true &&
              (verificationSummarySchema.valid b.summary && true))))))))))) && b.verifiedAndAgrees) := rfl
  rw [hvalid]
  simp only [Bool.and_eq_true, Bool.true_and, Bool.and_true, and_assoc]

/-- The files of a bundle hold the bundle. -/
theorem contents_materialized {b : ReproBundle ν} (h : reproBundleSchema.valid b = true) :
    bundleContents ν (filesOf (materialized b)) = b.contents := by
  obtain ⟨hhash, -, -, hledger, hlock, hminimization, horacle, hrunLog, hsummary, -⟩ := reproBundle_valid.mp h
  have hfile : ∀ f : BundleFile, filesOf (materialized b) f.path = some (materialized b f) := filesOf_path _
  have hmarkdown : filesOf (materialized b) "REPRO.md" = some (reproductionMarkdown b) := hfile .markdown
  have hlockText : filesOf (materialized b) "reproforge.lock.json" =
      some (prettyText (ν := ν) lockFileSchema (b.bundleHash, b.lock)) := hfile .lock
  have horacleText : filesOf (materialized b) "failure-signature.json" =
      some (prettyText failureOracleSchema b.oracle) := hfile .signature
  have hpatch : filesOf (materialized b) "reproduction.patch" = some b.reproductionPatch := hfile .patch
  have hrunLogText : filesOf (materialized b) "artifacts/redacted-run-log.jsonl" = some (runLogText ν b.runLog) :=
    hfile .runLog
  have hledgerText : filesOf (materialized b) "artifacts/hypothesis-ledger.json" =
      some (prettyText (ν := ν) hypothesisLedgerSchema b.hypothesisLedger) := hfile .ledger
  have hminimizationText : filesOf (materialized b) "artifacts/minimization.json" =
      some (prettyText minimizationResultSchema b.minimization) := hfile .minimization
  have hsummaryText : filesOf (materialized b) "artifacts/verification-summary.json" =
      some (prettyText verificationSummarySchema b.summary) := hfile .summary
  rw [bundleContents, ReproBundle.contents, hmarkdown, hlockText, horacleText, hpatch, hrunLogText, hledgerText,
    hminimizationText, hsummaryText, Option.bind_some, Option.bind_some, Option.bind_some, Option.bind_some,
    Option.bind_some, Option.bind_some, parseText_pretty _ (lockFile_valid.mpr ⟨hhash, hlock⟩),
    parseText_pretty _ horacle, parseRunLog_text hrunLog, parseText_pretty _ hledger,
    parseText_pretty _ hminimization, parseText_pretty _ hsummary]

theorem valid_of_contents {files : BundleFiles} {b : ReproBundle ν} (hcase : nonempty b.caseId = true)
    (htime : isoDatetime b.generatedAt = true) (h : bundleContents ν files = b.contents)
    (hagrees : b.verifiedAndAgrees = true) : reproBundleSchema.valid b = true := by
  rw [bundleContents, ReproBundle.contents, BundleContents.mk.injEq] at h
  obtain ⟨-, hlock, horacle, -, hrunLog, hledger, hminimization, hsummary⟩ := h
  obtain ⟨hhash, hlock⟩ := lockFile_valid.mp (valid_bind hlock)
  obtain ⟨text, -, hruns⟩ := Option.bind_eq_some_iff.mp hrunLog
  exact reproBundle_valid.mpr ⟨hhash, hcase, htime, valid_bind hledger, hlock, valid_bind hminimization,
    valid_bind horacle, valid_parseRunLog hruns, valid_bind hsummary, hagrees⟩

/-! ## One altered file -/

/-- Every file of a bundle passes its check. -/
theorem check_materialized {b : ReproBundle ν} (h : reproBundleSchema.valid b = true) (f : BundleFile) :
    f.check ν (materialized b f) = true := by
  obtain ⟨hhash, -, -, hledger, hlock, hminimization, horacle, hrunLog, hsummary, -⟩ := reproBundle_valid.mp h
  cases f with
  | markdown => exact markdown_check ν b
  | lock => rw [BundleFile.check, materialized, isSome_pretty _ (lockFile_valid.mpr ⟨hhash, hlock⟩)]
  | signature => rw [BundleFile.check, materialized, isSome_pretty _ horacle]
  | patch => rfl
  | runLog => rw [BundleFile.check, materialized, parseRunLog_text hrunLog, Option.isSome_some]
  | ledger => rw [BundleFile.check, materialized, isSome_pretty _ hledger]
  | minimization => rw [BundleFile.check, materialized, isSome_pretty _ hminimization]
  | summary => rw [BundleFile.check, materialized, isSome_pretty _ hsummary]

/-- An alteration goes unnoticed exactly where the altered file passes its own check. -/
theorem validate_alter {b : ReproBundle ν} {out : BundleFiles} (h : materializeBundle b = some out) (f : BundleFile)
    (text : String) : validateMaterializedBundle ν (out.alter f text) = [] ↔ f.check ν text = true := by
  obtain ⟨hvalid, rfl⟩ := materializeBundle_some h
  rw [validate_iff]
  constructor
  · intro hchecked
    obtain ⟨t, ht, hcheck⟩ := hchecked f
    rw [alter_same] at ht
    rw [Option.some.inj ht]
    exact hcheck
  · intro hcheck g
    by_cases hsame : g = f
    · rw [hsame]
      exact ⟨text, alter_same _ _ _, hcheck⟩
    · exact ⟨materialized b g, (alter_other _ text hsame).trans (filesOf_path _ g), check_materialized hvalid g⟩

/-! ## Integrity of all files -/

variable (ν) [LocaleCompare] [Sha256]

/-- The files hold the content of one verified bundle under the hash of that content. -/
def Integral (files : BundleFiles) : Prop :=
  ∃ b : ReproBundle ν, nonempty b.caseId = true ∧ isoDatetime b.generatedAt = true ∧ bundleContents ν files = b.contents ∧
    hashCanonical b.base = b.bundleHash ∧ b.verifiedAndAgrees = true

/-- The files hold what the files of a created bundle hold. -/
def Exported (files : BundleFiles) : Prop :=
  ∃ (input : ReproBundleInput ν) (b : ReproBundle ν) (out : BundleFiles),
    createBundle input = some b ∧ materializeBundle b = some out ∧ bundleContents ν files = bundleContents ν out

variable {ν}

theorem createBundle_some {input : ReproBundleInput ν} {b : ReproBundle ν} (h : createBundle input = some b) :
    b = ⟨input, hashCanonical input.base⟩ ∧ reproBundleSchema.valid b = true := by
  rw [createBundle] at h
  split at h
  · rename_i hvalid
    rw [← Option.some.inj h]
    exact ⟨rfl, hvalid⟩
  · cases h

theorem integral_iff (files : BundleFiles) : Integral ν files ↔ Exported ν files := by
  constructor
  · rintro ⟨b, hcase, htime, hcontents, hhash, hagrees⟩
    have hvalid := valid_of_contents hcase htime hcontents hagrees
    have hb : (⟨b.toReproBundleInput, hashCanonical b.base⟩ : ReproBundle ν) = b := by rw [hhash]
    have hcreate : createBundle b.toReproBundleInput = some b := by
      rw [createBundle, hb, if_pos hvalid]
    have hout : materializeBundle b = some (filesOf (materialized b)) := if_pos hvalid
    exact ⟨b.toReproBundleInput, b, _, hcreate, hout, hcontents.trans (contents_materialized hvalid).symm⟩
  · rintro ⟨input, b, out, hcreate, hout, hcontents⟩
    obtain ⟨hb, hvalid⟩ := createBundle_some hcreate
    obtain ⟨-, rfl⟩ := materializeBundle_some hout
    rw [contents_materialized hvalid] at hcontents
    obtain ⟨-, hcase, htime, -, -, -, -, -, -, hagrees⟩ := reproBundle_valid.mp hvalid
    have hhash : hashCanonical b.base = b.bundleHash := by rw [hb]
    exact ⟨b, hcase, htime, hcontents, hhash, hagrees⟩

end integrity

end ReproForge

/-! ## A sample bundle -/

namespace ReproForge.Sample.Bundle

open JsonValues JsonValues.Decimal

/-- All candidate runs of the sample match, so that its only ratio is one. -/
scoped instance : DomainNumber Int where
  ratio m n := Int.ofNat (m / n)
  fraction i := 0 ≤ i && i ≤ 1
  fraction_ratio := by
    intro m n h
    have hle : m / n ≤ 1 := Nat.div_le_of_le_mul (by omega)
    rw [Bool.and_eq_true, decide_eq_true_iff, decide_eq_true_iff]
    exact ⟨Int.natCast_nonneg _, Int.ofNat_le.mpr hle⟩

scoped instance : RegExpEngine := ⟨fun _ => true, fun _ _ => false⟩

scoped instance : LocaleCompare where
  le a b := decide (a ≤ b)
  trans := codePoints_trans
  total := codePoints_total

/-- The digest of the sample. -/
def sampleDigest : String := "6862e41eb4545c2265c2322475ab33f9f691c22e95fb393c8009328f6ffafa1e"

scoped instance : Sha256 := ⟨fun _ => sampleDigest⟩

def sampleHash : String := "0123456789abcdef0123456789abcdef0123456789abcdef0123456789abcdef"

def sampleHypothesis : Hypothesis where
  evidenceIds := ["evidence-1"]
  expectedSignal := "exit code 1"
  falsificationCondition := "exit code 0"
  id := "hypothesis-1"
  priority := 1
  statement := "The script fails."
  status := .supported
  statusHistory := [⟨"All runs matched.", 0, .supported⟩]

def sampleRun (id : String) (exitCode : Int) : RunResult :=
  ⟨none, id, "npm run 'test:bug'", 5, "env-1", exitCode, "", ""⟩

def sampleLock : BundleLock where
  command := "npm run 'test:bug'"
  dependencyLockHash := sampleHash
  environment := ⟨[("NETWORK", "denied")], by decide⟩
  environmentHash := "env-1"
  oracleId := "oracle-1"
  oracleVersion := 1
  packageManager := "npm@10"
  repository := "acme/app"
  repositoryTreeHash := sampleHash
  reproForgeVersion := "0.2.0"
  revision := "da39a3ee"
  runner := "sandbox"
  runtime := "node@22"

def sampleSummary : VerificationSummary Int where
  candidateMatches := 1
  controlMatched := false
  oracleId := "oracle-1"
  oracleVersion := 1
  reason := "All runs matched."
  repeatability := 1
  requiredRuns := 1
  status := .verified
  totalCandidateRuns := 1

def sampleInput : ReproBundleInput Int where
  caseId := "case-1"
  generatedAt := "2026-07-16T04:00:00.000Z"
  hypothesisLedger := [sampleHypothesis]
  lock := sampleLock
  minimization := ⟨none, [], .baselineRetained, []⟩
  oracle := ⟨"oracle-1", .exitCode 1, 1⟩
  reproductionPatch := ""
  runLog := [sampleRun "run-0" 0, sampleRun "run-1" 1]
  summary := sampleSummary

def sampleBundle : ReproBundle Int := ⟨sampleInput, sampleDigest⟩

theorem sampleBundle_valid : reproBundleSchema.valid sampleBundle = true := by decide +kernel

def sampleFiles : BundleFiles := filesOf (materialized sampleBundle)

theorem sampleFiles_materialized : materializeBundle sampleBundle = some sampleFiles := if_pos sampleBundle_valid

/-- The summary of another oracle, under which the reproduction was unstable. -/
def unstableSummary : VerificationSummary Int :=
  { sampleSummary with candidateMatches := 0, oracleId := "oracle-2", repeatability := 0, status := .unstable }

theorem unstableSummary_valid : verificationSummarySchema.valid unstableSummary = true := by decide +kernel

def alteredFiles : BundleFiles := sampleFiles.alter .summary (prettyText verificationSummarySchema unstableSummary)

theorem summary_alteredFiles : (bundleContents Int alteredFiles).summary = some unstableSummary := by
  have hfile : alteredFiles "artifacts/verification-summary.json" =
      some (prettyText verificationSummarySchema unstableSummary) := alter_same _ .summary _
  dsimp only [bundleContents]
  rw [hfile, Option.bind_some, parseText_pretty _ unstableSummary_valid]

theorem sampleFiles_ne :
    sampleFiles BundleFile.summary.path ≠ some (prettyText verificationSummarySchema unstableSummary) := by
  intro hsame
  have hsummary := congrArg BundleContents.summary (contents_materialized sampleBundle_valid)
  have hfile : filesOf (materialized sampleBundle) "artifacts/verification-summary.json" =
      some (prettyText verificationSummarySchema unstableSummary) := hsame
  dsimp only [bundleContents] at hsummary
  rw [hfile, Option.bind_some, parseText_pretty _ unstableSummary_valid] at hsummary
  have hstatus := congrArg (Option.map VerificationSummary.status) hsummary
  cases hstatus

end ReproForge.Sample.Bundle

namespace ReproForge

open JsonValues Sample.Bundle

end ReproForge
