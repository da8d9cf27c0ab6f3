import Mathlib
import ReproForge.PatternScans
import ReproForge.Redaction
import ReproForge.RepositoryProofs
import ReproForge.SupervisorRuns

/-!
# Bounded executions

The executor runs the control and the candidates of a plan one after another in
a session, each under the supervisor, and makes one result of what they
reported. Every call of the session may fail.
-/
namespace ReproForge

open JsonValues Transactions Transactions.Tx

variable {ν : Type}

/-! ## Redaction of captured output -/

namespace Credentials

/-- `\w` -/
def wordChar (c : Char) : Bool := c.isAlphanum || c == '_'

/-- `\b` between two places. -/
def boundary (before after : Option Char) : Bool := before.any wordChar != after.any wordChar

/-- `\s` -/
def blank (c : Char) : Bool :=
  (9 ≤ c.toNat && c.toNat ≤ 13) || c.toNat == 32 || c.toNat == 160 || c.toNat == 5760 ||
    (8192 ≤ c.toNat && c.toNat ≤ 8202) || c.toNat == 8232 || c.toNat == 8233 || c.toNat == 8239 || c.toNat == 8287 ||
    c.toNat == 12288 || c.toNat == 65279

/-- `[A-Za-z0-9_-]` -/
def tokenChar (c : Char) : Bool := c.isAlphanum || c == '_' || c == '-'

/-- A letter, a digit or one of `.`, `_`, `~`, `+`, `/` and `-`. -/
def bearerChar (c : Char) : Bool :=
  c.isAlphanum || c == '.' || c == '_' || c == '~' || c == '+' || c == '/' || c == '-'

/-- `[…]{8,}\b`: as many characters as the class takes, less those after the last boundary. -/
def run (takes : Char → Bool) (s : List Char) : Option Nat :=
  ((List.range ((s.takeWhile takes).length + 1)).reverse).find? fun n =>
    8 ≤ n && boundary s[n - 1]? s[n]?

def tokenPrefixes : List (List Char) :=
  ["ghp_".toList, "gho_".toList, "ghu_".toList, "ghs_".toList, "ghr_".toList, "github_pat_".toList]

/-- `\b(?:gh[pousr]_|github_pat_)[A-Za-z0-9_-]{8,}\b` -/
def token : Patterns.Pattern Char := fun before s =>
  if boundary before s.head? then
    (tokenPrefixes.find? (·.isPrefixOf s)).bind fun w => (run tokenChar (s.drop w.length)).map (w.length + ·)
  else none

/-- `\bBearer\s+`, eight or more such characters, and a boundary. -/
def bearer : Patterns.Pattern Char := fun before s =>
  if boundary before s.head? && "Bearer".toList.isPrefixOf s then
    let blanks := ((s.drop 6).takeWhile blank).length
    if blanks = 0 then none else (run bearerChar (s.drop (6 + blanks))).map (6 + blanks + ·)
  else none

end Credentials

/-- `redact`, of the executor: the secrets, then what looks like a credential. -/
def redactCaptured (secrets : List String) (value : String) : String :=
  let known := uniqueSecrets secrets
  let sanitized :=
    if known.isEmpty then value.toList else Words.replace (known.map String.toList) redactionMarker.toList value.toList
  let tokenless := Patterns.replaceAll Credentials.token redactionMarker.toList sanitized
  String.ofList (Patterns.replaceAll Credentials.bearer ("Bearer " ++ redactionMarker).toList tokenless)

def sanitizeCapture (secrets : List String) (c : CapturedOutput) : CapturedOutput :=
  { c with text := redactCaptured secrets c.text }

example : redactCaptured ["hunter2"] "x hunter2 ghp_0123456789- Bearer  abc.defgh=" =
    "x [REDACTED] [REDACTED]- Bearer [REDACTED]=" := by
  decide +kernel

/-! ## Runs -/

inductive RunRole where
  | candidate | control
  deriving DecidableEq, Repr

structure CapturedStreams where
  stderr : CapturedOutput
  stdout : CapturedOutput
  deriving DecidableEq, Repr

structure BoundedRun where
  capture : CapturedStreams
  role : RunRole
  run : RunResult
  deriving DecidableEq, Repr

structure BoundedExperimentResult where
  candidates : List BoundedRun
  control : BoundedRun
  totalDurationMs : Int
  deriving DecidableEq, Repr

def maxRuns : Nat := 5

def maxToolCalls : Nat := 12

section schemas

variable (ν) [DomainNumber ν]

/-- `boundedRunSchema` -/
def BoundedRun.valid (r : BoundedRun) : Bool :=
  (capturedOutputSchema (ν := ν)).valid r.capture.stderr && (capturedOutputSchema (ν := ν)).valid r.capture.stdout &&
    (runResultSchema (ν := ν)).valid r.run

/-- `boundedExperimentResultSchema` -/
def BoundedExperimentResult.valid (r : BoundedExperimentResult) : Bool :=
  r.candidates.all (BoundedRun.valid ν) && 1 ≤ r.candidates.length && r.candidates.length ≤ maxRuns &&
    r.control.valid ν && 0 ≤ r.totalDurationMs && r.totalDurationMs ≤ maxTotalAttemptMs && r.control.role == .control &&
    r.candidates.all (·.role == .candidate)

end schemas

def displayCommand (command : SandboxCommand) : String :=
  " ".intercalate ((command.executable.text :: command.args).map fun part => String.ofList (quote part))

/-! ## The session -/

inductive ExecutorCall where
  | makeDirectory (path : String)
  | writeFiles (files : List (String × List UInt8))
  | run (command : SandboxCommand)
  | readFile (path : String)
  deriving DecidableEq, Repr

/-- What the session makes of a call; the exit code and the file are read where the call has one. -/
structure ExecutorAnswer where
  rejected : Bool
  exitCode : Int
  file : Option (List UInt8)

/-- What the executor meets, whatever was called before. -/
structure ExecutorWorld where
  answer : List ExecutorCall → ExecutorCall → ExecutorAnswer
  /-- `signal.aborted` -/
  aborted : List ExecutorCall → Bool
  randomUUID : List ExecutorCall → String
  supervisorSource : List UInt8

inductive ExecutorError where
  | limit (code : ExecutionLimitCode)
  /-- A schema rejected an argument or a result. -/
  | schema
  /-- A call outside the `try` blocks failed. -/
  | session
  deriving DecidableEq, Repr

/-- A program that calls the session; its store is the calls made so far. -/
abbrev ExecutorProgram (α : Type) := Tx (List ExecutorCall) ExecutorError α

structure ExecutorInput where
  environment : ExecutionEnvironmentProvenance
  environmentNetworkPolicy : String
  networkPolicy : String
  plan : RepositoryExecutionPlan
  secrets : List String

/-- The files that a run goes through. -/
structure SupervisorFiles where
  directory : String
  script : String
  config : String
  result : String
  deriving DecidableEq, Repr

def supervisorFiles (uuid id : String) : SupervisorFiles :=
  let directory := sandboxRoot ++ "/reproforge-" ++ uuid
  ⟨directory, directory ++ "/runner-supervisor.mjs", directory ++ "/" ++ id ++ ".config.json",
    directory ++ "/" ++ id ++ ".result.json"⟩

def supervisorLaunch (files : SupervisorFiles) (command : SandboxCommand) : SandboxCommand where
  args := [files.script, files.config, files.result]
  cwd := command.cwd
  executable := .node
  phase := command.phase
  timeoutMs := 125000

def SandboxPhase.text : SandboxPhase → String
  | .sourceAcquisition => "source-acquisition"
  | .dependencyAcquisition => "dependency-acquisition"
  | .offlineInstall => "offline-install"
  | .control => "control"
  | .candidate => "candidate"
  | .artifactExport => "artifact-export"
  | .cleanup => "cleanup"

section configuration

variable [IntegerNumber ν]

def RunLimits.json (limits : RunLimits) : Json ν :=
  .obj [("commandTimeoutMs", .num (IntegerNumber.ofInt limits.commandTimeoutMs)),
    ("maxMemoryBytes", .num (IntegerNumber.ofInt limits.maxMemoryBytes)),
    ("maxOutputBytes", .num (IntegerNumber.ofInt limits.maxOutputBytes)),
    ("maxProcesses", .num (IntegerNumber.ofInt limits.maxProcesses)),
    ("maxWorkspaceBytes", .num (IntegerNumber.ofInt limits.maxWorkspaceBytes))]

def SupervisorConfig.json (config : SupervisorConfig) : Json ν :=
  .obj [("args", .arr (config.args.map .str)), ("cwd", .str config.cwd), ("executable", .str config.executable.text),
    ("limits", config.limits.json), ("phase", .str config.phase.text), ("workspaceRoot", .str config.workspaceRoot)]

/-- The bytes of `configPath`. -/
def SupervisorConfig.document (ν : Type) [IntegerNumber ν] (config : SupervisorConfig) : List UInt8 :=
  Utf8.encode (Json.text (config.json (ν := ν)))

end configuration

/-! ## The executor -/

def RunRefusal.error : RunRefusal → ExecutorError
  | .providerInterrupted => .limit .providerInterrupted
  | .schema => .schema

/-- The run that an accepted result of the supervisor is turned into. -/
def observedRun (environmentHash : String) (secrets : List String) (command : SandboxCommand) (id : String)
    (result : SupervisorResult) : BoundedRun :=
  let stdout := sanitizeCapture secrets result.stdout
  let stderr := sanitizeCapture secrets result.stderr
  { capture := ⟨stderr, stdout⟩
    role := if command.phase = .control then .control else .candidate
    run :=
      { capture := none
        id := id
        command := displayCommand command
        durationMs := result.durationMs
        environmentHash := environmentHash
        exitCode := result.exitCode
        stderr := stderr.text
        stdout := stdout.text } }

namespace ExecutorWorld

variable (w : ExecutorWorld)

def perform (call : ExecutorCall) : ExecutorProgram ExecutorAnswer := fun calls =>
  let answer := w.answer calls call
  (if answer.rejected then .error .session else .ok answer, calls ++ [call])

/-- `await session.run(sandboxCommandSchema.parse(command))` in its `try`. -/
def launch (command : SandboxCommand) : ExecutorProgram ExecutorAnswer := fun calls =>
  if command.valid then
    match w.perform (.run command) calls with
    | (.ok answer, calls) => (.ok answer, calls)
    | (.error _, calls) => (.error (.limit .providerInterrupted), calls)
  else (.error (.limit .providerInterrupted), calls)

section executor

variable (ν) [DomainNumber ν]

def ofRefusal (config : Except RunRefusal SupervisorConfig) : ExecutorProgram SupervisorConfig := fun calls =>
  match config with
  | .ok config => (.ok config, calls)
  | .error refusal => (.error refusal.error, calls)

def ofLimit {α : Type} (result : Except ExecutionLimitCode α) : ExecutorProgram α := fun calls =>
  match result with
  | .ok a => (.ok a, calls)
  | .error code => (.error (.limit code), calls)

def executeRun (input : ExecutorInput) (command : SandboxCommand) (id : String) : ExecutorProgram BoundedRun := do
  let calls ← read
  let config ← ofRefusal
    (RunInput.config ⟨w.aborted calls, command, input.environmentNetworkPolicy, input.networkPolicy, id⟩)
  let files := supervisorFiles (w.randomUUID calls) id
  let _ ← w.perform (.makeDirectory files.directory)
  let _ ← w.perform (.writeFiles [(files.script, w.supervisorSource), (files.config, config.document ν)])
  let launched ← w.launch (supervisorLaunch files command)
  require (launched.exitCode == 0) (.limit .providerInterrupted)
  let raw ← w.perform (.readFile files.result)
  let result ← ofLimit (readSupervisorResult ν raw.file)
  let run := observedRun input.environment.environmentHash input.secrets command id result
  require ((runResultSchema (ν := ν)).valid run.run) .schema
  require (run.valid ν) .schema
  pure run

/-- The loop of `execute` over the experiments that are left, with the time that was spent. -/
def executeRuns (input : ExecutorInput) :
    List (SandboxCommand × Nat) → Int → ExecutorProgram (List BoundedRun × Int)
  | [], spent => pure ([], spent)
  | (command, index) :: rest, spent => do
    let run ← w.executeRun ν input command (command.runId index)
    let total := spent + run.run.durationMs
    require (total ≤ maxTotalAttemptMs) (.limit .attemptTimeout)
    let later ← executeRuns input rest total
    pure (run :: later.1, later.2)

def execute (input : ExecutorInput) : ExecutorProgram BoundedExperimentResult := do
  require (input.networkPolicy == "deny-all" && input.environmentNetworkPolicy == "deny-all")
    (.limit .providerInterrupted)
  require input.plan.valid .schema
  let experiments := input.plan.experiments
  require (experiments.length ≤ maxRuns + 1 && input.plan.commands.length ≤ maxToolCalls) (.limit .providerInterrupted)
  let done ← w.executeRuns ν input experiments.zipIdx 0
  let control ← demand (done.1.find? (·.role == .control)) (.limit .providerInterrupted)
  let candidates := done.1.filter (·.role == .candidate)
  require (candidates.length == input.plan.requiredRuns) (.limit .providerInterrupted)
  let result : BoundedExperimentResult := ⟨candidates, control, done.2⟩
  require (result.valid ν) .schema
  pure result

end executor

end ExecutorWorld

end ReproForge
