import Mathlib
import ReproForge.Bundles
import ReproForge.ExperimentWorkspaces
import ReproForge.SnapshotRuns
import ReproForge.ExactSchemas
import ReproForge.Utf8Decoding

/-!
# The supervisor of a run

The script that runs a command in the sandbox captures its output, stops it at
its limits and writes a result, and the executor outside the sandbox reads that
result. The script is here one step for each event that it handles.
-/
namespace ReproForge

open JsonValues

variable {ν : Type}

/-! ## Captured output -/

structure CapturedOutput where
  originalBytes : Int
  sha256 : String
  text : String
  truncated : Bool
  deriving DecidableEq, Repr

/-- `outputCapture`, with the bytes that its hash was given. -/
structure OutputCapture where
  hashed : List UInt8
  chunks : List (List UInt8)
  originalBytes : Nat
  retainedBytes : Nat
  deriving DecidableEq, Repr

namespace OutputCapture

def empty : OutputCapture := ⟨[], [], 0, 0⟩

def add (perStreamLimit : Nat) (c : OutputCapture) (bytes : List UInt8) : OutputCapture :=
  let counted := { c with hashed := c.hashed ++ bytes, originalBytes := c.originalBytes + bytes.length }
  if c.retainedBytes < perStreamLimit then
    let retained := bytes.take (perStreamLimit - c.retainedBytes)
    { counted with chunks := c.chunks ++ [retained], retainedBytes := c.retainedBytes + retained.length }
  else counted

def result [ContentHash] (c : OutputCapture) : CapturedOutput where
  originalBytes := c.originalBytes
  sha256 := ContentHash.sha256 c.hashed
  text := String.ofList (Utf8.decode c.chunks.flatten)
  truncated := c.retainedBytes < c.originalBytes

/-- A capture of all of `bytes`. -/
structure Holds (perStreamLimit : Nat) (bytes : List UInt8) (c : OutputCapture) : Prop where
  hashed : c.hashed = bytes
  retained : c.chunks.flatten = bytes.take perStreamLimit
  originalBytes : c.originalBytes = bytes.length
  retainedBytes : c.retainedBytes = min perStreamLimit bytes.length

theorem holds_empty (perStreamLimit : Nat) : empty.Holds perStreamLimit [] := by
  constructor <;> simp [empty]

theorem holds_add {perStreamLimit : Nat} {bytes : List UInt8} {c : OutputCapture} (h : c.Holds perStreamLimit bytes)
    (chunk : List UInt8) : (c.add perStreamLimit chunk).Holds perStreamLimit (bytes ++ chunk) := by
  obtain ⟨hhashed, hretained, horiginal, hcount⟩ := h
  have hlength : (bytes ++ chunk).length = bytes.length + chunk.length := List.length_append
  rw [add]
  split
  next hroom =>
    have hshort : bytes.length < perStreamLimit := by omega
    have htake : (bytes ++ chunk).take perStreamLimit = bytes ++ chunk.take (perStreamLimit - bytes.length) := by
      rw [List.take_append, List.take_of_length_le (by omega)]
    constructor
    · simp only [hhashed]
    · simp only [List.flatten_append, List.flatten_singleton, hretained, hcount, htake]
      rw [List.take_of_length_le (by omega), Nat.min_eq_right (by omega)]
    · simp only [horiginal, hlength]
    · simp only [List.length_take]
      omega
  next hfull =>
    have hlong : perStreamLimit ≤ bytes.length := by omega
    constructor
    · simp only [hhashed]
    · simp only [hretained]
      rw [List.take_append, Nat.sub_eq_zero_of_le hlong, List.take_zero, List.append_nil]
    · simp only [horiginal, hlength]
    · simp only
      omega

end OutputCapture

/-- What a stream that wrote `bytes` is captured as, in however many chunks they came. -/
def capturedOutput [ContentHash] (perStreamLimit : Nat) (bytes : List UInt8) : CapturedOutput where
  originalBytes := bytes.length
  sha256 := ContentHash.sha256 bytes
  text := String.ofList (Utf8.decode (bytes.take perStreamLimit))
  truncated := perStreamLimit < bytes.length

theorem OutputCapture.Holds.result [ContentHash] {perStreamLimit : Nat} {bytes : List UInt8} {c : OutputCapture}
    (h : c.Holds perStreamLimit bytes) : c.result = capturedOutput perStreamLimit bytes := by
  obtain ⟨hhashed, hretained, horiginal, hcount⟩ := h
  have htruncated : decide (c.retainedBytes < c.originalBytes) = decide (perStreamLimit < bytes.length) := by
    rw [decide_eq_decide]
    omega
  rw [OutputCapture.result, capturedOutput, hhashed, hretained, htruncated, horiginal]

/-! ## The script -/

/-- Why a run was stopped before its end. -/
inductive Termination where
  | timeout | processLimit | memoryLimit | workspaceLimit | providerInterrupted
  deriving DecidableEq, Repr

def Termination.text : Termination → String
  | .timeout => "timeout"
  | .processLimit => "process-limit"
  | .memoryLimit => "memory-limit"
  | .workspaceLimit => "workspace-limit"
  | .providerInterrupted => "provider-interrupted"

/-- What the monitor finds in one round. -/
structure Measurement where
  processes : Nat
  residentBytes : Nat
  workspaceBytes : Nat
  deriving DecidableEq, Repr

inductive ChildEvent where
  | data (stream : StreamName) (chunk : List UInt8)
  | timeout
  | monitor (measured : Measurement)
  | error
  | close (code : Option UInt8) (signalled : Bool)
  deriving DecidableEq, Repr

structure Supervisor where
  stdout : OutputCapture
  stderr : OutputCapture
  termination : Option Termination
  spawnFailure : Bool
  exitCode : Option Int
  deriving DecidableEq, Repr

namespace Supervisor

def perStreamLimit (limits : RunLimits) : Nat := limits.maxOutputBytes / 2

def spawned : Supervisor := ⟨.empty, .empty, none, false, none⟩

def terminate (reason : Termination) (s : Supervisor) : Supervisor :=
  match s.termination with
  | some _ => s
  | none => { s with termination := some reason }

def step (limits : RunLimits) (s : Supervisor) (e : ChildEvent) : Supervisor :=
  match s.exitCode with
  | some _ => s
  | none =>
    match e with
    | .data .stdout chunk => { s with stdout := s.stdout.add (perStreamLimit limits) chunk }
    | .data .stderr chunk => { s with stderr := s.stderr.add (perStreamLimit limits) chunk }
    | .timeout => s.terminate .timeout
    | .monitor measured =>
      if limits.maxProcesses < measured.processes then s.terminate .processLimit
      else if limits.maxMemoryBytes < measured.residentBytes then s.terminate .memoryLimit
      else if limits.maxWorkspaceBytes < measured.workspaceBytes then s.terminate .workspaceLimit
      else s
    | .error => { s with spawnFailure := true, exitCode := some 127 }
    | .close code signalled =>
      { s with
        termination := if signalled && s.termination.isNone then some .providerInterrupted else s.termination
        exitCode := some (code.elim 137 fun c => c.toNat) }

def run (limits : RunLimits) (events : List ChildEvent) : Supervisor := events.foldl (step limits) spawned

end Supervisor

structure SupervisorResult where
  durationMs : Int
  exitCode : Int
  stderr : CapturedOutput
  stdout : CapturedOutput
  termination : Option Termination
  deriving DecidableEq, Repr

/-- What is written when the command has ended, `elapsed` milliseconds after its start. -/
def Supervisor.result [ContentHash] (elapsed : Int) (s : Supervisor) : Option SupervisorResult :=
  s.exitCode.map fun exitCode =>
    { durationMs := max 0 elapsed
      exitCode := exitCode
      stderr := s.stderr.result
      stdout := s.stdout.result
      termination := if s.spawnFailure && s.termination.isNone then some .providerInterrupted else s.termination }

section written

variable [IntegerNumber ν]

def CapturedOutput.json (c : CapturedOutput) : Json ν :=
  .obj [("originalBytes", .num (IntegerNumber.ofInt c.originalBytes)), ("sha256", .str c.sha256), ("text", .str c.text),
    ("truncated", .bool c.truncated)]

def SupervisorResult.json (r : SupervisorResult) : Json ν :=
  .obj [("durationMs", .num (IntegerNumber.ofInt r.durationMs)), ("exitCode", .num (IntegerNumber.ofInt r.exitCode)),
    ("stderr", r.stderr.json), ("stdout", r.stdout.json),
    ("termination", r.termination.elim .null fun t => .str t.text)]

/-- The bytes of `resultPath`. -/
def SupervisorResult.document (ν : Type) [IntegerNumber ν] (r : SupervisorResult) : List UInt8 :=
  Utf8.encode (Json.text (r.json (ν := ν)))

end written

/-! ## The executor -/

/-- `Buffer.byteLength(text, "utf8")` -/
def byteLength (text : String) : Nat := (Utf8.encode text.toList).length

section schemas

variable [IntegerNumber ν]

def capturedOutputSchema : Schema ν CapturedOutput :=
  .strictObject <| .equiv
    (.required "originalBytes" (.integer nonnegative) <|
      .required "sha256" (.string (hexDigest 64)) <|
      .required "text" (.string fun text => utf16Length text ≤ runLimits.maxOutputBytes) <|
      .required "truncated" .boolean .nil List.not_mem_nil)
    { toFun := fun ⟨originalBytes, sha256, text, truncated, _⟩ => ⟨originalBytes, sha256, text, truncated⟩
      invFun := fun c => ⟨c.originalBytes, c.sha256, c.text, c.truncated, ()⟩
      left_inv := fun _ => rfl
      right_inv := fun _ => rfl }

def CapturedOutput.bounded (c : CapturedOutput) : Bool :=
  let retainedBytes := byteLength c.text
  !(decide ((runLimits.maxOutputBytes + 1) / 2 * 3 < retainedBytes) || decide (c.originalBytes < retainedBytes) ||
    (c.truncated && decide (c.originalBytes ≤ retainedBytes)))

def SupervisorResult.bounded (r : SupervisorResult) : Bool := r.stdout.bounded && r.stderr.bounded

def terminationSchema : Schema ν Termination :=
  .enumeration Termination.text [.timeout, .processLimit, .memoryLimit, .workspaceLimit, .providerInterrupted]
    (by rintro ⟨⟩ <;> rfl)

def supervisorDuration (durationMs : Int) : Bool := nonnegative durationMs && durationMs ≤ runLimits.commandTimeoutMs + 5000

def supervisorExitCode (exitCode : Int) : Bool := -1 ≤ exitCode && exitCode ≤ 255

def supervisorResultSchema : Schema ν SupervisorResult :=
  .refine
    (.strictObject <| .equiv
      (.required "durationMs" (.integer supervisorDuration) <|
        .required "exitCode" (.integer supervisorExitCode) <|
        .required "stderr" capturedOutputSchema <|
        .required "stdout" capturedOutputSchema <|
        .required "termination" (.nullable terminationSchema) .nil)
      { toFun := fun ⟨durationMs, exitCode, stderr, stdout, termination, _⟩ =>
          ⟨durationMs, exitCode, stderr, stdout, termination⟩
        invFun := fun r => ⟨r.durationMs, r.exitCode, r.stderr, r.stdout, r.termination, ()⟩
        left_inv := fun _ => rfl
        right_inv := fun _ => rfl })
    SupervisorResult.bounded

end schemas

/-- `mapTermination` -/
def mapTermination : Termination → ExecutionLimitCode
  | .timeout => .commandTimeout
  | .processLimit => .processLimitExceeded
  | .memoryLimit => .memoryLimitExceeded
  | .workspaceLimit => .workspaceLimitExceeded
  | .providerInterrupted => .providerInterrupted

/-- The size up to which a result is read. -/
def maxResultBytes : Nat := runLimits.maxOutputBytes + 64 * 1024

/-- The part of `executeRun` that reads the result of the supervisor. -/
def readSupervisorResult (ν : Type) [IntegerNumber ν] (rawResult : Option (List UInt8)) :
    Except ExecutionLimitCode SupervisorResult :=
  match rawResult with
  | none => .error .outputInvalid
  | some bytes =>
    if maxResultBytes < bytes.length then .error .outputInvalid
    else
      match ((decodeText bytes).bind Json.parse).bind (supervisorResultSchema (ν := ν)).decode with
      | none => .error .outputInvalid
      | some result =>
        match result.termination with
        | some termination => .error (mapTermination termination)
        | none => .ok result

end ReproForge
