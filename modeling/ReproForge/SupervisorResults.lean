import ReproForge.SupervisorRuns

/-!
# What the executor reads of a run

The result of a supervisor depends on what its command wrote and on what stopped
it first, not on how the output came. The executor reads every result but those
that are too large, took too long, or hold a stream whose text has grown past it.
-/
namespace ReproForge

open JsonValues

variable {ν : Type}

/-! ## Events -/

namespace ChildEvent

def exitCode : ChildEvent → Option Int
  | .error => some 127
  | .close code _ => some (code.elim 137 fun c => c.toNat)
  | _ => none

def written (stream : StreamName) : ChildEvent → List UInt8
  | .data source chunk => if source = stream then chunk else []
  | _ => []

/-- Why an event stops the run. -/
def stops (limits : RunLimits) : ChildEvent → Option Termination
  | .data _ _ => none
  | .timeout => some .timeout
  | .monitor measured =>
    if limits.maxProcesses < measured.processes then some .processLimit
    else if limits.maxMemoryBytes < measured.residentBytes then some .memoryLimit
    else if limits.maxWorkspaceBytes < measured.workspaceBytes then some .workspaceLimit
    else none
  | .error => some .providerInterrupted
  | .close _ signalled => if signalled then some .providerInterrupted else none

end ChildEvent

/-- The events up to the end of the command. -/
def handled : List ChildEvent → List ChildEvent
  | [] => []
  | e :: events => if e.exitCode.isSome then [e] else e :: handled events

def written (stream : StreamName) (events : List ChildEvent) : List UInt8 := events.flatMap (ChildEvent.written stream)

def ended (events : List ChildEvent) : Option Int := (handled events).findSome? ChildEvent.exitCode

theorem handled_running {events : List ChildEvent} (h : ended events = none) : handled events = events := by
  induction events with
  | nil => rfl
  | cons e rest ih =>
    rw [ended, handled] at h
    split at h
    next hexit =>
      rw [List.findSome?_singleton] at h
      rw [h] at hexit
      cases hexit
    next hexit =>
      rw [List.findSome?_cons, Option.not_isSome_iff_eq_none.mp hexit] at h
      rw [handled, if_neg hexit, ih h]

theorem handled_snoc (events : List ChildEvent) (e : ChildEvent) :
    handled (events ++ [e]) = if (ended events).isSome then handled events else handled events ++ [e] := by
  induction events with
  | nil => cases hexit : e.exitCode <;> simp [handled, ended, hexit]
  | cons d rest ih =>
    rw [List.cons_append, handled, ended, handled]
    by_cases hexit : d.exitCode.isSome = true
    · rw [if_pos hexit, if_pos hexit, List.findSome?_singleton, if_pos hexit]
    · rw [if_neg hexit, if_neg hexit, List.findSome?_cons, Option.not_isSome_iff_eq_none.mp hexit, ih]
      change d :: (if (ended rest).isSome = true then _ else _) = if (ended rest).isSome = true then _ else _
      split <;> rfl

namespace Supervisor

/-- Where the script is after `events`. -/
structure Follows (limits : RunLimits) (events : List ChildEvent) (s : Supervisor) : Prop where
  exitCode : s.exitCode = ended events
  stdout : s.stdout.Holds (perStreamLimit limits) (written .stdout (handled events))
  stderr : s.stderr.Holds (perStreamLimit limits) (written .stderr (handled events))
  /-- The first reason to stop the run is kept. -/
  stopped : (if s.spawnFailure && s.termination.isNone then some Termination.providerInterrupted else s.termination) =
    (handled events).findSome? (ChildEvent.stops limits)
  failed : s.exitCode = none → s.spawnFailure = false

variable {limits : RunLimits} {events : List ChildEvent} {s : Supervisor}

theorem written_snoc (stream : StreamName) (events : List ChildEvent) (e : ChildEvent) :
    written stream (events ++ [e]) = written stream events ++ e.written stream := by
  simp [written]

theorem ended_snoc {e : ChildEvent} (h : ended events = none) : ended (events ++ [e]) = e.exitCode := by
  rw [ended, handled_snoc, h, if_neg (by simp), List.findSome?_append]
  rw [ended] at h
  rw [h, Option.none_or, List.findSome?_singleton]

theorem follows_spawned (limits : RunLimits) : Follows limits [] spawned where
  exitCode := rfl
  stdout := OutputCapture.holds_empty _
  stderr := OutputCapture.holds_empty _
  stopped := rfl
  failed := fun _ => rfl

theorem terminate_exitCode (reason : Termination) (s : Supervisor) : (s.terminate reason).exitCode = s.exitCode := by
  rw [terminate]
  split <;> rfl

theorem terminate_stdout (reason : Termination) (s : Supervisor) : (s.terminate reason).stdout = s.stdout := by
  rw [terminate]
  split <;> rfl

theorem terminate_stderr (reason : Termination) (s : Supervisor) : (s.terminate reason).stderr = s.stderr := by
  rw [terminate]
  split <;> rfl

theorem terminate_spawnFailure (reason : Termination) (s : Supervisor) :
    (s.terminate reason).spawnFailure = s.spawnFailure := by
  rw [terminate]
  split <;> rfl

theorem terminate_termination (reason : Termination) (s : Supervisor) :
    (s.terminate reason).termination = s.termination.or (some reason) := by
  rw [terminate]
  split
  next t ht => rw [ht, Option.some_or]
  next ht => rw [ht, Option.none_or]

/-- What a running script does at an event, field by field. -/
structure Handles (limits : RunLimits) (s : Supervisor) (e : ChildEvent) (s' : Supervisor) : Prop where
  exitCode : s'.exitCode = e.exitCode
  stdout : s'.stdout = s.stdout ∧ e.written .stdout = [] ∨
    s'.stdout = s.stdout.add (perStreamLimit limits) (e.written .stdout)
  stderr : s'.stderr = s.stderr ∧ e.written .stderr = [] ∨
    s'.stderr = s.stderr.add (perStreamLimit limits) (e.written .stderr)
  stopped : (if s'.spawnFailure && s'.termination.isNone then some Termination.providerInterrupted else s'.termination) =
    s.termination.or (e.stops limits)
  failed : s'.exitCode = none → s'.spawnFailure = false

theorem handles_quiet {e : ChildEvent} (hexit : s.exitCode = none) (hfailed : s.spawnFailure = false)
    (hcode : e.exitCode = none) (hstdout : e.written .stdout = []) (hstderr : e.written .stderr = [])
    (hstops : e.stops limits = none) : Handles limits s e s where
  exitCode := hexit.trans hcode.symm
  stdout := .inl ⟨rfl, hstdout⟩
  stderr := .inl ⟨rfl, hstderr⟩
  stopped := by rw [hfailed, hstops, Option.or_none]; rfl
  failed := fun _ => hfailed

theorem handles_terminate {e : ChildEvent} {reason : Termination} (hexit : s.exitCode = none)
    (hfailed : s.spawnFailure = false) (hcode : e.exitCode = none) (hstdout : e.written .stdout = [])
    (hstderr : e.written .stderr = []) (hstops : e.stops limits = some reason) :
    Handles limits s e (s.terminate reason) where
  exitCode := by rw [terminate_exitCode, hexit, hcode]
  stdout := .inl ⟨terminate_stdout reason s, hstdout⟩
  stderr := .inl ⟨terminate_stderr reason s, hstderr⟩
  stopped := by
    rw [terminate_spawnFailure, hfailed, terminate_termination, hstops]
    rfl
  failed := fun _ => (terminate_spawnFailure reason s).trans hfailed

theorem handles_step (hexit : s.exitCode = none) (hfailed : s.spawnFailure = false) (e : ChildEvent) :
    Handles limits s e (step limits s e) := by
  simp only [step, hexit]
  cases e with
  | data stream chunk =>
    cases stream with
    | stdout =>
      exact ⟨rfl, .inr rfl, .inl ⟨rfl, rfl⟩, by simp [hfailed, ChildEvent.stops], fun _ => hfailed⟩
    | stderr =>
      exact ⟨rfl, .inl ⟨rfl, rfl⟩, .inr rfl, by simp [hfailed, ChildEvent.stops], fun _ => hfailed⟩
  | timeout => exact handles_terminate hexit hfailed rfl rfl rfl rfl
  | monitor measured =>
    simp only
    split
    next hprocesses => exact handles_terminate hexit hfailed rfl rfl rfl (if_pos hprocesses)
    next hprocesses =>
      split
      next hmemory =>
        exact handles_terminate hexit hfailed rfl rfl rfl ((if_neg hprocesses).trans (if_pos hmemory))
      next hmemory =>
        split
        next hworkspace =>
          exact handles_terminate hexit hfailed rfl rfl rfl
            ((if_neg hprocesses).trans ((if_neg hmemory).trans (if_pos hworkspace)))
        next hworkspace =>
          exact handles_quiet hexit hfailed rfl rfl rfl
            ((if_neg hprocesses).trans ((if_neg hmemory).trans (if_neg hworkspace)))
  | error =>
    refine ⟨rfl, .inl ⟨rfl, rfl⟩, .inl ⟨rfl, rfl⟩, ?_, fun h => nomatch h⟩
    cases s.termination <;> rfl
  | close code signalled =>
    refine ⟨rfl, .inl ⟨rfl, rfl⟩, .inl ⟨rfl, rfl⟩, ?_, fun h => nomatch h⟩
    rw [hfailed]
    cases s.termination <;> cases signalled <;> rfl

theorem Follows.holds_snoc {stream : StreamName} {c c' : OutputCapture} {e : ChildEvent} {L : Nat}
    (h : c.Holds L (written stream events))
    (hadd : c' = c ∧ e.written stream = [] ∨ c' = c.add L (e.written stream)) :
    c'.Holds L (written stream (events ++ [e])) := by
  rw [written_snoc]
  rcases hadd with ⟨rfl, hnone⟩ | rfl
  · rwa [hnone, List.append_nil]
  · exact OutputCapture.holds_add h _

theorem follows_step (h : s.Follows limits events) (e : ChildEvent) :
    (step limits s e).Follows limits (events ++ [e]) := by
  cases hcode : ended events with
  | some code =>
    -- The result is settled, and no later event is handled.
    have hexit : s.exitCode = some code := h.exitCode.trans hcode
    have hstep : step limits s e = s := by simp only [step, hexit]
    have hhandled : handled (events ++ [e]) = handled events := by
      rw [handled_snoc, hcode, Option.isSome_some, if_pos rfl]
    rw [hstep]
    constructor
    · rw [ended, hhandled]
      exact h.exitCode
    · rw [hhandled]
      exact h.stdout
    · rw [hhandled]
      exact h.stderr
    · rw [hhandled]
      exact h.stopped
    · exact h.failed
  | none =>
    have hexit : s.exitCode = none := h.exitCode.trans hcode
    have hfailed := h.failed hexit
    have hs : s.termination = events.findSome? (ChildEvent.stops limits) := by
      have hstopped := h.stopped
      rw [hfailed, handled_running hcode] at hstopped
      exact hstopped
    have hhandled : handled (events ++ [e]) = events ++ [e] := by
      rw [handled_snoc, hcode, if_neg (by simp), handled_running hcode]
    have hstdout := h.stdout
    have hstderr := h.stderr
    rw [handled_running hcode] at hstdout hstderr
    have hhandles : Handles limits s e (step limits s e) := handles_step hexit hfailed e
    constructor
    · rw [hhandles.exitCode, ended_snoc hcode]
    · rw [hhandled]
      exact Follows.holds_snoc hstdout hhandles.stdout
    · rw [hhandled]
      exact Follows.holds_snoc hstderr hhandles.stderr
    · rw [hhandled, hhandles.stopped, List.findSome?_append, List.findSome?_singleton, hs]
    · exact hhandles.failed

theorem follows_run (limits : RunLimits) (events : List ChildEvent) : (run limits events).Follows limits events := by
  induction events using List.reverseRecOn with
  | nil => exact follows_spawned limits
  | append_singleton events e ih =>
    rw [run, List.foldl_append]
    exact follows_step ih e

/-- The result is of the bytes of each stream, however they came, and of the
first event that stopped the command. -/
theorem result_run [ContentHash] (limits : RunLimits) (events : List ChildEvent) (elapsed : Int) :
    (run limits events).result elapsed = (ended events).map fun exitCode =>
      { durationMs := max 0 elapsed
        exitCode := exitCode
        stderr := capturedOutput (perStreamLimit limits) (written .stderr (handled events))
        stdout := capturedOutput (perStreamLimit limits) (written .stdout (handled events))
        termination := (handled events).findSome? (ChildEvent.stops limits) } := by
  have h := follows_run limits events
  rw [result, h.exitCode, h.stdout.result, h.stderr.result, h.stopped]

end Supervisor

/-! ## Streams -/

/-- The executor takes a stream whose text is no longer than what was written, and
shorter if some of that was left out. -/
def Reported (bytes : List UInt8) : Prop :=
  if bytes.length ≤ Supervisor.perStreamLimit runLimits then Utf8.growth bytes = 0
  else Supervisor.perStreamLimit runLimits + Utf8.growth (bytes.take (Supervisor.perStreamLimit runLimits)) < bytes.length

theorem perStreamLimit_eq : Supervisor.perStreamLimit runLimits = 1048576 := by decide

theorem utf16_le_utf8 (c : Char) : (if c.toNat > 0xFFFF then 2 else 1) ≤ c.utf8Size := by
  have hpos := Char.utf8Size_pos c
  split
  next hlarge =>
    have hfour : c.utf8Size = 4 := Char.utf8Size_eq_four_iff.mpr (UInt32.lt_iff_toNat_lt.mpr hlarge)
    omega
  next => exact hpos

section captured

variable [ContentHash] {bytes : List UInt8}

theorem utf16Length_captured (L : Nat) (bytes : List UInt8) : utf16Length (capturedOutput L bytes).text ≤ L := by
  have hle := Utf8.sum_decode_le utf16_le_utf8 (by decide) (bytes.take L)
  rw [utf16Length, capturedOutput, String.toList_ofList]
  exact hle.trans (List.length_take_le L bytes)

theorem byteLength_captured (L : Nat) (bytes : List UInt8) :
    byteLength (capturedOutput L bytes).text = min L bytes.length + Utf8.growth (bytes.take L) := by
  rw [byteLength, capturedOutput, String.toList_ofList, Utf8.length_encode_decode, List.length_take]

theorem bounded_captured (bytes : List UInt8) :
    (capturedOutput (Supervisor.perStreamLimit runLimits) bytes).bounded = true ↔ Reported bytes := by
  have hbytes := byteLength_captured (Supervisor.perStreamLimit runLimits) bytes
  have hgrowth := Utf8.growth_le (bytes.take (Supervisor.perStreamLimit runLimits))
  have htake := List.length_take (i := Supervisor.perStreamLimit runLimits) (l := bytes)
  have hmost : (runLimits.maxOutputBytes + 1) / 2 * 3 = 3145728 := by decide
  have horiginal : (capturedOutput (Supervisor.perStreamLimit runLimits) bytes).originalBytes = bytes.length := rfl
  have htruncated : (capturedOutput (Supervisor.perStreamLimit runLimits) bytes).truncated =
      decide (Supervisor.perStreamLimit runLimits < bytes.length) := rfl
  rw [CapturedOutput.bounded, Reported, horiginal, htruncated, hbytes, hmost]
  have hlimit := perStreamLimit_eq
  simp only [Bool.not_eq_true', Bool.or_eq_false_iff, Bool.and_eq_false_iff, decide_eq_false_iff_not]
  split
  next hshort =>
    rw [List.take_of_length_le hshort] at hgrowth ⊢
    omega
  next hlong => omega

end captured

/-! ## Documents -/

section documents

variable [IntegerNumber ν]

theorem json_eq (r : SupervisorResult) : r.json = (supervisorResultSchema (ν := ν)).encode r := by
  obtain ⟨durationMs, exitCode, stderr, stdout, termination⟩ := r
  cases termination <;> rfl

theorem settled_json (r : SupervisorResult) : (r.json (ν := ν)).settled = true := by
  rw [json_eq]
  exact Schema.settled_encode _ r

theorem decodeText_encode {cs : List Char} (h : withoutMark (Utf8.encode cs) = Utf8.encode cs) :
    decodeText (Utf8.encode cs) = some (String.ofList cs) := by
  have hbytes : (⟨(Utf8.encode cs).toArray⟩ : ByteArray) = (String.ofList cs).toByteArray := by
    rw [← String.utf8Encode_toList, String.toList_ofList, List.utf8Encode]
    exact ByteArray.ext List.data_toByteArray.symm
  rw [decodeText, h, hbytes]
  exact dif_pos (String.ofList cs).isValidUTF8

/-- A document that opens with a brace has no byte order mark. -/
theorem withoutMark_object (cs : List Char) : withoutMark (Utf8.encode ('{' :: cs)) = Utf8.encode ('{' :: cs) := by
  have hopen : Utf8.encode ('{' :: cs) = 0x7B :: Utf8.encode cs := rfl
  rw [hopen]
  rfl

theorem read_document (r : SupervisorResult) :
    ((decodeText (r.document ν)).bind Json.parse).bind (supervisorResultSchema (ν := ν)).decode =
      (supervisorResultSchema (ν := ν)).decode ((supervisorResultSchema (ν := ν)).encode r) := by
  have hopen : ∃ cs, Json.text (r.json (ν := ν)) = '{' :: cs := ⟨_, rfl⟩
  obtain ⟨cs, hcs⟩ := hopen
  have hparse : Json.parse (String.ofList (Json.text (r.json (ν := ν)))) = some r.json :=
    Json.parse_stringify (settled_json r)
  rw [SupervisorResult.document, hcs, decodeText_encode (withoutMark_object cs), ← hcs, Option.bind_some, hparse,
    Option.bind_some, json_eq]

/-! ## What is refused -/

theorem exact_capturedOutput {c : CapturedOutput} (h : safe c.originalBytes = true) :
    (capturedOutputSchema (ν := ν)).Exact c := by
  refine Fields.exact_strictObject _ (Fields.exact_equiv _ ?_)
  refine Fields.exact_required _ (Schema.exact_integer _ h) ?_
  refine Fields.exact_required _ (Schema.exact_string _ _) ?_
  refine Fields.exact_required _ (Schema.exact_string _ _) ?_
  exact Fields.exact_required _ (Schema.exact_boolean _) Fields.exact_nil

theorem exact_supervisorResult {r : SupervisorResult} (hduration : safe r.durationMs = true)
    (hexit : safe r.exitCode = true) (hstderr : safe r.stderr.originalBytes = true)
    (hstdout : safe r.stdout.originalBytes = true) : (supervisorResultSchema (ν := ν)).Exact r := by
  refine Schema.exact_refine ?_ _
  refine Fields.exact_strictObject _ (Fields.exact_equiv _ ?_)
  refine Fields.exact_required _ (Schema.exact_integer _ hduration) ?_
  refine Fields.exact_required _ (Schema.exact_integer _ hexit) ?_
  refine Fields.exact_required _ (exact_capturedOutput hstderr) ?_
  refine Fields.exact_required _ (exact_capturedOutput hstdout) ?_
  refine Fields.exact_required _ (Schema.exact_nullable rfl ?_ ?_) Fields.exact_nil
  · exact fun t _ => Schema.exact_of_valid rfl
  · exact fun t h => nomatch h

/-- What the schema asks of a result. -/
theorem valid_supervisorResult (r : SupervisorResult) :
    (supervisorResultSchema (ν := ν)).valid r = true ↔
      (safe r.durationMs && supervisorDuration r.durationMs) = true ∧ (safe r.exitCode && supervisorExitCode r.exitCode) = true ∧
        (capturedOutputSchema (ν := ν)).valid r.stderr = true ∧ (capturedOutputSchema (ν := ν)).valid r.stdout = true ∧
        r.bounded = true := by
  have hvalid : (supervisorResultSchema (ν := ν)).valid r =
      ((safe r.durationMs && supervisorDuration r.durationMs) && ((safe r.exitCode && supervisorExitCode r.exitCode) &&
        ((capturedOutputSchema (ν := ν)).valid r.stderr && ((capturedOutputSchema (ν := ν)).valid r.stdout &&
          (r.termination.all (fun _ => true) && true)))) && r.bounded) := rfl
  have htermination : r.termination.all (fun _ => true) = true := by cases r.termination <;> rfl
  rw [hvalid, htermination]
  simp only [Bool.and_eq_true, and_true, and_assoc]

theorem valid_captured [ContentHash] (hhash : ∀ bytes, hexDigest 64 (ContentHash.sha256 bytes) = true) {bytes : List UInt8}
    (hlength : bytes.length ≤ 9007199254740991) :
    (capturedOutputSchema (ν := ν)).valid (capturedOutput (Supervisor.perStreamLimit runLimits) bytes) = true := by
  have hvalid : (capturedOutputSchema (ν := ν)).valid (capturedOutput (Supervisor.perStreamLimit runLimits) bytes) =
      ((safe bytes.length && nonnegative bytes.length) && (hexDigest 64 (ContentHash.sha256 bytes) &&
        (decide (utf16Length (capturedOutput (Supervisor.perStreamLimit runLimits) bytes).text ≤ runLimits.maxOutputBytes) &&
          (true && true)))) := rfl
  have htext := utf16Length_captured (Supervisor.perStreamLimit runLimits) bytes
  have hlimit : Supervisor.perStreamLimit runLimits ≤ runLimits.maxOutputBytes := by decide
  have hsafe : safe (bytes.length : Int) = true := decide_eq_true (by rwa [Int.natAbs_natCast])
  have hnonnegative : nonnegative (bytes.length : Int) = true := decide_eq_true (Int.natCast_nonneg _)
  rw [hvalid, hhash, hsafe, hnonnegative, decide_eq_true (htext.trans hlimit)]
  rfl

theorem exitCode_range {e : ChildEvent} {code : Int} (h : e.exitCode = some code) : 0 ≤ code ∧ code ≤ 255 := by
  cases e with
  | data _ _ => cases h
  | timeout => cases h
  | monitor _ => cases h
  | error =>
    rw [← Option.some.inj h]
    omega
  | close exit signalled =>
    rw [← Option.some.inj h]
    cases exit with
    | none => simp
    | some b =>
      have hb := b.toNat_lt
      simp only [Option.elim_some]
      omega

theorem ended_range {events : List ChildEvent} {code : Int} (h : ended events = some code) : 0 ≤ code ∧ code ≤ 255 := by
  obtain ⟨e, -, he⟩ := List.exists_of_findSome?_eq_some h
  exact exitCode_range he

/-! ## The result as the executor reads it -/

/-- What lets the executor read a result that was written after `elapsed` milliseconds. -/
structure Readable (ν : Type) [IntegerNumber ν] (events : List ChildEvent) (elapsed : Int) (r : SupervisorResult) : Prop where
  size : (r.document ν).length ≤ maxResultBytes
  duration : elapsed ≤ runLimits.commandTimeoutMs + 5000
  streams : ∀ stream, Reported (written stream (handled events))

/-- The capture of a stream in a result. -/
def SupervisorResult.capture (r : SupervisorResult) : StreamName → CapturedOutput
  | .stdout => r.stdout
  | .stderr => r.stderr

/-- The outcome of a run that was read: its result, or the limit that stopped it. -/
def SupervisorResult.outcome (r : SupervisorResult) : Except ExecutionLimitCode SupervisorResult :=
  match r.termination with
  | some termination => .error (mapTermination termination)
  | none => .ok r

theorem read_refused {r : SupervisorResult}
    (h : maxResultBytes < (r.document ν).length ∨
      (supervisorResultSchema (ν := ν)).decode ((supervisorResultSchema (ν := ν)).encode r) = none) :
    readSupervisorResult ν (some (r.document ν)) = .error .outputInvalid := by
  rw [readSupervisorResult]
  split
  next => rfl
  next hsize =>
    rw [read_document, h.resolve_left hsize]

theorem read_accepted {r : SupervisorResult} (hsize : (r.document ν).length ≤ maxResultBytes)
    (hvalid : (supervisorResultSchema (ν := ν)).valid r = true) :
    readSupervisorResult ν (some (r.document ν)) = r.outcome := by
  rw [readSupervisorResult, if_neg (Nat.not_lt.mpr hsize), read_document,
    (supervisorResultSchema (ν := ν)).decode_encode hvalid]
  rfl

/-- The numbers of a result are exact. -/
structure SupervisorResult.Safe (r : SupervisorResult) : Prop where
  duration : safe r.durationMs = true
  exitCode : safe r.exitCode = true
  captured : ∀ stream, safe (r.capture stream).originalBytes = true

section results

variable [ContentHash] {events : List ChildEvent} {elapsed : Int} {r : SupervisorResult}

/-- What a run that has ended leaves, field by field. -/
structure Supervised (events : List ChildEvent) (elapsed : Int) (r : SupervisorResult) : Prop where
  duration : r.durationMs = max 0 elapsed
  exitCode : some r.exitCode = ended events
  captured : ∀ stream, r.capture stream =
    capturedOutput (Supervisor.perStreamLimit runLimits) (written stream (handled events))
  termination : r.termination = (handled events).findSome? (ChildEvent.stops runLimits)

theorem supervised_run (h : (Supervisor.run runLimits events).result elapsed = some r) : Supervised events elapsed r := by
  rw [Supervisor.result_run] at h
  obtain ⟨code, hcode, rfl⟩ := Option.map_eq_some_iff.mp h
  exact ⟨rfl, hcode.symm, fun stream => by cases stream <;> rfl, rfl⟩

theorem Supervised.safe (h : Supervised events elapsed r) (helapsed : elapsed ≤ 8640000000000000)
    (hwritten : ∀ stream, (written stream (handled events)).length ≤ 9007199254740991) : r.Safe := by
  have hrange := ended_range h.exitCode.symm
  refine ⟨decide_eq_true ?_, decide_eq_true (by omega), fun stream => ?_⟩
  · rw [h.duration]
    omega
  · rw [h.captured stream]
    exact decide_eq_true (by rw [capturedOutput, Int.natAbs_natCast]; exact hwritten stream)

/-- Of a result that a run left, the schema asks no more than its duration and its streams. -/
theorem Supervised.valid (h : Supervised events elapsed r)
    (hhash : ∀ bytes, hexDigest 64 (ContentHash.sha256 bytes) = true) (hsafe : r.Safe)
    (hwritten : ∀ stream, (written stream (handled events)).length ≤ 9007199254740991) :
    (supervisorResultSchema (ν := ν)).valid r = true ↔
      elapsed ≤ runLimits.commandTimeoutMs + 5000 ∧ ∀ stream, Reported (written stream (handled events)) := by
  have hrange := ended_range h.exitCode.symm
  have hstdout : r.stdout = _ := h.captured .stdout
  have hstderr : r.stderr = _ := h.captured .stderr
  have hbounds : r.bounded = true ↔ ∀ stream, Reported (written stream (handled events)) := by
    rw [SupervisorResult.bounded, hstdout, hstderr, Bool.and_eq_true, bounded_captured, bounded_captured]
    exact ⟨fun h stream => by cases stream <;> simp [h], fun h => ⟨h .stdout, h .stderr⟩⟩
  have htimes : supervisorDuration r.durationMs = true ↔ elapsed ≤ runLimits.commandTimeoutMs + 5000 := by
    rw [supervisorDuration, nonnegative, Bool.and_eq_true, decide_eq_true_eq, decide_eq_true_eq, h.duration]
    omega
  have hcodes : supervisorExitCode r.exitCode = true := by
    rw [supervisorExitCode, Bool.and_eq_true, decide_eq_true_eq, decide_eq_true_eq]
    omega
  rw [valid_supervisorResult, hsafe.duration, hsafe.exitCode, hcodes, hbounds, Bool.true_and, htimes, hstdout, hstderr,
    valid_captured hhash (hwritten .stderr), valid_captured hhash (hwritten .stdout)]
  simp

/-- The executor reads the result if it is readable, and takes it for invalid otherwise. -/
theorem Supervised.read (h : Supervised events elapsed r) (ν : Type) [IntegerNumber ν]
    (hhash : ∀ bytes, hexDigest 64 (ContentHash.sha256 bytes) = true) (helapsed : elapsed ≤ 8640000000000000)
    (hwritten : ∀ stream, (written stream (handled events)).length ≤ 9007199254740991) :
    (Readable ν events elapsed r → readSupervisorResult ν (some (r.document ν)) = r.outcome) ∧
      (¬Readable ν events elapsed r → readSupervisorResult ν (some (r.document ν)) = .error .outputInvalid) := by
  have hsafe := h.safe helapsed hwritten
  have hvalid := h.valid (ν := ν) hhash hsafe hwritten
  constructor
  · intro ⟨hsize, htime, hstreams⟩
    exact read_accepted hsize (hvalid.mpr ⟨htime, hstreams⟩)
  · intro hnot
    apply read_refused
    by_cases hsize : maxResultBytes < (r.document ν).length
    · exact .inl hsize
    · have hexact : (supervisorResultSchema (ν := ν)).Exact r :=
        exact_supervisorResult hsafe.duration hsafe.exitCode (hsafe.captured .stderr) (hsafe.captured .stdout)
      refine .inr (hexact.decode_none ?_)
      rw [Bool.eq_false_iff]
      intro haccepted
      obtain ⟨htime, hstreams⟩ := hvalid.mp haccepted
      exact hnot ⟨Nat.not_lt.mp hsize, htime, hstreams⟩

/-- The result is of the bytes that each stream carried, in however many chunks, and of the
first reason to stop the command. The executor reads it when it is readable, and takes it
for invalid otherwise. -/
theorem supervised_run_read (ν : Type) [IntegerNumber ν]
    (hhash : ∀ bytes, hexDigest 64 (ContentHash.sha256 bytes) = true) (events : List ChildEvent) (elapsed : Int)
    (helapsed : elapsed ≤ 8640000000000000)
    (hwritten : ∀ stream, (written stream (handled events)).length ≤ 9007199254740991) (r : SupervisorResult)
    (hresult : (Supervisor.run runLimits events).result elapsed = some r) :
    Supervised events elapsed r ∧
      (Readable ν events elapsed r → readSupervisorResult ν (some (r.document ν)) = r.outcome) ∧
      (¬Readable ν events elapsed r → readSupervisorResult ν (some (r.document ν)) = .error .outputInvalid) := by
  have hsupervised := supervised_run hresult
  exact ⟨hsupervised, hsupervised.read ν hhash helapsed hwritten⟩

end results

end documents

end ReproForge

/-! ## One byte that is not text -/

namespace ReproForge.Sample.Supervised

open JsonValues JsonValues.Decimal

/-- The digests of what the two streams carry. -/
scoped instance : ContentHash where
  sha256 bytes :=
    if bytes = [104, 105] then "8f434346648f6b96df89dda901c5176b10a6d83961dd3c1ac88b59b2dc327aa4"
    else "a8100ae6aa1940d0b663bb31cd466142ebbdbd5187131b92d93818987832eb89"

def events : List ChildEvent :=
  [.data .stdout [104], .data .stderr [255], .data .stdout [105], .close (some 0) false]

def result : SupervisorResult where
  durationMs := 40
  exitCode := 0
  stderr := ⟨1, "a8100ae6aa1940d0b663bb31cd466142ebbdbd5187131b92d93818987832eb89", "\uFFFD", false⟩
  stdout := ⟨2, "8f434346648f6b96df89dda901c5176b10a6d83961dd3c1ac88b59b2dc327aa4", "hi", false⟩
  termination := none

theorem hash_sample (bytes : List UInt8) : hexDigest 64 (ContentHash.sha256 bytes) = true := by
  simp only [ContentHash.sha256]
  split <;> decide

theorem result_sample : (Supervisor.run runLimits events).result 40 = some result := by decide +kernel

/-- The command succeeded, and its result is refused for the byte on its error stream. -/
theorem supervised_run_read_sample : readSupervisorResult Int (some (result.document Int)) = .error .outputInvalid := by
  obtain ⟨-, -, hrefused⟩ := supervised_run_read Int hash_sample events 40 (by decide)
    (fun stream => by cases stream <;> decide) result result_sample
  exact hrefused fun h => absurd (h.streams .stderr) (by rw [Reported]; decide)

end ReproForge.Sample.Supervised
