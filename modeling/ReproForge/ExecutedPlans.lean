import Mathlib
import ReproForge.BoundedExecutions

/-!
# Executed plans

What an execution that returns has seen of its session, and that nothing else
keeps it from returning: each experiment of the plan in turn was run under the
supervisor and reported, and the time they took together was within the attempt.
-/
namespace ReproForge

open JsonValues Transactions Transactions.Tx

variable {ν : Type} [DomainNumber ν]

/-! ## Calls -/

namespace ExecutorWorld

variable {w : ExecutorWorld} {calls calls' : List ExecutorCall}

theorem perform_ok {call : ExecutorCall} {answer : ExecutorAnswer} :
    w.perform call calls = (.ok answer, calls') ↔
      (w.answer calls call).rejected = false ∧ answer = w.answer calls call ∧ calls' = calls ++ [call] := by
  simp only [perform]
  split
  next h => simp [h]
  next h => simp [h, eq_comm]

theorem launch_ok {command : SandboxCommand} {answer : ExecutorAnswer} :
    w.launch command calls = (.ok answer, calls') ↔
      command.valid = true ∧ (w.answer calls (.run command)).rejected = false ∧
        answer = w.answer calls (.run command) ∧ calls' = calls ++ [.run command] := by
  simp only [launch]
  split
  next hvalid =>
    split
    next answer' calls'' hcall =>
      obtain ⟨hrejected, rfl, rfl⟩ := perform_ok.mp hcall
      simp [hvalid, hrejected, eq_comm]
    next error calls'' hcall =>
      have hrejected : (w.answer calls (.run command)).rejected = true := by
        by_contra hnot
        have hok := perform_ok.mpr ⟨Bool.eq_false_iff.mpr hnot, rfl, rfl⟩
        rw [hcall] at hok
        cases (Prod.mk.inj hok).1
      simp [hrejected]
  next hvalid => simp [hvalid]

omit [DomainNumber ν] in
theorem ofRefusal_ok {result : Except RunRefusal SupervisorConfig} {config : SupervisorConfig} :
    ofRefusal result calls = (.ok config, calls') ↔ result = .ok config ∧ calls' = calls := by
  cases result <;> simp [ofRefusal, eq_comm]

omit [DomainNumber ν] in
theorem ofLimit_ok {α : Type} {result : Except ExecutionLimitCode α} {a : α} :
    ofLimit result calls = (.ok a, calls') ↔ result = .ok a ∧ calls' = calls := by
  cases result <;> simp [ofLimit, eq_comm]

end ExecutorWorld

/-! ## One run -/

/-- The files of a run that starts after `calls`. -/
def ExecutorWorld.files (w : ExecutorWorld) (calls : List ExecutorCall) (id : String) : SupervisorFiles :=
  supervisorFiles (w.randomUUID calls) id

/-- What is written before a run: the script, and what it is told. -/
def ExecutorWorld.written (ν : Type) [IntegerNumber ν] (w : ExecutorWorld) (files : SupervisorFiles)
    (config : SupervisorConfig) : ExecutorCall :=
  .writeFiles [(files.script, w.supervisorSource), (files.config, config.document ν)]

/-- The calls of one run, in their order. -/
def runCalls (ν : Type) [IntegerNumber ν] (w : ExecutorWorld) (config : SupervisorConfig) (command : SandboxCommand)
    (files : SupervisorFiles) : List ExecutorCall :=
  [.makeDirectory files.directory, w.written ν files config, .run (supervisorLaunch files command),
    .readFile files.result]

/-- After `calls`, the session let the supervisor run the command and handed over what it wrote. -/
structure RunReported (ν : Type) [IntegerNumber ν] (w : ExecutorWorld) (input : ExecutorInput)
    (command : SandboxCommand) (id : String) (calls : List ExecutorCall) (config : SupervisorConfig)
    (result : SupervisorResult) : Prop where
  configured : RunInput.config
    ⟨w.aborted calls, command, input.environmentNetworkPolicy, input.networkPolicy, id⟩ = .ok config
  directory : (w.answer calls (.makeDirectory (w.files calls id).directory)).rejected = false
  files : (w.answer (calls ++ (runCalls ν w config command (w.files calls id)).take 1)
    (w.written ν (w.files calls id) config)).rejected = false
  launchable : (supervisorLaunch (w.files calls id) command).valid = true
  launched : (w.answer (calls ++ (runCalls ν w config command (w.files calls id)).take 2)
    (.run (supervisorLaunch (w.files calls id) command))).rejected = false
  exited : (w.answer (calls ++ (runCalls ν w config command (w.files calls id)).take 2)
    (.run (supervisorLaunch (w.files calls id) command))).exitCode = 0
  answered : (w.answer (calls ++ (runCalls ν w config command (w.files calls id)).take 3)
    (.readFile (w.files calls id).result)).rejected = false
  read : readSupervisorResult ν (w.answer (calls ++ (runCalls ν w config command (w.files calls id)).take 3)
    (.readFile (w.files calls id).result)).file = .ok result

section runs

variable {w : ExecutorWorld} {input : ExecutorInput} {command : SandboxCommand} {id : String}
  {calls calls' : List ExecutorCall} {run : BoundedRun}

/-- A run is returned exactly if it was reported and its record passes the schemas. -/
theorem executeRun_ok :
    w.executeRun ν input command id calls = (.ok run, calls') ↔
      ∃ config result, RunReported ν w input command id calls config result ∧
        run = observedRun input.environment.environmentHash input.secrets command id result ∧
        run.valid ν = true ∧ calls' = calls ++ runCalls ν w config command (w.files calls id) := by
  simp only [ExecutorWorld.executeRun, bind_ok, read_ok, ExecutorWorld.ofRefusal_ok, ExecutorWorld.perform_ok,
    ExecutorWorld.launch_ok, ExecutorWorld.ofLimit_ok, require_ok, pure_ok]
  constructor
  · rintro ⟨_, _, ⟨rfl, rfl⟩, config, _, ⟨hconfig, rfl⟩, _, _, ⟨hdirectory, rfl, rfl⟩, _, _, ⟨hfiles, rfl, rfl⟩, _, _,
      ⟨hlaunchable, hlaunched, rfl, rfl⟩, _, _, ⟨hexit, rfl⟩, _, _, ⟨hanswered, rfl, rfl⟩, result, _, ⟨hread, rfl⟩, _, _,
      ⟨-, rfl⟩, _, _, ⟨hvalid, rfl⟩, rfl, rfl⟩
    refine ⟨config, result, ?_, rfl, hvalid, ?_⟩
    · constructor
      · exact hconfig
      · exact hdirectory
      · exact hfiles
      · exact hlaunchable
      · simpa [runCalls, ExecutorWorld.files, ExecutorWorld.written] using hlaunched
      · simpa [runCalls, ExecutorWorld.files, ExecutorWorld.written] using hexit
      · simpa [runCalls, ExecutorWorld.files, ExecutorWorld.written] using hanswered
      · simpa [runCalls, ExecutorWorld.files, ExecutorWorld.written] using hread
    · simp [runCalls, ExecutorWorld.files, ExecutorWorld.written]
  · rintro ⟨config, result, hrun, rfl, hvalid, rfl⟩
    have hrecord : (runResultSchema (ν := ν)).valid
        (observedRun input.environment.environmentHash input.secrets command id result).run = true := by
      simp only [BoundedRun.valid, Bool.and_eq_true] at hvalid
      exact hvalid.2
    have hlaunched := hrun.launched
    have hexit := hrun.exited
    have hanswered := hrun.answered
    have hread := hrun.read
    simp only [runCalls, ExecutorWorld.files, ExecutorWorld.written, List.take_succ_cons, List.take_zero] at hlaunched
    simp only [runCalls, ExecutorWorld.files, ExecutorWorld.written, List.take_succ_cons, List.take_zero] at hexit
    simp only [runCalls, ExecutorWorld.files, ExecutorWorld.written, List.take_succ_cons, List.take_zero] at hanswered
    simp only [runCalls, ExecutorWorld.files, ExecutorWorld.written, List.take_succ_cons, List.take_zero] at hread
    refine ⟨calls, calls, ⟨rfl, rfl⟩, config, calls, ⟨hrun.configured, rfl⟩, _, _, ⟨hrun.directory, rfl, rfl⟩, _, _,
      ⟨hrun.files, rfl, rfl⟩, _, _, ⟨hrun.launchable, ?_, rfl, rfl⟩, (), _, ⟨?_, rfl⟩, _, _, ⟨?_, rfl, rfl⟩, result, _,
      ⟨?_, rfl⟩, (), _, ⟨hrecord, rfl⟩, (), _, ⟨hvalid, rfl⟩, rfl, ?_⟩
    · simpa using hlaunched
    · simpa using hexit
    · simpa using hanswered
    · simpa using hread
    · simp [runCalls, ExecutorWorld.files, ExecutorWorld.written]

end runs

/-! ## The experiments of a plan -/

section order

variable {α : Type} {p q : α → Bool}

/-- One element of the first kind, and those of the second after it. -/
theorem filter_one_then {l : List α} {first : Nat} {rest : List Nat} {start i : Nat}
    (hdisjoint : ∀ a, ¬(p a = true ∧ q a = true)) (hp : l.findIdxs p start = [i])
    (hq : l.findIdxs q start = first :: rest) (h : i < first) :
    ∃ a, p a = true ∧ l.filter (fun a => p a || q a) = a :: l.filter q := by
  induction l generalizing start with
  | nil => cases hp
  | cons a l ih =>
    rw [List.findIdxs_cons] at hp hq
    by_cases ha : p a = true
    · have hqa : ¬q a = true := fun hqa => hdisjoint a ⟨ha, hqa⟩
      rw [if_pos ha] at hp
      have hnone : ∀ b ∈ l, p b = false := List.findIdxs_eq_nil_iff.mp (List.cons.inj hp).2
      refine ⟨a, ha, ?_⟩
      rw [List.filter_cons_of_pos (by simp [ha]), List.filter_cons_of_neg hqa]
      refine congrArg (a :: ·) (List.filter_congr fun b hb => ?_)
      rw [hnone b hb, Bool.false_or]
    · rw [if_neg ha] at hp
      by_cases hqa : q a = true
      · rw [if_pos hqa] at hq
        have hstart : start = first := (List.cons.inj hq).1
        have hi : i ∈ l.findIdxs p (start + 1) := by rw [hp]; exact List.mem_singleton.mpr rfl
        have hle := List.ge_of_mem_findIdxs i hi
        omega
      · rw [if_neg hqa] at hq
        obtain ⟨b, hb, hfilter⟩ := ih hp hq
        refine ⟨b, hb, ?_⟩
        rw [List.filter_cons_of_neg (by simp [ha, hqa]), List.filter_cons_of_neg hqa, hfilter]

end order

theorem plan_bounds {plan : RepositoryExecutionPlan} (h : plan.valid = true) :
    3 ≤ plan.requiredRuns ∧ plan.requiredRuns ≤ 5 ∧ plan.commands.length ≤ 12 := by
  simp only [RepositoryExecutionPlan.valid, Bool.and_eq_true, decide_eq_true_iff] at h
  obtain ⟨⟨⟨⟨⟨⟨⟨⟨⟨⟨⟨⟨⟨⟨⟨-, -⟩, hcommands⟩, -⟩, -⟩, hleast⟩, hmost⟩, -⟩, -⟩, -⟩, -⟩, -⟩, -⟩, -⟩, -⟩, -⟩ := h
  exact ⟨hleast, hmost, hcommands⟩

/-- A valid plan has its control before its candidates, of which it has as many as it requires. -/
theorem experiments_eq {plan : RepositoryExecutionPlan} (h : plan.valid = true) :
    ∃ control, control.phase = .control ∧ plan.experiments = control :: plan.candidates ∧
      (plan.candidates.length : Int) = plan.requiredRuns := by
  have hbounds := plan_bounds h
  simp only [RepositoryExecutionPlan.valid, Bool.and_eq_true, decide_eq_true_iff, beq_iff_eq] at h
  obtain ⟨⟨⟨⟨⟨-, hdependencies⟩, hinstalls⟩, hcontrols⟩, hcandidates⟩, horder⟩ := h
  obtain ⟨install, hinstall⟩ := List.length_eq_one_iff.mp hinstalls
  obtain ⟨i, hi⟩ := List.length_eq_one_iff.mp hcontrols
  have hsome : plan.places .candidate ≠ [] := by
    intro hnil
    rw [hnil, List.length_nil] at hcandidates
    omega
  have hdependency : plan.places .dependencyAcquisition ≠ [] := by
    intro hnil
    simp [hnil] at hdependencies
  obtain ⟨first, rest, hfirst⟩ := List.exists_cons_of_ne_nil hsome
  obtain ⟨dependency, others, hothers⟩ := List.exists_cons_of_ne_nil hdependency
  simp only [hinstall, hi, hfirst, hothers, List.head?_cons, decide_eq_true_iff, Bool.and_eq_true] at horder
  have hdisjoint : ∀ c : SandboxCommand, ¬((c.phase == .control) = true ∧ (c.phase == .candidate) = true) := by
    intro c hboth
    rw [beq_iff_eq, beq_iff_eq] at hboth
    cases hboth.1.symm.trans hboth.2
  rw [RepositoryExecutionPlan.places] at hi hfirst
  obtain ⟨control, hcontrol, hfilter⟩ := filter_one_then hdisjoint hi hfirst horder.2
  refine ⟨control, beq_iff_eq.mp hcontrol, hfilter, ?_⟩
  have hlength : (plan.places .candidate).length = plan.candidates.length := by
    rw [RepositoryExecutionPlan.places, List.length_findIdxs, List.countP_eq_length_filter]
    rfl
  rw [← hlength, hcandidates]

/-! ## The loop -/

/-- The experiments were run one after another, each from where the one before it left the session. -/
inductive RunsReported (ν : Type) [DomainNumber ν] (w : ExecutorWorld) (input : ExecutorInput) :
    List (SandboxCommand × Nat) → List ExecutorCall → List BoundedRun → List ExecutorCall → Prop where
  | done (calls : List ExecutorCall) : RunsReported ν w input [] calls [] calls
  | next {command : SandboxCommand} {index : Nat} {rest : List (SandboxCommand × Nat)}
      {calls calls' : List ExecutorCall} {runs : List BoundedRun} {config : SupervisorConfig} {result : SupervisorResult}
      (reported : RunReported ν w input command (command.runId index) calls config result)
      (valid : (observedRun input.environment.environmentHash input.secrets command (command.runId index)
        result).valid ν = true)
      (later : RunsReported ν w input rest
        (calls ++ runCalls ν w config command (w.files calls (command.runId index))) runs calls') :
      RunsReported ν w input ((command, index) :: rest) calls
        (observedRun input.environment.environmentHash input.secrets command (command.runId index) result :: runs) calls'

def spentMs (runs : List BoundedRun) : Int := (runs.map (·.run.durationMs)).sum

section loop

variable {w : ExecutorWorld} {input : ExecutorInput} {items : List (SandboxCommand × Nat)}
  {calls calls' : List ExecutorCall} {runs : List BoundedRun}

theorem duration_nonneg {run : BoundedRun} (h : run.valid ν = true) : 0 ≤ run.run.durationMs := by
  have hform : (runResultSchema (ν := ν)).valid run.run =
      (run.run.capture.all (runCaptureSchema (ν := ν)).valid && (nonempty run.run.id && (nonempty run.run.command &&
        ((safe run.run.durationMs && nonnegative run.run.durationMs) && (nonempty run.run.environmentHash &&
          ((safe run.run.exitCode && true) && (true && (true && true)))))))) := rfl
  simp only [BoundedRun.valid, hform, Bool.and_eq_true, nonnegative, decide_eq_true_iff] at h
  exact h.2.2.2.2.1.2

theorem RunsReported.valid (h : RunsReported ν w input items calls runs calls') :
    ∀ run ∈ runs, run.valid ν = true := by
  induction h with
  | done calls => intro run hrun; cases hrun
  | next reported valid later ih =>
    intro run hrun
    cases hrun with
    | head => exact valid
    | tail _ hrun => exact ih run hrun

theorem spentMs_nonneg (h : ∀ run ∈ runs, run.valid ν = true) : 0 ≤ spentMs runs := by
  apply List.sum_nonneg
  intro d hd
  obtain ⟨run, hrun, rfl⟩ := List.mem_map.mp hd
  exact duration_nonneg (h run hrun)

/-- The loop returns exactly if the experiments were reported and the time was enough for all of them. -/
theorem executeRuns_ok {spent total : Int} (hspent : spent ≤ maxTotalAttemptMs) :
    w.executeRuns ν input items spent calls = (.ok (runs, total), calls') ↔
      RunsReported ν w input items calls runs calls' ∧ total = spent + spentMs runs ∧ total ≤ maxTotalAttemptMs := by
  induction items generalizing calls runs spent with
  | nil =>
    simp only [ExecutorWorld.executeRuns, pure_ok, Prod.mk.injEq]
    constructor
    · rintro ⟨⟨rfl, rfl⟩, rfl⟩
      exact ⟨.done _, by simp [spentMs], hspent⟩
    · rintro ⟨hreported, htotal, -⟩
      cases hreported
      exact ⟨⟨rfl, by simpa [spentMs] using htotal⟩, rfl⟩
  | cons item rest ih =>
    obtain ⟨command, index⟩ := item
    simp only [ExecutorWorld.executeRuns, bind_ok, require_ok, decide_eq_true_iff, pure_ok, Prod.mk.injEq]
    constructor
    · rintro ⟨run, calls₁, hrun, _, _, ⟨hbound, rfl⟩, ⟨later, total'⟩, calls₂, hlater, ⟨rfl, rfl⟩, rfl⟩
      obtain ⟨config, result, hreported, rfl, hvalid, rfl⟩ := executeRun_ok.mp hrun
      obtain ⟨hrest, htotal, hle⟩ := (ih hbound).mp hlater
      refine ⟨.next hreported hvalid hrest, ?_, hle⟩
      rw [htotal, spentMs, spentMs, List.map_cons, List.sum_cons, Int.add_assoc]
    · rintro ⟨hreported, htotal, hle⟩
      cases hreported with
      | @next _ _ _ _ _ runs config result hrun hvalid hrest =>
        have hlater := spentMs_nonneg hrest.valid
        rw [spentMs, List.map_cons, List.sum_cons, ← spentMs, ← Int.add_assoc] at htotal
        have hbound : spent + (observedRun input.environment.environmentHash input.secrets command
            (command.runId index) result).run.durationMs ≤ maxTotalAttemptMs := by omega
        exact ⟨_, _, executeRun_ok.mpr ⟨config, result, hrun, rfl, hvalid, rfl⟩, (), _, ⟨hbound, rfl⟩, (runs, total), _,
          (ih hbound).mpr ⟨hrest, htotal, hle⟩, ⟨rfl, rfl⟩, rfl⟩

end loop

/-! ## The execution -/

def SandboxCommand.role (command : SandboxCommand) : RunRole := if command.phase = .control then .control else .candidate

/-- What a run says of the command that it is a run of. -/
def BoundedRun.subject (r : BoundedRun) : RunRole × String × String × String :=
  (r.role, r.run.id, r.run.command, r.run.environmentHash)

/-- Where the session was made to run something, and in which phase. -/
def launches (calls : List ExecutorCall) : List (String × SandboxPhase) :=
  calls.filterMap fun call =>
    match call with
    | .run command => some (command.cwd, command.phase)
    | _ => none

/-- An execution that saw every experiment of its plan reported in time. -/
structure Executed (ν : Type) [DomainNumber ν] (w : ExecutorWorld) (input : ExecutorInput) (calls : List ExecutorCall)
    (result : BoundedExperimentResult) (calls' : List ExecutorCall) : Prop where
  confined : input.networkPolicy = "deny-all" ∧ input.environmentNetworkPolicy = "deny-all"
  plan : input.plan.valid = true
  reported : RunsReported ν w input input.plan.experiments.zipIdx calls (result.control :: result.candidates) calls'
  total : result.totalDurationMs = spentMs (result.control :: result.candidates)
  inTime : result.totalDurationMs ≤ maxTotalAttemptMs

section execution

variable {w : ExecutorWorld} {input : ExecutorInput} {items : List (SandboxCommand × Nat)}
  {calls calls' : List ExecutorCall} {runs : List BoundedRun} {result : BoundedExperimentResult}

theorem RunsReported.subjects (h : RunsReported ν w input items calls runs calls') :
    runs.map BoundedRun.subject = items.map fun item =>
      (item.1.role, item.1.runId item.2, displayCommand item.1, input.environment.environmentHash) := by
  induction h with
  | done calls => rfl
  | next reported valid later ih =>
    rw [List.map_cons, List.map_cons, ih]
    rfl

theorem RunsReported.launches (h : RunsReported ν w input items calls runs calls') :
    ∃ sent, calls' = calls ++ sent ∧ launches sent = items.map fun item => (item.1.cwd, item.1.phase) := by
  induction h with
  | done calls => exact ⟨[], (List.append_nil _).symm, rfl⟩
  | @next command index rest calls calls' runs config result reported valid later ih =>
    obtain ⟨sent, rfl, hsent⟩ := ih
    refine ⟨runCalls ν w config command (w.files calls (command.runId index)) ++ sent, List.append_assoc _ _ _, ?_⟩
    rw [ReproForge.launches, List.filterMap_append, ← ReproForge.launches, ← ReproForge.launches, hsent, List.map_cons]
    rfl

/-- The first run is that of the control, and the others are those of the candidates. -/
theorem RunsReported.roles (hplan : input.plan.valid = true)
    (h : RunsReported ν w input input.plan.experiments.zipIdx calls runs calls') :
    ∃ control candidates, runs = control :: candidates ∧ control.role = .control ∧
      (∀ run ∈ candidates, run.role = .candidate) ∧ (candidates.length : Int) = input.plan.requiredRuns := by
  obtain ⟨command, hcontrol, hexperiments, hcount⟩ := experiments_eq hplan
  have hsubjects := h.subjects
  rw [hexperiments, List.zipIdx_cons, List.map_cons] at hsubjects
  obtain ⟨control, candidates, rfl, hfirst, hothers⟩ := List.map_eq_cons_iff.mp hsubjects
  have hlength := congrArg List.length hothers
  rw [List.length_map, List.length_map, List.length_zipIdx] at hlength
  refine ⟨control, candidates, rfl, ?_, ?_, by rw [hlength, hcount]⟩
  · have hrole := congrArg Prod.fst hfirst
    rwa [SandboxCommand.role, if_pos hcontrol] at hrole
  · intro run hrun
    have hmem := List.mem_map_of_mem (f := BoundedRun.subject) hrun
    rw [hothers] at hmem
    obtain ⟨⟨command, index⟩, hitem, hsubject⟩ := List.mem_map.mp hmem
    have hcandidate := (List.mem_filter.mp (List.fst_mem_of_mem_zipIdx hitem)).2
    have hphase : command.phase = .candidate := beq_iff_eq.mp hcandidate
    have hrole := congrArg Prod.fst hsubject
    rw [SandboxCommand.role, hphase, if_neg (by decide)] at hrole
    exact hrole.symm

theorem Executed.roles (h : Executed ν w input calls result calls') :
    result.control.role = .control ∧ (∀ run ∈ result.candidates, run.role = .candidate) ∧
      (result.candidates.length : Int) = input.plan.requiredRuns := by
  obtain ⟨control, candidates, heq, hroles⟩ := h.reported.roles h.plan
  obtain ⟨rfl, rfl⟩ := List.cons.inj heq
  exact hroles

theorem Executed.valid (h : Executed ν w input calls result calls') : result.valid ν = true := by
  obtain ⟨hcontrol, hcandidates, hcount⟩ := h.roles
  have hruns := h.reported.valid
  have hspent := spentMs_nonneg hruns
  rw [← h.total] at hspent
  have hbounds := plan_bounds h.plan
  simp only [BoundedExperimentResult.valid, maxRuns, Bool.and_eq_true, decide_eq_true_iff, beq_iff_eq,
    List.all_eq_true]
  refine ⟨⟨⟨⟨⟨⟨⟨?_, by omega⟩, decide_eq_true (by omega)⟩, ?_⟩, hspent⟩, h.inTime⟩, hcontrol⟩, hcandidates⟩
  · intro run hrun
    exact hruns run (List.mem_cons_of_mem _ hrun)
  · exact hruns _ List.mem_cons_self

/-- The run of the control is found first, and those of the candidates are all the others. -/
theorem split_runs {control : BoundedRun} {candidates : List BoundedRun} (hcontrol : control.role = .control)
    (hcandidates : ∀ run ∈ candidates, run.role = .candidate) :
    (control :: candidates).find? (·.role == .control) = some control ∧
      (control :: candidates).filter (·.role == .candidate) = candidates := by
  constructor
  · rw [List.find?_cons_of_pos (by rw [hcontrol]; rfl)]
  · rw [List.filter_cons_of_neg (by rw [hcontrol]; decide), List.filter_eq_self]
    intro run hrun
    exact beq_iff_eq.mpr (hcandidates run hrun)

/-- The checks of the plan that come after its schema never refuse one. -/
theorem plan_fits {plan : RepositoryExecutionPlan} (h : plan.valid = true) :
    (decide (plan.experiments.length ≤ maxRuns + 1) && decide (plan.commands.length ≤ maxToolCalls)) = true := by
  obtain ⟨control, -, hexperiments, hcount⟩ := experiments_eq h
  have hbounds := plan_bounds h
  rw [hexperiments, List.length_cons, maxRuns, maxToolCalls, Bool.and_eq_true, decide_eq_true_iff, decide_eq_true_iff]
  omega

theorem execute_ok :
    w.execute ν input calls = (.ok result, calls') ↔ Executed ν w input calls result calls' := by
  have hstart : (0 : Int) ≤ maxTotalAttemptMs := by decide
  simp only [ExecutorWorld.execute, bind_ok, require_ok, demand_ok, pure_ok, Bool.and_eq_true, beq_iff_eq]
  constructor
  · rintro ⟨_, _, ⟨hconfined, rfl⟩, _, _, ⟨hplan, rfl⟩, _, _, ⟨-, rfl⟩, ⟨runs, total⟩, _, hruns, control, _,
      ⟨hfind, rfl⟩, _, _, ⟨hcount, rfl⟩, _, _, ⟨hvalid, rfl⟩, rfl, rfl⟩
    obtain ⟨hreported, htotal, hle⟩ := (executeRuns_ok hstart).mp hruns
    rw [Int.zero_add] at htotal
    obtain ⟨first, others, rfl, hcontrol, hcandidates, -⟩ := hreported.roles hplan
    obtain ⟨hfirst, hothers⟩ := split_runs hcontrol hcandidates
    have hsame : first = control := Option.some.inj (hfirst.symm.trans hfind)
    simp only [hothers, ← hsame]
    exact ⟨hconfined, hplan, hreported, htotal, hle⟩
  · intro h
    obtain ⟨hcontrol, hcandidates, hcount⟩ := h.roles
    obtain ⟨hfind, hfilter⟩ := split_runs hcontrol hcandidates
    have hfits := plan_fits h.plan
    have hruns := (executeRuns_ok hstart).mpr ⟨h.reported, (h.total.trans (Int.zero_add _).symm), h.inTime⟩
    refine ⟨(), _, ⟨h.confined, rfl⟩, (), _, ⟨h.plan, rfl⟩, (), _, ⟨Bool.and_eq_true_iff.mp hfits, rfl⟩, _, _, hruns, _, _,
      ⟨hfind, rfl⟩, (), _, ⟨?_, rfl⟩, (), _, ⟨?_, rfl⟩, ?_, rfl⟩
    · rw [hfilter]
      exact hcount
    · rw [hfilter]
      exact h.valid
    · rw [hfilter]

theorem Executed.launches (h : Executed ν w input calls result calls') :
    ∃ sent, calls' = calls ++ sent ∧
      ReproForge.launches sent = input.plan.experiments.map fun command => (command.cwd, command.phase) := by
  obtain ⟨sent, hcalls, hsent⟩ := h.reported.launches
  refine ⟨sent, hcalls, ?_⟩
  have hsplit : (fun item : SandboxCommand × Nat => (item.1.cwd, item.1.phase)) =
      (fun command : SandboxCommand => (command.cwd, command.phase)) ∘ Prod.fst := rfl
  rw [hsent, hsplit, ← List.map_map, List.zipIdx_map_fst]

end execution

/-- Whatever the session answers, an execution returns exactly if every experiment of the plan, in its order, was
reported under its own name and the time was enough for all of them. Then the result passes its schema, the control
and the candidates are those of the plan, all in the one environment, and nothing else was run. -/
theorem execution_reported (ν : Type) [DomainNumber ν] (w : ExecutorWorld) (input : ExecutorInput)
    (calls : List ExecutorCall) :
    (∀ result calls', w.execute ν input calls = (.ok result, calls') ↔ Executed ν w input calls result calls') ∧
      ∀ result calls', Executed ν w input calls result calls' →
        result.valid ν = true ∧
        (result.control :: result.candidates).map BoundedRun.subject = (input.plan.experiments.zipIdx.map fun item =>
          (item.1.role, item.1.runId item.2, displayCommand item.1, input.environment.environmentHash)) ∧
        (result.control.role = .control ∧ (∀ run ∈ result.candidates, run.role = .candidate) ∧
          (result.candidates.length : Int) = input.plan.requiredRuns) ∧
        ∃ sent, calls' = calls ++ sent ∧
          launches sent = input.plan.experiments.map fun command => (command.cwd, command.phase) := by
  constructor
  · exact fun result calls' => execute_ok
  · intro result calls' h
    exact ⟨h.valid, h.reported.subjects, h.roles, h.launches⟩

end ReproForge
