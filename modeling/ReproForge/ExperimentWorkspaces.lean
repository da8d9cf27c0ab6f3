import ReproForge.DependencyPreparation

/-!
# Experiment workspaces

The working directories of a plan, the directories that are prepared for it,
and the directory that the executor hands to the supervisor of a run: three
modules compute them apart from each other.
-/
namespace ReproForge

open Transactions Transactions.Tx Words

/-! ## Paths -/

/-- `path` is the directory or lies below it. -/
def Inside (directory path : String) : Prop := pathSegments directory <+: pathSegments path

instance (directory path : String) : Decidable (Inside directory path) := by
  unfold Inside
  infer_instance

/-- A directory right below the root of the workspaces. -/
def workspaceDirectory (name : String) : String := sandboxWorkspaceRoot ++ "/" ++ name

/-- The segments of the root of the workspaces. -/
def rootSegments : List (List Char) := pathSegments sandboxWorkspaceRoot

theorem pathSegments_cons {name : String} (hname : '/' ∉ name.toList) (path : String) :
    pathSegments (name ++ "/" ++ path) = name.toList :: pathSegments path := by
  have hlist : (name ++ "/" ++ path).toList = name.toList ++ (['/'] ++ path.toList) := by
    rw [String.toList_append, String.toList_append, List.append_assoc]
    rfl
  have hclean : ¬['/'] <:+: name.toList := fun hin => hname (hin.subset (List.mem_singleton.mpr rfl))
  rw [pathSegments, hlist]
  exact pieces_append (List.cons_ne_nil _ _) (by decide) hclean

theorem pathSegments_single {name : String} (hname : '/' ∉ name.toList) : pathSegments name = [name.toList] := by
  apply pieces_clean
  intro w hw hin
  rw [List.mem_singleton.mp hw] at hin
  exact hname (hin.subset (List.mem_singleton.mpr rfl))

theorem pathSegments_root (path : String) :
    pathSegments (sandboxWorkspaceRoot ++ "/" ++ path) = rootSegments ++ pathSegments path := by
  have hsplit : sandboxWorkspaceRoot ++ "/" ++ path =
      "" ++ "/" ++ ("vercel" ++ "/" ++ ("sandbox" ++ "/" ++ ("workspaces" ++ "/" ++ path))) := by
    rw [show sandboxWorkspaceRoot = "" ++ "/" ++ "vercel" ++ "/" ++ "sandbox" ++ "/" ++ "workspaces" by decide]
    simp only [String.append_assoc]
  have hroot : rootSegments = ["".toList, "vercel".toList, "sandbox".toList, "workspaces".toList] := by decide
  rw [hsplit, pathSegments_cons (by decide), pathSegments_cons (by decide), pathSegments_cons (by decide),
    pathSegments_cons (by decide), hroot]
  rfl

theorem workspaceDirectory_inj {name other : String} : workspaceDirectory name = workspaceDirectory other ↔ name = other := by
  constructor
  · intro heq
    have hlist := congrArg String.toList heq
    rw [workspaceDirectory, workspaceDirectory, String.toList_append (t := name), String.toList_append (t := other)]
      at hlist
    exact String.toList_inj.mp (List.append_cancel_left hlist)
  · exact congrArg workspaceDirectory

theorem no_slash_of_folder {name : String} (h : workspaceFolder name = true) : '/' ∉ name.toList := by
  simp only [workspaceFolder, Bool.and_eq_true, Bool.not_eq_true', List.contains_eq_mem, decide_eq_false_iff_not] at h
  exact h.2

theorem pathSegments_directory {name : String} (h : workspaceFolder name = true) :
    pathSegments (workspaceDirectory name) = rootSegments ++ [name.toList] := by
  rw [workspaceDirectory, pathSegments_root, pathSegments_single (no_slash_of_folder h)]

/-- The working directory of an experiment is its workspace, followed by the segments of the profile's. -/
theorem pathSegments_experimentCwd {name : String} (h : workspaceFolder name = true) (profile : NodeRepositoryProfile) :
    ∃ rest, pathSegments (experimentCwd (workspaceDirectory name) profile) = rootSegments ++ name.toList :: rest := by
  rw [experimentCwd]
  cases present profile.workspace with
  | none => exact ⟨[], pathSegments_directory h⟩
  | some workspace =>
    refine ⟨pathSegments workspace, ?_⟩
    have hsplit : workspaceDirectory name ++ "/" ++ workspace =
        sandboxWorkspaceRoot ++ "/" ++ (name ++ "/" ++ workspace) := by
      simp only [workspaceDirectory, String.append_assoc]
    dsimp only
    rw [hsplit, pathSegments_root, pathSegments_cons (no_slash_of_folder h)]

/-- Of all the workspaces, the working directory of an experiment lies in its own. -/
theorem inside_experimentCwd {name other : String} (h : workspaceFolder name = true)
    (hother : workspaceFolder other = true) (profile : NodeRepositoryProfile) :
    Inside (workspaceDirectory other) (experimentCwd (workspaceDirectory name) profile) ↔ other = name := by
  obtain ⟨rest, hrest⟩ := pathSegments_experimentCwd h profile
  have hsplit : rootSegments ++ name.toList :: rest = rootSegments ++ [name.toList] ++ rest := by
    rw [List.append_assoc, List.singleton_append]
  rw [Inside, pathSegments_directory hother, hrest]
  constructor
  · intro hprefix
    have hsegment := (List.prefix_append_right_inj rootSegments).mp hprefix
    rw [List.cons_prefix_cons] at hsegment
    exact String.toList_inj.mp hsegment.1
  · rintro rfl
    rw [hsplit]
    exact List.prefix_append _ _

/-! ## The executor -/

/-- `cwd.split("/").slice(0, 5).join("/")` -/
def workspaceRoot (cwd : String) : String := String.ofList (['/'].intercalate ((pathSegments cwd).take 5))

theorem workspaceRoot_experimentCwd {name : String} (h : workspaceFolder name = true)
    (profile : NodeRepositoryProfile) :
    workspaceRoot (experimentCwd (workspaceDirectory name) profile) = workspaceDirectory name := by
  obtain ⟨rest, hrest⟩ := pathSegments_experimentCwd h profile
  have hlength : rootSegments.length = 4 := by decide
  have htake : (rootSegments ++ name.toList :: rest).take 5 = rootSegments ++ [name.toList] := by
    rw [List.take_append, hlength, List.take_of_length_le (by omega)]
    rfl
  have hroot : ['/'].intercalate rootSegments = sandboxWorkspaceRoot.toList := by decide
  have hne : rootSegments ≠ [] := by decide
  rw [workspaceRoot, hrest, htake, intercalate_append _ hne (List.cons_ne_nil _ _), hroot, List.intercalate_singleton]
  apply String.toList_inj.mp
  rw [String.toList_ofList, workspaceDirectory, String.toList_append, String.toList_append, List.append_assoc]
  rfl

structure RunLimits where
  commandTimeoutMs : Nat
  maxMemoryBytes : Nat
  maxOutputBytes : Nat
  maxProcesses : Nat
  maxWorkspaceBytes : Nat
  deriving DecidableEq, Repr

/-- `EXECUTION_LIMITS`, as far as a run is under them. -/
def runLimits : RunLimits where
  commandTimeoutMs := 120000
  maxMemoryBytes := 4 * 1024 * 1024 * 1024
  maxOutputBytes := 2 * 1024 * 1024
  maxProcesses := 128
  maxWorkspaceBytes := 500 * 1024 * 1024

/-- What the supervisor of a run is started with. -/
structure SupervisorConfig where
  args : List String
  cwd : String
  executable : SandboxExecutable
  limits : RunLimits
  phase : SandboxPhase
  workspaceRoot : String
  deriving DecidableEq, Repr

structure RunInput where
  aborted : Bool
  command : SandboxCommand
  environmentNetworkPolicy : String
  networkPolicy : String
  runId : String

inductive RunRefusal where
  | providerInterrupted | schema
  deriving DecidableEq, Repr

/-- `^[A-Za-z0-9][A-Za-z0-9._-]*$`, at most 128 characters. -/
def isRunId (id : String) : Bool :=
  match id.toList with
  | [] => false
  | c :: rest => c.isAlphanum && rest.all (fun c => c.isAlphanum || c == '.' || c == '_' || c == '-') && rest.length ≤ 127

def SandboxCommand.experiment (c : SandboxCommand) : Bool := c.phase == .control || c.phase == .candidate

/-- The first part of `executeRun`, up to the configuration. -/
def RunInput.config (input : RunInput) : Except RunRefusal SupervisorConfig :=
  if input.networkPolicy ≠ "deny-all" ∨ input.environmentNetworkPolicy ≠ "deny-all" ∨ input.aborted = true then
    .error .providerInterrupted
  else if input.command.valid = false then .error .schema
  else if input.command.experiment = false then .error .providerInterrupted
  else if isRunId input.runId = false then .error .schema
  else
    .ok
      { args := input.command.args
        cwd := input.command.cwd
        executable := input.command.executable
        limits := runLimits
        phase := input.command.phase
        workspaceRoot := workspaceRoot input.command.cwd }

/-- `experimentCommands` -/
def RepositoryExecutionPlan.experiments (plan : RepositoryExecutionPlan) : List SandboxCommand :=
  plan.commands.filter SandboxCommand.experiment

/-- The identifier of the run at a place among the experiments. -/
def SandboxCommand.runId (index : Nat) (c : SandboxCommand) : String :=
  if c.phase = .control then "control-1" else "candidate-" ++ toString index

/-- The input of `execute` for the run at a place. -/
def SandboxCommand.runInput (index : Nat) (aborted : Bool) (c : SandboxCommand) : RunInput :=
  ⟨aborted, c, "deny-all", "deny-all", c.runId index⟩

/-! ## The preparation -/

inductive WorkspaceError where
  | preparation | schema
  deriving DecidableEq, Repr

structure ExperimentWorkspaces where
  candidateWorkspaces : List String
  controlWorkspace : String
  deriving DecidableEq, Repr

abbrev WorkspaceProgram (α : Type) := Tx (List SessionStep) WorkspaceError α

def workspaceCopy (source workspace : String) (phase : SandboxPhase) : SandboxCommand where
  args := ["-a", "--reflink=auto", source ++ "/.", workspace]
  cwd := source
  executable := .cp
  phase := phase
  timeoutMs := 120000

namespace SessionBehaviour

variable (behaviour : SessionBehaviour)

/-- A call of the session, with its error as the `catch` leaves it. -/
def prepareCall (call : SessionCall) : WorkspaceProgram SessionAnswer := fun trace =>
  match behaviour.perform call trace with
  | (.ok answer, trace) => (.ok answer, trace)
  | (.error _, trace) => (.error .preparation, trace)

def prepareWorkspace (source : String) (item : String × Nat) : WorkspaceProgram Unit := do
  let copy := workspaceCopy source item.1 (if item.2 = 0 then .control else .candidate)
  let _ ← behaviour.prepareCall (.makeDirectory item.1)
  require copy.valid .preparation
  let copied ← behaviour.prepareCall (.run copy)
  require (copied.exitCode == 0) .preparation

def prepareExperimentWorkspaces (networkPolicy : String) (plan : RepositoryExecutionPlan) (source : String) :
    WorkspaceProgram ExperimentWorkspaces := do
  require (networkPolicy == "deny-all" && source == sourceWorkspace) .preparation
  require plan.valid .schema
  let candidates := (List.range plan.requiredRuns.toNat).map candidateWorkspace
  let _ ← forEach (behaviour.prepareWorkspace source) (controlWorkspace :: candidates).zipIdx
  pure ⟨candidates, controlWorkspace⟩

end SessionBehaviour

/-- The directories that a session was made to create. -/
def createdDirectories (trace : List SessionStep) : List String :=
  trace.filterMap fun step =>
    match step.call, step.fate with
    | .makeDirectory path, .succeeds => some path
    | _, _ => none

section preparation

variable {behaviour : SessionBehaviour} {trace trace' : List SessionStep}

theorem prepareCall_ok {call : SessionCall} {answer : SessionAnswer}
    (h : behaviour.prepareCall call trace = (.ok answer, trace')) : trace' = trace ++ [⟨call, .succeeds⟩] := by
  simp only [SessionBehaviour.prepareCall, SessionBehaviour.perform] at h
  by_cases hfate : (behaviour trace call).fate = .succeeds
  · rw [if_pos hfate] at h
    have htrace := (Prod.mk.inj h).2
    rw [← htrace, hfate]
  · rw [if_neg hfate] at h
    cases h

/-- A workspace that is prepared is one directory that was created. -/
theorem prepareWorkspace_ok {source : String} {item : String × Nat} {u : Unit}
    (h : behaviour.prepareWorkspace source item trace = (.ok u, trace')) :
    createdDirectories trace' = createdDirectories trace ++ [item.1] := by
  simp only [SessionBehaviour.prepareWorkspace, bind_ok, require_ok] at h
  obtain ⟨_, t₁, hmake, _, _, ⟨-, rfl⟩, _, t₂, hrun, -, rfl⟩ := h
  rw [prepareCall_ok hrun, prepareCall_ok hmake, createdDirectories, createdDirectories, List.filterMap_append,
    List.filterMap_append, List.append_assoc]
  simp only [List.filterMap_cons, List.filterMap_nil, List.append_nil]

theorem prepareWorkspaces_ok {source : String} {items : List (String × Nat)} {us : List Unit}
    (h : forEach (behaviour.prepareWorkspace source) items trace = (.ok us, trace')) :
    createdDirectories trace' = createdDirectories trace ++ items.map Prod.fst := by
  induction items generalizing trace us with
  | nil =>
    obtain ⟨-, rfl⟩ := forEach_nil_ok.mp h
    rw [List.map_nil, List.append_nil]
  | cons item rest ih =>
    obtain ⟨_, t, _, hfirst, hrest, -⟩ := forEach_cons_ok.mp h
    rw [ih hrest, prepareWorkspace_ok hfirst, List.append_assoc]
    rfl

/-- The names of the workspaces of an experiment with `runs` candidates. -/
def experimentFolders (runs : Nat) : List String := "control" :: (List.range runs).map candidateFolder

theorem controlWorkspace_eq : controlWorkspace = workspaceDirectory "control" := by decide +kernel

theorem sourceWorkspace_eq : sourceWorkspace = workspaceDirectory "source" := by decide +kernel

theorem dependencyWorkspace_eq : dependencyWorkspace = workspaceDirectory "dependency-acquisition" := by
  decide +kernel

theorem experimentDirectories_eq (runs : Nat) :
    controlWorkspace :: (List.range runs).map candidateWorkspace =
      (experimentFolders runs).map workspaceDirectory := by
  have hcandidates : candidateWorkspace = workspaceDirectory ∘ candidateFolder := funext candidateWorkspace_eq
  rw [experimentFolders, List.map_cons, List.map_map, controlWorkspace_eq, hcandidates]

theorem prepareExperimentWorkspaces_ok {networkPolicy source : String} {plan : RepositoryExecutionPlan}
    {workspaces : ExperimentWorkspaces}
    (h : behaviour.prepareExperimentWorkspaces networkPolicy plan source trace = (.ok workspaces, trace')) :
    workspaces.controlWorkspace :: workspaces.candidateWorkspaces =
        (experimentFolders plan.requiredRuns.toNat).map workspaceDirectory ∧
      createdDirectories trace' = createdDirectories trace ++
        (experimentFolders plan.requiredRuns.toNat).map workspaceDirectory := by
  simp only [SessionBehaviour.prepareExperimentWorkspaces, bind_ok, require_ok, pure_ok] at h
  obtain ⟨_, _, ⟨-, rfl⟩, _, _, ⟨-, rfl⟩, _, _, hall, rfl, rfl⟩ := h
  have hcreated := prepareWorkspaces_ok hall
  rw [List.zipIdx_map_fst, experimentDirectories_eq] at hcreated
  exact ⟨experimentDirectories_eq _, hcreated⟩

/-- Every call of the session succeeds. -/
def SessionBehaviour.Obliging (behaviour : SessionBehaviour) : Prop :=
  ∀ trace call, (behaviour trace call).fate = .succeeds ∧ (behaviour trace call).exitCode = 0

theorem prepareCall_obliging (h : behaviour.Obliging) (trace : List SessionStep) (call : SessionCall) :
    behaviour.prepareCall call trace = (.ok (behaviour trace call), trace ++ [⟨call, .succeeds⟩]) := by
  have hfate := (h trace call).1
  simp only [SessionBehaviour.prepareCall, SessionBehaviour.perform]
  rw [if_pos hfate, hfate]

theorem noControlCharacters_append (s t : String) :
    noControlCharacters (s ++ t) = (noControlCharacters s && noControlCharacters t) := by
  rw [noControlCharacters, String.toList_append, List.all_append]
  rfl

theorem workspaceCopy_valid {name : String} (h : workspaceFolder name = true) (phase : SandboxPhase) :
    (workspaceCopy sourceWorkspace (workspaceDirectory name) phase).valid = true := by
  simp only [workspaceFolder, isSafeRelativePath, Bool.and_eq_true, decide_eq_true_iff] at h
  have hroot : utf16Length (sandboxWorkspaceRoot ++ "/") = 27 ∧ noControlCharacters (sandboxWorkspaceRoot ++ "/") = true := by
    decide +kernel
  have hdirectory : (utf16Length (workspaceDirectory name) ≤ 4096 && noControlCharacters (workspaceDirectory name)) =
      true := by
    rw [workspaceDirectory, utf16Length_append, noControlCharacters_append, hroot.1, hroot.2, h.1.2.1.2,
      Bool.and_true, Bool.and_true, decide_eq_true_iff]
    omega
  have hothers : (["-a", "--reflink=auto", sourceWorkspace ++ "/."].all
      (fun arg => utf16Length arg ≤ 4096 && noControlCharacters arg)) = true := by decide +kernel
  have hargs : (workspaceCopy sourceWorkspace (workspaceDirectory name) phase).args.all
      (fun arg => utf16Length arg ≤ 4096 && noControlCharacters arg) = true := by
    have hsplit : (workspaceCopy sourceWorkspace (workspaceDirectory name) phase).args =
        ["-a", "--reflink=auto", sourceWorkspace ++ "/."] ++ [workspaceDirectory name] := rfl
    rw [hsplit, List.all_append, hothers, List.all_cons, hdirectory]
    rfl
  have hcwd : (decide (utf16Length sourceWorkspace ≤ 1024) && isSandboxWorkspacePath sourceWorkspace) = true := by
    decide +kernel
  rw [Bool.and_eq_true] at hcwd
  rw [SandboxCommand.valid, hargs, show (workspaceCopy sourceWorkspace (workspaceDirectory name) phase).cwd =
    sourceWorkspace from rfl, hcwd.1, hcwd.2]
  rfl

theorem prepareWorkspace_obliging (h : behaviour.Obliging) (trace : List SessionStep) {item : String × Nat} {name : String}
    (hitem : item.1 = workspaceDirectory name) (hname : workspaceFolder name = true) :
    ∃ trace', behaviour.prepareWorkspace sourceWorkspace item trace = (.ok (), trace') := by
  let copy := workspaceCopy sourceWorkspace item.1 (if item.2 = 0 then .control else .candidate)
  have hvalid : copy.valid = true := by
    simp only [copy, hitem]
    exact workspaceCopy_valid hname _
  have hmake := prepareCall_obliging h trace (.makeDirectory item.1)
  have hrun := prepareCall_obliging h (trace ++ [⟨.makeDirectory item.1, .succeeds⟩]) (.run copy)
  have hexit : ((behaviour (trace ++ [⟨.makeDirectory item.1, .succeeds⟩]) (.run copy)).exitCode == 0) = true :=
    beq_iff_eq.mpr (h _ _).2
  exact ⟨_, bind_ok.mpr ⟨_, _, hmake, bind_ok.mpr ⟨(), _, require_ok.mpr ⟨hvalid, rfl⟩,
    bind_ok.mpr ⟨_, _, hrun, require_ok.mpr ⟨hexit, rfl⟩⟩⟩⟩⟩

theorem prepareWorkspaces_obliging (h : behaviour.Obliging) {items : List (String × Nat)}
    (hitems : ∀ item ∈ items, ∃ name, item.1 = workspaceDirectory name ∧ workspaceFolder name = true)
    (trace : List SessionStep) :
    ∃ us trace', forEach (behaviour.prepareWorkspace sourceWorkspace) items trace = (.ok us, trace') := by
  induction items generalizing trace with
  | nil => exact ⟨[], trace, rfl⟩
  | cons item rest ih =>
    obtain ⟨name, hitem, hname⟩ := hitems item List.mem_cons_self
    obtain ⟨t, hfirst⟩ := prepareWorkspace_obliging h trace hitem hname
    obtain ⟨us, t', hrest⟩ := ih (fun item hmem => hitems item (List.mem_cons_of_mem _ hmem)) t
    exact ⟨_, t', forEach_cons_ok.mpr ⟨(), t, us, hfirst, hrest, rfl⟩⟩

end preparation

/-! ## The three agree -/

theorem experimentFolders_valid {runs : Nat} (h : runs ≤ 5) {name : String} (hname : name ∈ experimentFolders runs) :
    workspaceFolder name = true := by
  obtain rfl | hname := List.mem_cons.mp hname
  · decide +kernel
  · obtain ⟨index, hindex, rfl⟩ := List.mem_map.mp hname
    exact candidateFolder_valid (Nat.lt_of_lt_of_le (List.mem_range.mp hindex) h)

theorem experimentFolders_sublist {runs : Nat} (h : runs ≤ 5) :
    (experimentFolders runs).Sublist (experimentFolders 5) :=
  ((List.range_sublist.mpr h).map _).cons_cons _

theorem experimentFolders_nodup {runs : Nat} (h : runs ≤ 5) : (experimentFolders runs).Nodup := by
  have hfive : (experimentFolders 5).Nodup := by decide +kernel
  exact (experimentFolders_sublist h).nodup hfive

/-- The experiments of a plan, in the order of their workspaces. -/
theorem experiments_planCommands (profile : NodeRepositoryProfile) (runs : Nat) :
    (planCommands profile runs).filter SandboxCommand.experiment =
      controlCommand profile :: (List.range runs).map (candidateCommand profile) := by
  have hothers : [dependencyCommand, installCommand, controlCommand profile].filter SandboxCommand.experiment =
      [controlCommand profile] := rfl
  have hcandidates : ((List.range runs).map (candidateCommand profile)).filter SandboxCommand.experiment =
      (List.range runs).map (candidateCommand profile) := by
    rw [List.filter_eq_self]
    intro c hc
    obtain ⟨index, -, rfl⟩ := List.mem_map.mp hc
    rfl
  rw [planCommands, List.filter_append, hothers, hcandidates, List.singleton_append]

theorem cwd_experiments (profile : NodeRepositoryProfile) (runs : Nat) :
    (controlCommand profile :: (List.range runs).map (candidateCommand profile)).map SandboxCommand.cwd =
      (experimentFolders runs).map (fun name => experimentCwd (workspaceDirectory name) profile) := by
  have hcandidates : SandboxCommand.cwd ∘ candidateCommand profile =
      (fun name => experimentCwd (workspaceDirectory name) profile) ∘ candidateFolder := by
    funext index
    exact congrArg (fun directory => experimentCwd directory profile) (candidateWorkspace_eq index)
  have hcontrol : (controlCommand profile).cwd = experimentCwd (workspaceDirectory "control") profile :=
    congrArg (fun directory => experimentCwd directory profile) controlWorkspace_eq
  rw [experimentFolders, List.map_cons, List.map_cons, List.map_map, List.map_map, hcandidates, hcontrol]

theorem runId_valid {index : Nat} (h : index ≤ 5) (c : SandboxCommand) : isRunId (c.runId index) = true := by
  have hcandidates : ∀ index ≤ 5, isRunId ("candidate-" ++ toString index) = true := by decide +kernel
  rw [SandboxCommand.runId]
  split
  · decide +kernel
  · exact hcandidates index h

/-- The executor accepts an experiment and derives the root from its working directory. -/
theorem config_runInput {c : SandboxCommand} (hvalid : c.valid = true) (hexperiment : c.experiment = true)
    {index : Nat} (h : index ≤ 5) :
    (c.runInput index false).config = .ok ⟨c.args, c.cwd, c.executable, runLimits, c.phase, workspaceRoot c.cwd⟩ := by
  have hid := runId_valid h c
  rw [RunInput.config, if_neg (by simp [SandboxCommand.runInput])]
  simp only [SandboxCommand.runInput, hvalid, hexperiment, hid, Bool.true_eq_false, if_false]

/-- The directories of a plan: those that the preparation creates, those that its experiments run
in and those that their supervisors measure. -/
structure DirectoriesAgree (plan : RepositoryExecutionPlan) (directories : List String) : Prop where
  distinct : directories.Nodup
  /-- A preparation that returns has created them, and one that meets no failure returns. -/
  prepared : ∀ (behaviour : SessionBehaviour) trace workspaces trace',
    behaviour.prepareExperimentWorkspaces "deny-all" plan sourceWorkspace trace = (.ok workspaces, trace') →
      workspaces.controlWorkspace :: workspaces.candidateWorkspaces = directories ∧
        createdDirectories trace' = createdDirectories trace ++ directories
  returns : ∀ (behaviour : SessionBehaviour) trace, behaviour.Obliging →
    ∃ workspaces trace',
      behaviour.prepareExperimentWorkspaces "deny-all" plan sourceWorkspace trace = (.ok workspaces, trace')
  count : plan.experiments.length = directories.length
  inside : ∀ (index : Nat) c directory, plan.experiments[index]? = some c → directories[index]? = some directory →
    (∀ other ∈ directories, Inside other c.cwd ↔ other = directory) ∧ ¬Inside sourceWorkspace c.cwd ∧
      ¬Inside dependencyWorkspace c.cwd
  root : ∀ (index : Nat) c directory, plan.experiments[index]? = some c → directories[index]? = some directory →
    ((c.runInput index false).config.map SupervisorConfig.workspaceRoot) = .ok directory

section agreement

variable {profile : NodeRepositoryProfile} {runs index : Nat} {c : SandboxCommand} {directory : String}

/-- An experiment and its directory come from one folder. -/
theorem experiment_place (hc : ((planCommands profile runs).filter SandboxCommand.experiment)[index]? = some c)
    (hdirectory : ((experimentFolders runs).map workspaceDirectory)[index]? = some directory) :
    ∃ name ∈ experimentFolders runs, directory = workspaceDirectory name ∧
      c.cwd = experimentCwd (workspaceDirectory name) profile := by
  rw [List.getElem?_map, Option.map_eq_some_iff] at hdirectory
  obtain ⟨name, hname, rfl⟩ := hdirectory
  refine ⟨name, List.mem_of_getElem? hname, rfl, ?_⟩
  have hcwd := congrArg (fun texts => texts[index]?) (cwd_experiments profile runs)
  rw [← experiments_planCommands] at hcwd
  simp only [List.getElem?_map, hc, hname, Option.map_some] at hcwd
  exact Option.some.inj hcwd

theorem experiment_inside (hruns : runs ≤ 5)
    (hc : ((planCommands profile runs).filter SandboxCommand.experiment)[index]? = some c)
    (hdirectory : ((experimentFolders runs).map workspaceDirectory)[index]? = some directory) :
    (∀ other ∈ (experimentFolders runs).map workspaceDirectory, Inside other c.cwd ↔ other = directory) ∧
      ¬Inside sourceWorkspace c.cwd ∧ ¬Inside dependencyWorkspace c.cwd := by
  obtain ⟨name, hname, rfl, hcwd⟩ := experiment_place hc hdirectory
  have hfolder := experimentFolders_valid hruns hname
  have hothers : ∀ name ∈ experimentFolders 5, "source" ≠ name ∧ "dependency-acquisition" ≠ name := by decide +kernel
  obtain ⟨hsource, hdependency⟩ := hothers name ((experimentFolders_sublist hruns).subset hname)
  rw [hcwd, sourceWorkspace_eq, dependencyWorkspace_eq]
  refine ⟨?_, ?_, ?_⟩
  · intro other hother
    obtain ⟨name', hname', rfl⟩ := List.mem_map.mp hother
    rw [inside_experimentCwd hfolder (experimentFolders_valid hruns hname'), workspaceDirectory_inj]
  · rw [inside_experimentCwd hfolder (by decide +kernel)]
    exact hsource
  · rw [inside_experimentCwd hfolder (by decide +kernel)]
    exact hdependency

theorem experiment_root (hprofile : profile.valid = true) (hruns : runs ≤ 5)
    (hc : ((planCommands profile runs).filter SandboxCommand.experiment)[index]? = some c)
    (hdirectory : ((experimentFolders runs).map workspaceDirectory)[index]? = some directory) :
    (c.runInput index false).config.map SupervisorConfig.workspaceRoot = .ok directory := by
  obtain ⟨name, hname, rfl, hcwd⟩ := experiment_place hc hdirectory
  have hmem := List.mem_filter.mp (List.mem_of_getElem? hc)
  have hvalid : c.valid = true := List.all_eq_true.mp (planCommands_valid hprofile hruns) c hmem.1
  have hindex : index ≤ 5 := by
    have hlt := (List.getElem?_eq_some_iff.mp hdirectory).1
    rw [List.length_map, experimentFolders, List.length_cons, List.length_map, List.length_range] at hlt
    omega
  have hroot : workspaceRoot c.cwd = workspaceDirectory name := by
    rw [hcwd]
    exact workspaceRoot_experimentCwd (experimentFolders_valid hruns hname) profile
  rw [config_runInput hvalid hmem.2 hindex]
  exact congrArg Except.ok hroot

theorem prepareExperimentWorkspaces_returns {behaviour : SessionBehaviour} (h : behaviour.Obliging)
    {plan : RepositoryExecutionPlan} (hplan : plan.valid = true) (hruns : plan.requiredRuns.toNat ≤ 5)
    (trace : List SessionStep) :
    ∃ workspaces trace',
      behaviour.prepareExperimentWorkspaces "deny-all" plan sourceWorkspace trace = (.ok workspaces, trace') := by
  have hitems : ∀ item ∈ (controlWorkspace :: (List.range plan.requiredRuns.toNat).map candidateWorkspace).zipIdx,
      ∃ name, item.1 = workspaceDirectory name ∧ workspaceFolder name = true := by
    intro item hitem
    have hmem := List.fst_mem_of_mem_zipIdx hitem
    rw [experimentDirectories_eq] at hmem
    obtain ⟨name, hname, heq⟩ := List.mem_map.mp hmem
    exact ⟨name, heq.symm, experimentFolders_valid hruns hname⟩
  obtain ⟨us, trace', hall⟩ := prepareWorkspaces_obliging h hitems trace
  have hopen : ("deny-all" == "deny-all" && sourceWorkspace == sourceWorkspace) = true := by simp
  exact ⟨_, trace', bind_ok.mpr ⟨(), trace, require_ok.mpr ⟨hopen, rfl⟩,
    bind_ok.mpr ⟨(), trace, require_ok.mpr ⟨hplan, rfl⟩, bind_ok.mpr ⟨us, trace', hall, rfl⟩⟩⟩⟩

end agreement

/-- Every valid profile has a plan that its schema accepts, and the plan, the
preparation of its workspaces and the executor mean the same directories. -/
theorem plan_directories_agree {profile : NodeRepositoryProfile} (hprofile : profile.valid = true)
    {requiredRuns : Int} (hleast : 3 ≤ requiredRuns) (hmost : requiredRuns ≤ 5) {source : ImmutableRepositorySource}
    (hsource : source.valid = true) :
    ∃ plan, buildNodeExecutionPlan profile requiredRuns source = some plan ∧ plan.valid = true ∧
      ∃ directories, DirectoriesAgree plan directories := by
  have hruns : requiredRuns.toNat ≤ 5 := by omega
  have hplan := plan_valid hprofile hleast hmost hsource
  refine ⟨_, buildNodeExecutionPlan_ok hprofile hleast hmost hsource, hplan,
    (experimentFolders requiredRuns.toNat).map workspaceDirectory, ?_⟩
  constructor
  · exact (experimentFolders_nodup hruns).map fun _ _ heq => workspaceDirectory_inj.mp heq
  · intro behaviour trace workspaces trace' h
    exact prepareExperimentWorkspaces_ok h
  · intro behaviour trace hobliging
    exact prepareExperimentWorkspaces_returns hobliging hplan hruns trace
  · have hlength := congrArg List.length (cwd_experiments profile requiredRuns.toNat)
    rw [← experiments_planCommands, List.length_map, List.length_map] at hlength
    rw [List.length_map]
    exact hlength
  · intro index c directory hc hdirectory
    exact experiment_inside hruns hc hdirectory
  · intro index c directory hc hdirectory
    exact experiment_root hprofile hruns hc hdirectory

/-- A profile of a package two directories below the root of its repository. -/
theorem plan_directories_agree_nested :
    ∃ plan, buildNodeExecutionPlan ⟨"test", .v22, "repro", none, some "packages/web.app"⟩ 4
        ⟨"0123456789abcdef0123456789abcdef01234567", "acme/web", true, "repo-1"⟩ = some plan ∧ plan.valid = true ∧
      ∃ directories, DirectoriesAgree plan directories :=
  plan_directories_agree (by decide +kernel) (by decide) (by decide) (by decide +kernel)

end ReproForge
