import Mathlib.Tactic.IntervalCases
import ReproForge.Bundles
import ReproForge.Records
import ReproForge.ShellWords
import ReproForge.Words

/-!
# Execution plans

The commands that a repository profile is executed with, each an argument vector
in a working directory, and the one line of shell that a bundle offers in their
place.
-/
namespace ReproForge

open JsonValues Words

variable {ν : Type}

/-! ## Profiles -/

def noControlCharacters (value : String) : Bool := value.toList.all (fun c => !(c.toNat < 32 || c.toNat == 127))

/-- `value.split("/")` -/
def pathSegments (value : String) : List (List Char) := pieces [['/']] value.toList

def isSafeRelativePath (value : String) : Bool :=
  value != "" && value.toList.head? != some '/' && !value.toList.contains '\\' && noControlCharacters value &&
    (pathSegments value).all (fun segment => !segment.isEmpty && segment != ['.'] && segment != ['.', '.'])

/-- At most 128 letters, digits and `:`, `.`, `_`, `-`, `/`, the first one a letter or a digit. -/
def scriptName (value : String) : Bool :=
  utf16Length value ≤ 128 && noControlCharacters value &&
    match value.toList with
    | [] => false
    | c :: rest => c.isAlphanum && rest.all (fun d => opaqueChar d || d == '/')

def workspaceName (value : String) : Bool := 1 ≤ utf16Length value && utf16Length value ≤ 512 && isSafeRelativePath value

def testNamePattern (value : String) : Bool :=
  1 ≤ utf16Length value && utf16Length value ≤ 256 && noControlCharacters value

inductive NodeVersion where
  | v22 | v24
  deriving DecidableEq, Repr

def NodeVersion.text : NodeVersion → String
  | .v22 => "22"
  | .v24 => "24"

structure NodeRepositoryProfile where
  controlScript : String
  nodeVersion : NodeVersion
  reproductionScript : String
  testNamePattern : Option String
  workspace : Option String
  deriving DecidableEq, Repr

def nodeVersionSchema : Schema ν NodeVersion :=
  .enumeration NodeVersion.text [.v22, .v24] (by rintro ⟨⟩ <;> rfl)

def nodeRepositoryProfileSchema : Schema ν NodeRepositoryProfile :=
  .strictObject <| .equiv
    (.required "controlScript" (.string scriptName) <|
      .required "ecosystem" (.literal "node") <|
      .required "lockfile" (.literal "package-lock.json") <|
      .required "nodeVersion" nodeVersionSchema <|
      .required "packageManager" (.literal "npm") <|
      .required "reproductionScript" (.string scriptName) <|
      .optional "testNamePattern" (.string testNamePattern) <|
      .optional "workspace" (.string workspaceName) .nil)
    { toFun := fun ⟨controlScript, _, _, nodeVersion, _, reproductionScript, pattern, workspace, _⟩ =>
        ⟨controlScript, nodeVersion, reproductionScript, pattern, workspace⟩
      invFun := fun p =>
        ⟨p.controlScript, (), (), p.nodeVersion, (), p.reproductionScript, p.testNamePattern, p.workspace, ()⟩
      left_inv := fun _ => rfl
      right_inv := fun _ => rfl }

def NodeRepositoryProfile.valid (p : NodeRepositoryProfile) : Bool :=
  scriptName p.controlScript && scriptName p.reproductionScript && p.testNamePattern.all ReproForge.testNamePattern &&
    p.workspace.all workspaceName

theorem nodeRepositoryProfileSchema_valid (p : NodeRepositoryProfile) :
    (nodeRepositoryProfileSchema (ν := ν)).valid p = p.valid := by
  have hform : (nodeRepositoryProfileSchema (ν := ν)).valid p =
      (scriptName p.controlScript && (true && (true && (true && (true && (scriptName p.reproductionScript &&
        (p.testNamePattern.all ReproForge.testNamePattern && (p.workspace.all workspaceName && true)))))))) := rfl
  rw [hform, NodeRepositoryProfile.valid]
  simp only [Bool.true_and, Bool.and_true, Bool.and_assoc]

/-! ## Commands -/

def sandboxRoot : String := "/vercel/sandbox"

def sandboxWorkspaceRoot : String := sandboxRoot ++ "/workspaces"

def isSandboxWorkspacePath (value : String) : Bool :=
  (sandboxWorkspaceRoot ++ "/").toList.isPrefixOf value.toList &&
    isSafeRelativePath (String.ofList (value.toList.drop (sandboxWorkspaceRoot.toList.length + 1)))

inductive SandboxExecutable where
  | cp | curl | find | git | mkdir | node | npm | rm | sha256sum | tar
  deriving DecidableEq, Repr

def SandboxExecutable.text : SandboxExecutable → String
  | .cp => "cp"
  | .curl => "curl"
  | .find => "find"
  | .git => "git"
  | .mkdir => "mkdir"
  | .node => "node"
  | .npm => "npm"
  | .rm => "rm"
  | .sha256sum => "sha256sum"
  | .tar => "tar"

inductive SandboxPhase where
  | sourceAcquisition | dependencyAcquisition | offlineInstall | control | candidate | artifactExport | cleanup
  deriving DecidableEq, Repr

structure SandboxCommand where
  args : List String
  cwd : String
  executable : SandboxExecutable
  phase : SandboxPhase
  timeoutMs : Int
  deriving DecidableEq, Repr

/-- `sandboxCommandSchema` -/
def SandboxCommand.valid (c : SandboxCommand) : Bool :=
  c.args.all (fun arg => utf16Length arg ≤ 4096 && noControlCharacters arg) && c.args.length ≤ 256 &&
    utf16Length c.cwd ≤ 1024 && isSandboxWorkspacePath c.cwd && 1 ≤ c.timeoutMs && c.timeoutMs ≤ 125000

structure RepositoryExecutionPlan where
  commands : List SandboxCommand
  policyVersion : String
  profile : NodeRepositoryProfile
  requiredRuns : Int
  schemaVersion : String
  source : ImmutableRepositorySource
  totalTimeoutMs : Int
  deriving DecidableEq, Repr

/-- The places of the commands of one phase. -/
def RepositoryExecutionPlan.places (plan : RepositoryExecutionPlan) (phase : SandboxPhase) : List Nat :=
  plan.commands.findIdxs (fun c => c.phase == phase)

/-- `repositoryExecutionPlanSchema` -/
def RepositoryExecutionPlan.valid (plan : RepositoryExecutionPlan) : Bool :=
  let dependencies := plan.places .dependencyAcquisition
  let installs := plan.places .offlineInstall
  let controls := plan.places .control
  let candidates := plan.places .candidate
  plan.commands.all SandboxCommand.valid && 4 ≤ plan.commands.length && plan.commands.length ≤ 12 &&
    plan.policyVersion == "node-npm-v1" && plan.profile.valid && 3 ≤ plan.requiredRuns && plan.requiredRuns ≤ 5 &&
    plan.schemaVersion == "1.0" && plan.source.valid && 1000 ≤ plan.totalTimeoutMs && plan.totalTimeoutMs ≤ 900000 &&
    !dependencies.isEmpty && installs.length == 1 && controls.length == 1 && candidates.length == plan.requiredRuns &&
    match dependencies.head?, installs.head?, controls.head?, candidates.head? with
    | some firstDependency, some install, some control, some firstCandidate =>
      firstDependency < install && install < control && control < firstCandidate
    | _, _, _, _ => true

def sourceWorkspace : String := sandboxWorkspaceRoot ++ "/source"

def dependencyWorkspace : String := sandboxWorkspaceRoot ++ "/dependency-acquisition"

def cachePath : String := sandboxRoot ++ "/npm-cache"

/-- An empty text counts as none. -/
def present (text : Option String) : Option String := text.filter (· != "")

def npmExperimentArgs (script : String) (pattern : Option String) : List String :=
  ["run", script] ++
    match present pattern with
    | some pattern => ["--", "--testNamePattern", pattern]
    | none => []

def experimentCwd (root : String) (profile : NodeRepositoryProfile) : String :=
  match present profile.workspace with
  | some workspace => root ++ "/" ++ workspace
  | none => root

def controlWorkspace : String := sandboxWorkspaceRoot ++ "/control"

def candidateWorkspace (index : Nat) : String := sandboxWorkspaceRoot ++ "/candidate-" ++ toString (index + 1)

def dependencyCommand : SandboxCommand where
  args := ["ci", "--ignore-scripts", "--no-audit", "--no-fund", "--cache", cachePath, "--prefer-online"]
  cwd := dependencyWorkspace
  executable := .npm
  phase := .dependencyAcquisition
  timeoutMs := 120000

def installCommand : SandboxCommand where
  args := ["ci", "--ignore-scripts", "--offline", "--no-audit", "--no-fund", "--cache", cachePath]
  cwd := sourceWorkspace
  executable := .npm
  phase := .offlineInstall
  timeoutMs := 120000

def controlCommand (profile : NodeRepositoryProfile) : SandboxCommand where
  args := npmExperimentArgs profile.controlScript profile.testNamePattern
  cwd := experimentCwd controlWorkspace profile
  executable := .npm
  phase := .control
  timeoutMs := 120000

def candidateCommand (profile : NodeRepositoryProfile) (index : Nat) : SandboxCommand where
  args := npmExperimentArgs profile.reproductionScript profile.testNamePattern
  cwd := experimentCwd (candidateWorkspace index) profile
  executable := .npm
  phase := .candidate
  timeoutMs := 120000

/-- The commands of a plan with `runs` candidates. -/
def planCommands (profile : NodeRepositoryProfile) (runs : Nat) : List SandboxCommand :=
  [dependencyCommand, installCommand, controlCommand profile] ++ (List.range runs).map (candidateCommand profile)

/-- Every command and the plan itself pass their schemas, or there is no plan. -/
def buildNodeExecutionPlan (profile : NodeRepositoryProfile) (requiredRuns : Int) (source : ImmutableRepositorySource) :
    Option RepositoryExecutionPlan :=
  let commands := planCommands profile requiredRuns.toNat
  let plan := ⟨commands, "node-npm-v1", profile, requiredRuns, "1.0", source, 900000⟩
  if profile.valid && source.valid && 3 ≤ requiredRuns && requiredRuns ≤ 5 && commands.all SandboxCommand.valid &&
      plan.valid then some plan
  else none

/-! ## The command of a bundle -/

/-- In single quotes, with each single quote in it in double quotes. -/
def shellQuote (value : String) : String := String.ofList (Shell.quoted value.toList)

def reproductionCommand (profile : NodeRepositoryProfile) : String :=
  " ".intercalate <| ["npm", "run", shellQuote profile.reproductionScript] ++
    match present profile.testNamePattern with
    | some pattern => ["--", "--testNamePattern", shellQuote pattern]
    | none => []

/-- The directory below `root`. -/
def relativeDirectory (root directory : String) : Option String :=
  if directory = root then some ""
  else if (root ++ "/").toList.isPrefixOf directory.toList then
    some (String.ofList (directory.toList.drop (root.toList.length + 1)))
  else none

/-- What a command runs, seen from the copy of the repository at `root`. -/
def SandboxCommand.invocation (root : String) (c : SandboxCommand) : Option Shell.Invocation :=
  (relativeDirectory root c.cwd).map (fun directory => ⟨directory, c.executable.text, c.args⟩)

def RepositoryExecutionPlan.candidates (plan : RepositoryExecutionPlan) : List SandboxCommand :=
  plan.commands.filter (fun c => c.phase == .candidate)

theorem reads_quote (value : String) : Shell.Reads (shellQuote value).toList value.toList := by
  intro rest
  rw [shellQuote, String.toList_ofList, Shell.read_quoted]

theorem reads_plain {value : String} (hne : value.toList ≠ [])
    (h : (value.toList.all (fun c => !Shell.special c)) = true) : Shell.Reads value.toList value.toList := by
  intro rest
  refine Shell.read_plain hne ?_ rest
  intro c hc
  simpa using List.all_eq_true.mp h c hc

/-- A shell reads the exported command as npm with the arguments of the candidates. -/
theorem words_reproductionCommand (profile : NodeRepositoryProfile) :
    Shell.words (reproductionCommand profile) =
      some ("npm" :: npmExperimentArgs profile.reproductionScript profile.testNamePattern) := by
  have hnpm : Shell.Reads "npm".toList "npm".toList := reads_plain (by decide) (by decide)
  have hrun : Shell.Reads "run".toList "run".toList := reads_plain (by decide) (by decide)
  have hdashes : Shell.Reads "--".toList "--".toList := reads_plain (by decide) (by decide)
  have hoption : Shell.Reads "--testNamePattern".toList "--testNamePattern".toList :=
    reads_plain (by decide) (by decide)
  have hscript := reads_quote profile.reproductionScript
  have hblank : " ".toList = [' '] := rfl
  rw [Shell.words, reproductionCommand, npmExperimentArgs, String.toList_intercalate, hblank]
  cases present profile.testNamePattern with
  | none =>
    let texts : List (List Char × List Char) := [("npm".toList, "npm".toList), ("run".toList, "run".toList),
      ((shellQuote profile.reproductionScript).toList, profile.reproductionScript.toList)]
    have hread : Shell.read .plain none ([' '].intercalate (texts.map Prod.fst)) = some (texts.map Prod.snd) :=
      Shell.read_joined (List.cons_ne_nil _ _) (by
          simp only [texts, List.forall_mem_cons, List.not_mem_nil, false_implies, implies_true, and_true]
          exact ⟨hnpm, hrun, hscript⟩)
    simp only [texts, List.map_cons, List.map_nil] at hread
    simp only [List.append_nil, List.map_cons, List.map_nil, hread, Option.map_some, String.ofList_toList]
  | some pattern =>
    let texts : List (List Char × List Char) := [("npm".toList, "npm".toList), ("run".toList, "run".toList),
      ((shellQuote profile.reproductionScript).toList, profile.reproductionScript.toList), ("--".toList, "--".toList),
      ("--testNamePattern".toList, "--testNamePattern".toList), ((shellQuote pattern).toList, pattern.toList)]
    have hread : Shell.read .plain none ([' '].intercalate (texts.map Prod.fst)) = some (texts.map Prod.snd) :=
      Shell.read_joined (List.cons_ne_nil _ _) (by
          simp only [texts, List.forall_mem_cons, List.not_mem_nil, false_implies, implies_true, and_true]
          exact ⟨hnpm, hrun, hscript, hdashes, hoption, reads_quote pattern⟩)
    simp only [texts, List.map_cons, List.map_nil] at hread
    simp only [List.cons_append, List.nil_append, List.map_cons, List.map_nil, hread, Option.map_some,
      String.ofList_toList]

theorem interpret_reproductionCommand (profile : NodeRepositoryProfile) (directory : String) :
    Shell.interpret directory (reproductionCommand profile) =
      some ⟨directory, "npm", npmExperimentArgs profile.reproductionScript profile.testNamePattern⟩ := by
  rw [Shell.interpret, words_reproductionCommand]
  rfl

/-! ## Every valid profile has a plan -/

theorem utf16Length_append (s t : String) : utf16Length (s ++ t) = utf16Length s + utf16Length t := by
  rw [utf16Length, String.toList_append, List.map_append, List.sum_append]
  rfl

theorem present_some {text : Option String} {s : String} : present text = some s ↔ text = some s ∧ s ≠ "" := by
  rw [present, Option.filter_eq_some_iff, bne_iff_ne]

/-- The names of the workspaces. -/
def workspaceFolder (name : String) : Bool :=
  utf16Length name ≤ 64 && isSafeRelativePath name && !name.toList.contains '/'

theorem safe_join {name path : String} (hname : workspaceFolder name = true) (hpath : isSafeRelativePath path = true) :
    isSafeRelativePath (name ++ "/" ++ path) = true := by
  simp only [workspaceFolder, isSafeRelativePath, Bool.and_eq_true, bne_iff_ne, ne_eq, Bool.not_eq_true',
    decide_eq_true_iff] at hname hpath ⊢
  obtain ⟨⟨-, ⟨⟨⟨hne, hhead⟩, hslash⟩, hcontrol⟩, hsegments⟩, hflat⟩ := hname
  obtain ⟨⟨⟨⟨-, -⟩, hslash'⟩, hcontrol'⟩, hsegments'⟩ := hpath
  have hlist : (name ++ "/" ++ path).toList = name.toList ++ ('/' :: path.toList) := by
    rw [String.toList_append, String.toList_append, List.append_assoc]
    rfl
  have hone : ¬['/'] <:+: name.toList := by
    intro hin
    have hmem : '/' ∈ name.toList := hin.subset (List.mem_singleton.mpr rfl)
    rw [List.contains_eq_mem, decide_eq_false_iff_not] at hflat
    exact hflat hmem
  have hcut : pathSegments (name ++ "/" ++ path) = name.toList :: pathSegments path := by
    rw [pathSegments, hlist]
    exact pieces_append (List.cons_ne_nil _ _) (by decide) hone
  have hfirst : pathSegments name = [name.toList] := by
    apply pieces_clean
    intro w hw
    rw [List.mem_singleton.mp hw]
    exact hone
  rw [hfirst, List.all_cons, Bool.and_eq_true] at hsegments
  obtain ⟨c, rest, hcons⟩ := List.exists_cons_of_ne_nil (fun hnil => hne (String.toList_inj.mp hnil))
  refine ⟨⟨⟨⟨?_, ?_⟩, ?_⟩, ?_⟩, ?_⟩
  · intro hempty
    have := congrArg String.toList hempty
    rw [hlist, hcons] at this
    cases this
  · rw [hlist, hcons, List.cons_append, List.head?_cons]
    rw [hcons, List.head?_cons] at hhead
    exact hhead
  · rw [hlist, List.contains_append, hslash, Bool.false_or, List.contains_cons, hslash']
    rfl
  · rw [noControlCharacters, hlist, List.all_append, List.all_cons, Bool.and_eq_true, Bool.and_eq_true]
    exact ⟨hcontrol, by decide, hcontrol'⟩
  · rw [hcut, List.all_cons, hsegments.1, Bool.true_and]
    exact hsegments'

theorem sandboxPath_valid {path : String} (h : isSafeRelativePath path = true) :
    isSandboxWorkspacePath (sandboxWorkspaceRoot ++ "/" ++ path) = true := by
  have hlist : (sandboxWorkspaceRoot ++ "/" ++ path).toList = (sandboxWorkspaceRoot ++ "/").toList ++ path.toList :=
    String.toList_append
  have hlength : sandboxWorkspaceRoot.toList.length + 1 = (sandboxWorkspaceRoot ++ "/").toList.length := by
    rw [String.toList_append, List.length_append]
    rfl
  rw [isSandboxWorkspacePath, Bool.and_eq_true, hlist, hlength, List.drop_left, String.ofList_toList]
  exact ⟨List.isPrefixOf_iff_prefix.mpr (List.prefix_append _ _), h⟩

theorem experimentCwd_valid {name : String} (hname : workspaceFolder name = true) {profile : NodeRepositoryProfile}
    (hprofile : profile.valid = true) :
    utf16Length (experimentCwd (sandboxWorkspaceRoot ++ "/" ++ name) profile) ≤ 1024 ∧
      isSandboxWorkspacePath (experimentCwd (sandboxWorkspaceRoot ++ "/" ++ name) profile) = true := by
  have hfolder := hname
  simp only [workspaceFolder, Bool.and_eq_true, decide_eq_true_iff] at hfolder
  have hroot : utf16Length (sandboxWorkspaceRoot ++ "/") = 27 := by decide +kernel
  rw [experimentCwd]
  cases hworkspace : present profile.workspace with
  | none =>
    dsimp only
    refine ⟨?_, sandboxPath_valid hfolder.1.2⟩
    rw [utf16Length_append, hroot]
    omega
  | some workspace =>
    dsimp only
    obtain ⟨hsome, -⟩ := present_some.mp hworkspace
    simp only [NodeRepositoryProfile.valid, hsome, Option.all_some, workspaceName, Bool.and_eq_true,
      decide_eq_true_iff] at hprofile
    have hslash : utf16Length "/" = 1 := by decide
    constructor
    · rw [utf16Length_append, utf16Length_append, utf16Length_append, hroot, hslash]
      omega
    · rw [show sandboxWorkspaceRoot ++ "/" ++ name ++ "/" ++ workspace =
        sandboxWorkspaceRoot ++ "/" ++ (name ++ "/" ++ workspace) by simp only [String.append_assoc]]
      exact sandboxPath_valid (safe_join hname hprofile.2.2)

theorem npmExperimentArgs_valid {script : String} (hscript : scriptName script = true) {pattern : Option String}
    (hpattern : pattern.all testNamePattern = true) :
    ((npmExperimentArgs script pattern).all (fun arg => utf16Length arg ≤ 4096 && noControlCharacters arg)) = true ∧
      (npmExperimentArgs script pattern).length ≤ 256 := by
  simp only [scriptName, Bool.and_eq_true, decide_eq_true_iff] at hscript
  have hscript' : (utf16Length script ≤ 4096 && noControlCharacters script) = true := by
    rw [Bool.and_eq_true, decide_eq_true_iff]
    exact ⟨by omega, hscript.1.2⟩
  rw [npmExperimentArgs]
  cases hpresent : present pattern with
  | none =>
    dsimp only
    refine ⟨?_, by simp⟩
    rw [List.append_nil, List.all_cons, List.all_cons, hscript']
    decide +kernel
  | some p =>
    dsimp only
    obtain ⟨rfl, -⟩ := present_some.mp hpresent
    simp only [Option.all_some, testNamePattern, Bool.and_eq_true, decide_eq_true_iff] at hpattern
    have hpattern' : (utf16Length p ≤ 4096 && noControlCharacters p) = true := by
      rw [Bool.and_eq_true, decide_eq_true_iff]
      exact ⟨by omega, hpattern.2⟩
    refine ⟨?_, by simp⟩
    rw [List.cons_append, List.cons_append, List.nil_append, List.all_cons, List.all_cons, List.all_cons, List.all_cons,
      List.all_cons, hscript', hpattern']
    decide +kernel

theorem experimentCommand_valid {script : String} {name : String} (hscript : scriptName script = true)
    (hname : workspaceFolder name = true) {profile : NodeRepositoryProfile} (hprofile : profile.valid = true)
    (phase : SandboxPhase) :
    SandboxCommand.valid ⟨npmExperimentArgs script profile.testNamePattern,
      experimentCwd (sandboxWorkspaceRoot ++ "/" ++ name) profile, .npm, phase, 120000⟩ = true := by
  have hpattern : profile.testNamePattern.all testNamePattern = true := by
    simp only [NodeRepositoryProfile.valid, Bool.and_eq_true] at hprofile
    exact hprofile.1.2
  obtain ⟨hargs, hcount⟩ := npmExperimentArgs_valid hscript hpattern
  obtain ⟨hlength, hpath⟩ := experimentCwd_valid hname hprofile
  simp only [SandboxCommand.valid, hargs, hcount, hlength, hpath, decide_true, Bool.and_true, Bool.true_and]
  rfl

def candidateFolder (index : Nat) : String := "candidate-" ++ toString (index + 1)

theorem candidateWorkspace_eq (index : Nat) :
    candidateWorkspace index = sandboxWorkspaceRoot ++ "/" ++ candidateFolder index := by
  have hslash : "/candidate-" = "/" ++ "candidate-" := by decide
  rw [candidateWorkspace, candidateFolder, hslash, String.append_assoc, String.append_assoc, String.append_assoc]

theorem candidateFolder_valid {index : Nat} (h : index < 5) : workspaceFolder (candidateFolder index) = true := by
  interval_cases index <;> decide +kernel

theorem candidateCommand_valid {profile : NodeRepositoryProfile} (hprofile : profile.valid = true) {index : Nat}
    (h : index < 5) : (candidateCommand profile index).valid = true := by
  have hscript : scriptName profile.reproductionScript = true := by
    simp only [NodeRepositoryProfile.valid, Bool.and_eq_true] at hprofile
    exact hprofile.1.1.2
  rw [candidateCommand, candidateWorkspace_eq]
  exact experimentCommand_valid hscript (candidateFolder_valid h) hprofile .candidate

theorem controlCommand_valid {profile : NodeRepositoryProfile} (hprofile : profile.valid = true) :
    (controlCommand profile).valid = true := by
  have hscript : scriptName profile.controlScript = true := by
    simp only [NodeRepositoryProfile.valid, Bool.and_eq_true] at hprofile
    exact hprofile.1.1.1
  have hroot : controlWorkspace = sandboxWorkspaceRoot ++ "/" ++ "control" := by decide +kernel
  rw [controlCommand, hroot]
  exact experimentCommand_valid hscript (by decide +kernel) hprofile .control

theorem planCommands_valid {profile : NodeRepositoryProfile} (hprofile : profile.valid = true) {runs : Nat}
    (h : runs ≤ 5) : (planCommands profile runs).all SandboxCommand.valid = true := by
  have hdependency : dependencyCommand.valid = true := by decide +kernel
  have hinstall : installCommand.valid = true := by decide +kernel
  rw [planCommands, List.all_append, List.all_cons, List.all_cons, List.all_cons, hdependency, hinstall,
    controlCommand_valid hprofile, List.all_nil, List.all_map, Bool.and_self, Bool.and_self, Bool.true_and]
  apply List.all_eq_true.mpr
  intro index hindex
  exact candidateCommand_valid hprofile (Nat.lt_of_lt_of_le (List.mem_range.mp hindex) h)

theorem plan_valid {profile : NodeRepositoryProfile} (hprofile : profile.valid = true) {requiredRuns : Int}
    (hleast : 3 ≤ requiredRuns) (hmost : requiredRuns ≤ 5) {source : ImmutableRepositorySource}
    (hsource : source.valid = true) :
    RepositoryExecutionPlan.valid
      ⟨planCommands profile requiredRuns.toNat, "node-npm-v1", profile, requiredRuns, "1.0", source, 900000⟩ = true := by
  have hcommands : (planCommands profile requiredRuns.toNat).all SandboxCommand.valid = true :=
    planCommands_valid hprofile (by omega)
  rw [RepositoryExecutionPlan.valid]
  dsimp only
  rw [hcommands, hprofile, hsource]
  interval_cases requiredRuns <;> rfl

/-- Every valid profile has a plan. -/
theorem buildNodeExecutionPlan_ok {profile : NodeRepositoryProfile} (hprofile : profile.valid = true)
    {requiredRuns : Int} (hleast : 3 ≤ requiredRuns) (hmost : requiredRuns ≤ 5) {source : ImmutableRepositorySource}
    (hsource : source.valid = true) :
    buildNodeExecutionPlan profile requiredRuns source =
      some ⟨planCommands profile requiredRuns.toNat, "node-npm-v1", profile, requiredRuns, "1.0", source, 900000⟩ := by
  have hcommands : (planCommands profile requiredRuns.toNat).all SandboxCommand.valid = true :=
    planCommands_valid hprofile (by omega)
  rw [buildNodeExecutionPlan]
  rw [plan_valid hprofile hleast hmost hsource, hcommands, hprofile, hsource, decide_eq_true hleast,
    decide_eq_true hmost]
  rfl

theorem candidates_planCommands (profile : NodeRepositoryProfile) (runs : Nat) :
    (planCommands profile runs).filter (fun c => c.phase == .candidate) =
      (List.range runs).map (candidateCommand profile) := by
  have hothers : [dependencyCommand, installCommand, controlCommand profile].filter (fun c => c.phase == .candidate) =
      [] := rfl
  rw [planCommands, List.filter_append, hothers, List.nil_append, List.filter_eq_self]
  intro c hc
  obtain ⟨index, -, rfl⟩ := List.mem_map.mp hc
  rfl

theorem relativeDirectory_below (root path : String) : relativeDirectory root (root ++ "/" ++ path) = some path := by
  have hlist : (root ++ "/" ++ path).toList = (root ++ "/").toList ++ path.toList := String.toList_append
  have hlength : root.toList.length + 1 = (root ++ "/").toList.length := by
    rw [String.toList_append, List.length_append]
    rfl
  have hne : root ++ "/" ++ path ≠ root := by
    intro heq
    have := congrArg (fun s : String => s.toList.length) heq
    simp only [hlist, List.length_append, ← hlength] at this
    omega
  rw [relativeDirectory, if_neg hne, if_pos, hlist, hlength, List.drop_left, String.ofList_toList]
  rw [hlist]
  exact List.isPrefixOf_iff_prefix.mpr (List.prefix_append _ _)

/-- A candidate runs in the workspace of the profile. -/
theorem relativeDirectory_experimentCwd (root : String) (profile : NodeRepositoryProfile) :
    relativeDirectory root (experimentCwd root profile) = some ((present profile.workspace).getD "") := by
  rw [experimentCwd]
  cases present profile.workspace with
  | none => exact if_pos rfl
  | some workspace => exact relativeDirectory_below root workspace

theorem invocation_candidateCommand (profile : NodeRepositoryProfile) (index : Nat) :
    (candidateCommand profile index).invocation (candidateWorkspace index) =
      some ⟨(present profile.workspace).getD "", "npm",
        npmExperimentArgs profile.reproductionScript profile.testNamePattern⟩ := by
  rw [SandboxCommand.invocation, candidateCommand, relativeDirectory_experimentCwd]
  rfl

end ReproForge
