import ReproForge.DependencyMetadata
import ReproForge.Exits

/-!
# Preparation of dependencies

`NodeDependencyPreparer.prepare` against a session whose calls may fail before
or after they take effect: the network is open to the registry for one command,
and the preparation does not end, except with one error, before it is shut.
-/
namespace ReproForge

open JsonValues Transactions Transactions.Tx

/-! ## Sessions -/

inductive SandboxNetworkPolicy where
  | denyAll
  | allowHosts (allowedHosts : List String) (phase : String)
  deriving DecidableEq, Repr

inductive SessionCall where
  | readFile (path : String)
  | makeDirectory (path : String)
  | run (command : SandboxCommand)
  | setNetworkPolicy (policy : SandboxNetworkPolicy)
  deriving DecidableEq, Repr

inductive CallFate where
  | succeeds
  | failsBefore
  /-- The call takes effect and reports a failure. -/
  | failsAfter
  deriving DecidableEq, Repr

/-- What the session makes of a call; the file and the exit code are read where the call has one. -/
structure SessionAnswer where
  fate : CallFate
  file : Option (List UInt8)
  exitCode : Int

structure SessionStep where
  call : SessionCall
  fate : CallFate
  deriving DecidableEq, Repr

/-- An answer to every call, whatever was called before. -/
abbrev SessionBehaviour := List SessionStep → SessionCall → SessionAnswer

/-- A program that calls the session; its store is the calls made so far. -/
abbrev SessionProgram (α : Type) := Tx (List SessionStep) PreparationError α

def SessionBehaviour.perform (behaviour : SessionBehaviour) (call : SessionCall) : SessionProgram SessionAnswer :=
  fun trace =>
    let answer := behaviour trace call
    let trace' := trace ++ [⟨call, answer.fate⟩]
    if answer.fate = .succeeds then (.ok answer, trace') else (.error .session, trace')

/-! ## The preparation -/

structure PreparationInput where
  manifest : ArchiveManifest
  profile : NodeRepositoryProfile
  sourceWorkspace : String

structure PreparedDependencies where
  metadata : DependencyMetadata
  installWorkspace : String
  networkPolicy : SandboxNetworkPolicy
  deriving DecidableEq, Repr

def assertSourceWorkspace (path : String) : Bool := isSandboxWorkspacePath path

def PreparationInput.packagePath (input : PreparationInput) : String :=
  match input.profile.workspace with
  | some workspace => input.sourceWorkspace ++ "/" ++ workspace ++ "/package.json"
  | none => input.sourceWorkspace ++ "/package.json"

def copyCommand (sourceWorkspace : String) : SandboxCommand where
  args := ["-a", sourceWorkspace ++ "/.", dependencyWorkspace]
  cwd := sourceWorkspace
  executable := .cp
  phase := .dependencyAcquisition
  timeoutMs := 120000

def acquisitionCommand : SandboxCommand where
  args := ["ci", "--ignore-scripts", "--no-audit", "--no-fund", "--cache", cachePath, "--prefer-online"]
  cwd := dependencyWorkspace
  executable := .npm
  phase := .dependencyAcquisition
  timeoutMs := 120000

def offlineInstallCommand (sourceWorkspace : String) : SandboxCommand where
  args := ["ci", "--ignore-scripts", "--offline", "--no-audit", "--no-fund", "--cache", cachePath]
  cwd := sourceWorkspace
  executable := .npm
  phase := .offlineInstall
  timeoutMs := 120000

def npmAcquisition : SandboxNetworkPolicy := .allowHosts ["registry.npmjs.org"] "npm-acquisition"

def failed (code : DependencyPreparationCode) : PreparationError := .preparation code

def ofExcept {α : Type} (x : Except PreparationError α) : SessionProgram α := fun trace => (x, trace)

namespace SessionBehaviour

variable (behaviour : SessionBehaviour)

/-- `Promise.all` starts both calls before it waits for one. -/
def readBoth (path path' : String) : SessionProgram (Option (List UInt8) × Option (List UInt8)) := fun trace =>
  match behaviour.perform (.readFile path) trace with
  | (first, trace) =>
    match behaviour.perform (.readFile path') trace with
    | (second, trace) => (first.bind fun a => second.map fun b => (a.file, b.file), trace)

/-- `session.run(sandboxCommandSchema.parse(command))`, and a check of the exit code. -/
def runCommand (command : SandboxCommand) (code : DependencyPreparationCode) : SessionProgram Unit := do
  require command.valid .schema
  let result ← behaviour.perform (.run command)
  require (result.exitCode == 0) (failed code)

/-- The body of the `try`, with the errors as the `catch` leaves them. -/
def acquire : SessionProgram Unit := fun trace =>
  match (do
    let _ ← behaviour.perform (.setNetworkPolicy npmAcquisition)
    behaviour.runCommand acquisitionCommand .dependencyAcquisitionFailed : SessionProgram Unit) trace with
  | (.ok _, trace) => (.ok (), trace)
  | (.error (.preparation code), trace) => (.error (.preparation code), trace)
  | (.error _, trace) => (.error (failed .dependencyAcquisitionFailed), trace)

/-- The `finally`: the network may be open from the first line of the `try` on, and an error of the lockdown
takes the place of any other. -/
def lockedAfter (body : SessionProgram Unit) : SessionProgram Unit := fun trace =>
  match body trace with
  | (outcome, trace) =>
    match behaviour.perform (.setNetworkPolicy .denyAll) trace with
    | (.ok _, trace) => (outcome, trace)
    | (.error _, trace) => (.error (failed .networkLockdownFailed), trace)

def prepare (ν : Type) [PropertyOrder] [IntegerNumber ν] [UrlReader] [ContentHash] (input : PreparationInput) :
    SessionProgram PreparedDependencies := do
  require input.profile.valid .schema
  require (assertSourceWorkspace input.sourceWorkspace) (failed .unsupportedSource)
  let files ← behaviour.readBoth input.packagePath (input.sourceWorkspace ++ "/package-lock.json")
  let packageBytes ← demand files.1 (failed .unsupportedSource)
  let lockBytes ← demand files.2 (failed .unsupportedSource)
  let metadata ← ofExcept (validateNodeDependencyMetadata ν ⟨lockBytes, input.manifest, packageBytes, input.profile⟩)
  let _ ← behaviour.perform (.makeDirectory dependencyWorkspace)
  let _ ← behaviour.perform (.makeDirectory cachePath)
  behaviour.runCommand (copyCommand input.sourceWorkspace) .dependencyAcquisitionFailed
  behaviour.lockedAfter behaviour.acquire
  behaviour.runCommand (offlineInstallCommand input.sourceWorkspace) .offlineInstallFailed
  pure ⟨metadata, input.sourceWorkspace, .denyAll⟩

end SessionBehaviour

/-! ## The network along a trace -/

/-- The last change of the policy was a lockdown that succeeded. -/
def LockedDown (trace : List SessionStep) : Prop :=
  ∃ before after, trace = before ++ ⟨.setNetworkPolicy .denyAll, .succeeds⟩ :: after ∧
    ∀ step ∈ after, ∀ policy, step.call ≠ .setNetworkPolicy policy

/-- No policy that opens the network was asked for, whatever the answer. -/
def NeverOpened (trace : List SessionStep) : Prop :=
  ∀ step ∈ trace, ∀ policy, step.call = .setNetworkPolicy policy → policy = .denyAll

/-- The commands that may start after a trace: the acquisition alone while the network may be open, and the offline
install only once it is shut. -/
def Permits (trace : List SessionStep) (command : SandboxCommand) : Prop :=
  (NeverOpened trace ∨ LockedDown trace ∨ command = acquisitionCommand) ∧
    (command.phase = .offlineInstall → LockedDown trace)

/-- Every command of the trace was permitted when it was asked for. -/
def SessionConfined (trace : List SessionStep) : Prop :=
  ∀ before step after, trace = before ++ step :: after → ∀ command, step.call = .run command → Permits before command

theorem sessionConfined_nil : SessionConfined [] := by
  intro before step after h
  exact absurd h (by simp)

theorem SessionConfined.snoc {trace : List SessionStep} (h : SessionConfined trace) {step : SessionStep}
    (hstep : ∀ command, step.call = .run command → Permits trace command) : SessionConfined (trace ++ [step]) := by
  intro before step' after hsplit command hrun
  rcases List.eq_nil_or_concat after with rfl | ⟨rest, last, rfl⟩
  · obtain ⟨rfl, hlast⟩ := List.append_inj' hsplit rfl
    obtain rfl := List.singleton_inj.mp hlast
    exact hstep command hrun
  · rw [List.concat_eq_append, ← List.cons_append, ← List.append_assoc] at hsplit
    obtain ⟨rfl, -⟩ := List.append_inj' hsplit rfl
    exact h before step' rest rfl command hrun

theorem NeverOpened.snoc {trace : List SessionStep} (h : NeverOpened trace) {step : SessionStep}
    (hstep : ∀ policy, step.call ≠ .setNetworkPolicy policy) : NeverOpened (trace ++ [step]) := by
  intro s hs policy hcall
  rcases List.mem_append.mp hs with hs | hs
  · exact h s hs policy hcall
  · obtain rfl := List.mem_singleton.mp hs
    exact absurd hcall (hstep policy)

theorem LockedDown.snoc {trace : List SessionStep} (h : LockedDown trace) {step : SessionStep}
    (hstep : ∀ policy, step.call ≠ .setNetworkPolicy policy) : LockedDown (trace ++ [step]) := by
  obtain ⟨before, after, rfl, hafter⟩ := h
  refine ⟨before, after ++ [step], by rw [List.append_assoc, List.cons_append], ?_⟩
  intro s hs policy
  rcases List.mem_append.mp hs with hs | hs
  · exact hafter s hs policy
  · obtain rfl := List.mem_singleton.mp hs
    exact hstep policy

theorem lockedDown_denyAll (trace : List SessionStep) :
    LockedDown (trace ++ [⟨.setNetworkPolicy .denyAll, .succeeds⟩]) :=
  ⟨trace, [], rfl, fun _ h => absurd h List.not_mem_nil⟩

/-! ## Stages of the preparation -/

section stages

variable {behaviour : SessionBehaviour}

structure BeforeOpening (trace : List SessionStep) : Prop where
  confined : SessionConfined trace
  never : NeverOpened trace

structure AfterLockdown (trace : List SessionStep) : Prop where
  confined : SessionConfined trace
  locked : LockedDown trace

/-- How the preparation ends: with the network shut, unless it reports that it could not be shut. -/
structure Ended (error : PreparationError) (trace : List SessionStep) : Prop where
  confined : SessionConfined trace
  shut : error ≠ failed .networkLockdownFailed → NeverOpened trace ∨ LockedDown trace

theorem BeforeOpening.ended {trace : List SessionStep} (h : BeforeOpening trace) (e : PreparationError) :
    Ended e trace := ⟨h.confined, fun _ => .inl h.never⟩

theorem AfterLockdown.ended {trace : List SessionStep} (h : AfterLockdown trace) (e : PreparationError) :
    Ended e trace := ⟨h.confined, fun _ => .inr h.locked⟩

/-- A call is recorded with its fate; it returns when that is success. -/
theorem perform_eq (call : SessionCall) (trace : List SessionStep) :
    behaviour.perform call trace =
      (if (behaviour trace call).fate = .succeeds then .ok (behaviour trace call) else .error .session,
        trace ++ [⟨call, (behaviour trace call).fate⟩]) := by
  by_cases h : (behaviour trace call).fate = .succeeds
  · rw [if_pos h]
    exact if_pos h
  · rw [if_neg h]
    exact if_neg h

theorem leads_perform {P Q : List SessionStep → Prop} {E : PreparationError → List SessionStep → Prop}
    {call : SessionCall} (hreturns : ∀ trace, P trace → Q (trace ++ [⟨call, .succeeds⟩]))
    (hthrows : ∀ trace fate, P trace → E .session (trace ++ [⟨call, fate⟩])) :
    Leads P (behaviour.perform call) (fun _ => Q) E where
  returns := by
    intro trace answer trace' hp h
    rw [perform_eq] at h
    obtain ⟨hanswer, rfl⟩ := Prod.mk.inj h
    split at hanswer
    · rename_i hfate
      rw [hfate]
      exact hreturns trace hp
    · cases hanswer
  throws := by
    intro trace e trace' hp h
    rw [perform_eq] at h
    obtain ⟨hanswer, rfl⟩ := Prod.mk.inj h
    split at hanswer
    · cases hanswer
    · cases hanswer
      exact hthrows trace _ hp

theorem BeforeOpening.snoc {trace : List SessionStep} (h : BeforeOpening trace) (call : SessionCall)
    (hpolicy : ∀ policy, call ≠ .setNetworkPolicy policy)
    (hrun : ∀ command, call = .run command → command.phase ≠ .offlineInstall) (fate : CallFate) :
    BeforeOpening (trace ++ [⟨call, fate⟩]) where
  confined := h.confined.snoc fun command hcall => ⟨.inl h.never, fun hphase => absurd hphase (hrun command hcall)⟩
  never := h.never.snoc hpolicy

theorem AfterLockdown.snoc {trace : List SessionStep} (h : AfterLockdown trace) (call : SessionCall)
    (hpolicy : ∀ policy, call ≠ .setNetworkPolicy policy) (fate : CallFate) :
    AfterLockdown (trace ++ [⟨call, fate⟩]) where
  confined := h.confined.snoc fun _ _ => ⟨.inr (.inl h.locked), fun _ => h.locked⟩
  locked := h.locked.snoc hpolicy

theorem leads_readBoth (path path' : String) :
    Leads BeforeOpening (behaviour.readBoth path path') (fun _ => BeforeOpening) Ended := by
  have htrace : ∀ trace, BeforeOpening trace → BeforeOpening (behaviour.readBoth path path' trace).2 := by
    intro trace h
    have hread : ∀ t, BeforeOpening t → ∀ p, BeforeOpening (behaviour.perform (.readFile p) t).2 := by
      intro t ht p
      rw [perform_eq]
      exact ht.snoc (.readFile p) (fun _ h => nomatch h) (fun _ h => nomatch h) _
    exact hread _ (hread trace h path) path'
  constructor
  · intro trace files trace' hb h
    have hafter := htrace trace hb
    rw [h] at hafter
    exact hafter
  · intro trace e trace' hb h
    have hafter := htrace trace hb
    rw [h] at hafter
    exact hafter.ended e

/-- A command that the trace permits, whatever comes of it. -/
theorem leads_runCommand {P : List SessionStep → Prop} {E : PreparationError → List SessionStep → Prop}
    {command : SandboxCommand} {code : DependencyPreparationCode}
    (hsnoc : ∀ trace fate, P trace → P (trace ++ [⟨.run command, fate⟩])) (hthrows : ∀ trace e, P trace → E e trace) :
    Leads P (behaviour.runCommand command code) (fun _ => P) E := by
  unfold SessionBehaviour.runCommand
  refine leads_bind (leads_require fun trace hp _ => hthrows trace _ hp) ?_
  intro _
  have hperform : Leads (fun trace => P trace ∧ command.valid = true) (behaviour.perform (.run command))
      (fun _ => P) E :=
    leads_perform (fun trace hp => hsnoc trace _ hp.1) (fun trace fate hp => hthrows _ _ (hsnoc trace fate hp.1))
  refine leads_bind hperform ?_
  intro result
  exact (leads_require fun trace hp _ => hthrows trace _ hp).weaken (fun _ h => h) (fun _ _ h => h.1) (fun _ _ h => h)

/-- While the network may be open, the one command is the acquisition. -/
theorem acquire_confined {trace : List SessionStep} (h : BeforeOpening trace) :
    SessionConfined (behaviour.acquire trace).2 := by
  have hopen : Leads BeforeOpening (behaviour.perform (.setNetworkPolicy npmAcquisition)) (fun _ => SessionConfined)
      (fun _ => SessionConfined) :=
    leads_perform (fun _ hb => hb.confined.snoc fun _ hcall => nomatch hcall)
      (fun _ _ hb => hb.confined.snoc fun _ hcall => nomatch hcall)
  have hrun : Leads SessionConfined (behaviour.runCommand acquisitionCommand .dependencyAcquisitionFailed)
      (fun _ => SessionConfined) (fun _ => SessionConfined) := by
    refine leads_runCommand (fun _ _ hc => hc.snoc ?_) (fun _ _ hc => hc)
    rintro _ ⟨⟩
    exact ⟨.inr (.inr rfl), fun hphase => nomatch hphase⟩
  have hbody := Leads.store (leads_bind hopen fun _ => hrun) h
  unfold SessionBehaviour.acquire
  split
  · rename_i heq
    rw [heq] at hbody
    exact hbody
  · rename_i heq
    rw [heq] at hbody
    exact hbody
  · rename_i heq
    rw [heq] at hbody
    exact hbody

theorem leads_lockedAfter :
    Leads BeforeOpening (behaviour.lockedAfter behaviour.acquire) (fun _ => AfterLockdown) Ended := by
  have hstore : ∀ trace, BeforeOpening trace → SessionConfined ((behaviour.acquire trace).2 ++
      [⟨.setNetworkPolicy .denyAll, (behaviour (behaviour.acquire trace).2 (.setNetworkPolicy .denyAll)).fate⟩]) :=
    fun trace h => (acquire_confined h).snoc fun _ hcall => nomatch hcall
  constructor
  · intro trace _ trace' h hx
    have hconfined := hstore trace h
    unfold SessionBehaviour.lockedAfter at hx
    simp only [perform_eq] at hx
    split at hx
    · rename_i hlock
      obtain ⟨hlock, rfl⟩ := Prod.mk.inj hlock
      split at hlock
      · rename_i hfate
        obtain ⟨-, rfl⟩ := Prod.mk.inj hx
        rw [hfate] at hconfined ⊢
        exact ⟨hconfined, lockedDown_denyAll _⟩
      · cases hlock
    · cases (Prod.mk.inj hx).1
  · intro trace e trace' h hx
    have hconfined := hstore trace h
    unfold SessionBehaviour.lockedAfter at hx
    simp only [perform_eq] at hx
    split at hx
    · rename_i hlock
      obtain ⟨hlock, rfl⟩ := Prod.mk.inj hlock
      split at hlock
      · rename_i hfate
        obtain ⟨-, rfl⟩ := Prod.mk.inj hx
        rw [hfate] at hconfined ⊢
        exact ⟨hconfined, fun _ => .inr (lockedDown_denyAll _)⟩
      · cases hlock
    · rename_i hlock
      obtain ⟨-, rfl⟩ := Prod.mk.inj hlock
      obtain ⟨he, rfl⟩ := Prod.mk.inj hx
      exact ⟨hconfined, fun hne => absurd (Except.error.inj he).symm hne⟩

theorem leads_ofExcept {α : Type} {P : List SessionStep → Prop} {E : PreparationError → List SessionStep → Prop}
    (x : Except PreparationError α) (h : ∀ trace e, P trace → E e trace) : Leads P (ofExcept x) (fun _ => P) E where
  returns := by
    intro trace a trace' hp hx
    obtain ⟨-, rfl⟩ := Prod.mk.inj hx
    exact hp
  throws := by
    intro trace e trace' hp hx
    obtain ⟨-, rfl⟩ := Prod.mk.inj hx
    exact h trace e hp

theorem leads_check {P : List SessionStep → Prop} {b : Bool} {e : PreparationError} (h : ∀ trace, P trace → Ended e trace) :
    Leads P (require b e : SessionProgram Unit) (fun _ => P) Ended :=
  (leads_require fun trace hp _ => h trace hp).weaken (fun _ h => h) (fun _ _ h => h.1) (fun _ _ h => h)

theorem leads_unwrap {α : Type} {P : List SessionStep → Prop} {o : Option α} {e : PreparationError}
    (h : ∀ trace, P trace → Ended e trace) : Leads P (demand o e : SessionProgram α) (fun _ => P) Ended :=
  (leads_demand fun trace hp _ => h trace hp).weaken (fun _ h => h) (fun _ _ h => h.1) (fun _ _ h => h)

theorem leads_makeDirectory (path : String) :
    Leads BeforeOpening (behaviour.perform (.makeDirectory path)) (fun _ => BeforeOpening) Ended :=
  leads_perform (fun _ h => h.snoc (.makeDirectory path) (fun _ hc => nomatch hc) (fun _ hc => nomatch hc) _)
    (fun _ fate h => (h.snoc (.makeDirectory path) (fun _ hc => nomatch hc) (fun _ hc => nomatch hc) fate).ended _)

theorem leads_copy (sourceWorkspace : String) (code : DependencyPreparationCode) :
    Leads BeforeOpening (behaviour.runCommand (copyCommand sourceWorkspace) code) (fun _ => BeforeOpening) Ended := by
  refine leads_runCommand (fun _ fate h =>
    h.snoc (.run (copyCommand sourceWorkspace)) (fun _ hc => nomatch hc) ?_ fate) (fun _ e h => h.ended e)
  rintro _ ⟨⟩
  exact fun hphase => nomatch hphase

theorem leads_install (sourceWorkspace : String) (code : DependencyPreparationCode) :
    Leads AfterLockdown (behaviour.runCommand (offlineInstallCommand sourceWorkspace) code) (fun _ => AfterLockdown)
      Ended :=
  leads_runCommand (fun _ fate h => h.snoc (.run (offlineInstallCommand sourceWorkspace)) (fun _ hc => nomatch hc) fate)
    (fun _ e h => h.ended e)

variable {ν : Type} [PropertyOrder] [IntegerNumber ν] [UrlReader] [ContentHash]

theorem leads_prepare (behaviour : SessionBehaviour) (input : PreparationInput) :
    Leads BeforeOpening (behaviour.prepare ν input) (fun _ => AfterLockdown) Ended := by
  have hquiet : ∀ e trace, BeforeOpening trace → Ended e trace := fun e _ h => h.ended e
  unfold SessionBehaviour.prepare
  refine leads_bind (leads_check (hquiet _)) fun _ => ?_
  refine leads_bind (leads_check (hquiet _)) fun _ => ?_
  refine leads_bind (leads_readBoth _ _) fun files => ?_
  refine leads_bind (leads_unwrap (hquiet _)) fun packageBytes => ?_
  refine leads_bind (leads_unwrap (hquiet _)) fun lockBytes => ?_
  refine leads_bind (leads_ofExcept _ fun _ e h => h.ended e) fun metadata => ?_
  refine leads_bind (leads_makeDirectory _) fun _ => ?_
  refine leads_bind (leads_makeDirectory _) fun _ => ?_
  refine leads_bind (leads_copy _ _) fun _ => ?_
  refine leads_bind leads_lockedAfter fun _ => ?_
  refine leads_bind (leads_install _ _) fun _ => ?_
  exact leads_pure _ fun _ h => h

end stages

/-- Whatever the session does: every command was permitted when it started, and the preparation returns, or throws
anything but the one error, with the network never opened or shut again. -/
theorem network_lockdown (ν : Type) [PropertyOrder] [IntegerNumber ν] [UrlReader] [ContentHash]
    (behaviour : SessionBehaviour) (input : PreparationInput) :
    SessionConfined (behaviour.prepare ν input []).2 ∧
      ((behaviour.prepare ν input []).1 ≠ .error (failed .networkLockdownFailed) →
        NeverOpened (behaviour.prepare ν input []).2 ∨ LockedDown (behaviour.prepare ν input []).2) := by
  have hstart : BeforeOpening [] := ⟨sessionConfined_nil, fun _ h => absurd h List.not_mem_nil⟩
  have hleads := leads_prepare (ν := ν) behaviour input
  cases hx : behaviour.prepare ν input [] with
  | mk reply trace =>
    cases reply with
    | ok prepared =>
      have hafter := hleads.returns hstart hx
      exact ⟨hafter.confined, fun _ => .inr hafter.locked⟩
    | error e =>
      have hended := hleads.throws hstart hx
      refine ⟨hended.confined, ?_⟩
      intro hne
      exact hended.shut fun he => hne (congrArg Except.error he)

end ReproForge
