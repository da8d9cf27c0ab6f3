import Mathlib
import ReproForge.SandboxLifecycle

/-!
# The results of runs from a snapshot

A result has one value for each experiment, in order, and the restores are as
many as the experiments and the retries. Every call settles after a bounded
number of replies, and until then it always waits for some reply.
-/
namespace ReproForge

open LifecycleEvent

variable {β : Type}

/-- What the loops of `execute` have done so far. -/
structure LoopCount (β : Type) where
  values : List β
  restores : Nat
  providerRetries : Nat

namespace LoopCount

variable {k : SnapshotRunCoordinator} {i : AttemptInput} {c : LoopCount β} {index retries pending : Nat}

/-- After `index` experiments and some retries of the next, with or without a restore on the way. -/
structure Tally (k : SnapshotRunCoordinator) (c : LoopCount β) (index retries pending : Nat) : Prop where
  values : c.values.length = index
  restores : c.restores = index + c.providerRetries + pending
  bounded : c.providerRetries ≤ index * k.maxProviderRetries + retries
  retries_le : retries ≤ k.maxProviderRetries

/-- A call that fails has not come to the end of the last experiment. -/
structure Failed (k : SnapshotRunCoordinator) (i : AttemptInput) (c : LoopCount β) : Prop where
  values : c.values.length < i.runCount
  restores : c.restores ≤ c.values.length + c.providerRetries + 1
  bounded : c.providerRetries ≤ i.runCount * k.maxProviderRetries

/-- Where the loops are, by the phase. -/
def Progress (k : SnapshotRunCoordinator) (i : AttemptInput) (c : LoopCount β) : SnapshotPhase β → Prop
  | .snapshotting | .stoppingPrepared _ => c.Tally k 0 0 0
  | .creating index retries _ | .running index retries _ _ => index < i.runCount ∧ c.Tally k index retries 1
  | .stopping _ (.retry index retries) _ => index < i.runCount ∧ c.Tally k index retries 0
  | .stopping _ (.next index) _ => index ≤ i.runCount ∧ c.Tally k index 0 0
  | .stopping _ (.fail _) _ => c.Failed k i
  | .closing none _ | .deleting none _ | .recording none _ => c.Tally k i.runCount 0 0
  | .closing (some _) _ | .deleting (some _) _ | .recording (some _) _ => c.Failed k i
  | .settled (.ok result) =>
    c.Tally k i.runCount 0 0 ∧ result.values = c.values ∧ result.providerRetries = c.providerRetries
  | .settled (.error _) => c.Failed k i

theorem Tally.failed (h : c.Tally k index retries pending) (hindex : index < i.runCount) (hpending : pending ≤ 1) :
    c.Failed k i where
  values := h.values ▸ hindex
  restores := by
    have hr := h.restores
    have hv := h.values
    omega
  bounded := by
    have hb := h.bounded
    have hr := h.retries_le
    calc c.providerRetries ≤ index * k.maxProviderRetries + k.maxProviderRetries := by omega
      _ = (index + 1) * k.maxProviderRetries := (Nat.succ_mul _ _).symm
      _ ≤ i.runCount * k.maxProviderRetries := Nat.mul_le_mul_right _ hindex

theorem Tally.restore (h : c.Tally k index retries 0) : { c with restores := c.restores + 1 }.Tally k index retries 1 where
  values := h.values
  restores := congrArg (· + 1) h.restores
  bounded := h.bounded
  retries_le := h.retries_le

/-- A failed restore or run is retried. -/
theorem Tally.retry (h : c.Tally k index retries 1) (hretries : retries < k.maxProviderRetries) :
    { c with providerRetries := c.providerRetries + 1 }.Tally k index (retries + 1) 0 where
  values := h.values
  restores := by
    have hr := h.restores
    simp only
    omega
  bounded := Nat.succ_le_succ h.bounded
  retries_le := hretries

theorem Tally.push (h : c.Tally k index retries 1) (value : β) :
    { c with values := c.values ++ [value] }.Tally k (index + 1) 0 0 where
  values := by
    rw [List.length_append, h.values]
    rfl
  restores := by
    have hr := h.restores
    simp only
    omega
  bounded := by
    have hb := h.bounded
    have hr := h.retries_le
    have hs : (index + 1) * k.maxProviderRetries = index * k.maxProviderRetries + k.maxProviderRetries := Nat.succ_mul _ _
    simp only
    omega
  retries_le := Nat.zero_le _

end LoopCount

namespace LifecycleTrace

theorem restores_append (events : LifecycleTrace β) (event : LifecycleEvent β) :
    LifecycleTrace.restores (events ++ [event]) = events.restores + (restoreCall event).toList.length := by
  simp only [restores, List.filterMap_append, List.filterMap_cons, List.filterMap_nil]
  cases restoreCall event <;> simp

/-- Each value was returned by an experiment of its index, in a session that was handed over. -/
def Observed (events : LifecycleTrace β) (values : List β) : Prop :=
  ∀ (index : Nat) (value : β), values[index]? = some value →
    ∃ session, .created (some session) ∈ events ∧ .run index session ∈ events ∧ .ran index session (.ok value) ∈ events

theorem Observed.append {events : LifecycleTrace β} {values : List β} (h : events.Observed values)
    (added : LifecycleTrace β) : LifecycleTrace.Observed (events ++ added) values := by
  intro index value hv
  obtain ⟨session, hcreated, hrun, hran⟩ := h index value hv
  exact ⟨session, List.mem_append_left _ hcreated, List.mem_append_left _ hrun, List.mem_append_left _ hran⟩

end LifecycleTrace

namespace SnapshotRun

open LifecycleTrace LoopCount

variable {k : SnapshotRunCoordinator} {i : AttemptInput} {r : SnapshotRun β} {session : SandboxSession}
  {snapshotId : String} {index retries pending : Nat}

def count (r : SnapshotRun β) : LoopCount β := ⟨r.values, r.events.restores, r.providerRetries⟩

theorem log_phase (event : LifecycleEvent β) : (r.log event).phase = r.phase := rfl

theorem count_log (r : SnapshotRun β) (event : LifecycleEvent β) (h : restoreCall event = none) : (r.log event).count = r.count := by
  have hr := restores_append r.events event
  rw [h] at hr
  simp only [count, log, hr]
  rfl

theorem count_cleanupSession (r : SnapshotRun β) (session : SandboxSession) : (r.cleanupSession session).count = r.count := by
  unfold cleanupSession
  split
  · rfl
  · exact count_log _ _ rfl

/-! ## What each part of `execute` counts -/

structure Counted (k : SnapshotRunCoordinator) (i : AttemptInput) (r : SnapshotRun β) : Prop where
  progress : r.count.Progress k i r.phase
  observed : r.events.Observed r.values
  running : ∀ index retries session snapshotId, r.phase = .running index retries session snapshotId →
    .created (some session) ∈ r.events ∧ .run index session ∈ r.events

theorem Counted.log (h : r.Counted k i) (event : LifecycleEvent β) (hevent : restoreCall event = none) :
    (r.log event).Counted k i where
  progress := (count_log r event hevent).symm ▸ h.progress
  observed := h.observed.append [event]
  running := by
    intro index retries session snapshotId hphase
    obtain ⟨hcreated, hrun⟩ := h.running index retries session snapshotId hphase
    exact ⟨List.mem_append_left _ hcreated, List.mem_append_left _ hrun⟩

theorem observed_cleanupSession (h : r.events.Observed r.values) (session : SandboxSession) :
    (r.cleanupSession session).events.Observed (r.cleanupSession session).values := by
  unfold cleanupSession
  split
  · exact h
  · exact h.append _

theorem close_counted {failure : Option AttemptLifecycleCode} {taken : Option String}
    (hprogress : r.count.Progress k i (.closing failure taken)) (hobserved : r.events.Observed r.values) :
    (r.close i failure taken).Counted k i where
  progress := (count_cleanupSession r i.preparedSession).symm ▸ hprogress
  observed := observed_cleanupSession hobserved i.preparedSession
  running := nofun

theorem attempt_counted (hindex : index < i.runCount) (h : r.count.Tally k index retries 0)
    (hobserved : r.events.Observed r.values) : (r.attempt i index retries snapshotId).Counted k i := by
  unfold attempt
  split
  · exact close_counted (h.failed hindex (Nat.zero_le 1)) hobserved
  · refine ⟨⟨hindex, ?_⟩, hobserved.append _, nofun⟩
    have hcount : ((r.become (.creating index retries snapshotId)).log (.createFromSnapshot snapshotId)).count =
        { r.count with restores := r.count.restores + 1 } := by
      simp only [count, SnapshotRun.log, become, restores_append]
      rfl
    rw [hcount]
    exact h.restore

theorem experiment_counted (hindex : index ≤ i.runCount) (h : r.count.Tally k index 0 0)
    (hobserved : r.events.Observed r.values) : (r.experiment i index snapshotId).Counted k i := by
  unfold experiment
  split
  · rename_i hlt
    exact attempt_counted hlt h hobserved
  · rename_i hge
    obtain rfl : index = i.runCount := by omega
    exact close_counted h hobserved

theorem release_counted {after : AfterRun} (hprogress : r.count.Progress k i (.stopping session after snapshotId))
    (hobserved : r.events.Observed r.values) : (r.release session after snapshotId).Counted k i where
  progress := (count_cleanupSession r session).symm ▸ hprogress
  observed := observed_cleanupSession hobserved session
  running := nofun

theorem finish_counted {failure : Option AttemptLifecycleCode} {taken : Option String}
    (hprogress : r.count.Progress k i (.closing failure taken)) (hobserved : r.events.Observed r.values) :
    (r.finish failure).Counted k i := by
  cases failure with
  | none => exact ⟨⟨hprogress, rfl, rfl⟩, hobserved, nofun⟩
  | some code => exact ⟨hprogress, hobserved, nofun⟩

/-! ## Steps -/

theorem snapshotReply_counted (h : r.Counted k i) (hphase : r.phase = .snapshotting) (reply : Option String) :
    ((r.log (.snapshotted reply)).snapshotReply i reply).Counted k i := by
  obtain ⟨hp, ho, -⟩ := h.log (.snapshotted reply) rfl
  rw [log_phase, hphase] at hp
  cases reply with
  | none => exact close_counted (hp.failed i.counted.1 (Nat.zero_le 1)) ho
  | some snapshotId =>
    exact ⟨(count_cleanupSession (r.log _) i.preparedSession).symm ▸ hp, observed_cleanupSession ho _, nofun⟩

theorem createReply_counted (h : r.Counted k i) (hphase : r.phase = .creating index retries snapshotId)
    (reply : Option SandboxSession) :
    ((r.log (.created reply)).createReply k i index retries snapshotId reply).Counted k i := by
  obtain ⟨hp, ho, -⟩ := h.log (.created reply) rfl
  rw [log_phase, hphase] at hp
  cases reply with
  | none =>
    simp only [createReply]
    split
    · exact close_counted (hp.2.failed hp.1 le_rfl) ho
    · split
      · rename_i hretries
        exact attempt_counted hp.1 (hp.2.retry hretries) ho
      · exact close_counted (hp.2.failed hp.1 le_rfl) ho
  | some session =>
    have hcount : (((r.log (.created (some session))).become (.running index retries session snapshotId)).log
        (.run index session)).count = (r.log (.created (some session))).count := count_log _ _ rfl
    refine ⟨hcount.symm ▸ hp, ho.append _, ?_⟩
    intro index' retries' session' snapshotId' hrunning
    cases hrunning
    exact ⟨List.mem_append_left _ (List.mem_append_right _ List.mem_cons_self),
      List.mem_append_right _ List.mem_cons_self⟩

theorem runReply_counted (h : r.Counted k i) (hphase : r.phase = .running index retries session snapshotId)
    (reply : Except RunError β) :
    ((r.log (.ran index session reply)).runReply k index retries session snapshotId reply).Counted k i := by
  obtain ⟨hp, ho, hr⟩ := h.log (.ran index session reply) rfl
  obtain ⟨hcreated, hrun⟩ := hr index retries session snapshotId hphase
  rw [log_phase, hphase] at hp
  have hfailed : (r.log (.ran index session reply)).count.Failed k i := hp.2.failed hp.1 le_rfl
  cases reply with
  | ok value =>
    simp only [runReply]
    split
    · exact release_counted hfailed ho
    · refine release_counted ⟨hp.1, hp.2.push value⟩ ?_
      intro index' value' hv
      have hlength : r.values.length = index := hp.2.values
      by_cases hlt : index' < r.values.length
      · exact ho index' value' ((List.getElem?_append_left hlt).symm.trans hv)
      · have hbound : index' < (r.values ++ [value]).length := (List.getElem?_eq_some_iff.mp hv).1
        rw [List.length_append, List.length_singleton] at hbound
        obtain rfl : index' = index := by omega
        have hlast : (r.values ++ [value])[index']? = some value := by
          rw [← hlength, List.getElem?_concat_length]
        obtain rfl : value = value' := Option.some.inj (hlast.symm.trans hv)
        exact ⟨session, hcreated, hrun, List.mem_append_right _ List.mem_cons_self⟩
  | error error =>
    simp only [runReply]
    split
    · exact release_counted hfailed ho
    · split
      · exact release_counted hfailed ho
      · split
        · rename_i hretry
          have hretries : retries < k.maxProviderRetries := by simpa using (Bool.and_eq_true_iff.mp hretry).2
          exact release_counted ⟨hp.1, hp.2.retry hretries⟩ ho
        · repeat' split
          all_goals exact release_counted hfailed ho

theorem resume_counted (h : r.Counted k i) : (r.resume i).Counted k i := by
  obtain ⟨hp, ho, hr⟩ := h
  cases hphase : r.phase with
  | stoppingPrepared snapshotId =>
    simp only [resume, hphase]
    split
    · rw [hphase] at hp
      exact experiment_counted (Nat.zero_le _) hp ho
    · exact ⟨hp, ho, hr⟩
  | stopping session after snapshotId =>
    simp only [resume, hphase]
    split
    · rw [hphase] at hp
      cases after with
      | retry index retries => exact attempt_counted hp.1 hp.2 ho
      | next index => exact experiment_counted hp.1 hp.2 ho
      | fail code => exact close_counted hp ho
    · exact ⟨hp, ho, hr⟩
  | closing failure taken =>
    simp only [resume, hphase]
    split
    · rw [hphase] at hp
      cases taken with
      | some snapshotId =>
        have hcount : ((r.become (.deleting failure snapshotId)).log (.delete snapshotId)).count = r.count := count_log _ _ rfl
        refine ⟨hcount.symm ▸ ?_, ho.append _, fun _ _ _ _ hrunning => by cases hrunning⟩
        cases failure with
        | none => exact hp
        | some code => exact hp
      | none => exact finish_counted hp ho
    · exact ⟨hp, ho, hr⟩
  | _ =>
    simp only [resume, hphase]
    exact ⟨hp, ho, hr⟩

theorem deleteReply_counted {failure : Option AttemptLifecycleCode} (h : r.Counted k i)
    (hphase : r.phase = .deleting failure snapshotId) (gone : Bool) :
    (r.deleteReply i failure snapshotId gone).Counted k i := by
  obtain ⟨hp, ho, -⟩ := h.log (.returned (.snapshot snapshotId) gone) rfl
  rw [log_phase, hphase] at hp
  have hclosing : (r.log (.returned (.snapshot snapshotId) gone)).count.Progress k i (.closing failure none) := by
    cases failure with
    | none => exact hp
    | some code => exact hp
  cases gone with
  | true => exact finish_counted hclosing ho
  | false =>
    have hcount : (((r.log (.returned (.snapshot snapshotId) false)).quarantine i (.snapshot snapshotId)).become
        (.recording failure snapshotId)).count = (r.log (.returned (.snapshot snapshotId) false)).count :=
      count_log (r.log (.returned (.snapshot snapshotId) false)) (.record _ (.snapshot snapshotId)) rfl
    refine ⟨hcount.symm ▸ ?_, ho.append _, fun _ _ _ _ hrunning => by cases hrunning⟩
    cases failure with
    | none => exact hp
    | some code => exact hp

/-- A step that leaves the loops and the phase alone. -/
theorem Counted.aside (h : r.Counted k i) {r' : SnapshotRun β} {added : LifecycleTrace β}
    (hcount : r'.count = r.count) (hphase : r'.phase = r.phase) (hevents : r'.events = r.events ++ added) :
    r'.Counted k i where
  progress := by
    rw [hcount, hphase]
    exact h.progress
  observed := by
    have hvalues : r'.values = r.values := congrArg LoopCount.values hcount
    rw [hvalues, hevents]
    exact h.observed.append added
  running := by
    intro index retries session snapshotId hrunning
    obtain ⟨hcreated, hrun⟩ := h.running index retries session snapshotId (hphase ▸ hrunning)
    rw [hevents]
    exact ⟨List.mem_append_left _ hcreated, List.mem_append_left _ hrun⟩

theorem cleanupSession_counted (h : r.Counted k i) (session : SandboxSession) : (r.cleanupSession session).Counted k i := by
  unfold cleanupSession
  split
  · exact h
  · have hset : (r.setStop session .stopping).Counted k i := h.aside rfl rfl (List.append_nil _).symm
    exact hset.log (.stop session) rfl

theorem aborts_counted (h : r.Counted k i) : r.aborts.Counted k i := by
  unfold aborts
  split
  · exact cleanupSession_counted h _
  · exact h

theorem timed_counted (h : r.Counted k i) (timer : AbortTimer) : { r with timer := timer }.Counted k i :=
  ⟨h.progress, h.observed, h.running⟩

theorem step_counted (h : r.Counted k i) (action : SnapshotAction β) : (r.step k i action).Counted k i := by
  unfold step
  split
  · exact h
  · exact h
  · unfold cancel
    split
    · exact h
    · exact aborts_counted (timed_counted h _)
  · unfold expire
    split
    · exact timed_counted h _
    · exact aborts_counted (timed_counted h _)
  · rename_i reply hphase
    exact snapshotReply_counted h hphase reply
  · rename_i reply index retries snapshotId hphase
    exact createReply_counted h hphase reply
  · rename_i reply index retries session snapshotId hphase
    exact runReply_counted h hphase reply
  · rename_i session gone
    split
    · cases gone with
      | true => exact (h.log (.returned (.sandbox session) true) rfl).aside rfl rfl (List.append_nil _).symm
      | false =>
        exact ((h.log (.returned (.sandbox session) false) rfl).log
          (.record (LifecycleResource.record i.attemptId (.sandbox session)) (.sandbox session)) rfl).aside rfl rfl
          (List.append_nil _).symm
    · exact h
  · rename_i session
    split
    · exact (h.log (.recorded (.sandbox session)) rfl).aside rfl rfl (List.append_nil _).symm
    · exact h
  · exact resume_counted h
  · rename_i gone failure snapshotId hphase
    exact deleteReply_counted h hphase gone
  · rename_i failure snapshotId hphase
    obtain ⟨hp, ho, -⟩ := h.log (.recorded (.snapshot snapshotId)) rfl
    rw [log_phase, hphase] at hp
    have hclosing : (r.log (.recorded (.snapshot snapshotId))).count.Progress k i (.closing failure none) := by
      cases failure with
      | none => exact hp
      | some code => exact hp
    exact finish_counted hclosing ho
  · exact h

theorem start_counted (k : SnapshotRunCoordinator) (i : AttemptInput) (aborted : Bool) :
    (start (β := β) i aborted).Counted k i := by
  have hempty : ({ values := [], restores := 0, providerRetries := 0 } : LoopCount β).Tally k 0 0 0 :=
    ⟨rfl, rfl, Nat.zero_le _, Nat.zero_le _⟩
  cases aborted with
  | true => exact close_counted (hempty.failed i.counted.1 (Nat.zero_le 1)) nofun
  | false => exact ⟨hempty, nofun, nofun⟩

theorem run_counted (k : SnapshotRunCoordinator) (i : AttemptInput) (aborted : Bool) (actions : List (SnapshotAction β)) :
    (Runs.run (step k i) actions (start i aborted)).Counted k i := by
  have hstep : ∀ (r : SnapshotRun β) (action : SnapshotAction β), Counted k i r → Counted k i (step k i action r) :=
    fun _ action h => step_counted h action
  exact Runs.run_keeps hstep (start_counted k i aborted)

end SnapshotRun

namespace LoopCount

variable {k : SnapshotRunCoordinator} {i : AttemptInput} {c : LoopCount β} {index retries pending : Nat}

theorem Failed.restores_le (h : c.Failed k i) : c.restores ≤ i.runCount * (1 + k.maxProviderRetries) := by
  have hr := h.restores
  have hv := h.values
  have hb := h.bounded
  rw [Nat.mul_add, Nat.mul_one]
  omega

theorem Tally.restores_le (h : c.Tally k index retries pending) (hindex : index + pending ≤ i.runCount)
    (hpending : pending = 0 → retries = 0 ∨ index < i.runCount) :
    c.restores ≤ i.runCount * (1 + k.maxProviderRetries) := by
  have hr := h.restores
  have hb := h.bounded
  have hle := h.retries_le
  have hmul : (index + 1) * k.maxProviderRetries = index * k.maxProviderRetries + k.maxProviderRetries := Nat.succ_mul _ _
  have hmono : index * k.maxProviderRetries ≤ i.runCount * k.maxProviderRetries :=
    Nat.mul_le_mul_right _ (by omega)
  have hmono' : index < i.runCount → (index + 1) * k.maxProviderRetries ≤ i.runCount * k.maxProviderRetries :=
    fun hlt => Nat.mul_le_mul_right _ hlt
  rw [Nat.mul_add, Nat.mul_one]
  by_cases hlt : index < i.runCount
  · have hm := hmono' hlt
    omega
  · have hp : pending = 0 := by omega
    have hz := (hpending hp).resolve_right hlt
    omega

/-- No call restores more sessions than its attempts allow. -/
theorem Progress.restores_le {phase : SnapshotPhase β} (h : c.Progress k i phase) :
    c.restores ≤ i.runCount * (1 + k.maxProviderRetries) := by
  cases phase with
  | snapshotting => exact Tally.restores_le h (Nat.zero_le _) fun _ => .inl rfl
  | stoppingPrepared snapshotId => exact Tally.restores_le h (Nat.zero_le _) fun _ => .inl rfl
  | creating index retries snapshotId => exact h.2.restores_le h.1 nofun
  | running index retries session snapshotId => exact h.2.restores_le h.1 nofun
  | stopping session after snapshotId =>
    cases after with
    | retry index retries => exact h.2.restores_le (Nat.le_of_lt h.1) fun _ => .inr h.1
    | next index => exact h.2.restores_le h.1 fun _ => .inl rfl
    | fail code => exact Failed.restores_le h
  | closing failure taken =>
    cases failure with
    | none => exact Tally.restores_le h le_rfl fun _ => .inl rfl
    | some code => exact Failed.restores_le h
  | deleting failure snapshotId =>
    cases failure with
    | none => exact Tally.restores_le h le_rfl fun _ => .inl rfl
    | some code => exact Failed.restores_le h
  | recording failure snapshotId =>
    cases failure with
    | none => exact Tally.restores_le h le_rfl fun _ => .inl rfl
    | some code => exact Failed.restores_le h
  | settled outcome =>
    cases outcome with
    | ok result => exact h.1.restores_le le_rfl fun _ => .inl rfl
    | error error => exact Failed.restores_le h

end LoopCount

namespace SnapshotRun

/-- A result has a value of every experiment, in order, and the restores beyond one for each are its retries; no call
restores more than its attempts allow. -/
theorem execute_results (k : SnapshotRunCoordinator) (i : AttemptInput) (aborted : Bool)
    (actions : List (SnapshotAction β)) :
    let r := Runs.run (step k i) actions (start i aborted)
    r.events.restores ≤ i.runCount * (1 + k.maxProviderRetries) ∧
      ∀ result, r.phase = .settled (.ok result) →
        result.values.length = i.runCount ∧ r.events.Observed result.values ∧
          r.events.restores = i.runCount + result.providerRetries ∧
          result.providerRetries ≤ i.runCount * k.maxProviderRetries := by
  intro r
  have h : r.Counted k i := run_counted k i aborted actions
  refine ⟨h.progress.restores_le, ?_⟩
  intro result hsettled
  have hp := h.progress
  rw [hsettled] at hp
  obtain ⟨htally, hvalues, hretries⟩ := hp
  have hobserved : r.events.Observed r.values := h.observed
  rw [hvalues, hretries]
  exact ⟨htally.values, hobserved, htally.restores, htally.bounded⟩

/-! ## A call comes to its end -/

variable {k : SnapshotRunCoordinator} {i : AttemptInput} {r : SnapshotRun β}

/-- A reply that `execute` or one of its stops waits for. -/
def expects (i : AttemptInput) (r : SnapshotRun β) : SnapshotAction β → Bool
  | .cancel | .expire => false
  | .snapshotReply _ => (r.phase matches .snapshotting)
  | .createReply _ => (r.phase matches .creating _ _ _)
  | .runReply _ => (r.phase matches .running _ _ _ _)
  | .stopReply session _ => r.cleanup session == some .stopping
  | .stopRecorded session => r.cleanup session == some .recording
  | .resume =>
    match r.phase with
    | .stoppingPrepared _ | .closing _ _ => r.cleanup i.preparedSession == some .settled
    | .stopping session _ _ => r.cleanup session == some .settled
    | _ => false
  | .deleteReply _ => (r.phase matches .deleting _ _)
  | .deleteRecorded => (r.phase matches .recording _ _)

/-- The replies that a stop still takes. -/
def stopWeight (r : SnapshotRun β) (session : SandboxSession) : Nat :=
  match r.cleanup session with
  | none | some .stopping => 2
  | some .recording => 1
  | some .settled => 0

/-- The attempts that are left, ten replies each at most. -/
def attemptWeight (k : SnapshotRunCoordinator) (i : AttemptInput) (index retries : Nat) : Nat :=
  10 * ((i.runCount - index) * (1 + k.maxProviderRetries) - retries)

def afterWeight (k : SnapshotRunCoordinator) (i : AttemptInput) : AfterRun → Nat
  | .retry index retries => attemptWeight k i index retries + 7
  | .next index => attemptWeight k i index 0 + 7
  | .fail _ => 6

/-- A bound of the replies that `execute` still waits for. -/
def weight (k : SnapshotRunCoordinator) (i : AttemptInput) (r : SnapshotRun β) : Nat :=
  match r.phase with
  | .snapshotting => attemptWeight k i 0 0 + 8 + r.stopWeight i.preparedSession
  | .stoppingPrepared _ => attemptWeight k i 0 0 + 7 + r.stopWeight i.preparedSession
  | .creating index retries _ => attemptWeight k i index retries + 6
  | .running index retries session _ => attemptWeight k i index retries + r.stopWeight session
  | .stopping session after _ => afterWeight k i after + r.stopWeight session
  | .closing _ _ => 3 + r.stopWeight i.preparedSession
  | .deleting _ _ => 2
  | .recording _ _ => 1
  | .settled _ => 0

theorem attemptWeight_pos {index retries : Nat} (hindex : index < i.runCount) (hretries : retries ≤ k.maxProviderRetries) :
    10 ≤ attemptWeight k i index retries := by
  have hmul : 1 * (1 + k.maxProviderRetries) ≤ (i.runCount - index) * (1 + k.maxProviderRetries) :=
    Nat.mul_le_mul_right _ (by omega)
  unfold attemptWeight
  omega

theorem attemptWeight_retry {index retries : Nat} (hindex : index < i.runCount)
    (hretries : retries < k.maxProviderRetries) :
    attemptWeight k i index (retries + 1) + 10 ≤ attemptWeight k i index retries := by
  have hmul : 1 * (1 + k.maxProviderRetries) ≤ (i.runCount - index) * (1 + k.maxProviderRetries) :=
    Nat.mul_le_mul_right _ (by omega)
  unfold attemptWeight
  omega

theorem attemptWeight_next {index retries : Nat} (hindex : index < i.runCount) (hretries : retries ≤ k.maxProviderRetries) :
    attemptWeight k i (index + 1) 0 + 10 ≤ attemptWeight k i index retries := by
  have hsplit : i.runCount - index = i.runCount - (index + 1) + 1 := by omega
  have hmul : (i.runCount - index) * (1 + k.maxProviderRetries) =
      (i.runCount - (index + 1)) * (1 + k.maxProviderRetries) + (1 + k.maxProviderRetries) := by
    rw [hsplit, Nat.succ_mul]
  unfold attemptWeight
  omega

theorem stopWeight_le (r : SnapshotRun β) (session : SandboxSession) : r.stopWeight session ≤ 2 := by
  unfold stopWeight
  split <;> omega

theorem stopWeight_cleanupSession (r : SnapshotRun β) (session other : SandboxSession) :
    (r.cleanupSession session).stopWeight other = r.stopWeight other := by
  cases hc : r.cleanup session with
  | some phase => rw [cleanupSession_begun hc]
  | none =>
    rw [cleanupSession_new hc]
    by_cases ho : other = session
    · subst ho
      simp [stopWeight, log, setStop, hc]
    · simp [stopWeight, log, setStop, Function.update_of_ne ho]

theorem weight_close (failure : Option AttemptLifecycleCode) (taken : Option String) :
    (r.close i failure taken).weight k i ≤ 5 := by
  have hle := stopWeight_le (r.close i failure taken) i.preparedSession
  have heq : (r.close i failure taken).weight k i = 3 + (r.close i failure taken).stopWeight i.preparedSession := rfl
  omega

theorem weight_attempt (index retries : Nat) (snapshotId : String) :
    (r.attempt i index retries snapshotId).weight k i ≤ attemptWeight k i index retries + 6 := by
  unfold attempt
  split
  · have hclose := weight_close (k := k) (i := i) (r := r) (some r.abortedCode) (some snapshotId)
    omega
  · exact le_rfl

theorem weight_experiment (index : Nat) (snapshotId : String) :
    (r.experiment i index snapshotId).weight k i ≤ attemptWeight k i index 0 + 6 := by
  unfold experiment
  split
  · exact weight_attempt index 0 snapshotId
  · have hclose := weight_close (k := k) (i := i) (r := r) none (some snapshotId)
    omega

theorem weight_release (session : SandboxSession) (after : AfterRun) (snapshotId : String) :
    (r.release session after snapshotId).weight k i = afterWeight k i after + r.stopWeight session :=
  congrArg (afterWeight k i after + ·) (stopWeight_cleanupSession r session session)

/-! ### Each reply brings the end nearer -/

theorem snapshotReply_weight (hphase : r.phase = .snapshotting) (reply : Option String) :
    ((r.log (.snapshotted reply)).snapshotReply i reply).weight k i < r.weight k i := by
  have hweight : r.weight k i = attemptWeight k i 0 0 + 8 + r.stopWeight i.preparedSession := by rw [weight, hphase]
  cases reply with
  | none =>
    have hclose := weight_close (k := k) (i := i) (r := r.log (.snapshotted none))
      (some (if (r.log (.snapshotted none)).timer.aborted then (r.log (.snapshotted none)).abortedCode
        else .providerInterrupted)) none
    simp only [snapshotReply]
    omega
  | some snapshotId =>
    have hstop := stopWeight_cleanupSession (r.log (.snapshotted (some snapshotId))) i.preparedSession i.preparedSession
    have hsame : (r.log (.snapshotted (some snapshotId))).stopWeight i.preparedSession = r.stopWeight i.preparedSession := rfl
    have heq : ((r.log (.snapshotted (some snapshotId))).snapshotReply i (some snapshotId)).weight k i =
        attemptWeight k i 0 0 + 7 +
          ((r.log (.snapshotted (some snapshotId))).cleanupSession i.preparedSession).stopWeight i.preparedSession := rfl
    omega

theorem createReply_weight {index retries : Nat} {snapshotId : String}
    (hphase : r.phase = .creating index retries snapshotId) (hindex : index < i.runCount)
    (reply : Option SandboxSession) :
    ((r.log (.created reply)).createReply k i index retries snapshotId reply).weight k i < r.weight k i := by
  have hweight : r.weight k i = attemptWeight k i index retries + 6 := by rw [weight, hphase]
  cases reply with
  | none =>
    have hclose := fun code => weight_close (k := k) (i := i) (r := r.log (.created none)) (some code) (some snapshotId)
    simp only [createReply]
    split
    · have hc := hclose (r.log (.created none)).abortedCode
      omega
    · split
      · rename_i hretries
        have hattempt := weight_attempt (k := k) (i := i) (r := (r.log (.created none)).retried) index (retries + 1) snapshotId
        have hless := attemptWeight_retry (i := i) hindex hretries
        omega
      · have hc := hclose .providerInterrupted
        omega
  | some session =>
    have hle := stopWeight_le r session
    have heq : ((r.log (.created (some session))).createReply k i index retries snapshotId (some session)).weight k i =
        attemptWeight k i index retries + r.stopWeight session := rfl
    omega

theorem runReply_weight {index retries : Nat} {session : SandboxSession} {snapshotId : String}
    (hphase : r.phase = .running index retries session snapshotId) (hindex : index < i.runCount)
    (hretries : retries ≤ k.maxProviderRetries) (reply : Except RunError β) :
    ((r.log (.ran index session reply)).runReply k index retries session snapshotId reply).weight k i < r.weight k i := by
  have hweight : r.weight k i = attemptWeight k i index retries + r.stopWeight session := by rw [weight, hphase]
  have hpos := attemptWeight_pos (k := k) hindex hretries
  have hfail : ∀ code, ((r.log (.ran index session reply)).release session (.fail code) snapshotId).weight k i <
      r.weight k i := by
    intro code
    have hrelease := weight_release (k := k) (i := i) (r := r.log (.ran index session reply)) session (.fail code) snapshotId
    have hsame : (r.log (.ran index session reply)).stopWeight session = r.stopWeight session := rfl
    simp only [afterWeight] at hrelease
    omega
  cases reply with
  | ok value =>
    simp only [runReply]
    split
    · exact hfail _
    · have hrelease := weight_release (k := k) (i := i) (r := (r.log (.ran index session (.ok value))).push value) session
        (.next (index + 1)) snapshotId
      have hsame : ((r.log (.ran index session (.ok value))).push value).stopWeight session = r.stopWeight session := rfl
      have hless := attemptWeight_next (k := k) hindex hretries
      simp only [afterWeight] at hrelease
      omega
  | error error =>
    simp only [runReply]
    split
    · exact hfail _
    · split
      · exact hfail _
      · split
        · rename_i hretry
          have hlt : retries < k.maxProviderRetries := by simpa using (Bool.and_eq_true_iff.mp hretry).2
          have hrelease := weight_release (k := k) (i := i) (r := (r.log (.ran index session (.error error))).retried)
            session (.retry index (retries + 1)) snapshotId
          have hsame : (r.log (.ran index session (.error error))).retried.stopWeight session = r.stopWeight session := rfl
          have hless := attemptWeight_retry (k := k) hindex hlt
          simp only [afterWeight] at hrelease
          omega
        · repeat' split
          all_goals exact hfail _

theorem resume_weight (hexpects : expects i r .resume = true) :
    (r.resume i).weight k i < r.weight k i := by
  cases hphase : r.phase with
  | stoppingPrepared snapshotId =>
    simp only [expects, hphase, beq_iff_eq] at hexpects
    have hexperiment := weight_experiment (k := k) (i := i) (r := r) 0 snapshotId
    simp only [resume, hphase, hexpects, if_true]
    simp only [weight, hphase]
    simp only [weight] at hexperiment
    omega
  | stopping session after snapshotId =>
    simp only [expects, hphase, beq_iff_eq] at hexpects
    have hweight : r.weight k i = afterWeight k i after + r.stopWeight session := by rw [weight, hphase]
    rw [hweight]
    simp only [resume, hphase, hexpects, if_true]
    cases after with
    | retry index retries =>
      have hattempt := weight_attempt (k := k) (i := i) (r := r) index retries snapshotId
      simp only [afterWeight]
      omega
    | next index =>
      have hexperiment := weight_experiment (k := k) (i := i) (r := r) index snapshotId
      simp only [afterWeight]
      omega
    | fail code =>
      have hclose := weight_close (k := k) (i := i) (r := r) (some code) (some snapshotId)
      simp only [afterWeight]
      omega
  | closing failure taken =>
    simp only [expects, hphase, beq_iff_eq] at hexpects
    have hweight : r.weight k i = 3 + r.stopWeight i.preparedSession := by rw [weight, hphase]
    rw [hweight]
    simp only [resume, hphase, hexpects, if_true]
    cases taken with
    | some snapshotId =>
      have heq : ((r.become (.deleting failure snapshotId)).log (.delete snapshotId)).weight k i = 2 := rfl
      simp only
      omega
    | none =>
      have heq : (r.finish failure).weight k i = 0 := rfl
      simp only
      omega
  | _ =>
    simp only [expects, hphase] at hexpects
    cases hexpects

theorem resume_idle (hexpects : ¬ expects i r .resume = true) : r.resume i = r := by
  cases hphase : r.phase with
  | stoppingPrepared | stopping | closing =>
    simp only [expects, hphase, beq_iff_eq] at hexpects
    simp only [resume, hphase, if_neg hexpects]
  | _ => simp only [resume, hphase]

/-- A stop that gets on brings the end nearer, as the phase waits for it. -/
theorem stop_weight (h : r.Lifecycle i) {session : SandboxSession} {phase : StopPhase}
    (hphase : r.cleanup session = some phase) (hne : phase ≠ .settled) {r' : SnapshotRun β} (hsame : r'.phase = r.phase)
    (hless : r'.stopWeight session < r.stopWeight session) : r'.weight k i < r.weight k i := by
  have hcharge := (h.standing.pending hphase hne).2
  unfold weight
  rw [hsame]
  cases hp : r.phase with
  | snapshotting | stoppingPrepared | closing | running | stopping =>
    rw [hp] at hcharge
    rw [← List.mem_singleton.mp hcharge]
    simp only
    omega
  | creating | deleting | recording | settled =>
    rw [hp] at hcharge
    cases hcharge

theorem aborts_weight (r : SnapshotRun β) : r.aborts.weight k i = r.weight k i := by
  cases hphase : r.phase with
  | running index retries session snapshotId =>
    have hkept : (r.cleanupSession session).phase = r.phase := by
      unfold cleanupSession
      split <;> rfl
    simp only [aborts, hphase, weight, hkept, stopWeight_cleanupSession]
  | _ => simp only [aborts, hphase]

theorem cancel_weight (r : SnapshotRun β) : r.cancel.weight k i = r.weight k i := by
  unfold cancel
  split
  · rfl
  · exact aborts_weight { r with timer := r.timer.abort }

theorem expire_weight (r : SnapshotRun β) : r.expire.weight k i = r.weight k i := by
  unfold expire
  split
  · rfl
  · exact aborts_weight { r with timer := r.timer.expire }

/-- Each reply that is waited for brings the end nearer, and nothing takes it farther away. -/
theorem step_weight (hl : r.Lifecycle i) (hc : r.Counted k i) (action : SnapshotAction β) :
    (r.step k i action).weight k i + (if expects i r action then 1 else 0) ≤ r.weight k i := by
  cases action with
  | cancel =>
    cases hphase : r.phase with
    | settled outcome => simp [step, hphase, expects]
    | _ =>
      simp only [step, hphase, expects]
      exact (cancel_weight r).le
  | expire =>
    cases hphase : r.phase with
    | settled outcome => simp [step, hphase, expects]
    | _ =>
      simp only [step, hphase, expects]
      exact (expire_weight r).le
  | snapshotReply reply =>
    cases hphase : r.phase with
    | snapshotting =>
      have hless := snapshotReply_weight (k := k) (i := i) hphase reply
      simp only [step, hphase, expects, if_true]
      omega
    | _ => simp [step, hphase, expects]
  | createReply reply =>
    cases hphase : r.phase with
    | creating index retries snapshotId =>
      have hp := hc.progress
      rw [hphase] at hp
      have hless := createReply_weight (k := k) hphase hp.1 reply
      simp only [step, hphase, expects, if_true]
      omega
    | _ => simp [step, hphase, expects]
  | runReply reply =>
    cases hphase : r.phase with
    | running index retries session snapshotId =>
      have hp := hc.progress
      rw [hphase] at hp
      have hless := runReply_weight hphase hp.1 hp.2.retries_le reply
      simp only [step, hphase, expects, if_true]
      omega
    | _ => simp [step, hphase, expects]
  | stopReply session gone =>
    by_cases hstop : r.cleanup session = some .stopping
    · have hless : (r.stopReply i session gone).weight k i < r.weight k i := by
        refine stop_weight hl hstop nofun ?_ ?_
        · cases gone <;> rfl
        · cases gone <;> simp [stopWeight, stopReply, log, setStop, quarantine, hstop]
      simp only [step, hstop, expects, if_true, beq_self_eq_true]
      omega
    · simp [step, hstop, expects]
  | stopRecorded session =>
    by_cases hstop : r.cleanup session = some .recording
    · have hless : ((r.log (.recorded (.sandbox session))).setStop session .settled).weight k i < r.weight k i := by
        refine stop_weight hl hstop nofun rfl ?_
        simp [stopWeight, log, setStop, hstop]
      simp only [step, hstop, expects, if_true, beq_self_eq_true]
      omega
    · simp [step, hstop, expects]
  | resume =>
    by_cases hexpects : expects i r .resume = true
    · have hless : (r.resume i).weight k i < r.weight k i := resume_weight hexpects
      rw [if_pos hexpects]
      exact hless
    · rw [if_neg hexpects]
      exact (congrArg (weight k i) (resume_idle hexpects)).le
  | deleteReply gone =>
    cases hphase : r.phase with
    | deleting failure snapshotId =>
      have hweight : r.weight k i = 2 := by rw [weight, hphase]
      have hless : (r.deleteReply i failure snapshotId gone).weight k i ≤ 1 := by
        cases gone
        · exact le_rfl
        · exact Nat.zero_le 1
      simp only [step, hphase, expects, if_true]
      omega
    | _ => simp [step, hphase, expects]
  | deleteRecorded =>
    cases hphase : r.phase with
    | recording failure snapshotId =>
      have hweight : r.weight k i = 1 := by rw [weight, hphase]
      simp only [step, hphase, expects, if_true]
      rw [hweight]
      exact le_rfl
    | _ => simp [step, hphase, expects]

/-! ### Something is always waited for -/

/-- The stop that a phase awaits. -/
def awaitedStop (i : AttemptInput) : SnapshotPhase β → Option SandboxSession
  | .stoppingPrepared _ | .closing _ _ => some i.preparedSession
  | .stopping session _ _ => some session
  | _ => none

/-- A stop that is awaited has begun. -/
def Begun (i : AttemptInput) (r : SnapshotRun β) : Prop :=
  ∀ session, awaitedStop i r.phase = some session → r.cleanup session ≠ none

theorem cleanupSession_begins (r : SnapshotRun β) (session : SandboxSession) :
    (r.cleanupSession session).cleanup session ≠ none := by
  cases hc : r.cleanup session with
  | some phase =>
    rw [cleanupSession_begun hc, hc]
    exact nofun
  | none =>
    rw [cleanupSession_new hc]
    simp [log, setStop]

theorem cleanupSession_keeps (r : SnapshotRun β) (session : SandboxSession) {other : SandboxSession}
    (h : r.cleanup other ≠ none) : (r.cleanupSession session).cleanup other ≠ none := by
  by_cases ho : other = session
  · subst ho
    exact cleanupSession_begins r other
  · cases hc : r.cleanup session with
    | some phase => rwa [cleanupSession_begun hc]
    | none =>
      rw [cleanupSession_new hc]
      simpa [log, setStop, Function.update_of_ne ho] using h

theorem begun_of_unawaited (h : awaitedStop i r.phase = none) : r.Begun i := by
  intro session hs
  rw [h] at hs
  cases hs

theorem close_begun (failure : Option AttemptLifecycleCode) (taken : Option String) : (r.close i failure taken).Begun i := by
  intro session hs
  rw [← Option.some.inj hs]
  exact cleanupSession_begins r i.preparedSession

theorem attempt_begun (index retries : Nat) (snapshotId : String) : (r.attempt i index retries snapshotId).Begun i := by
  unfold attempt
  split
  · exact close_begun _ _
  · exact begun_of_unawaited rfl

theorem experiment_begun (index : Nat) (snapshotId : String) : (r.experiment i index snapshotId).Begun i := by
  unfold experiment
  split
  · exact attempt_begun index 0 snapshotId
  · exact close_begun _ _

theorem release_begun (session : SandboxSession) (after : AfterRun) (snapshotId : String) :
    (r.release session after snapshotId).Begun i := by
  intro other ho
  rw [← Option.some.inj ho]
  exact cleanupSession_begins r session

/-- A stop that has begun does not begin again. -/
theorem Begun.kept (h : r.Begun i) {r' : SnapshotRun β} (hphase : r'.phase = r.phase)
    (hkeeps : ∀ session, r.cleanup session ≠ none → r'.cleanup session ≠ none) : r'.Begun i := by
  intro session hs
  exact hkeeps session (h session (hphase ▸ hs))

theorem setStop_keeps (r : SnapshotRun β) (session : SandboxSession) (phase : StopPhase) {other : SandboxSession}
    (h : r.cleanup other ≠ none) : (r.setStop session phase).cleanup other ≠ none := by
  by_cases ho : other = session
  · subst ho
    simp [setStop]
  · simpa [setStop, Function.update_of_ne ho] using h

theorem aborts_begun (h : r.Begun i) : r.aborts.Begun i := by
  unfold aborts
  split
  · rename_i index retries session snapshotId hphase
    refine h.kept ?_ fun other ho => cleanupSession_keeps r session ho
    unfold cleanupSession
    split <;> rfl
  · exact h

theorem step_begun (h : r.Begun i) (action : SnapshotAction β) : (r.step k i action).Begun i := by
  unfold step
  split
  · exact h
  · exact h
  · unfold cancel
    split
    · exact h
    · exact aborts_begun h
  · unfold expire
    split
    · exact h
    · exact aborts_begun h
  · rename_i reply hphase
    cases reply with
    | none => exact close_begun _ _
    | some snapshotId =>
      intro session hs
      rw [← Option.some.inj hs]
      exact cleanupSession_begins _ i.preparedSession
  · rename_i reply index retries snapshotId hphase
    cases reply with
    | none =>
      simp only [createReply]
      split
      · exact close_begun _ _
      · split
        · exact attempt_begun _ _ _
        · exact close_begun _ _
    | some session => exact begun_of_unawaited rfl
  · rename_i reply index retries session snapshotId hphase
    cases reply with
    | ok value =>
      simp only [runReply]
      split <;> exact release_begun _ _ _
    | error error =>
      simp only [runReply]
      repeat' split
      all_goals exact release_begun _ _ _
  · rename_i session gone
    split
    · cases gone with
      | true => exact h.kept rfl fun other ho => setStop_keeps r session .settled ho
      | false => exact h.kept rfl fun other ho => setStop_keeps r session .recording ho
    · exact h
  · rename_i session
    split
    · exact h.kept rfl fun other ho => setStop_keeps r session .settled ho
    · exact h
  · unfold resume
    repeat' split
    all_goals first
      | exact h
      | exact attempt_begun _ _ _
      | exact experiment_begun _ _
      | exact close_begun _ _
      | exact begun_of_unawaited rfl
  · rename_i gone failure snapshotId hphase
    cases gone <;> exact begun_of_unawaited rfl
  · exact begun_of_unawaited rfl
  · exact h

theorem start_begun (i : AttemptInput) (aborted : Bool) : (start (β := β) i aborted).Begun i := by
  cases aborted with
  | true => exact close_begun _ _
  | false => exact begun_of_unawaited rfl

/-- A call that has not settled waits for a reply. -/
theorem expects_some (h : r.Begun i) (hsettled : ∀ outcome, r.phase ≠ .settled outcome) :
    ∃ action, expects i r action = true := by
  have hstop : ∀ session, awaitedStop i r.phase = some session → ∃ action, expects i r action = true := by
    intro session hs
    cases hc : r.cleanup session with
    | none => exact absurd hc (h session hs)
    | some phase =>
      cases phase with
      | stopping => exact ⟨.stopReply session true, by simp [expects, hc]⟩
      | recording => exact ⟨.stopRecorded session, by simp [expects, hc]⟩
      | settled =>
        refine ⟨.resume, ?_⟩
        cases hphase : r.phase with
        | stoppingPrepared | stopping | closing =>
          rw [hphase] at hs
          cases hs
          simp [expects, hphase, hc]
        | _ =>
          rw [hphase] at hs
          cases hs
  cases hphase : r.phase with
  | snapshotting => exact ⟨.snapshotReply none, by simp [expects, hphase]⟩
  | creating => exact ⟨.createReply none, by simp [expects, hphase]⟩
  | running => exact ⟨.runReply (.error .other), by simp [expects, hphase]⟩
  | deleting => exact ⟨.deleteReply true, by simp [expects, hphase]⟩
  | recording => exact ⟨.deleteRecorded, by simp [expects, hphase]⟩
  | stoppingPrepared => exact hstop i.preparedSession (by rw [hphase]; rfl)
  | closing => exact hstop i.preparedSession (by rw [hphase]; rfl)
  | stopping session => exact hstop session (by rw [hphase]; rfl)
  | settled outcome => exact absurd hphase (hsettled outcome)

/-- The replies among the actions of a run that were waited for. -/
def replies (k : SnapshotRunCoordinator) (i : AttemptInput) : List (SnapshotAction β) → SnapshotRun β → Nat
  | [], _ => 0
  | action :: rest, r => (if expects i r action then 1 else 0) + replies k i rest (r.step k i action)

theorem replies_le (hl : r.Lifecycle i) (hc : r.Counted k i) (actions : List (SnapshotAction β)) :
    replies k i actions r ≤ r.weight k i := by
  induction actions generalizing r with
  | nil => exact Nat.zero_le _
  | cons action rest ih =>
    have hstep := step_weight hl hc action
    have hrest := ih (step_lifecycle (k := k) hl action) (step_counted hc action)
    simp only [replies]
    omega

/-- A call takes a bounded number of replies, and as long as it has not settled it waits for one. -/
theorem execute_settles (k : SnapshotRunCoordinator) (i : AttemptInput) (aborted : Bool)
    (actions : List (SnapshotAction β)) :
    replies k i actions (start i aborted) ≤ 10 * (i.runCount * (1 + k.maxProviderRetries)) + 10 ∧
      ((∃ outcome, (Runs.run (step k i) actions (start i aborted)).phase = .settled outcome) ∨
        ∃ action, expects i (Runs.run (step k i) actions (start i aborted)) action = true) := by
  constructor
  · have hle := replies_le (k := k) (start_lifecycle i aborted) (start_counted k i aborted) actions
    have hweight : (start (β := β) i aborted).weight k i ≤ 10 * (i.runCount * (1 + k.maxProviderRetries)) + 10 := by
      cases aborted with
      | true =>
        have hclose := weight_close (k := k) (i := i)
          (r := (⟨AbortTimer.armed.abort, fun _ => none, .clean, 0, [], .snapshotting, []⟩ : SnapshotRun β))
          (some .cancelled) none
        exact hclose.trans (by omega)
      | false => exact le_rfl
    exact hle.trans hweight
  · have hbegun : (Runs.run (step k i) actions (start (β := β) i aborted)).Begun i := by
      have hstep : ∀ (r : SnapshotRun β) (action : SnapshotAction β), Begun i r → Begun i (step k i action r) :=
        fun _ action h => step_begun h action
      exact Runs.run_keeps hstep (start_begun i aborted)
    by_cases hsettled : ∃ outcome, (Runs.run (step k i) actions (start (β := β) i aborted)).phase = .settled outcome
    · exact .inl hsettled
    · exact .inr (expects_some hbegun fun outcome ho => hsettled ⟨outcome, ho⟩)

/-! ## Restores -/

/-- The signal is aborted, and no session was restored since. -/
structure Halted (restores : Nat) (r : SnapshotRun β) : Prop where
  aborted : r.timer.aborted = true
  restores : r.events.restores = restores

variable {restores : Nat}

theorem Halted.log (h : r.Halted restores) (event : LifecycleEvent β) (hevent : restoreCall event = none) :
    (r.log event).Halted restores where
  aborted := h.aborted
  restores := (congrArg LoopCount.restores (count_log r event hevent)).trans h.restores

theorem Halted.cleanupSession (h : r.Halted restores) (session : SandboxSession) :
    (r.cleanupSession session).Halted restores where
  aborted := by
    unfold SnapshotRun.cleanupSession
    split <;> exact h.aborted
  restores := (congrArg LoopCount.restores (count_cleanupSession r session)).trans h.restores

theorem Halted.same (h : r.Halted restores) {r' : SnapshotRun β} (htimer : r'.timer.aborted = r.timer.aborted)
    (hevents : r'.events = r.events) : r'.Halted restores :=
  ⟨htimer.trans h.aborted, hevents ▸ h.restores⟩

theorem Halted.become (h : r.Halted restores) (phase : SnapshotPhase β) : (r.become phase).Halted restores := h.same rfl rfl

theorem Halted.close (h : r.Halted restores) (failure : Option AttemptLifecycleCode) (taken : Option String) :
    (r.close i failure taken).Halted restores := (h.cleanupSession i.preparedSession).become _

theorem Halted.attempt (h : r.Halted restores) (index retries : Nat) (snapshotId : String) :
    (r.attempt i index retries snapshotId).Halted restores := by
  rw [SnapshotRun.attempt, if_pos h.aborted]
  exact h.close _ _

theorem Halted.experiment (h : r.Halted restores) (index : Nat) (snapshotId : String) :
    (r.experiment i index snapshotId).Halted restores := by
  unfold SnapshotRun.experiment
  split
  · exact h.attempt index 0 snapshotId
  · exact h.close _ _

theorem Halted.release (h : r.Halted restores) (session : SandboxSession) (after : AfterRun) (snapshotId : String) :
    (r.release session after snapshotId).Halted restores := (h.cleanupSession session).become _

theorem step_halted (h : r.Halted restores) (action : SnapshotAction β) : (r.step k i action).Halted restores := by
  unfold step
  split
  · exact h
  · exact h
  · rw [cancel, if_pos h.aborted]
    exact h
  · rw [expire, if_pos h.aborted]
    exact h.same h.aborted.symm rfl
  · rename_i reply hphase
    have hlog := h.log (.snapshotted reply) rfl
    cases reply with
    | none => exact hlog.close _ _
    | some snapshotId => exact (hlog.cleanupSession _).become _
  · rename_i reply index retries snapshotId hphase
    have hlog := h.log (.created reply) rfl
    cases reply with
    | none =>
      rw [createReply, if_pos hlog.aborted]
      exact hlog.close _ _
    | some session => exact (hlog.become _).log _ rfl
  · rename_i reply index retries session snapshotId hphase
    have hlog := h.log (.ran index session reply) rfl
    cases reply with
    | ok value =>
      rw [runReply, if_pos hlog.aborted]
      exact hlog.release _ _ _
    | error error =>
      simp only [runReply, if_pos hlog.aborted]
      exact hlog.release _ _ _
  · rename_i session gone
    split
    · have hlog := h.log (.returned (.sandbox session) gone) rfl
      cases gone with
      | true => exact hlog.same rfl rfl
      | false =>
        exact (hlog.log (.record (LifecycleResource.record i.attemptId (.sandbox session)) (.sandbox session)) rfl).same
          rfl rfl
    · exact h
  · rename_i session
    split
    · exact (h.log (.recorded (.sandbox session)) rfl).same rfl rfl
    · exact h
  · unfold resume
    repeat' split
    all_goals first
      | exact h
      | exact h.attempt _ _ _
      | exact h.experiment _ _
      | exact h.close _ _
      | exact (h.become _).log _ rfl
      | exact h.become _
  · rename_i gone failure snapshotId hphase
    have hlog := h.log (.returned (.snapshot snapshotId) gone) rfl
    cases gone with
    | true => exact hlog.same rfl rfl
    | false =>
      exact (hlog.log (.record (LifecycleResource.record i.attemptId (.snapshot snapshotId)) (.snapshot snapshotId)) rfl).same
        rfl rfl
  · rename_i failure snapshotId hphase
    exact (h.log (.recorded (.snapshot snapshotId)) rfl).same rfl rfl
  · exact h

/-- In every run a session is restored only when each one before it is stopped and done, and once the signal is
aborted none is. -/
theorem restores_are_serial (k : SnapshotRunCoordinator) (i : AttemptInput) (aborted : Bool)
    (actions later : List (SnapshotAction β)) :
    let r := Runs.run (step k i) actions (start i aborted)
    r.events.Serial i ∧
      (r.timer.aborted = true → (Runs.run (step k i) later r).events.restores = r.events.restores) := by
  intro r
  refine ⟨(run_lifecycle k i aborted actions).standing.serial, ?_⟩
  intro haborted
  have hstep : ∀ (r' : SnapshotRun β) (action : SnapshotAction β),
      Halted r.events.restores r' → Halted r.events.restores (step k i action r') := fun _ action h => step_halted h action
  have hhalted : r.Halted r.events.restores := ⟨haborted, rfl⟩
  exact (Runs.run_keeps hstep hhalted).restores

end SnapshotRun

end ReproForge
