import ReproForge.SnapshotRuns

/-!
# Sandboxes are given back

What `SnapshotRunCoordinator.execute` leaves behind, whatever the provider, the
experiments and the signal do: every session is stopped once, the snapshot is
deleted once, and what could not be given back is recorded.
-/
namespace ReproForge

variable {β : Type}

namespace LifecycleEvent

/-! ## Reading the calls -/

def createdSession : LifecycleEvent β → Option SandboxSession
  | .created reply => reply
  | _ => none

def snapshotTaken : LifecycleEvent β → Option String
  | .snapshotted reply => reply
  | _ => none

def stopCall : LifecycleEvent β → Option SandboxSession
  | .stop session => some session
  | _ => none

def deleteCall : LifecycleEvent β → Option String
  | .delete snapshotId => some snapshotId
  | _ => none

def restoreCall : LifecycleEvent β → Option String
  | .createFromSnapshot snapshotId => some snapshotId
  | _ => none

def returnOf (resource : LifecycleResource) : LifecycleEvent β → Option Bool
  | .returned other gone => if other = resource then some gone else none
  | _ => none

end LifecycleEvent

open LifecycleEvent

namespace LifecycleTrace

/-- The sessions that the provider handed over, the prepared one first. -/
def sessions (i : AttemptInput) (events : LifecycleTrace β) : List SandboxSession :=
  i.preparedSession :: events.filterMap createdSession

def snapshots (events : LifecycleTrace β) : List String := events.filterMap snapshotTaken

def stops (events : LifecycleTrace β) (session : SandboxSession) : Nat := (events.filterMap stopCall).count session

def deletes (events : LifecycleTrace β) : List String := events.filterMap deleteCall

def restores (events : LifecycleTrace β) : Nat := (events.filterMap restoreCall).length

/-- The replies to the calls that give a resource back. -/
def returns (events : LifecycleTrace β) (resource : LifecycleResource) : List Bool :=
  events.filterMap (returnOf resource)

/-- The resource is back at the provider, or a record of it was made. -/
def GivenBack (attemptId : String) (events : LifecycleTrace β) (resource : LifecycleResource) : Prop :=
  events.returns resource = [true] ∨
    (events.returns resource = [false] ∧ .record (resource.record attemptId) resource ∈ events ∧
      .recorded resource ∈ events)

/-- Every session handed over so far was stopped once and is given back. -/
def AllBack (i : AttemptInput) (events : LifecycleTrace β) : Prop :=
  ∀ session ∈ events.sessions i, events.stops session = 1 ∧ events.GivenBack i.attemptId (.sandbox session)

/-- A session is restored only when all before it are given back. -/
def Serial (i : AttemptInput) (events : LifecycleTrace β) : Prop :=
  ∀ earlier snapshotId later, events = earlier ++ .createFromSnapshot snapshotId :: later →
    LifecycleTrace.AllBack i earlier

theorem serial_nil (i : AttemptInput) : LifecycleTrace.Serial i ([] : LifecycleTrace β) := by
  intro earlier snapshotId later h
  exact absurd h (by simp)

theorem serial_append {i : AttemptInput} {events : LifecycleTrace β} {event : LifecycleEvent β} (h : events.Serial i)
    (hevent : ∀ snapshotId, event = .createFromSnapshot snapshotId → events.AllBack i) :
    LifecycleTrace.Serial i (events ++ [event]) := by
  intro earlier snapshotId later heq
  rcases List.eq_nil_or_concat' later with rfl | ⟨later', last, rfl⟩
  · obtain ⟨hearlier, hlast⟩ := List.append_inj' heq rfl
    rw [← hearlier]
    exact hevent snapshotId (List.cons.inj hlast).1
  · rw [← List.cons_append, ← List.append_assoc] at heq
    exact h earlier snapshotId later' (List.append_inj' heq rfl).1

theorem serial_extend {i : AttemptInput} {events added : LifecycleTrace β} (h : events.Serial i)
    (hadded : ∀ event ∈ added, restoreCall event = none) : LifecycleTrace.Serial i (events ++ added) := by
  induction added generalizing events with
  | nil => rwa [List.append_nil]
  | cons event rest ih =>
    rw [List.append_cons]
    refine ih (serial_append h ?_) fun e he => hadded e (List.mem_cons_of_mem event he)
    rintro snapshotId rfl
    cases hadded _ List.mem_cons_self

/-! ## The ledger of the stops -/

/-- The calls and replies that concern a session, at the stage of its stop. -/
def Tracked (events : LifecycleTrace β) (session : SandboxSession) : Option StopPhase → Prop
  | none => events.stops session = 0 ∧ events.returns (.sandbox session) = []
  | some .stopping => events.stops session = 1 ∧ events.returns (.sandbox session) = []
  | some .recording => events.stops session = 1 ∧ events.returns (.sandbox session) = [false]
  | some .settled => events.stops session = 1 ∧
      (events.returns (.sandbox session) = [true] ∨
        (events.returns (.sandbox session) = [false] ∧ .recorded (.sandbox session) ∈ events))

variable (events : LifecycleTrace β) (event : LifecycleEvent β)

theorem returns_append (resource : LifecycleResource) :
    LifecycleTrace.returns (events ++ [event]) resource = events.returns resource ++ (returnOf resource event).toList := by
  simp only [returns, List.filterMap_append, List.filterMap_cons, List.filterMap_nil]
  cases returnOf resource event <;> rfl

theorem stops_append (session : SandboxSession) :
    LifecycleTrace.stops (events ++ [event]) session =
      events.stops session + if stopCall event = some session then 1 else 0 := by
  simp only [stops, List.filterMap_append, List.filterMap_cons, List.filterMap_nil]
  cases h : stopCall event with
  | none => simp
  | some s => by_cases hs : s = session <;> simp [hs]

variable {events event}

/-- The first reply about a resource is its only one. -/
theorem returns_reply {resource : LifecycleResource} (hbefore : events.returns resource = []) (gone : Bool)
    (other : LifecycleResource) :
    LifecycleTrace.returns (events ++ [.returned resource gone]) other =
      if other = resource then [gone] else events.returns other := by
  rw [returns_append]
  by_cases ho : other = resource
  · subst ho
    simp [returnOf, hbefore]
  · have hr : ¬ resource = other := fun he => ho he.symm
    simp [returnOf, ho, hr]

/-- Events of other resources do not move a session. -/
theorem Tracked.append {session : SandboxSession} {phase : Option StopPhase} (h : events.Tracked session phase)
    (hstop : stopCall event ≠ some session) (hreturn : returnOf (.sandbox session) event = none) :
    LifecycleTrace.Tracked (events ++ [event]) session phase := by
  have hstops : LifecycleTrace.stops (events ++ [event]) session = events.stops session := by
    rw [stops_append, if_neg hstop, Nat.add_zero]
  have hreturns : LifecycleTrace.returns (events ++ [event]) (.sandbox session) = events.returns (.sandbox session) := by
    rw [returns_append, hreturn, Option.toList_none, List.append_nil]
  cases phase with
  | none => exact ⟨hstops.trans h.1, hreturns.trans h.2⟩
  | some phase =>
    cases phase with
    | stopping => exact ⟨hstops.trans h.1, hreturns.trans h.2⟩
    | recording => exact ⟨hstops.trans h.1, hreturns.trans h.2⟩
    | settled =>
      refine ⟨hstops.trans h.1, h.2.imp hreturns.trans fun hf => ?_⟩
      exact ⟨hreturns.trans hf.1, List.mem_append_left _ hf.2⟩

end LifecycleTrace

/-- An event that concerns no resource. -/
def LifecycleEvent.apart : LifecycleEvent β → Bool
  | .stop _ | .returned _ _ | .record _ _ => false
  | _ => true

/-- The stages of the stops and the status agree with the trace. -/
structure StopLedger (i : AttemptInput) (events : LifecycleTrace β) (stopPhase : SandboxSession → Option StopPhase)
    (status : CleanupStatus) : Prop where
  tracked : ∀ session, events.Tracked session (stopPhase session)
  recorded : ∀ resource, false ∈ events.returns resource ↔ .record (resource.record i.attemptId) resource ∈ events
  named : ∀ record resource, .record record resource ∈ events → record = resource.record i.attemptId
  status : status = .quarantined ↔ ∃ resource, false ∈ events.returns resource

namespace StopLedger

open LifecycleTrace

variable {i : AttemptInput} {events : LifecycleTrace β} {stopPhase : SandboxSession → Option StopPhase}
  {status : CleanupStatus}

theorem nil : StopLedger i ([] : LifecycleTrace β) (fun _ => none) .clean where
  tracked := fun _ => ⟨rfl, rfl⟩
  recorded := by simp [returns]
  named := by simp
  status := by simp [returns]

/-- What the records say is not touched by an event that is neither a reply of a resource nor a record. -/
theorem quiet (h : StopLedger i events stopPhase status) {event : LifecycleEvent β} {stopPhase'}
    (hreturn : ∀ resource, returnOf resource event = none) (hrecord : ∀ record resource, event ≠ .record record resource)
    (htracked : ∀ session, LifecycleTrace.Tracked (events ++ [event]) session (stopPhase' session)) :
    StopLedger i (events ++ [event]) stopPhase' status := by
  have hreturns : ∀ resource, LifecycleTrace.returns (events ++ [event]) resource = events.returns resource := by
    intro resource
    rw [returns_append, hreturn, Option.toList_none, List.append_nil]
  have hmem : ∀ record resource,
      LifecycleEvent.record record resource ∈ events ++ [event] ↔ .record record resource ∈ events := by
    intro record resource
    rw [List.mem_append, List.mem_singleton, or_iff_left fun he => hrecord record resource he.symm]
  constructor
  · exact htracked
  · intro resource
    rw [hreturns, hmem]
    exact h.recorded resource
  · intro record resource hr
    exact h.named record resource ((hmem record resource).mp hr)
  · rw [h.status]
    simp only [hreturns]

theorem apart (h : StopLedger i events stopPhase status) {event : LifecycleEvent β} (hevent : event.apart = true) :
    StopLedger i (events ++ [event]) stopPhase status := by
  have hreturn : ∀ resource, returnOf resource event = none := by
    intro resource
    cases event <;> first | rfl | cases hevent
  have hstop : ∀ session, stopCall event ≠ some session := by
    intro session
    cases event <;> simp_all [LifecycleEvent.apart, stopCall]
  refine h.quiet hreturn ?_ fun session => (h.tracked session).append (hstop session) (hreturn _)
  rintro record resource rfl
  cases hevent

theorem stop (h : StopLedger i events stopPhase status) {session : SandboxSession} (hnone : stopPhase session = none) :
    StopLedger i (events ++ [.stop session]) (Function.update stopPhase session (some .stopping)) status := by
  refine h.quiet (fun _ => rfl) ?_ fun other => ?_
  · intro record resource he
    cases he
  by_cases hs : other = session
  · subst hs
    have ht := h.tracked other
    rw [hnone] at ht
    rw [Function.update_self]
    refine ⟨?_, ?_⟩
    · rw [stops_append, ht.1]
      simp [stopCall]
    · rw [returns_append, ht.2]
      rfl
  · rw [Function.update_of_ne hs]
    refine (h.tracked other).append ?_ rfl
    simp only [stopCall, ne_eq, Option.some.injEq]
    exact fun he => hs he.symm

/-- A resource that is back leaves the status as it was. -/
theorem back (h : StopLedger i events stopPhase status) {resource : LifecycleResource} {stopPhase'}
    (hbefore : events.returns resource = [])
    (htracked : ∀ session, LifecycleTrace.Tracked (events ++ [.returned resource true]) session (stopPhase' session)) :
    StopLedger i (events ++ [.returned resource true]) stopPhase' status := by
  have hreturns := returns_reply hbefore true
  constructor
  · exact htracked
  · intro other
    rw [hreturns, List.mem_append, ← h.recorded other]
    by_cases ho : other = resource
    · subst ho
      simp [hbefore]
    · simp [ho]
  · intro record other hr
    exact h.named record other (by simpa using hr)
  · rw [h.status]
    constructor
    · rintro ⟨other, ho⟩
      refine ⟨other, ?_⟩
      rw [hreturns, if_neg]
      · exact ho
      · rintro rfl
        rw [hbefore] at ho
        cases ho
    · rintro ⟨other, ho⟩
      rw [hreturns] at ho
      split at ho
      · simp at ho
      · exact ⟨other, ho⟩

/-- A resource that could not be given back is recorded. -/
theorem lost (h : StopLedger i events stopPhase status) {resource : LifecycleResource} {stopPhase'}
    (hbefore : events.returns resource = [])
    (htracked : ∀ session, LifecycleTrace.Tracked
      (events ++ [.returned resource false] ++ [.record (resource.record i.attemptId) resource]) session
      (stopPhase' session)) :
    StopLedger i (events ++ [.returned resource false] ++ [.record (resource.record i.attemptId) resource]) stopPhase'
      .quarantined := by
  have hreturns : ∀ other, LifecycleTrace.returns
      (events ++ [.returned resource false] ++ [.record (resource.record i.attemptId) resource]) other =
        if other = resource then [false] else events.returns other := by
    intro other
    rw [returns_append, returns_reply hbefore false]
    exact List.append_nil _
  constructor
  · exact htracked
  · intro other
    rw [hreturns]
    by_cases ho : other = resource
    · subst ho
      simp
    · simp [ho, h.recorded other]
  · intro record other hr
    simp only [List.mem_append, List.mem_singleton, reduceCtorEq, or_false] at hr
    rcases hr with hr | hr
    · exact h.named record other hr
    · cases hr
      rfl
  · refine iff_of_true rfl ⟨resource, ?_⟩
    rw [hreturns, if_pos rfl]
    exact List.mem_singleton_self false

theorem stopped (h : StopLedger i events stopPhase status) {session : SandboxSession}
    (hphase : stopPhase session = some .stopping) :
    StopLedger i (events ++ [.returned (.sandbox session) true])
      (Function.update stopPhase session (some .settled)) status := by
  have ht := h.tracked session
  rw [hphase] at ht
  refine h.back ht.2 fun other => ?_
  by_cases hs : other = session
  · subst hs
    rw [Function.update_self]
    refine ⟨?_, .inl ?_⟩
    · rw [stops_append, ht.1]
      rfl
    · rw [returns_reply ht.2, if_pos rfl]
  · rw [Function.update_of_ne hs]
    refine (h.tracked other).append (by simp [stopCall]) ?_
    exact if_neg fun he => hs (LifecycleResource.sandbox.inj he).symm

theorem stopFailed (h : StopLedger i events stopPhase status) {session : SandboxSession}
    (hphase : stopPhase session = some .stopping) :
    StopLedger i (events ++ [.returned (.sandbox session) false] ++
        [.record (LifecycleResource.record i.attemptId (.sandbox session)) (.sandbox session)])
      (Function.update stopPhase session (some .recording)) .quarantined := by
  have ht := h.tracked session
  rw [hphase] at ht
  refine h.lost ht.2 fun other => ?_
  by_cases hs : other = session
  · subst hs
    rw [Function.update_self]
    refine ⟨?_, ?_⟩
    · rw [stops_append, stops_append, ht.1]
      rfl
    · rw [returns_append, returns_reply ht.2, if_pos rfl]
      rfl
  · rw [Function.update_of_ne hs]
    refine ((h.tracked other).append (by simp [stopCall]) ?_).append (by simp [stopCall]) rfl
    exact if_neg fun he => hs (LifecycleResource.sandbox.inj he).symm

theorem stopRecorded (h : StopLedger i events stopPhase status) {session : SandboxSession}
    (hphase : stopPhase session = some .recording) :
    StopLedger i (events ++ [.recorded (.sandbox session)]) (Function.update stopPhase session (some .settled)) status := by
  have ht := h.tracked session
  rw [hphase] at ht
  refine h.quiet (fun _ => rfl) ?_ fun other => ?_
  · intro record resource he
    cases he
  by_cases hs : other = session
  · subst hs
    rw [Function.update_self]
    refine ⟨?_, .inr ⟨?_, ?_⟩⟩
    · rw [stops_append, ht.1]
      rfl
    · rw [returns_append, ht.2]
      rfl
    · exact List.mem_append_right _ (List.mem_singleton_self _)
  · rw [Function.update_of_ne hs]
    exact (h.tracked other).append (by simp [stopCall]) rfl

theorem deleted (h : StopLedger i events stopPhase status) {snapshotId : String}
    (hbefore : events.returns (.snapshot snapshotId) = []) :
    StopLedger i (events ++ [.returned (.snapshot snapshotId) true]) stopPhase status :=
  h.back hbefore fun session => (h.tracked session).append (by simp [stopCall]) (by simp [returnOf])

theorem deleteFailed (h : StopLedger i events stopPhase status) {snapshotId : String}
    (hbefore : events.returns (.snapshot snapshotId) = []) :
    StopLedger i (events ++ [.returned (.snapshot snapshotId) false] ++
        [.record (LifecycleResource.record i.attemptId (.snapshot snapshotId)) (.snapshot snapshotId)])
      stopPhase .quarantined :=
  h.lost hbefore fun session =>
    ((h.tracked session).append (by simp [stopCall]) (by simp [returnOf])).append (by simp [stopCall]) rfl

/-- A session whose stop is done is given back. -/
theorem givenBack (h : StopLedger i events stopPhase status) {session : SandboxSession}
    (hphase : stopPhase session = some .settled) :
    events.stops session = 1 ∧ events.GivenBack i.attemptId (.sandbox session) := by
  have ht := h.tracked session
  rw [hphase] at ht
  refine ⟨ht.1, ht.2.imp id fun hf => ⟨hf.1, ?_, hf.2⟩⟩
  rw [← h.recorded, hf.1]
  exact List.mem_singleton_self false

end StopLedger

/-! ## What the phases are in charge of -/

namespace SnapshotRun

open LifecycleTrace

variable {i : AttemptInput} {r : SnapshotRun β} {held : List SandboxSession} {session : SandboxSession}

/-- Every session that is not held is stopped and done. -/
structure Standing (i : AttemptInput) (r : SnapshotRun β) (held : List SandboxSession) : Prop where
  ledger : StopLedger i r.events r.cleanup r.cleanupStatus
  obtained : ∀ session ∈ r.events.sessions i, session ∈ held ∨ r.cleanup session = some .settled
  known : ∀ session, r.cleanup session ≠ none → session ∈ r.events.sessions i
  handed : ∀ session ∈ held, session ∈ r.events.sessions i
  serial : r.events.Serial i

theorem cleanupSession_new {session : SandboxSession} (hnone : r.cleanup session = none) :
    r.cleanupSession session = (r.setStop session .stopping).log (.stop session) := by
  rw [cleanupSession, hnone]

theorem cleanupSession_begun {session : SandboxSession} {phase : StopPhase} (hsome : r.cleanup session = some phase) :
    r.cleanupSession session = r := by
  rw [cleanupSession, hsome]

theorem sessions_append (events : LifecycleTrace β) (event : LifecycleEvent β) :
    LifecycleTrace.sessions i (events ++ [event]) = events.sessions i ++ (createdSession event).toList := by
  simp only [sessions, List.filterMap_append, List.filterMap_cons, List.filterMap_nil]
  cases createdSession event <;> simp

theorem set_moves {session other : SandboxSession} {phase : StopPhase}
    (h : Function.update r.cleanup session (some phase) other ≠ r.cleanup other) : other = session := by
  by_contra hne
  exact h (Function.update_of_ne hne _ _)

namespace Standing

/-- The `finally` takes charge of the prepared session again. -/
theorem prepared (h : r.Standing i []) : r.Standing i [i.preparedSession] where
  ledger := h.ledger
  obtained := fun session hs => .inr ((h.obtained session hs).resolve_left nofun)
  known := h.known
  handed := by
    intro session hs
    rw [List.mem_singleton.mp hs]
    exact List.mem_cons_self
  serial := h.serial

theorem become (h : r.Standing i held) (phase : SnapshotPhase β) : (r.become phase).Standing i held :=
  ⟨h.ledger, h.obtained, h.known, h.handed, h.serial⟩

theorem retried (h : r.Standing i held) : r.retried.Standing i held := ⟨h.ledger, h.obtained, h.known, h.handed, h.serial⟩

theorem push (h : r.Standing i held) (value : β) : (r.push value).Standing i held :=
  ⟨h.ledger, h.obtained, h.known, h.handed, h.serial⟩

theorem timed (h : r.Standing i held) (timer : AbortTimer) : { r with timer := timer }.Standing i held :=
  ⟨h.ledger, h.obtained, h.known, h.handed, h.serial⟩

theorem allBack (h : r.Standing i []) : r.events.AllBack i := fun session hs =>
  h.ledger.givenBack ((h.obtained session hs).resolve_left nofun)

/-- Changes of the stops, and events that neither hand over nor restore a session. -/
theorem moved (h : r.Standing i held) {r' : SnapshotRun β} {added : LifecycleTrace β}
    (hevents : r'.events = r.events ++ added) (hledger : StopLedger i r'.events r'.cleanup r'.cleanupStatus)
    (hadded : ∀ event ∈ added, createdSession event = none ∧ restoreCall event = none)
    (hcleanup : ∀ session, r'.cleanup session ≠ r.cleanup session →
      session ∈ r.events.sessions i ∧ (session ∈ held ∨ r'.cleanup session = some .settled)) :
    r'.Standing i held := by
  have hsessions : r'.events.sessions i = r.events.sessions i := by
    rw [hevents, sessions, List.filterMap_append, List.filterMap_eq_nil_iff.mpr fun e he => (hadded e he).1,
      List.append_nil, sessions]
  constructor
  · exact hledger
  · intro session hs
    by_cases hc : r'.cleanup session = r.cleanup session
    · rw [hc]
      exact h.obtained session (hsessions ▸ hs)
    · exact (hcleanup session hc).2
  · intro session hs
    rw [hsessions]
    by_cases hc : r'.cleanup session = r.cleanup session
    · exact h.known session (hc ▸ hs)
    · exact (hcleanup session hc).1
  · intro session hs
    rw [hsessions]
    exact h.handed session hs
  · rw [hevents]
    exact serial_extend h.serial fun e he => (hadded e he).2

theorem log (h : r.Standing i held) (event : LifecycleEvent β) (hapart : event.apart = true)
    (hcreated : createdSession event = none) (hrestore : restoreCall event = none) : (r.log event).Standing i held :=
  h.moved rfl (h.ledger.apart hapart) (by simp [hcreated, hrestore]) fun _ hc => absurd rfl hc

theorem cleanupSession (h : r.Standing i held) (hheld : session ∈ held) :
    (r.cleanupSession session).Standing i held := by
  cases hc : r.cleanup session with
  | some phase =>
    rw [cleanupSession_begun hc]
    exact h
  | none =>
    rw [cleanupSession_new hc]
    refine h.moved rfl (h.ledger.stop hc) (by simp [createdSession, restoreCall]) fun other ho => ?_
    rw [set_moves ho]
    exact ⟨h.handed session hheld, .inl hheld⟩

/-- A stop that is not done is held. -/
theorem pending (h : r.Standing i held) {phase : StopPhase} (hphase : r.cleanup session = some phase)
    (hne : phase ≠ .settled) : session ∈ r.events.sessions i ∧ session ∈ held := by
  have hs : session ∈ r.events.sessions i := h.known session (by rw [hphase]; exact nofun)
  refine ⟨hs, (h.obtained session hs).resolve_right ?_⟩
  rw [hphase]
  exact fun he => hne (Option.some.inj he)

theorem stopReply (h : r.Standing i held) (hphase : r.cleanup session = some .stopping) (gone : Bool) :
    (r.stopReply i session gone).Standing i held := by
  obtain ⟨hs, hheld⟩ := h.pending hphase nofun
  cases gone with
  | true =>
    refine h.moved rfl (h.ledger.stopped hphase) (by simp [createdSession, restoreCall]) fun other ho => ?_
    rw [set_moves ho]
    exact ⟨hs, .inl hheld⟩
  | false =>
    refine h.moved (List.append_assoc _ _ _) (h.ledger.stopFailed hphase) (by simp [createdSession, restoreCall])
      fun other ho => ?_
    rw [set_moves ho]
    exact ⟨hs, .inl hheld⟩

theorem stopRecorded (h : r.Standing i held) (hphase : r.cleanup session = some .recording) :
    ((r.log (.recorded (.sandbox session))).setStop session .settled).Standing i held := by
  obtain ⟨hs, hheld⟩ := h.pending hphase nofun
  refine h.moved rfl (h.ledger.stopRecorded hphase) (by simp [createdSession, restoreCall]) fun other ho => ?_
  rw [set_moves ho]
  exact ⟨hs, .inl hheld⟩

/-- The stop that was awaited is done. -/
theorem done (h : r.Standing i [session]) (hdone : r.cleanup session = some .settled) : r.Standing i [] where
  ledger := h.ledger
  obtained := by
    intro other hs
    rcases h.obtained other hs with ho | ho
    · rw [List.mem_singleton.mp ho]
      exact .inr hdone
    · exact .inr ho
  known := h.known
  handed := nofun
  serial := h.serial

/-- The provider hands a session over. -/
theorem created (h : r.Standing i []) (session : SandboxSession) :
    (r.log (.created (some session))).Standing i [session] := by
  have hsessions : (r.log (.created (some session))).events.sessions i = r.events.sessions i ++ [session] :=
    sessions_append r.events _
  constructor
  · exact h.ledger.apart rfl
  · intro other ho
    rw [hsessions] at ho
    rcases List.mem_append.mp ho with ho | ho
    · exact .inr ((h.obtained other ho).resolve_left nofun)
    · exact .inl ho
  · intro other ho
    rw [hsessions]
    exact List.mem_append_left _ (h.known other ho)
  · intro other ho
    rw [hsessions]
    exact List.mem_append_right _ ho
  · exact serial_append h.serial nofun

/-- A session is asked for when all others are given back. -/
theorem restore (h : r.Standing i []) (snapshotId : String) :
    (r.log (.createFromSnapshot snapshotId)).Standing i [] := by
  have hsessions : (r.log (.createFromSnapshot snapshotId)).events.sessions i = r.events.sessions i :=
    (sessions_append r.events _).trans (List.append_nil _)
  constructor
  · exact h.ledger.apart rfl
  · intro other ho
    exact h.obtained other (hsessions ▸ ho)
  · intro other ho
    rw [hsessions]
    exact h.known other ho
  · exact nofun
  · exact serial_append h.serial fun _ _ => h.allBack

end Standing

/-! ## The snapshot -/

/-- The snapshots that were taken and the deletions that were asked for, no reply to which has come. -/
structure Untouched (events : LifecycleTrace β) (taken deleted : List String) : Prop where
  snapshots : events.snapshots = taken
  deletes : events.deletes = deleted
  unanswered : ∀ snapshotId, events.returns (.snapshot snapshotId) = []

/-- Events that do not concern the snapshot. -/
def Bystanders (added : LifecycleTrace β) : Prop :=
  ∀ event ∈ added, snapshotTaken event = none ∧ deleteCall event = none ∧
    ∀ snapshotId, returnOf (.snapshot snapshotId) event = none

section bystanders

variable {added : LifecycleTrace β} (hadded : Bystanders added) (events : LifecycleTrace β)

include hadded

theorem snapshots_extend : LifecycleTrace.snapshots (events ++ added) = events.snapshots := by
  rw [snapshots, List.filterMap_append, List.filterMap_eq_nil_iff.mpr fun e he => (hadded e he).1, List.append_nil,
    snapshots]

theorem deletes_extend : LifecycleTrace.deletes (events ++ added) = events.deletes := by
  rw [deletes, List.filterMap_append, List.filterMap_eq_nil_iff.mpr fun e he => (hadded e he).2.1, List.append_nil,
    deletes]

theorem returns_extend (snapshotId : String) :
    LifecycleTrace.returns (events ++ added) (.snapshot snapshotId) = events.returns (.snapshot snapshotId) := by
  rw [returns, List.filterMap_append, List.filterMap_eq_nil_iff.mpr fun e he => (hadded e he).2.2 snapshotId,
    List.append_nil, returns]

end bystanders

theorem Untouched.extend {events added : LifecycleTrace β} {taken deleted : List String}
    (h : Untouched events taken deleted) (hadded : Bystanders added) : Untouched (events ++ added) taken deleted where
  snapshots := (snapshots_extend hadded events).trans h.snapshots
  deletes := (deletes_extend hadded events).trans h.deletes
  unanswered := fun snapshotId => (returns_extend hadded events snapshotId).trans (h.unanswered snapshotId)

theorem Untouched.taken {events : LifecycleTrace β} (h : Untouched events [] []) (snapshotId : String) :
    Untouched (events ++ [.snapshotted (some snapshotId)]) [snapshotId] [] where
  snapshots := by
    rw [LifecycleTrace.snapshots, List.filterMap_append]
    exact congrArg (· ++ [snapshotId]) h.snapshots
  deletes := by
    rw [LifecycleTrace.deletes, List.filterMap_append]
    exact congrArg (· ++ []) h.deletes
  unanswered := by
    intro other
    rw [returns_append, h.unanswered other]
    rfl

theorem Untouched.deleted {events : LifecycleTrace β} {snapshotId : String} (h : Untouched events [snapshotId] []) :
    Untouched (events ++ [.delete snapshotId]) [snapshotId] [snapshotId] where
  snapshots := by
    rw [LifecycleTrace.snapshots, List.filterMap_append]
    exact congrArg (· ++ []) h.snapshots
  deletes := by
    rw [LifecycleTrace.deletes, List.filterMap_append]
    exact congrArg (· ++ [snapshotId]) h.deletes
  unanswered := by
    intro other
    rw [returns_append, h.unanswered other]
    rfl

/-- The first reply to a deletion leaves what was taken and asked for as it was. -/
theorem Untouched.replied {events : LifecycleTrace β} {taken deleted : List String} (h : Untouched events taken deleted)
    (resource : LifecycleResource) (gone : Bool) :
    LifecycleTrace.snapshots (events ++ [.returned resource gone]) = taken ∧
      LifecycleTrace.deletes (events ++ [.returned resource gone]) = deleted := by
  rw [LifecycleTrace.snapshots, LifecycleTrace.deletes, List.filterMap_append, List.filterMap_append]
  exact ⟨(List.append_nil _).trans h.snapshots, (List.append_nil _).trans h.deletes⟩

theorem GivenBack.extend {events added : LifecycleTrace β} {snapshotId : String}
    (h : events.GivenBack i.attemptId (.snapshot snapshotId)) (hadded : Bystanders added) :
    LifecycleTrace.GivenBack i.attemptId (events ++ added) (.snapshot snapshotId) := by
  unfold LifecycleTrace.GivenBack
  rw [returns_extend hadded events snapshotId]
  exact h.imp id fun hf => ⟨hf.1, List.mem_append_left _ hf.2.1, List.mem_append_left _ hf.2.2⟩

/-! ## The invariant -/

/-- The sessions that a phase is in charge of. -/
def charge (i : AttemptInput) : SnapshotPhase β → List SandboxSession
  | .snapshotting | .stoppingPrepared _ | .closing _ _ => [i.preparedSession]
  | .running _ _ session _ | .stopping session _ _ => [session]
  | .creating _ _ _ | .deleting _ _ | .recording _ _ | .settled _ => []

/-- What became of the snapshot by a phase. -/
def SnapshotState (i : AttemptInput) (events : LifecycleTrace β) : SnapshotPhase β → Prop
  | .snapshotting => Untouched events [] []
  | .stoppingPrepared snapshotId | .creating _ _ snapshotId | .running _ _ _ snapshotId | .stopping _ _ snapshotId =>
    Untouched events [snapshotId] []
  | .closing _ taken => Untouched events taken.toList []
  | .deleting _ snapshotId => Untouched events [snapshotId] [snapshotId]
  | .recording _ snapshotId => events.snapshots = [snapshotId] ∧ events.deletes = [snapshotId] ∧
      events.returns (.snapshot snapshotId) = [false]
  | .settled _ => events.deletes = events.snapshots ∧ events.snapshots.length ≤ 1 ∧
      ∀ snapshotId ∈ events.snapshots, events.GivenBack i.attemptId (.snapshot snapshotId)

theorem SnapshotState.extend {events added : LifecycleTrace β} {phase : SnapshotPhase β} (h : SnapshotState i events phase)
    (hadded : Bystanders added) : SnapshotState i (events ++ added) phase := by
  cases phase with
  | recording failure snapshotId =>
    simp only [SnapshotState, snapshots_extend hadded, deletes_extend hadded, returns_extend hadded]
    exact h
  | settled outcome =>
    simp only [SnapshotState, snapshots_extend hadded, deletes_extend hadded]
    exact ⟨h.1, h.2.1, fun snapshotId hs => GivenBack.extend (h.2.2 snapshotId hs) hadded⟩
  | _ => exact Untouched.extend h hadded

/-- The status that the outcome reports. -/
def outcomeStatus : Except AttemptLifecycleError (SnapshotRunResult β) → CleanupStatus
  | .error error => error.cleanupStatus
  | .ok result => result.cleanupStatus

structure Lifecycle (i : AttemptInput) (r : SnapshotRun β) : Prop where
  standing : r.Standing i (charge i r.phase)
  snapshot : SnapshotState i r.events r.phase
  reported : ∀ outcome, r.phase = .settled outcome → outcomeStatus outcome = r.cleanupStatus

/-! ## What each part of `execute` keeps -/

section parts

variable {failure : Option AttemptLifecycleCode} {taken : Option String} {snapshotId : String} {index retries : Nat}

theorem Untouched.stop {ids deleted : List String} (h : Untouched r.events ids deleted) (session : SandboxSession) :
    Untouched (r.cleanupSession session).events ids deleted := by
  cases hc : r.cleanup session with
  | some phase =>
    rw [cleanupSession_begun hc]
    exact h
  | none =>
    rw [cleanupSession_new hc]
    exact h.extend (by simp [Bystanders, snapshotTaken, deleteCall, returnOf])

theorem close_lifecycle (hs : r.Standing i [i.preparedSession]) (hu : Untouched r.events taken.toList []) :
    (r.close i failure taken).Lifecycle i where
  standing := (hs.cleanupSession (List.mem_singleton_self _)).become _
  snapshot := hu.stop i.preparedSession
  reported := nofun

theorem attempt_lifecycle (hs : r.Standing i []) (hu : Untouched r.events [snapshotId] []) :
    (r.attempt i index retries snapshotId).Lifecycle i := by
  unfold attempt
  split
  · exact close_lifecycle hs.prepared hu
  · exact ⟨(hs.become _).restore snapshotId, hu.extend (by simp [Bystanders, snapshotTaken, deleteCall, returnOf]), nofun⟩

theorem experiment_lifecycle (hs : r.Standing i []) (hu : Untouched r.events [snapshotId] []) :
    (r.experiment i index snapshotId).Lifecycle i := by
  unfold experiment
  split
  · exact attempt_lifecycle hs hu
  · exact close_lifecycle hs.prepared hu

theorem release_lifecycle {after : AfterRun} (hs : r.Standing i [session])
    (hu : Untouched r.events [snapshotId] []) : (r.release session after snapshotId).Lifecycle i where
  standing := (hs.cleanupSession (List.mem_singleton_self _)).become _
  snapshot := hu.stop session
  reported := nofun

theorem finish_lifecycle (hs : r.Standing i []) (hdeletes : r.events.deletes = r.events.snapshots)
    (hone : r.events.snapshots.length ≤ 1)
    (hback : ∀ snapshotId ∈ r.events.snapshots, r.events.GivenBack i.attemptId (.snapshot snapshotId)) :
    (r.finish failure).Lifecycle i where
  standing := hs.become _
  snapshot := ⟨hdeletes, hone, hback⟩
  reported := by
    intro outcome h
    rw [← SnapshotPhase.settled.inj h]
    cases failure <;> rfl

end parts

/-! ## Steps -/

section steps

variable {k : SnapshotRunCoordinator} {failure : Option AttemptLifecycleCode} {taken : Option String} {snapshotId : String}
  {index retries : Nat}

/-- A change within a phase. -/
theorem Lifecycle.within (h : r.Lifecycle i) {r' : SnapshotRun β} {added : LifecycleTrace β} (hphase : r'.phase = r.phase)
    (hevents : r'.events = r.events ++ added) (hstanding : r'.Standing i (charge i r.phase)) (hadded : Bystanders added)
    (hstatus : r'.cleanupStatus = r.cleanupStatus ∨ ∀ outcome, r.phase ≠ .settled outcome) : r'.Lifecycle i where
  standing := hphase ▸ hstanding
  snapshot := by
    rw [hphase, hevents]
    exact h.snapshot.extend hadded
  reported := by
    intro outcome ho
    rw [hphase] at ho
    rcases hstatus with hs | hs
    · rw [hs]
      exact h.reported outcome ho
    · exact absurd ho (hs outcome)

/-- The listener of an experiment stops its session. -/
theorem aborts_lifecycle (h : r.Lifecycle i) : r.aborts.Lifecycle i := by
  unfold aborts
  split
  · rename_i index retries session snapshotId hphase
    have hs := h.standing
    have hu := h.snapshot
    rw [hphase] at hs hu
    have hkept : (r.cleanupSession session).phase = r.phase := by
      unfold cleanupSession
      split <;> rfl
    refine ⟨?_, ?_, ?_⟩
    · rw [hkept, hphase]
      exact hs.cleanupSession (List.mem_singleton_self _)
    · rw [hkept, hphase]
      exact Untouched.stop hu session
    · rw [hkept, hphase]
      exact nofun
  · exact h

theorem timed_lifecycle (h : r.Lifecycle i) (timer : AbortTimer) : { r with timer := timer }.Lifecycle i :=
  ⟨h.standing.timed timer, h.snapshot, h.reported⟩

theorem cancel_lifecycle (h : r.Lifecycle i) : r.cancel.Lifecycle i := by
  unfold cancel
  split
  · exact h
  · exact aborts_lifecycle (timed_lifecycle h _)

theorem expire_lifecycle (h : r.Lifecycle i) : r.expire.Lifecycle i := by
  unfold expire
  split
  · exact timed_lifecycle h _
  · exact aborts_lifecycle (timed_lifecycle h _)

theorem snapshotReply_lifecycle (h : r.Lifecycle i) (hphase : r.phase = .snapshotting) (reply : Option String) :
    ((r.log (.snapshotted reply)).snapshotReply i reply).Lifecycle i := by
  obtain ⟨hs, hu, -⟩ := h
  rw [hphase] at hs hu
  have hlogged := hs.log (.snapshotted reply) rfl rfl rfl
  cases reply with
  | none => exact close_lifecycle hlogged (hu.extend (by simp [Bystanders, snapshotTaken, deleteCall, returnOf]))
  | some snapshotId =>
    have htaken : Untouched (r.log (.snapshotted (some snapshotId))).events [snapshotId] [] := hu.taken snapshotId
    exact ⟨(hlogged.cleanupSession (List.mem_singleton_self _)).become _, htaken.stop _, nofun⟩

theorem createReply_lifecycle (h : r.Lifecycle i) (hphase : r.phase = .creating index retries snapshotId)
    (reply : Option SandboxSession) :
    ((r.log (.created reply)).createReply k i index retries snapshotId reply).Lifecycle i := by
  obtain ⟨hs, hu, -⟩ := h
  rw [hphase] at hs hu
  have hlogged : Untouched (r.log (.created reply)).events [snapshotId] [] :=
    hu.extend (by simp [Bystanders, snapshotTaken, deleteCall, returnOf])
  cases reply with
  | none =>
    have hstanding := hs.log (.created none) rfl rfl rfl
    simp only [createReply]
    split
    · exact close_lifecycle hstanding.prepared hlogged
    · split
      · exact attempt_lifecycle hstanding.retried hlogged
      · exact close_lifecycle hstanding.prepared hlogged
  | some session =>
    exact ⟨((hs.created session).become _).log _ rfl rfl rfl,
      hlogged.extend (by simp [Bystanders, snapshotTaken, deleteCall, returnOf]), nofun⟩

theorem runReply_lifecycle (h : r.Lifecycle i) (hphase : r.phase = .running index retries session snapshotId)
    (reply : Except RunError β) :
    ((r.log (.ran index session reply)).runReply k index retries session snapshotId reply).Lifecycle i := by
  obtain ⟨hs, hu, -⟩ := h
  rw [hphase] at hs hu
  have hlogged : Untouched (r.log (.ran index session reply)).events [snapshotId] [] :=
    hu.extend (by simp [Bystanders, snapshotTaken, deleteCall, returnOf])
  have hstanding := hs.log (.ran index session reply) rfl rfl rfl
  cases reply with
  | ok value =>
    simp only [runReply]
    split
    · exact release_lifecycle hstanding hlogged
    · exact release_lifecycle (hstanding.push value) hlogged
  | error error =>
    simp only [runReply]
    repeat' split
    all_goals first
      | exact release_lifecycle hstanding hlogged
      | exact release_lifecycle hstanding.retried hlogged

theorem resume_lifecycle (h : r.Lifecycle i) : (r.resume i).Lifecycle i := by
  obtain ⟨hs, hu, hreported⟩ := h
  cases hphase : r.phase with
  | stoppingPrepared snapshotId =>
    rw [hphase] at hs hu
    simp only [resume, hphase]
    split
    · rename_i hdone
      exact experiment_lifecycle (hs.done hdone) hu
    · exact ⟨hphase ▸ hs, hphase ▸ hu, hreported⟩
  | stopping session after snapshotId =>
    rw [hphase] at hs hu
    simp only [resume, hphase]
    split
    · rename_i hdone
      cases after with
      | retry index retries => exact attempt_lifecycle (hs.done hdone) hu
      | next index => exact experiment_lifecycle (hs.done hdone) hu
      | fail code => exact close_lifecycle (hs.done hdone).prepared hu
    · exact ⟨hphase ▸ hs, hphase ▸ hu, hreported⟩
  | closing failure taken =>
    rw [hphase] at hs hu
    simp only [resume, hphase]
    split
    · rename_i hdone
      cases taken with
      | some snapshotId => exact ⟨((hs.done hdone).become _).log _ rfl rfl rfl, Untouched.deleted hu, nofun⟩
      | none =>
        apply finish_lifecycle (hs.done hdone)
        · exact hu.deletes.trans hu.snapshots.symm
        · rw [hu.snapshots]
          exact Nat.zero_le 1
        · rw [hu.snapshots]
          exact nofun
    · exact ⟨hphase ▸ hs, hphase ▸ hu, hreported⟩
  | _ =>
    simp only [resume, hphase]
    exact ⟨hs, hu, hreported⟩

theorem deleteReply_lifecycle (h : r.Lifecycle i) (hphase : r.phase = .deleting failure snapshotId) (gone : Bool) :
    (r.deleteReply i failure snapshotId gone).Lifecycle i := by
  obtain ⟨hs, hu, -⟩ := h
  rw [hphase] at hs hu
  have hunanswered : r.events.returns (.snapshot snapshotId) = [] := hu.unanswered snapshotId
  obtain ⟨hsnapshots, hdeletes⟩ := hu.replied (.snapshot snapshotId) gone
  have hreturns := returns_reply hunanswered gone (.snapshot snapshotId)
  rw [if_pos rfl] at hreturns
  cases gone with
  | true =>
    have hstanding : (r.log (.returned (.snapshot snapshotId) true)).Standing i [] :=
      hs.moved rfl (hs.ledger.deleted hunanswered) (by simp [createdSession, restoreCall]) fun _ hc => absurd rfl hc
    refine finish_lifecycle hstanding (hdeletes.trans hsnapshots.symm) ?_ ?_
    · exact (congrArg List.length hsnapshots).le
    · intro other ho
      have hother : other ∈ [snapshotId] := hsnapshots ▸ ho
      rw [List.mem_singleton.mp hother]
      exact .inl hreturns
  | false =>
    have hstanding : ((r.log (.returned (.snapshot snapshotId) false)).quarantine i (.snapshot snapshotId)).Standing i [] :=
      hs.moved (List.append_assoc _ _ _) (hs.ledger.deleteFailed hunanswered) (by simp [createdSession, restoreCall])
        fun _ hc => absurd rfl hc
    have hrecord : Bystanders [LifecycleEvent.record (β := β) (LifecycleResource.record i.attemptId (.snapshot snapshotId))
        (.snapshot snapshotId)] := by
      simp [Bystanders, snapshotTaken, deleteCall, returnOf]
    refine ⟨hstanding.become _, ⟨?_, ?_, ?_⟩, nofun⟩
    · exact (snapshots_extend hrecord _).trans hsnapshots
    · exact (deletes_extend hrecord _).trans hdeletes
    · exact (returns_extend hrecord _ _).trans hreturns

theorem deleteRecorded_lifecycle (h : r.Lifecycle i) (hphase : r.phase = .recording failure snapshotId) :
    ((r.log (.recorded (.snapshot snapshotId))).finish failure).Lifecycle i := by
  obtain ⟨hs, hu, -⟩ := h
  rw [hphase] at hs hu
  obtain ⟨hsnapshots, hdeletes, hreturns⟩ := hu
  have hrecorded : Bystanders [LifecycleEvent.recorded (β := β) (.snapshot snapshotId)] := by
    simp [Bystanders, snapshotTaken, deleteCall, returnOf]
  have hsnapshots' := (snapshots_extend hrecorded r.events).trans hsnapshots
  refine finish_lifecycle (hs.log _ rfl rfl rfl) ?_ ?_ ?_
  · exact ((deletes_extend hrecorded r.events).trans hdeletes).trans hsnapshots'.symm
  · exact (congrArg List.length hsnapshots').le
  · intro other ho
    have hother : other ∈ [snapshotId] := hsnapshots' ▸ ho
    rw [List.mem_singleton.mp hother]
    refine .inr ⟨(returns_extend hrecorded r.events snapshotId).trans hreturns, ?_, ?_⟩
    · apply List.mem_append_left
      rw [← hs.ledger.recorded, hreturns]
      exact List.mem_singleton_self false
    · exact List.mem_append_right _ (List.mem_singleton_self _)

theorem stopReply_lifecycle (h : r.Lifecycle i) (hstop : r.cleanup session = some .stopping) (gone : Bool) :
    (r.stopReply i session gone).Lifecycle i := by
  have hphase : ∀ outcome, r.phase ≠ .settled outcome := by
    intro outcome ho
    have hs := h.standing
    rw [ho] at hs
    exact absurd (hs.pending hstop nofun).2 nofun
  cases gone with
  | true =>
    exact h.within rfl rfl (h.standing.stopReply hstop true)
      (by simp [Bystanders, snapshotTaken, deleteCall, returnOf]) (.inl rfl)
  | false =>
    exact h.within rfl (List.append_assoc _ _ _) (h.standing.stopReply hstop false)
      (by simp [Bystanders, snapshotTaken, deleteCall, returnOf]) (.inr hphase)

theorem stopRecorded_lifecycle (h : r.Lifecycle i) (hstop : r.cleanup session = some .recording) :
    ((r.log (.recorded (.sandbox session))).setStop session .settled).Lifecycle i :=
  h.within rfl rfl (h.standing.stopRecorded hstop) (by simp [Bystanders, snapshotTaken, deleteCall, returnOf])
    (.inl rfl)

theorem step_lifecycle (h : r.Lifecycle i) (action : SnapshotAction β) : (r.step k i action).Lifecycle i := by
  unfold step
  split
  · exact h
  · exact h
  · exact cancel_lifecycle h
  · exact expire_lifecycle h
  · rename_i reply hphase
    exact snapshotReply_lifecycle h hphase reply
  · rename_i reply index retries snapshotId hphase
    exact createReply_lifecycle h hphase reply
  · rename_i reply index retries session snapshotId hphase
    exact runReply_lifecycle h hphase reply
  · split
    · rename_i hstop
      exact stopReply_lifecycle h hstop _
    · exact h
  · split
    · rename_i hstop
      exact stopRecorded_lifecycle h hstop
    · exact h
  · exact resume_lifecycle h
  · rename_i gone failure snapshotId hphase
    exact deleteReply_lifecycle h hphase gone
  · rename_i failure snapshotId hphase
    exact deleteRecorded_lifecycle h hphase
  · exact h

theorem start_lifecycle (i : AttemptInput) (aborted : Bool) : (start (β := β) i aborted).Lifecycle i := by
  have hempty : ∀ timer, Standing (β := β) i ⟨timer, fun _ => none, .clean, 0, [], .snapshotting, []⟩
      [i.preparedSession] := fun _ =>
    ⟨.nil, fun _ hs => .inl hs, fun _ hs => absurd rfl hs, fun _ hs => hs, serial_nil i⟩
  have hu : Untouched ([] : LifecycleTrace β) [] [] := ⟨rfl, rfl, fun _ => rfl⟩
  cases aborted with
  | true => exact close_lifecycle (hempty _) hu
  | false =>
    exact ⟨(hempty _).log _ rfl rfl rfl,
      hu.extend (by simp [Bystanders, snapshotTaken, deleteCall, returnOf]), nofun⟩

theorem run_lifecycle (k : SnapshotRunCoordinator) (i : AttemptInput) (aborted : Bool) (actions : List (SnapshotAction β)) :
    (Runs.run (step k i) actions (start i aborted)).Lifecycle i := by
  have hstep : ∀ (r : SnapshotRun β) (action : SnapshotAction β), Lifecycle i r → Lifecycle i (step k i action r) :=
    fun _ action h => step_lifecycle h action
  exact Runs.run_keeps hstep (start_lifecycle i aborted)

end steps

/-- What a call leaves behind when it settles. -/
structure LeavesNothing (i : AttemptInput) (events : LifecycleTrace β) (status : CleanupStatus) : Prop where
  /-- Each session it was handed was stopped once, and is back or recorded. -/
  sessions : events.AllBack i
  others : ∀ session, session ∉ events.sessions i → events.stops session = 0
  /-- The snapshot that it took was deleted once, and is gone or recorded. -/
  deletes : events.deletes = events.snapshots
  single : events.snapshots.length ≤ 1
  snapshots : ∀ snapshotId ∈ events.snapshots, events.GivenBack i.attemptId (.snapshot snapshotId)
  /-- The status is clean if everything is back. -/
  clean : status = .clean ↔ ∀ resource, false ∉ events.returns resource
  /-- The records are of what is not. -/
  records : ∀ record resource, .record record resource ∈ events →
    record = resource.record i.attemptId ∧ false ∈ events.returns resource

theorem Lifecycle.leavesNothing (h : r.Lifecycle i) {outcome : Except AttemptLifecycleError (SnapshotRunResult β)}
    (hsettled : r.phase = .settled outcome) : LeavesNothing i r.events (outcomeStatus outcome) := by
  obtain ⟨hs, hu, hreported⟩ := h
  rw [hsettled] at hs hu
  constructor
  · exact hs.allBack
  · intro session hnot
    have hc : r.cleanup session = none := by
      by_contra hne
      exact hnot (hs.known session hne)
    have ht := hs.ledger.tracked session
    rw [hc] at ht
    exact ht.1
  · exact hu.1
  · exact hu.2.1
  · exact hu.2.2
  · rw [hreported outcome hsettled]
    have hstatus := hs.ledger.status
    cases hc : r.cleanupStatus with
    | clean =>
      rw [hc] at hstatus
      refine iff_of_true rfl fun resource hf => ?_
      cases hstatus.mpr ⟨resource, hf⟩
    | quarantined =>
      obtain ⟨resource, hf⟩ := hstatus.mp hc
      exact iff_of_false nofun fun hall => hall resource hf
  · intro record resource hr
    have hnamed := hs.ledger.named record resource hr
    exact ⟨hnamed, (hs.ledger.recorded resource).mpr (hnamed ▸ hr)⟩

/-- Whatever the provider, the experiments and the signal do, a call that settles leaves nothing behind. -/
theorem execute_gives_back (k : SnapshotRunCoordinator) (i : AttemptInput) (aborted : Bool)
    (actions : List (SnapshotAction β)) (outcome : Except AttemptLifecycleError (SnapshotRunResult β))
    (hsettled : (Runs.run (step k i) actions (start i aborted)).phase = .settled outcome) :
    LeavesNothing i (Runs.run (step k i) actions (start i aborted)).events (outcomeStatus outcome) :=
  (run_lifecycle k i aborted actions).leavesNothing hsettled

end SnapshotRun

end ReproForge

/-! ## Two experiments, one of them retried -/

namespace ReproForge.Sample.Snapshots

def coordinator : SnapshotRunCoordinator := ⟨1, le_rfl⟩

def session (object : Nat) : SandboxSession := ⟨object, "sbx"⟩

def input : AttemptInput where
  attemptId := "attempt-1"
  preparedSession := session 0
  runCount := 2
  opaqueAttempt := by decide +kernel
  counted := by omega

/-- The first session is interrupted and cannot be stopped. -/
def actions : List (SnapshotAction Nat) :=
  [.snapshotReply (some "snap"), .stopReply (session 0) true, .resume,
    .createReply (some (session 1)), .runReply (.error (.limit .providerInterrupted)), .stopReply (session 1) false,
    .stopRecorded (session 1), .resume,
    .createReply (some (session 2)), .runReply (.ok 7), .stopReply (session 2) true, .resume,
    .createReply (some (session 3)), .runReply (.ok 8), .stopReply (session 3) true, .resume,
    .resume, .deleteReply true]

theorem execute_gives_back_sample :
    SnapshotRun.LeavesNothing input
      (Runs.run (SnapshotRun.step coordinator input) actions (SnapshotRun.start input false)).events .quarantined :=
  SnapshotRun.execute_gives_back coordinator input false actions (.ok ⟨.quarantined, 1, [7, 8]⟩) rfl

end ReproForge.Sample.Snapshots
