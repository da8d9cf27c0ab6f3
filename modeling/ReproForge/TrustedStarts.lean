import ReproForge.CaseService
import ReproForge.Runs

/-!
# Trusted starts are idempotent

The reservation of a key is the one step at which the calls under it are told
apart. The call that makes it keeps its record to itself from then on, so that
it runs the sample once and answers for all others.
-/
namespace ReproForge

open KeyedTable JsonValues FirstClaims

variable {ρ ν : Type}

/-! ## The job of a start -/

theorem createCase_named {caseId : String} {at' : Instant} (hnamed : caseId ≠ "") (hdate : datetime at' = true) :
    createCase caseId at' = some ⟨at', [], caseId, .draft, at'⟩ := by
  simp [createCase, ReproCase.valid, hnamed, hdate]

theorem createJob_named {jobId caseId : String} {at' : Instant} (hjob : jobId ≠ "") (hcase : caseId ≠ "")
    (hdate : datetime at' = true) :
    createJob jobId caseId at' = some ⟨0, caseId, at', none, jobId, .draft, .queued, at'⟩ := by
  simp [createJob, ReproductionJob.valid, hjob, hcase, hdate]

/-- A transition that the job's state allows gives a job that its schema accepts. -/
theorem transitionJob_moves {job : ReproductionJob} (target : JobState) {at' : Instant} (failure : Option JobFailure)
    (progressPhase : CaseState) (hvalid : job.valid = true) (hmove : canTransitionJob job.state target = true)
    (hdate : datetime at' = true) (hattempt : job.state = .queued → job.attempt = 0)
    (hfailure : failure.all (fun f => f.code != "" && f.message != "") = true)
    (hfailed : (target == .failed) = failure.isSome) :
    ∃ job', transitionJob job target at' failure progressPhase = some job' ∧ job'.valid = true ∧ job'.id = job.id ∧
      job'.state = target ∧ job'.failure = failure := by
  simp only [transitionJob, hmove, if_true]
  have haccepted : ReproductionJob.valid
      { job with
        attempt := if job.state = .queued ∧ target = .running then job.attempt + 1 else job.attempt
        failure := failure
        progressPhase := progressPhase
        state := target
        updatedAt := at' } = true := by
    simp only [ReproductionJob.valid, Bool.and_eq_true, Bool.or_eq_true, decide_eq_true_eq, beq_iff_eq] at hvalid ⊢
    obtain ⟨⟨⟨⟨⟨⟨⟨hmost, hcase⟩, hcreated⟩, -⟩, hid⟩, -⟩, hleast⟩, -⟩ := hvalid
    refine ⟨⟨⟨⟨⟨⟨⟨?_, hcase⟩, hcreated⟩, hfailure⟩, hid⟩, hdate⟩, ?_⟩, hfailed⟩
    · split
      · rename_i hqueued
        have := hattempt hqueued.1
        omega
      · exact hmost
    · cases hstate : job.state with
      | queued => cases target <;> simp_all [canTransitionJob]
      | running => cases target <;> simp_all [canTransitionJob]
      | succeeded => simp [hstate, canTransitionJob] at hmove
      | failed => simp [hstate, canTransitionJob] at hmove
      | cancelled => simp [hstate, canTransitionJob] at hmove
  rw [if_pos haccepted]
  exact ⟨_, rfl, haccepted, rfl, rfl, rfl⟩

theorem StoredReproduction.anchor_eq {record record' : StoredReproduction ρ} (h : record.anchor = record'.anchor) :
    record.key = record'.key ∧ record.commandHash = record'.commandHash ∧ record.case.id = record'.case.id ∧
      record.job.id = record'.job.id := by
  simp only [anchor, Prod.mk.injEq] at h
  exact h

/-! ## What holds of a call -/

/-- The command of a call. -/
def TrustedPhase.command : TrustedPhase ρ → Option TrustedCommand
  | .idle | .invalid => none
  | .hashing command | .looking command _ | .reserving command _ _ | .starting command _ | .executing command _
  | .succeeding command _ _ | .failing command | .done command _ => some command

section service

variable [SampleDocument ρ] [LocaleCompare] [DomainNumber ν] [Sha256]

namespace TrustedStarts

/-- The record of a call that has reserved its key, as it is stored. -/
structure Held (ν : Type) [DomainNumber ν] (w : TrustedStarts ρ) (n : Nat) (command : TrustedCommand)
    (record : StoredReproduction ρ) : Prop where
  claimed : (command.key, n) ∈ w.ledger.claimed
  stored : w.stored command.key = some record
  commandHash : record.commandHash = command.commandHash ν

/-- A version of the record under the key of a call. -/
structure Known (w : TrustedStarts ρ) (command : TrustedCommand) (record : StoredReproduction ρ) : Prop where
  valid : record.snapshot.valid = true
  stored : ∃ current, w.stored command.key = some current ∧ current.anchor = record.anchor

def FailedRecord (record : StoredReproduction ρ) : Prop :=
  record.job.state = .failed ∧ record.job.failure = some trustedExecutionFailed

/-- What a reply says about the record under the key of its call. -/
def Answered (ν : Type) [DomainNumber ν] (w : TrustedStarts ρ) (n : Nat) (command : TrustedCommand) :
    TrustedReply ρ → Prop
  | .started _ snapshot => ∃ record, w.stored command.key = some record ∧
      record.commandHash = command.commandHash ν ∧ snapshot.case.id = record.case.id ∧ snapshot.job.id = record.job.id
  | .conflict => ∃ record, w.stored command.key = some record ∧ record.commandHash ≠ command.commandHash ν
  | .failed => ∃ record, Held ν w n command record ∧ FailedRecord record
  | .refused => False

def PhaseHolds (ν : Type) [DomainNumber ν] (w : TrustedStarts ρ) (n : Nat) : TrustedPhase ρ → Prop
  | .idle | .invalid | .hashing _ | .looking _ none => True
  | .looking command (some existing) => Known w command existing
  | .reserving command queued reservation =>
    if reservation.created then
      Held ν w n command queued ∧ (command.key, n) ∉ w.ledger.acted ∧ queued.job.state = .queued ∧
        queued.job.attempt = 0
    else Known w command reservation.record
  | .starting command running =>
    Held ν w n command running ∧ (command.key, n) ∉ w.ledger.acted ∧ running.job.state = .running
  | .executing command running =>
    Held ν w n command running ∧ (command.key, n) ∈ w.ledger.acted ∧ running.job.state = .running
  | .succeeding command _ succeeded => Held ν w n command succeeded
  | .failing command => ∃ record, Held ν w n command record ∧ FailedRecord record
  | .done command reply => Answered ν w n command reply

structure Sound (ν : Type) [DomainNumber ν] (w : TrustedStarts ρ) : Prop where
  orderly : w.ledger.Orderly
  /-- Who reserved a key did so for its own command. -/
  owners : ∀ key n, (key, n) ∈ w.ledger.claimed → ∃ command record, (w.calls n).command = some command ∧
    command.key = key ∧ w.stored key = some record ∧ record.commandHash = command.commandHash ν
  reserved : ∀ key record, w.stored key = some record → ∃ n, (key, n) ∈ w.ledger.claimed
  readable : ∀ key record, w.stored key = some record → record.key = key ∧ record.snapshot.valid = true
  /-- A job that shares its name with no other of its caller is found under it. -/
  named : ∀ key record, w.stored key = some record →
    (∀ key' record', w.stored key' = some record' → key'.1 = key.1 → record'.job.id = record.job.id → key' = key) →
    w.repository.findByJobId key.1 record.job.id = some record
  phases : ∀ n, PhaseHolds ν w n (w.calls n)

theorem sound_initial : Sound ν (initial : TrustedStarts ρ) where
  orderly := .empty
  owners := fun _ _ h => (nomatch h)
  reserved := fun _ _ h => (nomatch h)
  readable := fun _ _ h => (nomatch h)
  named := fun _ _ h => (nomatch h)
  phases := fun _ => trivial

/-! ## What a step may change -/

/-- The change that a step of a call makes on its way to the next phase. -/
inductive Changes (ν : Type) [DomainNumber ν] (n : Nat) (next : TrustedPhase ρ) (w w' : TrustedStarts ρ) : Prop where
  | quiet (hrepository : w'.repository = w.repository) (hledger : w'.ledger = w.ledger)
  | acted (command : TrustedCommand) (hcommand : next.command = some command)
      (hclaimed : (command.key, n) ∈ w.ledger.claimed) (hfirst : (command.key, n) ∉ w.ledger.acted)
      (hrepository : w'.repository = w.repository) (hledger : w'.ledger = w.ledger.act command.key n)
  | claimed (command : TrustedCommand) (hcommand : next.command = some command) (record : StoredReproduction ρ)
      (hfree : w.stored command.key = none) (hkey : record.key = command.key)
      (hhash : record.commandHash = command.commandHash ν) (hvalid : record.snapshot.valid = true)
      (hrepository : w'.repository = w.repository.write record) (hledger : w'.ledger = w.ledger.claim command.key n)
  | written (command : TrustedCommand) (hcommand : next.command = some command) (old record : StoredReproduction ρ)
      (hheld : Held ν w n command old) (hkey : record.key = command.key) (hanchor : record.anchor = old.anchor)
      (hvalid : record.snapshot.valid = true)
      (hrepository : w'.repository = w.repository.write record) (hledger : w'.ledger = w.ledger)

/-- A key without a record is free. -/
theorem Sound.free {w : TrustedStarts ρ} (hw : Sound ν w) {key : String × String} (h : w.stored key = none) (i : Nat) :
    (key, i) ∉ w.ledger.claimed := by
  intro hclaimed
  obtain ⟨_, _, -, -, hstored, -⟩ := hw.owners key i hclaimed
  rw [h] at hstored
  cases hstored

namespace Changes

variable {w w' : TrustedStarts ρ} {n m : Nat} {next : TrustedPhase ρ} {key : String × String}

theorem ledger (hc : Changes ν n next w w') (hw : Sound ν w) : Ledger.Step n w.ledger w'.ledger := by
  cases hc with
  | quiet _ hledger => exact hledger ▸ .stay
  | acted command _ hclaimed hfirst _ hledger => exact hledger ▸ .act command.key hclaimed hfirst
  | claimed command _ _ hnone _ _ _ _ hledger => exact hledger ▸ .claim command.key (hw.free hnone)
  | written _ _ _ _ _ _ _ _ _ hledger => exact hledger ▸ .stay

/-- The record that a step writes, if it writes one: the first under its key or a new version of it. -/
theorem writes (hc : Changes ν n next w w') : w'.repository = w.repository ∨
    ∃ new, w'.repository = w.repository.write new ∧ new.snapshot.valid = true ∧ (new.key, n) ∈ w'.ledger.claimed ∧
      ∀ old, w.stored new.key = some old → old.anchor = new.anchor := by
  cases hc with
  | quiet hrepository _ => exact .inl hrepository
  | acted _ _ _ _ hrepository _ => exact .inl hrepository
  | claimed command _ new hfree hkey _ hvalid hrepository hledger =>
    refine .inr ⟨new, hrepository, hvalid, ?_, ?_⟩
    · rw [hledger, hkey]
      exact Ledger.mem_claimed_claim.mpr (.inr rfl)
    · intro old hold
      rw [hkey, hfree] at hold
      cases hold
  | written command _ old new hheld hkey hanchor hvalid hrepository hledger =>
    refine .inr ⟨new, hrepository, hvalid, ?_, ?_⟩
    · rw [hledger, hkey]
      exact hheld.claimed
    · intro old' hold'
      rw [hkey, hheld.stored] at hold'
      obtain rfl := Option.some.inj hold'
      exact hanchor.symm

/-- A key that the caller does not hold keeps its record. -/
theorem stored_other (hc : Changes ν n next w w') (hfree : (key, n) ∉ w'.ledger.claimed) :
    w'.stored key = w.stored key := by
  rcases hc.writes with hrepository | ⟨new, hrepository, -, hclaimed, -⟩
  · rw [stored, stored, hrepository]
  · rw [stored, stored, hrepository, InMemoryReproductionRepository.stored_write, if_neg]
    rintro rfl
    exact hfree hclaimed

/-- A record that is stored stays, in one version or another. -/
theorem stored_version (hc : Changes ν n next w w') {record : StoredReproduction ρ} (h : w.stored key = some record) :
    ∃ record', w'.stored key = some record' ∧ record'.anchor = record.anchor := by
  rcases hc.writes with hrepository | ⟨new, hrepository, -, -, hversion⟩
  · exact ⟨record, by rw [← h, stored, stored, hrepository], rfl⟩
  · by_cases hkey : key = new.key
    · subst hkey
      refine ⟨new, ?_, (hversion record h).symm⟩
      rw [stored, hrepository, InMemoryReproductionRepository.stored_write, if_pos rfl]
    · refine ⟨record, ?_, rfl⟩
      rw [← h, stored, stored, hrepository, InMemoryReproductionRepository.stored_write, if_neg hkey]

/-- What a step leaves under a key was there, or the caller has written it. -/
theorem stored_cases (hc : Changes ν n next w w') {record : StoredReproduction ρ} (h : w'.stored key = some record) :
    w.stored key = some record ∨
      record.key = key ∧ record.snapshot.valid = true ∧ (key, n) ∈ w'.ledger.claimed := by
  rcases hc.writes with hrepository | ⟨new, hrepository, hvalid, hclaimed, -⟩
  · left
    rwa [stored, hrepository] at h
  · rw [stored, hrepository, InMemoryReproductionRepository.stored_write] at h
    split at h
    · rename_i hkey
      obtain rfl := Option.some.inj h
      exact .inr ⟨hkey.symm, hvalid, hkey ▸ hclaimed⟩
    · exact .inl h

/-- Records are found under the names of their jobs, where these are told apart. -/
theorem named (hc : Changes ν n next w w') (hw : Sound ν w) {record : StoredReproduction ρ}
    (h : w'.stored key = some record)
    (halone : ∀ key' record', w'.stored key' = some record' → key'.1 = key.1 → record'.job.id = record.job.id →
      key' = key) :
    w'.repository.findByJobId key.1 record.job.id = some record := by
  rcases hc.writes with hrepository | ⟨new, hrepository, -, -, hversion⟩
  · have hsame : ∀ key, w'.stored key = w.stored key := fun key => by rw [stored, stored, hrepository]
    rw [hrepository]
    refine hw.named key record (hsame key ▸ h) ?_
    intro key' record' h'
    exact halone key' record' (by rwa [hsame])
  · have hstored : ∀ key, w'.stored key = if key = new.key then some new else w.stored key := by
      intro key
      rw [stored, hrepository, InMemoryReproductionRepository.stored_write, ← stored]
    rw [hrepository, InMemoryReproductionRepository.findByJobId_write]
    by_cases hkey : key = new.key
    · rw [hstored, if_pos hkey] at h
      obtain rfl := Option.some.inj h
      rw [if_pos ⟨by rw [hkey]; rfl, rfl⟩]
    · have hother : ¬ (key.1 = new.callerId ∧ record.job.id = new.job.id) := by
        rintro ⟨hcaller, hjob⟩
        exact hkey (halone new.key new (by rw [hstored, if_pos rfl]) hcaller.symm hjob.symm).symm
      rw [if_neg hother]
      rw [hstored, if_neg hkey] at h
      refine hw.named key record h ?_
      intro key' record' h' hcaller hjob
      by_cases hkey' : key' = new.key
      · subst hkey'
        exact absurd ⟨hcaller.symm, hjob.symm.trans (StoredReproduction.anchor_eq (hversion record' h')).2.2.2⟩ hother
      · exact halone key' record' (by rwa [hstored, if_neg hkey']) hcaller hjob

end Changes

/-! ## What other calls keep -/

section other

variable {w w' : TrustedStarts ρ} {n m : Nat} {next : TrustedPhase ρ} {command : TrustedCommand}
  {record : StoredReproduction ρ}

/-- What the phase of a call rests on. -/
structure Keeps (m : Nat) (w w' : TrustedStarts ρ) : Prop where
  claims : ∀ key, (key, m) ∈ w.ledger.claimed → (key, m) ∈ w'.ledger.claimed
  acted : ∀ key, (key, m) ∈ w'.ledger.acted ↔ (key, m) ∈ w.ledger.acted
  own : ∀ key, (key, m) ∈ w.ledger.claimed → w'.stored key = w.stored key
  version : ∀ key record, w.stored key = some record →
    ∃ record', w'.stored key = some record' ∧ record'.anchor = record.anchor

omit [SampleDocument ρ] [LocaleCompare] [Sha256] in
theorem turn_calls (n : Nat) (next : TrustedPhase ρ) (w : TrustedStarts ρ) : (w.turn n next).calls n = next :=
  Function.update_self ..

omit [SampleDocument ρ] [LocaleCompare] [Sha256] in
theorem keeps_turn (m : Nat) (n : Nat) (next : TrustedPhase ρ) (w : TrustedStarts ρ) : Keeps m w (w.turn n next) where
  claims := fun _ h => h
  acted := fun _ => Iff.rfl
  own := fun _ _ => rfl
  version := fun _ record h => ⟨record, h, rfl⟩

theorem Changes.keeps (hc : Changes ν n next w w') (hw : Sound ν w) (hmn : m ≠ n) : Keeps m w w' where
  claims := fun _ h => (hc.ledger hw).claims h
  acted := fun _ => (hc.ledger hw).acted_other hmn
  own := by
    intro key hclaimed
    refine hc.stored_other (fun hother => hmn ?_)
    exact ((hc.ledger hw).orderly hw.orderly).holder ((hc.ledger hw).claims hclaimed) hother
  version := fun _ _ h => hc.stored_version h

namespace Keeps

omit [SampleDocument ρ] in
theorem held (hk : Keeps m w w') (h : Held ν w m command record) : Held ν w' m command record :=
  ⟨hk.claims _ h.claimed, (hk.own _ h.claimed).trans h.stored, h.commandHash⟩

omit [LocaleCompare] [Sha256] in
theorem known (hk : Keeps m w w') (h : Known w command record) : Known w' command record := by
  obtain ⟨current, hcurrent, hanchor⟩ := h.stored
  obtain ⟨current', hcurrent', hversion⟩ := hk.version _ _ hcurrent
  exact ⟨h.valid, current', hcurrent', hversion.trans hanchor⟩

omit [SampleDocument ρ] in
theorem answered (hk : Keeps m w w') {reply : TrustedReply ρ} (h : Answered ν w m command reply) :
    Answered ν w' m command reply := by
  cases reply with
  | started reused snapshot =>
    obtain ⟨record, hrecord, hhash, hcase, hjob⟩ := h
    obtain ⟨record', hrecord', hversion⟩ := hk.version _ _ hrecord
    obtain ⟨-, hhash', hcase', hjob'⟩ := StoredReproduction.anchor_eq hversion
    exact ⟨record', hrecord', hhash'.trans hhash, hcase.trans hcase'.symm, hjob.trans hjob'.symm⟩
  | conflict =>
    obtain ⟨record, hrecord, hhash⟩ := h
    obtain ⟨record', hrecord', hversion⟩ := hk.version _ _ hrecord
    exact ⟨record', hrecord', fun hsame => hhash ((StoredReproduction.anchor_eq hversion).2.1.symm.trans hsame)⟩
  | failed =>
    obtain ⟨record, hheld, hfailed⟩ := h
    exact ⟨record, hk.held hheld, hfailed⟩
  | refused => exact h

theorem phase (hk : Keeps m w w') {phase : TrustedPhase ρ} (h : PhaseHolds ν w m phase) : PhaseHolds ν w' m phase := by
  cases phase with
  | idle => trivial
  | invalid => trivial
  | hashing command => trivial
  | looking command existing =>
    cases existing with
    | none => trivial
    | some existing => exact hk.known h
  | reserving command queued reservation =>
    simp only [PhaseHolds] at h ⊢
    split
    · rename_i hcreated
      rw [if_pos hcreated] at h
      obtain ⟨hheld, hacted, hjob⟩ := h
      exact ⟨hk.held hheld, fun hnew => hacted ((hk.acted _).mp hnew), hjob⟩
    · rename_i hlost
      rw [if_neg hlost] at h
      exact hk.known h
  | starting command running =>
    obtain ⟨hheld, hacted, hjob⟩ := h
    exact ⟨hk.held hheld, fun hnew => hacted ((hk.acted _).mp hnew), hjob⟩
  | executing command running =>
    obtain ⟨hheld, hacted, hjob⟩ := h
    exact ⟨hk.held hheld, (hk.acted _).mpr hacted, hjob⟩
  | succeeding command running succeeded => exact hk.held h
  | failing command =>
    obtain ⟨record, hheld, hfailed⟩ := h
    exact ⟨record, hk.held hheld, hfailed⟩
  | done command reply => exact hk.answered h

end Keeps

/-- What a step of one call does to the world. -/
structure Moves (ν : Type) [DomainNumber ν] (n : Nat) (next : TrustedPhase ρ) (w w' : TrustedStarts ρ) : Prop where
  calls : w'.calls = Function.update w.calls n next
  command : ∀ command, (w.calls n).command = some command → next.command = some command
  changes : Changes ν n next w w'
  phase : PhaseHolds ν w' n next

theorem Moves.call (h : Moves ν n next w w') (m : Nat) : w'.calls m = if m = n then next else w.calls m := by
  rw [h.calls, Function.update_apply]

/-- A call keeps its command. -/
theorem Moves.keeps_command (h : Moves ν n next w w') (hcommand : (w.calls m).command = some command) :
    (w'.calls m).command = some command := by
  rw [h.call]
  split
  · rename_i hmn
    subst hmn
    exact h.command command hcommand
  · exact hcommand

theorem Moves.sound (h : Moves ν n next w w') (hw : Sound ν w) : Sound ν w' where
  orderly := (h.changes.ledger hw).orderly hw.orderly
  owners := by
    intro key m hm
    have hold : (key, m) ∈ w.ledger.claimed → ∃ command record, (w'.calls m).command = some command ∧
        command.key = key ∧ w'.stored key = some record ∧ record.commandHash = command.commandHash ν := by
      intro hclaimed
      obtain ⟨command, record, hcommand, hkey, hstored, hhash⟩ := hw.owners key m hclaimed
      obtain ⟨record', hstored', hversion⟩ := h.changes.stored_version hstored
      exact ⟨command, record', h.keeps_command hcommand, hkey, hstored',
        (StoredReproduction.anchor_eq hversion).2.1.trans hhash⟩
    have hchanges := h.changes
    cases hchanges with
    | quiet _ hledger => exact hold (hledger ▸ hm)
    | acted _ _ _ _ _ hledger =>
      rw [hledger] at hm
      exact hold hm
    | claimed command hcommand record _ hkey hhash _ hrepository hledger =>
      rw [hledger] at hm
      rcases Ledger.mem_claimed_claim.mp hm with hm | hm
      · exact hold hm
      · obtain ⟨rfl, rfl⟩ := Prod.mk.inj hm
        refine ⟨command, record, by rw [h.call, if_pos rfl, hcommand], rfl, ?_, hhash⟩
        rw [stored, hrepository, InMemoryReproductionRepository.stored_write, if_pos hkey.symm]
    | written _ _ _ _ _ _ _ _ _ hledger => exact hold (hledger ▸ hm)
  reserved := by
    intro key record hstored
    rcases h.changes.stored_cases hstored with hstored | ⟨-, -, hclaimed⟩
    · obtain ⟨m, hm⟩ := hw.reserved key record hstored
      exact ⟨m, (h.changes.ledger hw).claims hm⟩
    · exact ⟨n, hclaimed⟩
  readable := by
    intro key record hstored
    rcases h.changes.stored_cases hstored with hstored | ⟨hkey, hvalid, -⟩
    · exact hw.readable key record hstored
    · exact ⟨hkey, hvalid⟩
  named := fun _ _ hstored halone => h.changes.named hw hstored halone
  phases := by
    intro m
    rw [h.call]
    split
    · rename_i hmn
      rw [hmn]
      exact h.phase
    · rename_i hmn
      exact (h.changes.keeps hw hmn).phase (hw.phases m)

end other

/-! ## One step -/

section steps

variable {w : TrustedStarts ρ} {n : Nat} {next : TrustedPhase ρ} {command : TrustedCommand}
  {record running : StoredReproduction ρ} {executor : TrustedExecutor ρ}

theorem Sound.held_valid (hw : Sound ν w) (h : Held ν w n command record) : record.key = command.key ∧
    record.case.valid = true ∧ record.job.valid = true ∧ record.result.all ResultDocument.valid = true := by
  obtain ⟨hkey, hvalid⟩ := hw.readable _ _ h.stored
  exact ⟨hkey, StoredReproduction.valid_snapshot.mp hvalid⟩

theorem turn_moves (hcommand : ∀ command, (w.calls n).command = some command → next.command = some command)
    (hphase : PhaseHolds ν w n next) : Moves ν n next w (w.turn n next) :=
  ⟨rfl, hcommand, .quiet rfl rfl, (keeps_turn n n next w).phase hphase⟩

/-- A call that holds its key saves a new version of its record. -/
theorem save_moves (hcalls : (w.calls n).command = some command) (hnext : next.command = some command)
    (hheld : Held ν w n command running) (hkey : record.key = command.key) (hanchor : record.anchor = running.anchor)
    (hvalid : record.snapshot.valid = true)
    (hphase : Held ν ((w.save record).turn n next) n command record → PhaseHolds ν ((w.save record).turn n next) n next) :
    Moves ν n next w ((w.save record).turn n next) where
  calls := rfl
  command := by
    intro command' hcommand'
    rw [hcalls] at hcommand'
    rw [hnext, hcommand']
  changes := .written command hnext running record hheld hkey hanchor hvalid rfl rfl
  phase := by
    refine hphase ⟨hheld.claimed, ?_, (StoredReproduction.anchor_eq hanchor).2.1.trans hheld.commandHash⟩
    exact (InMemoryReproductionRepository.stored_write record w.repository command.key).trans (if_pos hkey.symm)

/-- A readable version of the stored record answers a call. -/
theorem Known.reuse (h : Known w command record) (n : Nat) : Answered ν w n command (command.reuse ν record) := by
  obtain ⟨current, hcurrent, hanchor⟩ := h.stored
  obtain ⟨-, hhash, hcase, hjob⟩ := StoredReproduction.anchor_eq hanchor
  simp only [TrustedCommand.reuse, h.valid, if_true]
  split
  · rename_i hsame
    exact ⟨current, hcurrent, hhash.trans hsame, hcase.symm, hjob.symm⟩
  · rename_i hdiffers
    exact ⟨current, hcurrent, fun hsame => hdiffers (hhash.symm.trans hsame)⟩

/-- The `catch` block saves a failed job. -/
theorem fail_eq (hw : Sound ν w) (hheld : Held ν w n command running) (hrunning : running.job.state = .running)
    {at' : Instant} (hdate : datetime at' = true) :
    ∃ failed : StoredReproduction ρ, w.fail n command running at' = (w.save failed).turn n (.failing command) ∧
      failed.key = command.key ∧ failed.anchor = running.anchor ∧ failed.snapshot.valid = true ∧ FailedRecord failed := by
  obtain ⟨hkey, hcase, hjob, hresult⟩ := hw.held_valid hheld
  obtain ⟨job, htransition, hvalid, hid, hstate, hfailure⟩ := transitionJob_moves .failed (some trustedExecutionFailed)
    running.case.state hjob (by rw [hrunning]; rfl) hdate
    (fun hqueued => absurd (hrunning.symm.trans hqueued) (by decide)) (by decide) rfl
  refine ⟨{ running with job := job }, ?_, hkey, ?_, ?_, hstate, hfailure⟩
  · simp only [fail, htransition]
  · simp only [StoredReproduction.anchor, StoredReproduction.key, hid]
  · exact StoredReproduction.valid_snapshot.mpr ⟨hcase, hvalid, hresult⟩

theorem fail_moves (hw : Sound ν w) (hcalls : (w.calls n).command = some command)
    (hheld : Held ν w n command running) (hrunning : running.job.state = .running) {at' : Instant}
    (hdate : datetime at' = true) : Moves ν n (.failing command) w (w.fail n command running at') := by
  obtain ⟨failed, heq, hkey, hanchor, hvalid, hfailed⟩ := fail_eq hw hheld hrunning hdate
  rw [heq]
  exact save_moves hcalls rfl hheld hkey hanchor hvalid (fun hheld' => ⟨failed, hheld', hfailed⟩)

theorem reserve_moves (hw : Sound ν w) (hcalls : (w.calls n).command = some command) (env : TrustedSurroundings) :
    ∃ next, Moves ν n next w (w.reserve ν n command env) := by
  have hcommand : ∀ next : TrustedPhase ρ, next.command = some command →
      ∀ command', (w.calls n).command = some command' → next.command = some command' := by
    intro next hnext command' hcommand'
    rw [hcalls] at hcommand'
    rw [hnext, hcommand']
  rw [reserve, createCase_named env.named.1 env.now.property, createJob_named env.named.2 env.named.1 env.now.property]
  dsimp only
  generalize hqueued : command.queued ν _ _ = queued
  have hkey : queued.key = command.key := by rw [← hqueued]; rfl
  have hhash : queued.commandHash = command.commandHash ν := by rw [← hqueued]; rfl
  have hjob : queued.job.state = .queued ∧ queued.job.attempt = 0 := by rw [← hqueued]; exact ⟨rfl, rfl⟩
  have hvalid : queued.snapshot.valid = true := by
    rw [StoredReproduction.valid_snapshot, ← hqueued]
    simp [TrustedCommand.queued, ReproCase.valid, ReproductionJob.valid, env.named.1, env.named.2, env.now.property]
  have hlookup : w.repository.findByIdempotencyKey queued.callerId queued.idempotencyKey = w.stored command.key := by
    rw [← hkey]
    rfl
  rw [InMemoryReproductionRepository.reserve, hlookup]
  cases hstored : w.stored command.key with
  | some existing =>
    refine ⟨_, turn_moves (hcommand _ rfl) ?_⟩
    simp only [PhaseHolds, Bool.false_eq_true, if_false]
    exact ⟨(hw.readable _ _ hstored).2, existing, hstored, rfl⟩
  | none =>
    refine ⟨_, rfl, hcommand _ rfl, .claimed command rfl queued hstored hkey hhash hvalid rfl rfl, ?_⟩
    simp only [PhaseHolds, if_true]
    refine ⟨⟨Ledger.mem_claimed_claim.mpr (.inr rfl), ?_, hhash⟩, ?_, hjob⟩
    · exact (InMemoryReproductionRepository.stored_write queued w.repository command.key).trans (if_pos hkey.symm)
    · intro hacted
      exact hw.free hstored n (hw.orderly.claimants _ hacted)

/-- Every step of a call leaves it in a phase that holds. -/
theorem advance_moves (hw : Sound ν w) (executor : TrustedExecutor ρ) (n : Nat) (env : TrustedSurroundings) :
    ∃ next, Moves ν n next w (w.advance ν executor n env) := by
  have hphase := hw.phases n
  have hstays : ∃ next, Moves ν n next w w :=
    ⟨w.calls n, (Function.update_eq_self n w.calls).symm, fun _ h => h, .quiet rfl rfl, hphase⟩
  have hturn : ∀ {command : TrustedCommand} (next : TrustedPhase ρ), (w.calls n).command = some command →
      next.command = some command → PhaseHolds ν w n next → ∃ next', Moves ν n next' w (w.turn n next) := by
    intro command next hcalls hnext hholds
    refine ⟨next, turn_moves ?_ hholds⟩
    intro command' hcommand'
    rw [hcalls] at hcommand'
    rw [hnext, hcommand']
  rw [advance]
  cases hcalls : w.calls n with
  | idle => exact hstays
  | invalid => exact hstays
  | hashing command =>
    refine hturn (.looking command _) (by rw [hcalls]; rfl) rfl ?_
    cases hfound : w.repository.findByIdempotencyKey command.callerId command.idempotencyKey with
    | none => trivial
    | some existing => exact ⟨(hw.readable command.key existing hfound).2, existing, hfound, rfl⟩
  | looking command existing =>
    rw [hcalls] at hphase
    cases existing with
    | none => exact reserve_moves hw (by rw [hcalls]; rfl) env
    | some existing =>
      exact hturn (.done command (command.reuse ν existing)) (by rw [hcalls]; rfl) rfl (Known.reuse hphase n)
  | reserving command queued reservation =>
    rw [hcalls] at hphase
    simp only [PhaseHolds] at hphase
    dsimp only
    by_cases hcreated : reservation.created = true
    · rw [if_pos hcreated] at hphase ⊢
      obtain ⟨hheld, hacted, hstate, hattempt⟩ := hphase
      obtain ⟨hkey, hcase, hjob, hresult⟩ := hw.held_valid hheld
      obtain ⟨job, htransition, hvalid, hid, hrunning, -⟩ := transitionJob_moves .running none .ingesting hjob
        (by rw [hstate]; rfl) env.now.property (fun _ => hattempt) rfl rfl
      rw [htransition]
      refine ⟨_, save_moves (by rw [hcalls]; rfl) rfl hheld hkey ?_ ?_ fun hheld' => ⟨hheld', hacted, hrunning⟩⟩
      · simp only [StoredReproduction.anchor, StoredReproduction.key, hid]
      · exact StoredReproduction.valid_snapshot.mpr ⟨hcase, hvalid, hresult⟩
    · rw [if_neg hcreated] at hphase ⊢
      exact hturn (.done command (command.reuse ν reservation.record)) (by rw [hcalls]; rfl) rfl
        (Known.reuse hphase n)
  | starting command running =>
    rw [hcalls] at hphase
    obtain ⟨hheld, hacted, hrunning⟩ := hphase
    refine ⟨.executing command running, rfl, ?_, .acted command rfl hheld.claimed hacted rfl rfl, ?_⟩
    · intro command' hcommand'
      rwa [hcalls] at hcommand'
    · exact ⟨⟨hheld.claimed, hheld.stored, hheld.commandHash⟩, Ledger.mem_acted_act.mpr (.inr rfl), hrunning⟩
  | executing command running =>
    rw [hcalls] at hphase
    obtain ⟨hheld, -, hrunning⟩ := hphase
    obtain ⟨hkey, hcase, hjob, hresult⟩ := hw.held_valid hheld
    have hfails := fail_moves hw (by rw [hcalls]; rfl) hheld hrunning env.caughtAt.property
    dsimp only
    cases hrun : executor.run env.execution ⟨command.budget, running.case.id, running.case.createdAt⟩ with
    | none => exact ⟨_, hfails⟩
    | some result =>
      obtain ⟨job, htransition, hvalid, hid, -, -⟩ := transitionJob_moves .succeeded none result.case.state hjob
        (by rw [hrunning]; rfl) env.now.property (fun hqueued => absurd (hrunning.symm.trans hqueued) (by decide)) rfl rfl
      have hchecked := executor.checked hrun
      have hsampled : result.case.valid = true := by
        simp only [ResultDocument.valid, Bool.and_eq_true] at hchecked
        exact hchecked.1
      dsimp only
      rw [htransition]
      refine ⟨_, save_moves (by rw [hcalls]; rfl) rfl hheld hkey ?_ ?_ fun hheld' => hheld'⟩
      · simp only [StoredReproduction.anchor, StoredReproduction.key, hid, executor.about hrun]
      · exact StoredReproduction.valid_snapshot.mpr ⟨hsampled, hvalid, hchecked⟩
  | succeeding command running succeeded =>
    rw [hcalls] at hphase
    have hvalid := (hw.readable _ _ hphase.stored).2
    dsimp only
    rw [if_pos hvalid]
    exact hturn (.done command (.started false succeeded.snapshot)) (by rw [hcalls]; rfl) rfl
      ⟨succeeded, hphase.stored, hphase.commandHash, rfl, rfl⟩
  | failing command =>
    rw [hcalls] at hphase
    exact hturn (.done command .failed) (by rw [hcalls]; rfl) rfl hphase
  | done command reply => exact hstays

theorem step_moves (hw : Sound ν w) (executor : TrustedExecutor ρ) (action : TrustedAction) :
    ∃ next, Moves ν action.caller next w (step ν executor action w) := by
  cases action with
  | advance n env => exact advance_moves hw executor n env
  | call n raw =>
    have hstays : ∃ next, Moves ν n next w w :=
      ⟨w.calls n, (Function.update_eq_self n w.calls).symm, fun _ h => h, .quiet rfl rfl, hw.phases n⟩
    have hbegins : ∀ next : TrustedPhase ρ, w.calls n = .idle → PhaseHolds ν w n next →
        Moves ν n next w (w.turn n next) := by
      intro next hidle hholds
      refine turn_moves ?_ hholds
      intro command hcommand
      rw [hidle] at hcommand
      cases hcommand
    rw [step]
    split
    · rename_i command hidle hparse
      exact ⟨_, hbegins _ hidle trivial⟩
    · rename_i hidle hparse
      exact ⟨_, hbegins _ hidle trivial⟩
    · exact hstays

end steps

/-! ## Whole runs -/

section runs

variable {w w' : TrustedStarts ρ} {n m : Nat} {command : TrustedCommand} {record : StoredReproduction ρ}
  {key : String × String}

theorem Sound.step (hw : Sound ν w) (executor : TrustedExecutor ρ) (action : TrustedAction) :
    Sound ν (step ν executor action w) := by
  obtain ⟨_, hmoves⟩ := step_moves hw executor action
  exact hmoves.sound hw

theorem Sound.run (hw : Sound ν w) (executor : TrustedExecutor ρ) (actions : List TrustedAction) :
    Sound ν (Runs.run (TrustedStarts.step ν executor) actions w) :=
  Runs.run_keeps (fun _ action hw => hw.step executor action) hw

/-- Commands, reservations and executions stay. -/
structure Later (w w' : TrustedStarts ρ) : Prop where
  commands : ∀ m command, (w.calls m).command = some command → (w'.calls m).command = some command
  claims : ∀ e ∈ w.ledger.claimed, e ∈ w'.ledger.claimed
  acts : ∀ e ∈ w.ledger.acted, e ∈ w'.ledger.acted

theorem Later.run (hw : Sound ν w) (executor : TrustedExecutor ρ) (actions : List TrustedAction) :
    Later w (Runs.run (TrustedStarts.step ν executor) actions w) := by
  have hstep : ∀ (v : TrustedStarts ρ) action, Sound ν v ∧ Later w v →
      Sound ν (TrustedStarts.step ν executor action v) ∧ Later w (TrustedStarts.step ν executor action v) := by
    rintro v action ⟨hv, hlater⟩
    obtain ⟨_, hmoves⟩ := step_moves hv executor action
    refine ⟨hmoves.sound hv, ?_, ?_, ?_⟩
    · exact fun m command hcommand => hmoves.keeps_command (hlater.commands m command hcommand)
    · exact fun e he => (hmoves.changes.ledger hv).claims (hlater.claims e he)
    · exact fun e he => (hmoves.changes.ledger hv).acts (hlater.acts e he)
  have hstart : Later w w := ⟨fun _ _ h => h, fun _ h => h, fun _ h => h⟩
  have hrun : Sound ν (Runs.run (TrustedStarts.step ν executor) actions w) ∧
      Later w (Runs.run (TrustedStarts.step ν executor) actions w) := Runs.run_keeps hstep ⟨hw, hstart⟩
  exact hrun.2

/-- Only a call that holds its key writes. -/
theorem step_untouched (hw : Sound ν w) (executor : TrustedExecutor ρ) (action : TrustedAction) :
    (TrustedStarts.step ν executor action w).repository = w.repository ∨
      ∃ command, ((TrustedStarts.step ν executor action w).calls action.caller).command = some command ∧
        (command.key, action.caller) ∈ (TrustedStarts.step ν executor action w).ledger.claimed := by
  obtain ⟨_, hmoves⟩ := step_moves hw executor action
  rcases hmoves.changes.writes with hrepository | ⟨new, -, -, hclaimed, -⟩
  · exact .inl hrepository
  · obtain ⟨command, _, hcommand, hkey, -, -⟩ := (hmoves.sound hw).owners _ _ hclaimed
    exact .inr ⟨command, hcommand, hkey ▸ hclaimed⟩

/-- The call has not looked its key up. -/
def Waiting : TrustedPhase ρ → Prop
  | .idle | .invalid | .hashing _ => True
  | _ => False

/-- What a call does that looks its key up when the record there is final. -/
def Replays (ν : Type) [DomainNumber ν] (key : String × String) (record : StoredReproduction ρ) : TrustedPhase ρ → Prop
  | .idle | .invalid | .hashing _ => True
  | .looking command existing => command.key = key → existing = some record
  | .reserving command _ _ | .starting command _ | .executing command _ | .succeeding command _ _
  | .failing command => command.key ≠ key
  | .done command reply => command.key = key → reply = command.reuse ν record

theorem Waiting.replays {phase : TrustedPhase ρ} (h : Waiting phase) : Replays ν key record phase := by
  cases phase <;> trivial

theorem replays_other {phase : TrustedPhase ρ} (hcommand : phase.command = some command) (hkey : command.key ≠ key) :
    Replays ν key record phase := by
  cases phase with
  | idle => trivial
  | invalid => trivial
  | hashing c => trivial
  | looking c existing =>
    obtain rfl := Option.some.inj hcommand
    exact fun hsame => absurd hsame hkey
  | reserving c queued reservation => exact Option.some.inj hcommand ▸ hkey
  | starting c running => exact Option.some.inj hcommand ▸ hkey
  | executing c running => exact Option.some.inj hcommand ▸ hkey
  | succeeding c running succeeded => exact Option.some.inj hcommand ▸ hkey
  | failing c => exact Option.some.inj hcommand ▸ hkey
  | done c reply =>
    obtain rfl := Option.some.inj hcommand
    exact fun hsame => absurd hsame hkey

/-- A step of a call that replays the record of its key. -/
theorem Replays.step (hw : Sound ν w) (executor : TrustedExecutor ρ) (action : TrustedAction)
    (hstored : w.stored key = some record) (h : Replays ν key record (w.calls action.caller)) :
    Replays ν key record ((TrustedStarts.step ν executor action w).calls action.caller) := by
  by_cases hother : ∃ command, (w.calls action.caller).command = some command ∧ command.key ≠ key
  · obtain ⟨command, hcommand, hkey⟩ := hother
    obtain ⟨_, hmoves⟩ := step_moves hw executor action
    exact replays_other (hmoves.keeps_command hcommand) hkey
  · have hsame : ∀ command, (w.calls action.caller).command = some command → command.key = key := by
      intro command hcommand
      by_contra hkey
      exact hother ⟨command, hcommand, hkey⟩
    cases action with
    | call n raw =>
      simp only [TrustedAction.caller, TrustedStarts.step] at h ⊢
      split
      · rw [turn_calls]
        trivial
      · rw [turn_calls]
        trivial
      · exact h
    | advance n env =>
      simp only [TrustedAction.caller, TrustedStarts.step, advance] at h hsame ⊢
      cases hcalls : w.calls n with
      | idle => rwa [hcalls] at h ⊢
      | invalid => rwa [hcalls] at h ⊢
      | hashing command =>
        dsimp only
        rw [turn_calls]
        rintro rfl
        exact hstored
      | looking command existing =>
        rw [hcalls] at h hsame
        obtain rfl := h (hsame command rfl)
        dsimp only
        rw [turn_calls]
        exact fun _ => rfl
      | reserving command queued reservation =>
        rw [hcalls] at h hsame
        exact absurd (hsame command rfl) h
      | starting command running =>
        rw [hcalls] at h hsame
        exact absurd (hsame command rfl) h
      | executing command running =>
        rw [hcalls] at h hsame
        exact absurd (hsame command rfl) h
      | succeeding command running succeeded =>
        rw [hcalls] at h hsame
        exact absurd (hsame command rfl) h
      | failing command =>
        rw [hcalls] at h hsame
        exact absurd (hsame command rfl) h
      | done command reply => rwa [hcalls] at h ⊢

/-- A call is over that holds its key. -/
structure Settled (n : Nat) (command : TrustedCommand) (record : StoredReproduction ρ) (w : TrustedStarts ρ) : Prop where
  claimed : (command.key, n) ∈ w.ledger.claimed
  stored : w.stored command.key = some record
  finished : w.calls n = .failing command ∨ ∃ reply, w.calls n = .done command reply

theorem Settled.step (hw : Sound ν w) (executor : TrustedExecutor ρ) (action : TrustedAction)
    (h : Settled n command record w) : Settled n command record (TrustedStarts.step ν executor action w) := by
  obtain ⟨next, hmoves⟩ := step_moves hw executor action
  by_cases hmine : action.caller = n
  · have hidle : w.calls n ≠ .idle := by
      rintro hidle
      rcases h.finished with hfinished | ⟨reply, hfinished⟩ <;>
      · rw [hidle] at hfinished
        cases hfinished
    cases action with
    | call n' raw =>
      obtain rfl : n' = n := hmine
      have hstays : TrustedStarts.step ν executor (.call n' raw) w = w := by
        rw [TrustedStarts.step]
        split
        · rename_i hcalls _
          exact absurd hcalls hidle
        · rename_i hcalls _
          exact absurd hcalls hidle
        · rfl
      rwa [hstays]
    | advance n' env =>
      obtain rfl : n' = n := hmine
      rw [TrustedStarts.step, advance]
      rcases h.finished with hfinished | ⟨reply, hfinished⟩
      · rw [hfinished]
        exact ⟨h.claimed, h.stored, .inr ⟨.failed, turn_calls ..⟩⟩
      · rw [hfinished]
        exact h
  · have hother : n ≠ action.caller := fun hsame => hmine hsame.symm
    refine ⟨(hmoves.changes.ledger hw).claims h.claimed, ?_, ?_⟩
    · rw [(hmoves.changes.keeps hw hother).own _ h.claimed]
      exact h.stored
    · rw [hmoves.call, if_neg hother]
      exact h.finished

/-- From the end of the call that holds a key on, everyone who looks the key up replays its record. -/
theorem settled_run (hw : Sound ν w) (executor : TrustedExecutor ρ) (actions : List TrustedAction)
    (h : Settled n command record w) :
    (Runs.run (TrustedStarts.step ν executor) actions w).stored command.key = some record ∧
      ∀ m, Waiting (w.calls m) →
        Replays ν command.key record ((Runs.run (TrustedStarts.step ν executor) actions w).calls m) := by
  have hstep : ∀ (v : TrustedStarts ρ) action,
      (Sound ν v ∧ Settled n command record v ∧
        ∀ m, Waiting (w.calls m) → Replays ν command.key record (v.calls m)) →
      Sound ν (TrustedStarts.step ν executor action v) ∧
        Settled n command record (TrustedStarts.step ν executor action v) ∧
        ∀ m, Waiting (w.calls m) →
          Replays ν command.key record ((TrustedStarts.step ν executor action v).calls m) := by
    rintro v action ⟨hv, hsettled, hreplays⟩
    refine ⟨hv.step executor action, hsettled.step hv executor action, ?_⟩
    intro m hm
    by_cases hcaller : m = action.caller
    · subst hcaller
      exact Replays.step hv executor action hsettled.stored (hreplays _ hm)
    · obtain ⟨next, hmoves⟩ := step_moves hv executor action
      rw [hmoves.call, if_neg hcaller]
      exact hreplays m hm
  have hstart : Sound ν w ∧ Settled n command record w ∧
      ∀ m, Waiting (w.calls m) → Replays ν command.key record (w.calls m) := ⟨hw, h, fun _ hm => hm.replays⟩
  have hrun : Sound ν (Runs.run (TrustedStarts.step ν executor) actions w) ∧
      Settled n command record (Runs.run (TrustedStarts.step ν executor) actions w) ∧
      ∀ m, Waiting (w.calls m) →
        Replays ν command.key record ((Runs.run (TrustedStarts.step ν executor) actions w).calls m) :=
    Runs.run_keeps hstep hstart
  exact ⟨hrun.2.1.stored, hrun.2.2⟩

end runs

/-! ## Idempotency -/

/-- The executions that were begun for a key. -/
def executions (key : String × String) (w : TrustedStarts ρ) : List ((String × String) × Nat) :=
  w.ledger.acted.filter (fun e => e.1 = key)

/-- The record of a failed execution, in the world after the failure and in the one at the end. -/
structure FailedForGood (ν : Type) [DomainNumber ν] (n : Nat) (command : TrustedCommand)
    (running record : StoredReproduction ρ) (w last : TrustedStarts ρ) : Prop where
  failed : FailedRecord record
  anchor : record.anchor = running.anchor
  stored : last.stored command.key = some record
  /-- Its job is found by its own name too, unless the caller has another job of that name. -/
  found : (∀ key record', last.stored key = some record' → key.1 = command.callerId →
    record'.job.id = record.job.id → key = command.key) →
    last.repository.findByJobId command.callerId record.job.id = some record
  replayed : ∀ m other reply, Waiting (w.calls m) → last.calls m = .done other reply → other.key = command.key →
    reply = if record.commandHash = other.commandHash ν then .started true record.snapshot else .conflict
  executed : last.executions command.key = [(command.key, n)]

/-- What holds at the end of a run of starts. -/
structure Idempotent (ν : Type) [DomainNumber ν] (executor : TrustedExecutor ρ) (actions : List TrustedAction)
    (last : TrustedStarts ρ) : Prop where
  executed : ∀ key, (last.executions key).length ≤ 1
  shared : ∀ m n command command' reused reused' snapshot snapshot',
    last.calls m = .done command (.started reused snapshot) →
    last.calls n = .done command' (.started reused' snapshot') → command.key = command'.key →
    snapshot.case.id = snapshot'.case.id ∧ snapshot.job.id = snapshot'.job.id
  /-- An answered call has the conflict exactly when the call that reserved its key, which is
  another one then, has a different command. -/
  conflicts : ∀ n command reply, last.calls n = .done command reply →
    ∃ m first, (command.key, m) ∈ last.ledger.claimed ∧ (last.calls m).command = some first ∧
      first.key = command.key ∧ (reply = .conflict → m ≠ n) ∧
      (CollisionFree (canonicalJson (first.json : Json ν)) (canonicalJson (command.json : Json ν)) →
        (reply = .conflict ↔ command.budget ≠ first.budget))
  /-- Only the call that reserved its key ever changes the repository. -/
  untouched : ∀ before action after command m, actions = before ++ action :: after →
    (last.calls action.caller).command = some command → (command.key, m) ∈ last.ledger.claimed →
    m ≠ action.caller →
    (Runs.run (TrustedStarts.step ν executor) (before ++ [action]) initial).repository =
      (Runs.run (TrustedStarts.step ν executor) before initial).repository
  failed : ∀ before n env after command running, actions = before ++ .advance n env :: after →
    (Runs.run (TrustedStarts.step ν executor) before initial).calls n = .executing command running →
    executor.run env.execution ⟨command.budget, running.case.id, running.case.createdAt⟩ = none →
    ∃ record, FailedForGood ν n command running record
      (Runs.run (TrustedStarts.step ν executor) (before ++ [.advance n env]) initial) last

section idempotency

variable {w : TrustedStarts ρ} {n m : Nat} {command : TrustedCommand} {reply : TrustedReply ρ}

theorem Sound.executions_le (hw : Sound ν w) (key : String × String) : (w.executions key).length ≤ 1 :=
  hw.orderly.acted_once key

/-- The reply of a call and the command that its key was reserved for. -/
theorem Sound.conflicts (hw : Sound ν w) (h : w.calls n = .done command reply) :
    ∃ m first, (command.key, m) ∈ w.ledger.claimed ∧ (w.calls m).command = some first ∧ first.key = command.key ∧
      (reply = .conflict → m ≠ n) ∧
      (CollisionFree (canonicalJson (first.json : Json ν)) (canonicalJson (command.json : Json ν)) →
        (reply = .conflict ↔ command.budget ≠ first.budget)) := by
  have hphase := hw.phases n
  rw [h] at hphase
  have hanswer : ∃ record, w.stored command.key = some record ∧
      (reply = .conflict ↔ record.commandHash ≠ command.commandHash ν) := by
    cases reply with
    | started reused snapshot =>
      obtain ⟨record, hrecord, hhash, -⟩ := hphase
      exact ⟨record, hrecord, fun hreply => (nomatch hreply), fun hdiffers => absurd hhash hdiffers⟩
    | conflict =>
      obtain ⟨record, hrecord, hhash⟩ := hphase
      exact ⟨record, hrecord, fun _ => hhash, fun _ => rfl⟩
    | failed =>
      obtain ⟨record, hheld, -⟩ := hphase
      exact ⟨record, hheld.stored, fun hreply => (nomatch hreply), fun hdiffers => absurd hheld.commandHash hdiffers⟩
    | refused => exact hphase.elim
  obtain ⟨record, hrecord, hreply⟩ := hanswer
  obtain ⟨m, hm⟩ := hw.reserved _ _ hrecord
  obtain ⟨first, record', hfirst, hkey, hrecord', hhash⟩ := hw.owners _ _ hm
  obtain rfl := Option.some.inj (hrecord.symm.trans hrecord')
  refine ⟨m, first, hm, hfirst, hkey, ?_, ?_⟩
  · rintro hconflict rfl
    rw [h] at hfirst
    obtain rfl := Option.some.inj hfirst
    exact hreply.mp hconflict hhash
  · intro hfree
    rw [hreply, hhash]
    constructor
    · intro hdiffers hbudget
      have hjson : (first.json : Json ν) = command.json := by
        rw [TrustedCommand.json, TrustedCommand.json, hbudget]
      exact hdiffers (congrArg hashCanonical hjson)
    · intro hbudget hsame
      exact hbudget (TrustedCommand.budget_eq (hfree hsame)).symm

theorem Sound.shared (hw : Sound ν w) {command' : TrustedCommand} {reused reused' : Bool}
    {snapshot snapshot' : ReproductionSnapshot (SampleCaseResult ρ)}
    (hm : w.calls m = .done command (.started reused snapshot))
    (hn : w.calls n = .done command' (.started reused' snapshot')) (hkey : command.key = command'.key) :
    snapshot.case.id = snapshot'.case.id ∧ snapshot.job.id = snapshot'.job.id := by
  have hphase := hw.phases m
  have hphase' := hw.phases n
  rw [hm] at hphase
  rw [hn] at hphase'
  obtain ⟨record, hrecord, -, hcase, hjob⟩ := hphase
  obtain ⟨record', hrecord', -, hcase', hjob'⟩ := hphase'
  rw [hkey] at hrecord
  obtain rfl := Option.some.inj (hrecord.symm.trans hrecord')
  exact ⟨hcase.trans hcase'.symm, hjob.trans hjob'.symm⟩

theorem Sound.untouched (hw : Sound ν w) (executor : TrustedExecutor ρ) (action : TrustedAction)
    (after : List TrustedAction)
    (hcommand : ((Runs.run (TrustedStarts.step ν executor) after
      (TrustedStarts.step ν executor action w)).calls action.caller).command = some command)
    (hm : (command.key, m) ∈ (Runs.run (TrustedStarts.step ν executor) after
      (TrustedStarts.step ν executor action w)).ledger.claimed) (hother : m ≠ action.caller) :
    (TrustedStarts.step ν executor action w).repository = w.repository := by
  rcases step_untouched hw executor action with hsame | ⟨command', hcommand', hclaimed⟩
  · exact hsame
  · have hstep := hw.step executor action
    have hlater := Later.run hstep executor after
    have heq := hlater.commands _ _ hcommand'
    rw [hcommand] at heq
    obtain rfl := Option.some.inj heq
    exact absurd ((hstep.run executor after).orderly.holder hm (hlater.claims _ hclaimed)) hother

theorem Sound.failed (hw : Sound ν w) (executor : TrustedExecutor ρ) (env : TrustedSurroundings)
    (after : List TrustedAction) {running : StoredReproduction ρ} (hcalls : w.calls n = .executing command running)
    (hfails : executor.run env.execution ⟨command.budget, running.case.id, running.case.createdAt⟩ = none) :
    ∃ record, FailedForGood ν n command running record (TrustedStarts.step ν executor (.advance n env) w)
      (Runs.run (TrustedStarts.step ν executor) after (TrustedStarts.step ν executor (.advance n env) w)) := by
  have hphase := hw.phases n
  rw [hcalls] at hphase
  obtain ⟨hheld, hacted, hrunning⟩ := hphase
  obtain ⟨failed, heq, hkey, hanchor, hvalid, hfailed⟩ := fail_eq hw hheld hrunning env.caughtAt.property
  have hstep : TrustedStarts.step ν executor (.advance n env) w = (w.save failed).turn n (.failing command) := by
    rw [← heq, TrustedStarts.step, advance, hcalls]
    dsimp only
    rw [hfails]
  have hsettled : Settled n command failed (TrustedStarts.step ν executor (.advance n env) w) := by
    rw [hstep]
    refine ⟨hheld.claimed, ?_, .inl (turn_calls ..)⟩
    exact (InMemoryReproductionRepository.stored_write failed w.repository command.key).trans (if_pos hkey.symm)
  have hsound := hw.step executor (.advance n env)
  obtain ⟨hstored, hreplays⟩ := settled_run hsound executor after hsettled
  have hlast := hsound.run executor after
  refine ⟨failed, hfailed, hanchor, hstored, ?_, ?_, ?_⟩
  · intro halone
    exact hlast.named command.key failed hstored halone
  · intro m other reply hwaiting hdone hsame
    have hreplay := hreplays m hwaiting
    rw [hdone] at hreplay
    rw [hreplay hsame, TrustedCommand.reuse, hvalid, if_pos rfl]
  · have hbegun : (command.key, n) ∈ (TrustedStarts.step ν executor (.advance n env) w).ledger.acted := by
      rw [hstep]
      exact hacted
    exact hlast.orderly.acts_eq ((Later.run hsound executor after).acts _ hbegun)

end idempotency

end TrustedStarts

/-- Whatever starts are called on one repository in memory and in whatever order their steps are
taken, they are idempotent under each key of each caller. -/
theorem trusted_starts (executor : TrustedExecutor ρ) (actions : List TrustedAction) :
    TrustedStarts.Idempotent ν executor actions
      (Runs.run (TrustedStarts.step ν executor) actions TrustedStarts.initial) := by
  have hreached : ∀ actions, TrustedStarts.Sound ν
      (Runs.run (TrustedStarts.step ν executor) actions TrustedStarts.initial) :=
    fun actions => TrustedStarts.sound_initial.run executor actions
  refine ⟨(hreached actions).executions_le, ?_, ?_, ?_, ?_⟩
  · intro m n command command' reused reused' snapshot snapshot' hm hn hkey
    exact (hreached actions).shared hm hn hkey
  · intro n command reply hn
    exact (hreached actions).conflicts hn
  · rintro before action after command m rfl hcommand hm hother
    rw [Runs.run_append, Runs.run] at hcommand hm
    rw [Runs.run_append, Runs.run, Runs.run]
    exact (hreached before).untouched executor action after hcommand hm hother
  · rintro before n env after command running rfl hcalls hfails
    rw [Runs.run_append, Runs.run_append, Runs.run, Runs.run, Runs.run]
    exact (hreached before).failed executor env after hcalls hfails

end service

end ReproForge
