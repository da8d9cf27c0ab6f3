import ReproForge.ArtifactStore

/-!
# Claims on artifact rows

A call that took a row over holds it under the version that it wrote. `Effect`
lists what one step of a call can do to the rows and the objects; no two calls
ever hold the same version of a row.
-/
namespace ReproForge

open KeyedTable Transactions Transactions.Tx

variable {ρ σ : Type}

def PutState.claim? : PutState → Option (Key × Nat)
  | .uploading _ d version | .fetching d version | .finalizing d version _ | .discarding d version _ _
  | .failing d version _ => some (d.key, version)
  | _ => none

def DeleteState.claim? : DeleteState → Option (Key × Nat)
  | .removing d version _ | .checking d version | .completing d version | .restoring d version _ =>
    some (d.key, version)
  | _ => none

namespace StoreCall

/-- The row that a call holds, and the version under which it holds it. -/
def claim? : StoreCall → Option (Key × Nat)
  | .put s => s.claim?
  | .delete s => s.claim?
  | _ => none

/-- The row under which a call is about to upload. -/
def uploading? : StoreCall → Option (ArtifactDescriptor × Nat)
  | .put (.uploading _ d version) => some (d, version)
  | _ => none

/-- The row under which a call is about to write or remove an object. -/
def touching? : StoreCall → Option (ArtifactDescriptor × Nat)
  | .put (.uploading _ d version) | .put (.discarding d version _ _) | .delete (.removing d version _) =>
    some (d, version)
  | _ => none

theorem uploading_claim {c : StoreCall} (h : c.claim? = none) : c.uploading? = none := by
  cases c with
  | put s => cases s <;> first | rfl | simp [claim?, PutState.claim?] at h
  | _ => rfl

end StoreCall

/-- An update by the call that holds the row, which is then no longer pending or being deleted. -/
inductive Settled (a : ArtifactRow) : ArtifactRow → Prop where
  | finalized (etag : String) (now : Instant) : a.status = .pending → Settled a (a.finalized etag now)
  | failed (code : String) (now : Instant) : a.status = .pending → Settled a (a.failedWrite code now)
  | deleted (now : Instant) : a.status = .deleting → Settled a (a.deletionCompleted now)
  | restored (now : Instant) : a.status = .deleting → Settled a (a.restored now)

/-- What one step of the call `c` can do, and the state of the call after it. -/
inductive Effect (c : StoreCall) (db : Db ρ σ) (blobs : Objects.Store String) :
    StoreCall → Db ρ σ → Objects.Store String → Prop where
  | quiet {c'} : (c'.claim? = none ∨ c'.claim? = c.claim?) → c'.uploading? = none →
      Effect c db blobs c' db blobs
  | reserved {c' db' d} : c.claim? = none → ArtifactInsertion db db' d →
      (c'.claim? = none ∨ ∃ bytes, c' = .put (.acquired bytes d.key (newArtifact d))) →
      Effect c db blobs c' db' blobs
  | reclaimed {c' db' d version bytes now key a} : c = .put (.reclaiming bytes d version) →
      d.identifies key a = true → a.status = .failed → a.version = version →
      ArtifactUpdate db db' key a (a.reclaimed now) →
      (c'.claim? = none ∨ c' = .put (.acquired bytes key (a.reclaimed now))) →
      Effect c db blobs c' db' blobs
  | deletionClaimed {c' db' d version etag now a} : c = .delete (.claiming d version etag) →
      a.status = .available → a.version = version →
      ArtifactUpdate db db' d.key a (a.deletionClaimed now) →
      (c'.claim? = none ∨ c' = .delete (.removing d (a.deletionClaimed now).version etag)) →
      Effect c db blobs c' db' blobs
  | settled {c' db' key a a'} : c.claim? = some (key, a.version) → Settled a a' →
      ArtifactUpdate db db' key a a' → (c'.claim? = none ∨ c'.claim? = c.claim?) → c'.uploading? = none →
      Effect c db blobs c' db' blobs
  | uploaded {c' d version bytes etag} : c = .put (.uploading bytes d version) →
      c'.claim? = c.claim? → c'.uploading? = none →
      Effect c db blobs c' db (blobs.insert d.objectKey ⟨etag, bytes⟩)
  | removed {c' : StoreCall} {d : ArtifactDescriptor} {version : Nat} {etag : Option String} {absent : Bool} :
      c.touching? = some (d, version) → c'.claim? = c.claim? → c'.uploading? = none →
      Effect c db blobs c' db
        (Objects.delete absent d.objectKey etag blobs : Except ArtifactFailure Bool × Objects.Store String).2

variable {db db' : Db ρ σ} {blobs : Objects.Store String}

theorem PutState.claim_acquired (bytes : List UInt8) (key : Key) (a : ArtifactRow) :
    (PutState.acquired bytes key a).claim? = none ∨
      (PutState.acquired bytes key a).claim? = some (key, a.version) := by
  unfold acquired
  cases hd : rowDescriptor key a with
  | none => exact .inl rfl
  | some stored =>
    right
    rw [claim?, (rowDescriptor_some hd).2.1]

theorem PutState.conflict_claim (bytes : List UInt8) (d : ArtifactDescriptor) (key : Key) (a : ArtifactRow) :
    (PutState.conflict bytes d key a).claim? = none := by
  unfold conflict
  split
  · split <;> rfl
  · split <;> rfl
  · rfl

theorem PutState.uploaded_claim (stored : ArtifactDescriptor) (version : Nat) (m : BlobMetadata) :
    (PutState.uploaded stored version m).claim? = some (stored.key, version) ∧
      (StoreCall.put (PutState.uploaded stored version m)).uploading? = none := by
  unfold uploaded
  split <;> exact ⟨rfl, rfl⟩

theorem PutState.finalized_claim (stored : ArtifactDescriptor) (version : Nat) (m : BlobMetadata)
    (reply : Except DurableError (Option ArtifactRow)) :
    ((PutState.finalized stored version m reply).claim? = none ∨
      (PutState.finalized stored version m reply).claim? = some (stored.key, version)) ∧
      (StoreCall.put (PutState.finalized stored version m reply)).uploading? = none := by
  cases reply with
  | error e => exact ⟨.inr rfl, rfl⟩
  | ok found =>
    cases found with
    | none => exact ⟨.inr rfl, rfl⟩
    | some a =>
      unfold finalized
      dsimp only
      split
      · exact ⟨.inl rfl, rfl⟩
      · exact ⟨.inr rfl, rfl⟩

theorem DeleteState.found_claim (key : Key) (a : ArtifactRow) : (DeleteState.found key a).claim? = none := by
  unfold found
  split
  · rfl
  · split
    · rfl
    · split <;> rfl

/-! ## The effect of each step -/

variable [ContentHash]

theorem PutState.reserving_effect (env : Outside) (bytes : List UInt8) (d : ArtifactDescriptor) :
    let r := PutState.step env db blobs (.reserving bytes d)
    Effect (.put (.reserving bytes d)) db blobs (.put r.1) r.2.1 r.2.2 := by
  dsimp only [step]
  rcases runSerializableTransaction_cases 3 env.attempts (reserveArtifact d) db with
    ⟨e, he⟩ | ⟨reply, db', ho, hr⟩
  · rw [he]
    exact .quiet (.inl rfl) rfl
  · rcases reserveArtifact_ok ho with ⟨rfl, rfl⟩ | ⟨rfl, hinsert⟩
    · rcases hr with hr | hr <;> rw [hr] <;> exact .quiet (.inl rfl) rfl
    · rcases hr with hr | hr <;> rw [hr]
      · exact .reserved rfl hinsert (.inr ⟨bytes, rfl⟩)
      · exact .reserved rfl hinsert (.inl rfl)

theorem PutState.finding_effect (env : Outside) (bytes : List UInt8) (d : ArtifactDescriptor) :
    let r := PutState.step env db blobs (.finding bytes d)
    Effect (.put (.finding bytes d)) db blobs (.put r.1) r.2.1 r.2.2 := by
  dsimp only [step]
  rcases transaction_cases env.attempt (findByIdentity d) db with ⟨e, he⟩ | ⟨reply, db', ho, hr⟩
  · rw [he]
    exact .quiet (.inl rfl) rfl
  · obtain ⟨rfl, -⟩ := findByIdentity_ok ho
    rcases hr with hr | hr <;> rw [hr]
    · cases reply with
      | none => exact .quiet (.inl rfl) rfl
      | some row =>
        have hclaim := PutState.conflict_claim bytes d row.1 row.2
        exact .quiet (.inl hclaim) (StoreCall.uploading_claim hclaim)
    · exact .quiet (.inl rfl) rfl

theorem PutState.reclaiming_effect (env : Outside) (bytes : List UInt8) (d : ArtifactDescriptor)
    (version : Nat) :
    let r := PutState.step env db blobs (.reclaiming bytes d version)
    Effect (.put (.reclaiming bytes d version)) db blobs (.put r.1) r.2.1 r.2.2 := by
  dsimp only [step]
  rcases transaction_cases env.attempt (reclaimArtifact d version env.now) db with
    ⟨e, he⟩ | ⟨reply, db', ho, hr⟩
  · rw [he]
    exact .quiet (.inl rfl) rfl
  · rcases reclaimArtifact_ok ho with ⟨rfl, rfl⟩ | ⟨key, a, hidentifies, hstatus, hversion, rfl, hw⟩
    · rcases hr with hr | hr <;> rw [hr] <;> exact .quiet (.inl rfl) rfl
    · rcases hr with hr | hr <;> rw [hr]
      · exact .reclaimed rfl hidentifies hstatus hversion hw (.inr rfl)
      · exact .reclaimed rfl hidentifies hstatus hversion hw (.inl rfl)

theorem PutState.uploading_effect (env : Outside) (bytes : List UInt8) (stored : ArtifactDescriptor)
    (version : Nat) :
    let r := PutState.step env db blobs (.uploading bytes stored version)
    Effect (.put (.uploading bytes stored version)) db blobs (.put r.1) r.2.1 r.2.2 := by
  dsimp only [step]
  have hstore := Objects.call_store env.fate ArtifactFailure.blob
    (Objects.put ArtifactFailure.blob stored.objectKey bytes env.etag) blobs
  rw [Objects.put_store] at hstore
  cases hr : env.fate.call ArtifactFailure.blob
      (Objects.put ArtifactFailure.blob stored.objectKey bytes env.etag) blobs with
  | mk reply blobs' =>
    rw [hr] at hstore
    have hclaim : ∀ s : PutState, s.claim? = some (stored.key, version) →
        (StoreCall.put s).uploading? = none →
        Effect (.put (.uploading bytes stored version)) db blobs (.put s) db blobs' := by
      intro s hs hu
      rcases hstore with he | he <;> dsimp only at he <;> subst he
      · exact .quiet (.inr hs) hu
      · exact .uploaded rfl hs hu
    cases reply with
    | ok m => exact hclaim _ (PutState.uploaded_claim stored version m).1 (PutState.uploaded_claim stored version m).2
    | error e => exact hclaim _ rfl rfl

theorem PutState.fetching_effect (env : Outside) (stored : ArtifactDescriptor) (version : Nat) :
    let r := PutState.step env db blobs (.fetching stored version)
    Effect (.put (.fetching stored version)) db blobs (.put r.1) r.2.1 r.2.2 := by
  dsimp only [step]
  have hstore : (env.fate.call ArtifactFailure.blob
      (Objects.get ArtifactFailure.blob stored.objectKey stored.byteCount) blobs).2 = blobs := by
    rcases Objects.call_store env.fate ArtifactFailure.blob
      (Objects.get ArtifactFailure.blob stored.objectKey stored.byteCount) blobs with he | he
    · exact he
    · rw [he, Objects.get_store]
  cases hr : env.fate.call ArtifactFailure.blob
      (Objects.get ArtifactFailure.blob stored.objectKey stored.byteCount) blobs with
  | mk reply blobs' =>
    rw [hr] at hstore
    dsimp only at hstore
    subst hstore
    cases reply with
    | error e => exact .quiet (.inr rfl) rfl
    | ok found =>
      cases found with
      | none => exact .quiet (.inr rfl) rfl
      | some body =>
        dsimp only
        split
        · have h := PutState.uploaded_claim stored version body.2
          exact .quiet (.inr h.1) h.2
        · exact .quiet (.inr rfl) rfl

omit [ContentHash] in
/-- A statement that settles the row of the call, and any reply to it. -/
theorem settle_effect (db : Db ρ σ) (blobs : Objects.Store String) {c : StoreCall} (key : Key) {version : Nat}
    {status : ArtifactStatus} {assign : ArtifactRow → ArtifactRow} (attempt : Attempt)
    (next : Except DurableError (Option ArtifactRow) → StoreCall) (hown : c.claim? = some (key, version))
    (hclaim : ∀ reply, (next reply).claim? = none ∨ (next reply).claim? = c.claim?)
    (hupload : ∀ reply, (next reply).uploading? = none)
    (hsettled : ∀ a : ArtifactRow, a.status = status → Settled a (assign a)) :
    let r := attempt.transaction
      (updateArtifact key (fun a => a.status == status && a.version == version) assign) db
    Effect c db blobs (next r.1) r.2 blobs := by
  dsimp only
  rcases transaction_cases attempt
      (updateArtifact key (fun a => a.status == status && a.version == version) assign) db with
    ⟨e, he⟩ | ⟨reply, db', ho, hr⟩
  · rw [he]
    exact .quiet (hclaim _) (hupload _)
  · rcases updateArtifact_ok ho with ⟨rfl, rfl⟩ | ⟨a, hc, rfl, hw⟩
    · rcases hr with hr | hr <;> rw [hr] <;> exact .quiet (hclaim _) (hupload _)
    · simp only [Bool.and_eq_true, beq_iff_eq] at hc
      rw [← hc.2] at hown
      rcases hr with hr | hr <;> rw [hr] <;>
        exact .settled hown (hsettled a hc.1) hw (hclaim _) (hupload _)

theorem PutState.finalizing_effect (env : Outside) (stored : ArtifactDescriptor) (version : Nat)
    (m : BlobMetadata) :
    let r := PutState.step env db blobs (.finalizing stored version m)
    Effect (.put (.finalizing stored version m)) db blobs (.put r.1) r.2.1 r.2.2 := by
  dsimp only [step]
  cases hi : integer version with
  | none => exact .quiet (.inr rfl) rfl
  | some version' =>
    obtain ⟨rfl, -⟩ := integer_some.mp hi
    have hclaim := fun reply => PutState.finalized_claim stored version' m reply
    exact settle_effect _ _ _ env.attempt (fun reply => .put (.finalized stored version' m reply)) rfl
      (fun reply => (hclaim reply).1) (fun reply => (hclaim reply).2) (fun a => .finalized m.etag env.now)

theorem PutState.failing_effect (env : Outside) (stored : ArtifactDescriptor) (version : Nat)
    (code : ArtifactErrorCode) :
    let r := PutState.step env db blobs (.failing stored version code)
    Effect (.put (.failing stored version code)) db blobs (.put r.1) r.2.1 r.2.2 := by
  dsimp only [step]
  cases hi : integer version with
  | none => exact .quiet (.inl rfl) rfl
  | some version' =>
    obtain ⟨rfl, -⟩ := integer_some.mp hi
    have h := settle_effect db blobs (c := .put (.failing stored version' code)) stored.key env.attempt
      (fun reply => .put (match reply with
        | .ok _ => .done (.error (.store code))
        | .error e => .done (.error (.database e)))) rfl
      (fun reply => by cases reply <;> exact .inl rfl) (fun reply => by cases reply <;> rfl)
      (fun a => .failed (providerFailureCode code) env.now)
    simp only [failArtifact]
    split <;> rename_i hr <;> rw [hr] at h <;> exact h

theorem PutState.step_effect (env : Outside) (s : PutState) :
    let r := s.step env db blobs
    Effect (.put s) db blobs (.put r.1) r.2.1 r.2.2 := by
  cases s with
  | reserving bytes d => exact reserving_effect env bytes d
  | finding bytes d => exact finding_effect env bytes d
  | verifying d etag =>
    dsimp only [step]
    have hstore := Objects.call_head_store env.fate ArtifactFailure.blob d.objectKey blobs
    split <;> rename_i hr <;> rw [hr] at hstore <;> obtain rfl := hstore <;> exact .quiet (.inl rfl) rfl
  | reclaiming bytes d version => exact reclaiming_effect env bytes d version
  | uploading bytes stored version => exact uploading_effect env bytes stored version
  | fetching stored version => exact fetching_effect env stored version
  | finalizing stored version m => exact finalizing_effect env stored version m
  | discarding stored version etag code =>
    dsimp only [step]
    rcases Objects.call_store env.fate ArtifactFailure.blob
      (Objects.delete env.absent stored.objectKey etag) blobs with he | he <;> rw [he]
    · exact .quiet (.inr rfl) rfl
    · exact .removed rfl rfl rfl
  | failing stored version code => exact failing_effect env stored version code
  | done result => exact .quiet (.inl rfl) rfl

theorem ReadState.step_effect (env : Outside) (s : ReadState) :
    let r := s.step env db blobs
    Effect (.read s) db blobs (.read r.1) r.2.1 r.2.2 := by
  cases s with
  | finding scope artifactId =>
    dsimp only [step]
    rcases transaction_cases env.attempt (findAuthorized scope artifactId .available) db with
      ⟨e, he⟩ | ⟨reply, db', ho, hr⟩
    · rw [he]
      exact .quiet (.inl rfl) rfl
    · obtain ⟨rfl, -⟩ := findAuthorized_ok ho
      rcases hr with hr | hr <;> rw [hr]
      · cases reply with
        | none => exact .quiet (.inl rfl) rfl
        | some a =>
          dsimp only
          split <;> exact .quiet (.inl rfl) rfl
      · exact .quiet (.inl rfl) rfl
  | fetching d etag =>
    dsimp only [step]
    have hstore : (env.fate.call ArtifactFailure.blob
        (Objects.get ArtifactFailure.blob d.objectKey d.byteCount) blobs).2 = blobs := by
      rcases Objects.call_store env.fate ArtifactFailure.blob
        (Objects.get ArtifactFailure.blob d.objectKey d.byteCount) blobs with he | he
      · exact he
      · rw [he, Objects.get_store]
    split <;> rename_i hr <;> rw [hr] at hstore <;> obtain rfl := hstore <;> exact .quiet (.inl rfl) rfl
  | done result => exact .quiet (.inl rfl) rfl

omit [ContentHash] in
theorem DeleteState.claiming_effect (env : Outside) (d : ArtifactDescriptor) (version : Nat)
    (etag : String) :
    let r := DeleteState.step env db blobs (.claiming d version etag)
    Effect (.delete (.claiming d version etag)) db blobs (.delete r.1) r.2.1 r.2.2 := by
  dsimp only [step]
  rcases transaction_cases env.attempt (claimArtifactDeletion d.key version env.now) db with
    ⟨e, he⟩ | ⟨reply, db', ho, hr⟩
  · rw [he]
    exact .quiet (.inl rfl) rfl
  · rcases updateArtifact_ok ho with ⟨rfl, rfl⟩ | ⟨a, hc, rfl, hw⟩
    · rcases hr with hr | hr <;> rw [hr] <;> exact .quiet (.inl rfl) rfl
    · simp only [Bool.and_eq_true, beq_iff_eq] at hc
      rcases hr with hr | hr <;> rw [hr]
      · exact .deletionClaimed rfl hc.1 hc.2 hw (.inr rfl)
      · exact .deletionClaimed rfl hc.1 hc.2 hw (.inl rfl)

omit [ContentHash] in
theorem DeleteState.removing_effect (env : Outside) (d : ArtifactDescriptor) (version : Nat)
    (etag : String) :
    let r := DeleteState.step env db blobs (.removing d version etag)
    Effect (.delete (.removing d version etag)) db blobs (.delete r.1) r.2.1 r.2.2 := by
  dsimp only [step]
  have hstore := Objects.call_store env.fate ArtifactFailure.blob
    (Objects.delete env.absent d.objectKey (some etag)) blobs
  cases hr : env.fate.call ArtifactFailure.blob (Objects.delete env.absent d.objectKey (some etag)) blobs with
  | mk reply blobs' =>
    rw [hr] at hstore
    have hnext : ∀ s : DeleteState, s.claim? = some (d.key, version) →
        Effect (.delete (.removing d version etag)) db blobs (.delete s) db blobs' := by
      intro s hs
      rcases hstore with he | he <;> dsimp only at he <;> subst he
      · exact .quiet (.inr hs) rfl
      · exact .removed rfl hs rfl
    cases reply with
    | error e => exact hnext _ rfl
    | ok deleted =>
      cases deleted
      · exact hnext _ rfl
      · exact hnext _ rfl

/-- How a delete goes on after the row was to be marked as deleted. -/
def DeleteState.completed (d : ArtifactDescriptor) (version : Nat) :
    Except DurableError (Option ArtifactRow) → DeleteState
  | .ok (some _) => .done (.ok true)
  | .ok none => .restoring d version .providerUnavailable
  | .error _ => .restoring d version .providerUnavailable

/-- How it ends after the row was to be made available again. -/
def DeleteState.restored (code : ArtifactErrorCode) : Except DurableError (Option ArtifactRow) → DeleteState
  | .ok _ => .done (.error (.store code))
  | .error e => .done (.error (.database e))

omit [ContentHash] in
theorem DeleteState.step_effect (env : Outside) (s : DeleteState) :
    let r := s.step env db blobs
    Effect (.delete s) db blobs (.delete r.1) r.2.1 r.2.2 := by
  cases s with
  | finding scope artifactId =>
    dsimp only [step]
    rcases transaction_cases env.attempt (findAuthorized scope artifactId .available) db with
      ⟨e, he⟩ | ⟨reply, db', ho, hr⟩
    · rw [he]
      exact .quiet (.inl rfl) rfl
    · obtain ⟨rfl, -⟩ := findAuthorized_ok ho
      rcases hr with hr | hr <;> rw [hr]
      · cases reply with
        | none => exact .quiet (.inl rfl) rfl
        | some a => exact .quiet (.inl (found_claim ⟨scope.tenantId, artifactId⟩ a)) rfl
      · exact .quiet (.inl rfl) rfl
  | claiming d version etag => exact claiming_effect env d version etag
  | removing d version etag => exact removing_effect env d version etag
  | checking d version =>
    dsimp only [step]
    have hstore := Objects.call_head_store env.fate ArtifactFailure.blob d.objectKey blobs
    split <;> rename_i hr <;> rw [hr] at hstore <;> obtain rfl := hstore <;> exact .quiet (.inr rfl) rfl
  | completing d version =>
    dsimp only [step]
    cases hi : integer version with
    | none => exact .quiet (.inr rfl) rfl
    | some version' =>
      obtain ⟨rfl, -⟩ := integer_some.mp hi
      have h := settle_effect db blobs (c := .delete (.completing d version')) d.key env.attempt
        (fun reply => .delete (completed d version' reply)) rfl
        (fun reply => by
          rcases reply with e | _ | a
          · exact .inr rfl
          · exact .inr rfl
          · exact .inl rfl)
        (fun reply => rfl) (fun a => .deleted env.now)
      simp only [completeArtifactDeletion]
      split <;> rename_i hr <;> rw [hr] at h <;> exact h
  | restoring d version code =>
    dsimp only [step]
    cases hi : integer version with
    | none => exact .quiet (.inl rfl) rfl
    | some version' =>
      obtain ⟨rfl, -⟩ := integer_some.mp hi
      have h := settle_effect db blobs (c := .delete (.restoring d version' code)) d.key env.attempt
        (fun reply => .delete (restored code reply)) rfl
        (fun reply => by cases reply <;> exact .inl rfl) (fun reply => rfl) (fun a => .restored env.now)
      simp only [restoreArtifact]
      split <;> rename_i hr <;> rw [hr] at h <;> exact h
  | done result => exact .quiet (.inl rfl) rfl

theorem StoreCall.step_effect (env : Outside) (c : StoreCall) (db : Db ρ σ) (blobs : Objects.Store String) :
    let r := c.step env db blobs
    Effect c db blobs r.1 r.2.1 r.2.2 := by
  cases c with
  | idle => exact .quiet (.inl rfl) rfl
  | put s => exact s.step_effect env
  | read s => exact s.step_effect env
  | delete s => exact s.step_effect env

/-! ## No version of a row is held twice -/

omit [ContentHash] in
/-- Rows stay, and their versions only rise. -/
theorem Effect.rows_kept {c c' : StoreCall} {blobs' : Objects.Store String}
    (h : Effect c db blobs c' db' blobs') {key : Key} {a : ArtifactRow} (ha : db.artifacts.get key = some a) :
    ∃ a', db'.artifacts.get key = some a' ∧ a.version ≤ a'.version := by
  have hupdate : ∀ {k b b'}, ArtifactUpdate db db' k b b' →
      ∃ a', db'.artifacts.get key = some a' ∧ a.version ≤ a'.version := by
    intro k b b' hw
    by_cases hk : key = k
    · subst hk
      obtain rfl := Option.some.inj (ha.symm.trans hw.row)
      exact ⟨b', hw.get_self, by have := hw.version; omega⟩
    · exact ⟨a, (hw.get_other hk).trans ha, Nat.le_refl _⟩
  cases h with
  | quiet => exact ⟨a, ha, Nat.le_refl _⟩
  | reserved _ hinsert _ =>
    rw [hinsert.result]
    exact ⟨a, Table.get_insert_some ha, Nat.le_refl _⟩
  | reclaimed _ _ _ _ hw _ => exact hupdate hw
  | deletionClaimed _ _ _ hw _ => exact hupdate hw
  | settled _ _ hw _ _ => exact hupdate hw
  | uploaded => exact ⟨a, ha, Nat.le_refl _⟩
  | removed => exact ⟨a, ha, Nat.le_refl _⟩

/-- Every claim names a row at its version or a later one, unless the row is gone
for good, and no two calls have the same claim. -/
structure Claims (gone : Key → Prop) (artifacts : Table Key ArtifactRow) (calls : Nat → StoreCall) : Prop where
  bound : ∀ n key version, (calls n).claim? = some (key, version) →
    (∃ a, artifacts.get key = some a ∧ version ≤ a.version) ∨ gone key
  distinct : ∀ m n claim, (calls m).claim? = some claim → (calls n).claim? = some claim → m = n

omit [ContentHash] in
/-- A step either gives its call no new claim, or one that no call had. -/
theorem Effect.claim_cases {c c' : StoreCall} {blobs' : Objects.Store String}
    (h : Effect c db blobs c' db' blobs') :
    c'.claim? = none ∨ c'.claim? = c.claim? ∨ ∃ key a', db'.artifacts.get key = some a' ∧
      c'.claim? = some (key, a'.version) ∧ ∀ a, db.artifacts.get key = some a → a.version < a'.version := by
  have hupdate : ∀ {k b b'}, ArtifactUpdate db db' k b b' →
      db'.artifacts.get k = some b' ∧ ∀ a, db.artifacts.get k = some a → a.version < b'.version := by
    intro k b b' hw
    refine ⟨hw.get_self, fun a ha => ?_⟩
    obtain rfl := Option.some.inj (hw.row.symm.trans ha)
    have := hw.version
    omega
  cases h with
  | quiet hc => exact hc.imp_right .inl
  | reserved _ hinsert hc =>
    rcases hc with hc | ⟨bytes, rfl⟩
    · exact .inl hc
    · rcases PutState.claim_acquired bytes _ _ with he | he
      · exact .inl he
      · refine .inr (.inr ⟨_, _, ?_, he, ?_⟩)
        · rw [hinsert.result]
          exact Table.get_insert_self hinsert.fresh
        · intro a ha
          rw [hinsert.fresh] at ha
          cases ha
  | reclaimed _ _ _ _ hw hc =>
    rcases hc with hc | rfl
    · exact .inl hc
    · rcases PutState.claim_acquired _ _ _ with he | he
      · exact .inl he
      · exact .inr (.inr ⟨_, _, (hupdate hw).1, he, (hupdate hw).2⟩)
  | deletionClaimed _ _ _ hw hc =>
    rcases hc with hc | rfl
    · exact .inl hc
    · exact .inr (.inr ⟨_, _, (hupdate hw).1, rfl, (hupdate hw).2⟩)
  | settled _ _ _ hc _ => exact hc.imp_right .inl
  | uploaded _ hc _ => exact .inr (.inl hc)
  | removed _ hc _ => exact .inr (.inl hc)

variable {gone gone' : Key → Prop} {calls : Nat → StoreCall}

omit [ContentHash] in
/-- Step lemma: the claims stay sound while a row that is gone never comes back. -/
theorem Claims.update (hs : Claims gone db.artifacts calls) (n : Nat) {c' : StoreCall} {blobs' : Objects.Store String}
    (h : Effect (calls n) db blobs c' db' blobs') (hgone : ∀ key, gone key → gone' key)
    (hback : ∀ key a, db'.artifacts.get key = some a → ¬ gone key) :
    Claims gone' db'.artifacts (Function.update calls n c') := by
  have hkept : ∀ key version, ((∃ a, db.artifacts.get key = some a ∧ version ≤ a.version) ∨ gone key) →
      (∃ a, db'.artifacts.get key = some a ∧ version ≤ a.version) ∨ gone' key := by
    rintro key version (⟨a, ha, hv⟩ | hg)
    · obtain ⟨a', ha', hle⟩ := h.rows_kept ha
      exact .inl ⟨a', ha', by omega⟩
    · exact .inr (hgone key hg)
  have hfresh : ∀ m key a', db'.artifacts.get key = some a' →
      (∀ a, db.artifacts.get key = some a → a.version < a'.version) →
      (calls m).claim? ≠ some (key, a'.version) := by
    intro m key a' ha' hnew hm
    rcases hs.bound m key _ hm with ⟨a, ha, hle⟩ | hg
    · have := hnew a ha
      omega
    · exact hback key a' ha' hg
  have hcases := h.claim_cases
  constructor
  · intro m key version hm
    by_cases hmn : m = n
    · subst hmn
      rw [Function.update_self] at hm
      rcases hcases with he | he | ⟨k, a', ha', he, -⟩
      · rw [he] at hm
        cases hm
      · exact hkept key version (hs.bound m key version (he ▸ hm))
      · rw [he] at hm
        cases hm
        exact .inl ⟨a', ha', Nat.le_refl _⟩
    · rw [Function.update_of_ne hmn] at hm
      exact hkept key version (hs.bound m key version hm)
  · have hother : ∀ m claim, m ≠ n → (calls m).claim? = some claim → c'.claim? ≠ some claim := by
      intro m claim hmn hm hc
      rcases hcases with he | he | ⟨k, a', ha', he, hnew⟩
      · rw [he] at hc
        cases hc
      · exact hmn (hs.distinct m n claim hm (he ▸ hc))
      · rw [he] at hc
        obtain rfl := Option.some.inj hc
        exact hfresh m k a' ha' hnew hm
    intro m m' claim hm hm'
    by_cases hmn : m = n <;> by_cases hmn' : m' = n
    · exact hmn.trans hmn'.symm
    · subst hmn
      rw [Function.update_self] at hm
      rw [Function.update_of_ne hmn'] at hm'
      exact absurd hm (hother m' claim hmn' hm')
    · subst hmn'
      rw [Function.update_self] at hm'
      rw [Function.update_of_ne hmn] at hm
      exact absurd hm' (hother m claim hmn hm)
    · rw [Function.update_of_ne hmn] at hm
      rw [Function.update_of_ne hmn'] at hm'
      exact hs.distinct m m' claim hm hm'

omit [ContentHash] in
/-- A call that has just started, or was abandoned, holds nothing. -/
theorem Claims.start {artifacts : Table Key ArtifactRow} (hs : Claims gone artifacts calls) (n : Nat)
    {c' : StoreCall} (hc : c'.claim? = none) : Claims gone artifacts (Function.update calls n c') := by
  constructor
  · intro m key version hm
    by_cases hmn : m = n
    · rw [hmn, Function.update_self, hc] at hm
      cases hm
    · rw [Function.update_of_ne hmn] at hm
      exact hs.bound m key version hm
  · intro m m' claim hm hm'
    by_cases hmn : m = n
    · rw [hmn, Function.update_self, hc] at hm
      cases hm
    · by_cases hmn' : m' = n
      · rw [hmn', Function.update_self, hc] at hm'
        cases hm'
      · rw [Function.update_of_ne hmn] at hm
        rw [Function.update_of_ne hmn'] at hm'
        exact hs.distinct m m' claim hm hm'

theorem StoreRequest.start_claim (request : StoreRequest) : request.start.claim? = none := by
  cases request with
  | put bytes d =>
    simp only [start, PutState.start]
    split <;> rfl
  | read scope artifactId => rfl
  | delete scope artifactId =>
    simp only [start, DeleteState.start]
    split <;> rfl

end ReproForge
