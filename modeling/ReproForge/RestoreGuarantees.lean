import Mathlib
import ReproForge.RestoreCommits
import ReproForge.RestoreSafety

/-!
# What restores promise together

A tenant is committed once, calls that report its restore report one archive, and
its objects are there unless another call deleted what that call itself had created.
-/
namespace ReproForge

open KeyedTable Transactions SharedObjects Runs RestorePhase

variable {ρ σ : Type}

/-! ## What a call has gathered -/

section gathered

variable {s s' : Share String} {n : Nat} {archive : TenantBackupArchive ρ σ} {done : List ArtifactDescriptor}
  {uploads : Uploads}

/-- An entry of the uploads, with the object that stands for it. -/
structure Gathered (s : Share String) (n : Nat) (archive : TenantBackupArchive ρ σ) (e : String × Uploaded) :
    Prop where
  artifact : ∃ a ∈ archive.manifest.artifacts, a.objectKey = e.1 ∧ e.2.metadata.size = a.byteCount
  pathname : e.2.metadata.pathname = e.1
  kept : ∃ body, archive.objects.get e.1 = some body ∧ Share.Kept s n e.1 ⟨e.2.metadata.etag, body⟩

/-- The artifacts of a list were uploaded, in their order. -/
structure Assembled (s : Share String) (n : Nat) (archive : TenantBackupArchive ρ σ) (done : List ArtifactDescriptor)
    (uploads : Uploads) : Prop where
  paths : uploads.rows.map Prod.fst = done.map ArtifactDescriptor.objectKey
  gathered : ∀ e ∈ uploads.rows, Gathered s n archive e

theorem Gathered.mono {e : String × Uploaded} (h : Gathered s n archive e)
    (hkept : ∀ k o, Share.Kept s n k o → Share.Kept s' n k o) : Gathered s' n archive e := by
  obtain ⟨body, hbody, hk⟩ := h.kept
  exact ⟨h.artifact, h.pathname, body, hbody, hkept _ _ hk⟩

theorem Assembled.mono (h : Assembled s n archive done uploads) (hkept : ∀ k o, Share.Kept s n k o → Share.Kept s' n k o) :
    Assembled s' n archive done uploads := ⟨h.paths, fun e he => (h.gathered e he).mono hkept⟩

variable {committed committed' ledger ledger' : Prop}

/-- What a call knows where it waits: `committed` that it wrote its tenant itself, `ledger` that the ledger
has the hash of its archive. -/
def CallHolds (s : Share String) (n : Nat) (archive : TenantBackupArchive ρ σ) (committed ledger : Prop) :
    RestorePhase → Prop
  | .uploading rest uploads => ∃ done, archive.manifest.artifacts = done ++ rest ∧ Assembled s n archive done uploads
  | .comparing a rest uploads =>
    ∃ done, archive.manifest.artifacts = done ++ a :: rest ∧ Assembled s n archive done uploads
  | .discarding _ _ _ => False
  | .committing uploads => Assembled s n archive archive.manifest.artifacts uploads
  | .checking objectKey _ entries _ | .deleting objectKey _ entries _ =>
    objectKey ∈ archive.manifest.artifacts.map ArtifactDescriptor.objectKey ∧
      ∀ e ∈ entries, e.1 ∈ archive.manifest.artifacts.map ArtifactDescriptor.objectKey
  | .verifying restored => restored = true → committed
  | .rebuilding restored | .marking restored => (restored = true → committed) ∧ ledger
  | .settled (.ok r) => ∃ restored, r = summary archive restored ∧ (restored = true → committed) ∧ ledger
  | .inspecting | .removing _ _ | .settled (.error _) => True

theorem CallHolds.mono {phase : RestorePhase} (h : CallHolds s n archive committed ledger phase)
    (hkept : ∀ k o, Share.Kept s n k o → Share.Kept s' n k o) (hcommitted : committed → committed') (hledger : ledger → ledger') :
    CallHolds s' n archive committed' ledger' phase := by
  cases phase with
  | uploading rest uploads =>
    obtain ⟨done, hdone, hcovers⟩ := h
    exact ⟨done, hdone, hcovers.mono hkept⟩
  | comparing a rest uploads =>
    obtain ⟨done, hdone, hcovers⟩ := h
    exact ⟨done, hdone, hcovers.mono hkept⟩
  | committing uploads => exact Assembled.mono h hkept
  | discarding _ _ _ => exact h
  | checking _ _ _ _ => exact h
  | deleting _ _ _ _ => exact h
  | inspecting => trivial
  | removing _ _ => trivial
  | verifying restored => exact fun hr => hcommitted (h hr)
  | rebuilding restored => exact ⟨fun hr => hcommitted (h.1 hr), hledger h.2⟩
  | marking restored => exact ⟨fun hr => hcommitted (h.1 hr), hledger h.2⟩
  | settled result =>
    cases result with
    | error e => trivial
    | ok r =>
      obtain ⟨restored, hr, hwrote, hsha⟩ := h
      exact ⟨restored, hr, fun ht => hcommitted (hwrote ht), hledger hsha⟩

theorem holds_of_upload {rest : List ArtifactDescriptor} (hdone : archive.manifest.artifacts = done ++ rest)
    (h : Assembled s n archive done uploads) : CallHolds s n archive committed ledger (upload rest uploads) := by
  rw [upload]
  split
  · rename_i hempty
    rw [List.isEmpty_iff.mp hempty, List.append_nil] at hdone
    change Assembled s n archive archive.manifest.artifacts uploads
    rw [hdone]
    exact h
  · exact ⟨done, hdone, h⟩

theorem holds_of_abandon (uploads : Uploads) (error : BackupFailure) :
    CallHolds s n archive committed ledger (abandon uploads error) := by
  rw [abandon]
  split <;> trivial

theorem holds_of_cleanup {entries : List (String × Uploaded)} (error : BackupFailure)
    (h : ∀ e ∈ entries, e.1 ∈ archive.manifest.artifacts.map ArtifactDescriptor.objectKey) :
    CallHolds s n archive committed ledger (cleanup entries error) := by
  induction entries with
  | nil => trivial
  | cons e rest ih =>
    rw [cleanup]
    split
    · exact ⟨h e List.mem_cons_self, fun e' he' => h e' (List.mem_cons_of_mem _ he')⟩
    · exact ih fun e' he' => h e' (List.mem_cons_of_mem _ he')

variable [ContentHash] [ManifestHash ρ σ] [ResultDocument ρ] [RequestDocument σ]

/-- The next artifact is there, with the bytes of the archive. -/
theorem holds_of_uploaded (hintact : archive.Intact) {a : ArtifactDescriptor} {rest : List ArtifactDescriptor}
    {body : List UInt8} {etag : String} (created : Bool) (hdone : archive.manifest.artifacts = done ++ a :: rest)
    (h : Assembled s n archive done uploads) (hbody : archive.objects.get a.objectKey = some body)
    (hget : s.store.get a.objectKey = some ⟨etag, body⟩) :
    CallHolds s n archive committed ledger
      (uploaded a created (Objects.Object.metadata a.objectKey ⟨etag, body⟩) rest uploads) := by
  have ha : a ∈ archive.manifest.artifacts := by simp [hdone]
  have hsize : body.length = a.byteCount := by
    obtain ⟨body', hbody', hlength, -⟩ := hintact.body a ha
    rw [hbody] at hbody'
    exact Option.some.inj hbody' ▸ hlength
  have hnew : uploads.get a.objectKey = none := by
    rw [Table.get_eq_none, h.paths]
    intro hm
    have hnodup := (TenantBackupManifest.sound hintact.valid).objectKeys
    rw [hdone, List.map_append, List.map_cons] at hnodup
    exact (List.nodup_append.mp hnodup).2.2 _ hm _ List.mem_cons_self rfl
  have hnext : archive.manifest.artifacts = (done ++ [a]) ++ rest := by
    rw [hdone, List.append_assoc, List.singleton_append]
  rw [uploaded, if_pos ⟨rfl, hsize⟩]
  refine holds_of_upload hnext ⟨?_, ?_⟩
  · rw [Table.rows_insert hnew, List.map_append, List.map_append, h.paths]
    rfl
  · intro e he
    rw [Table.rows_insert hnew, List.mem_append, List.mem_singleton] at he
    rcases he with he | rfl
    · exact h.gathered e he
    · exact ⟨⟨a, ha, rfl, hsize⟩, rfl, body, hbody, .inl hget⟩

end gathered

/-- A prefix of the same length is the whole. -/
theorem isPrefixOf_full {bytes body : List UInt8} (h : bytes.isPrefixOf body = true)
    (hlength : bytes.length = body.length) : bytes = body :=
  (List.isPrefixOf_iff_prefix.mp h).eq_of_length hlength

namespace Restoring

variable {w : Restoring ρ σ} {n : Nat} {call : RestoreCall ρ σ} {o : Outcome ρ σ} {p₀ : Platform ρ σ}

/-- A call wrote its tenant. -/
def Committed (w : Restoring ρ σ) (n : Nat) : Prop :=
  ∃ uploads restoredAt, (n, .committed uploads restoredAt) ∈ w.acts

section steps

variable [ContentHash] [ManifestHash ρ σ] [ResultDocument ρ] [RequestDocument σ]

/-- A call that goes on with an archive that passed its checks. -/
structure CallSafe (w : Restoring ρ σ) (n : Nat) (call : RestoreCall ρ σ) : Prop where
  intact : (∀ e, call.phase ≠ .settled (.error e)) → call.archive.Intact
  holds : CallHolds (share w) n call.archive (Committed w n)
    (Ledger w.platform call.archive.tenantId call.archive.manifestSha256) call.phase

/-- What the commit of a tenant leaves, whatever comes after it. -/
structure Holds (w : Restoring ρ σ) (n : Nat) (call : RestoreCall ρ σ) (uploads : Uploads) (restoredAt : Instant) :
    Prop where
  intact : call.archive.Intact
  ended : RestorePhase.ended call.phase
  covers : Assembled (share w) n call.archive call.archive.manifest.artifacts uploads
  own : ∀ x ∈ createdOf uploads.rows, Share.Owned (share w) n x.1 (call.archive.objectOf x).2
  restored : Restored call.archive uploads restoredAt w.platform
  ledger : Ledger w.platform call.archive.tenantId call.archive.manifestSha256

/-- The invariant of restores at once. -/
structure Safe (p₀ : Platform ρ σ) (w : Restoring ρ σ) : Prop where
  sound : Share.Sound (share w)
  referenced : Referenced w.platform
  calls : ∀ n call, w.calls n = some call → CallSafe w n call
  commits : ∀ n uploads restoredAt, (n, .committed uploads restoredAt) ∈ w.acts →
    ∃ call, w.calls n = some call ∧ Holds w n call uploads restoredAt
  once : ∀ n m call call', Committed w n → Committed w m → w.calls n = some call → w.calls m = some call' →
    call.archive.tenantId = call'.archive.tenantId → n = m
  arrivals : ∀ tenantId, (w.platform.db.tenants.get tenantId).isSome = true →
    (p₀.db.tenants.get tenantId).isSome = true ∨
      ∃ n call, Committed w n ∧ w.calls n = some call ∧ call.archive.tenantId = tenantId

/-! ## A step of a call -/

omit [ContentHash] [ManifestHash ρ σ] [ResultDocument ρ] [RequestDocument σ] in
theorem kept_of_store (hstore : ∀ k x, w.store.get k = some x → o.store.get k = some x) (k : String)
    (x : Objects.Object) (h : Share.Kept (share w) n k x) : Share.Kept (share (w.follow n call o)) n k x :=
  h.grows follow_passes hstore

theorem holds_put (hintact : call.archive.Intact) {a : ArtifactDescriptor} {rest done : List ArtifactDescriptor}
    {uploads : Uploads} {committed ledger : Prop} (hdone : call.archive.manifest.artifacts = done ++ a :: rest)
    (hcovers : Assembled (share w) n call.archive done uploads) (fate : Objects.Fate) (etag : String)
    (ho : o = w.putObject call.archive a rest uploads fate etag) :
    CallHolds (share (w.follow n call o)) n call.archive committed ledger o.phase := by
  cases hbody : call.archive.objects.get a.objectKey with
  | none =>
    simp only [putObject, hbody, goes] at ho
    rw [ho]
    exact holds_of_abandon _ _
  | some body =>
    cases hget : w.store.get a.objectKey with
    | some old =>
      have hout : o = w.goes (.comparing a rest uploads) := by
        rw [ho]
        cases fate <;> simp [putObject, hbody, hget, Objects.put, Objects.Fate.call, goes]
      rw [hout]
      exact ⟨done, hdone, hcovers.mono (kept_of_store fun _ _ hk => hk)⟩
    | none =>
      have hgrows : ∀ k x, w.store.get k = some x → (w.store.insert a.objectKey ⟨etag, body⟩).get k = some x :=
        fun k x hk => Table.get_insert_some hk
      cases fate with
      | runs =>
        have hout : o = ⟨.uploaded a true (Objects.Object.metadata a.objectKey ⟨etag, body⟩) rest uploads, w.platform,
            w.store.insert a.objectKey ⟨etag, body⟩, [.created a.objectKey etag]⟩ := by
          rw [ho]
          simp [putObject, hbody, hget, Objects.put, Objects.Fate.call]
        rw [hout]
        exact holds_of_uploaded hintact true hdone (hcovers.mono (kept_of_store hgrows)) hbody
          (Table.get_insert_self hget)
      | failsBefore =>
        have hout : o = w.goes (.comparing a rest uploads) := by
          rw [ho]
          simp [putObject, hbody, hget, Objects.Fate.call, goes]
        rw [hout]
        exact ⟨done, hdone, hcovers.mono (kept_of_store fun _ _ hk => hk)⟩
      | failsAfter =>
        have hout : o = ⟨.comparing a rest uploads, w.platform, w.store.insert a.objectKey ⟨etag, body⟩,
            [.created a.objectKey etag]⟩ := by
          rw [ho]
          simp [putObject, hbody, hget, Objects.put, Objects.Fate.call]
        rw [hout]
        exact ⟨done, hdone, hcovers.mono (kept_of_store hgrows)⟩

theorem holds_compare (hintact : call.archive.Intact) {a : ArtifactDescriptor} {rest done : List ArtifactDescriptor}
    {uploads : Uploads} {committed ledger : Prop} (hdone : call.archive.manifest.artifacts = done ++ a :: rest)
    (hcovers : Assembled (share w) n call.archive done uploads) (fate : Objects.Fate)
    (ho : o = w.goes (w.compareObject call.archive a rest uploads fate)) :
    CallHolds (share (w.follow n call o)) n call.archive committed ledger o.phase := by
  rw [ho]
  change CallHolds _ _ _ _ _ (w.compareObject call.archive a rest uploads fate)
  rw [compareObject]
  split
  · rename_i bytes metadata body hreply hbody
    split
    · rename_i hsame
      rw [sameBody, Bool.and_eq_true, beq_iff_eq] at hsame
      obtain ⟨s', hrun⟩ : ∃ s', (fate.call () (Objects.get () a.objectKey a.byteCount) w.store) =
          (.ok (some (bytes, metadata)), s') := ⟨_, Prod.ext hreply rfl⟩
      obtain ⟨x, hx, hbytes, hmetadata, -⟩ := Objects.get_some (Objects.call_ok hrun)
      have hlength : body.length = a.byteCount := by
        obtain ⟨body', hbody', hl, -⟩ := hintact.body a (by simp [hdone])
        rw [hbody] at hbody'
        exact Option.some.inj hbody' ▸ hl
      have hfull : bytes = body := isPrefixOf_full hsame.2 (hsame.1.trans hlength.symm)
      have hobject : x = ⟨x.etag, body⟩ := by rw [← hfull, hbytes]
      rw [hobject] at hx hmetadata
      rw [hmetadata]
      exact holds_of_uploaded hintact false hdone (hcovers.mono (kept_of_store fun _ _ hk => hk)) hbody hx
    · exact holds_of_abandon _ _
  · exact holds_of_abandon _ _

omit [ContentHash] [ManifestHash ρ σ] [ResultDocument ρ] [RequestDocument σ] in
theorem follow_committed (h : Committed w n) : Committed (w.follow n call o) n := by
  obtain ⟨uploads, restoredAt, hm⟩ := h
  exact ⟨uploads, restoredAt, List.mem_append_left _ hm⟩

omit [ContentHash] [ManifestHash ρ σ] [ResultDocument ρ] [RequestDocument σ] in
theorem holds_commit {uploads : Uploads} {ledger : Prop}
    (hcovers : Assembled (share w) n call.archive call.archive.manifest.artifacts uploads) (fate : Objects.Fate)
    (restoredAt : Instant) (ho : o = w.commitRestore call.archive call.requestedBy uploads fate restoredAt) :
    CallHolds (share (w.follow n call o)) n call.archive (Committed (w.follow n call o) n) ledger o.phase := by
  have hpaths : ∀ e ∈ uploads.rows, e.1 ∈ call.archive.manifest.artifacts.map ArtifactDescriptor.objectKey := by
    intro e he
    rw [← hcovers.paths]
    exact List.mem_map_of_mem he
  cases hreply : fate.call (.database .connection)
      (atomically (restoreTransaction call.archive call.requestedBy uploads restoredAt)) w.platform with
  | mk reply p =>
    cases reply with
    | error e =>
      simp only [commitRestore, hreply] at ho
      rw [ho]
      exact holds_of_cleanup _ hpaths
    | ok restored =>
      simp only [commitRestore, hreply] at ho
      rw [ho]
      rintro rfl
      refine ⟨uploads, restoredAt, List.mem_append_right _ ?_⟩
      have hfate : fate ≠ .failsBefore := by
        rintro rfl
        cases hreply
      have hrun := atomically_ok.mp (Objects.call_ok hreply)
      simp [commitActs, hfate, hrun]

omit [ContentHash] [ManifestHash ρ σ] [ResultDocument ρ] [RequestDocument σ] in
theorem ledger_of_holds {p : Platform ρ σ} {archive : TenantBackupArchive ρ σ} (h : holdsRestore p archive = true) :
    Ledger p archive.tenantId archive.manifestSha256 := by
  rw [holdsRestore, Bool.and_eq_true] at h
  cases hget : p.restoreSessions.get archive.tenantId with
  | none =>
    rw [hget] at h
    cases h.2
  | some session =>
    rw [hget, Option.any_some, RestoreSessionRow.holds, Bool.and_eq_true, beq_iff_eq] at h
    exact ⟨session, hget, h.2.1⟩

/-- Where a call waits next, it again knows what it has to know. -/
theorem advance_holds {action : RestoreAction ρ σ} (h : w.advance call action = some o)
    (hintact : call.archive.Intact)
    (hledger : Ledger w.platform call.archive.tenantId call.archive.manifestSha256 →
      Ledger o.platform call.archive.tenantId call.archive.manifestSha256)
    (hholds : CallHolds (share w) n call.archive (Committed w n)
      (Ledger w.platform call.archive.tenantId call.archive.manifestSha256) call.phase) :
    CallHolds (share (w.follow n call o)) n call.archive (Committed (w.follow n call o) n)
      (Ledger o.platform call.archive.tenantId call.archive.manifestSha256) o.phase := by
  cases action with
  | call raw requestedBy => cases h
  | inspect answers =>
    simp only [advance] at h
    split at h
    · cases h
      rw [goes, inspected]
      dsimp only
      split
      · trivial
      · split
        · exact holds_of_upload (List.nil_append _).symm ⟨rfl, fun e he => absurd he List.not_mem_nil⟩
        · split
          · exact fun hf => absurd hf Bool.false_ne_true
          · trivial
    · cases h
  | put fate etag =>
    simp only [advance] at h
    split at h
    · rename_i a rest uploads hphase
      rw [hphase] at hholds
      obtain ⟨done, hdone, hcovers⟩ := hholds
      exact holds_put hintact hdone hcovers fate etag (Option.some.inj h).symm
    · cases h
  | compare fate =>
    simp only [advance] at h
    split at h
    · rename_i a rest uploads hphase
      rw [hphase] at hholds
      obtain ⟨done, hdone, hcovers⟩ := hholds
      exact holds_compare hintact hdone hcovers fate (Option.some.inj h).symm
    · cases h
  | discard fate =>
    simp only [advance] at h
    split at h
    · rename_i a etag uploads hphase
      rw [hphase] at hholds
      exact hholds.elim
    · cases h
  | remove objectKey fate =>
    simp only [advance] at h
    split at h
    · obtain ⟨x, -, rfl⟩ := Option.map_eq_some_iff.mp h
      rw [removal]
      dsimp only
      split <;> trivial
    · cases h
  | commit fate restoredAt =>
    simp only [advance] at h
    split at h
    · rename_i uploads hphase
      rw [hphase] at hholds
      exact holds_commit hholds fate restoredAt (Option.some.inj h).symm
    · cases h
  | check answers =>
    simp only [advance] at h
    split at h
    · rename_i objectKey etag entries error hphase
      rw [hphase] at hholds
      cases h
      rw [goes]
      dsimp only
      split
      · exact hholds
      · exact holds_of_cleanup _ hholds.2
    · cases h
  | delete fate =>
    simp only [advance] at h
    split at h
    · rename_i objectKey etag entries error hphase
      rw [hphase] at hholds
      cases h
      exact holds_of_cleanup _ hholds.2
    · cases h
  | readLedger answers =>
    simp only [advance] at h
    split at h
    · rename_i restored hphase
      rw [hphase] at hholds
      cases h
      rw [goes, ledgerRead]
      dsimp only
      split
      · trivial
      · split
        · rename_i hfound
          exact ⟨fun hr => follow_committed (hholds hr), ledger_of_holds hfound⟩
        · trivial
    · cases h
  | rebuild reply =>
    simp only [advance] at h
    split at h
    · rename_i restored hphase
      rw [hphase] at hholds
      cases h
      rw [goes]
      dsimp only
      cases reply with
      | error e => trivial
      | ok rebuilt =>
        rw [Restoring.rebuilt]
        split
        · exact ⟨fun hr => follow_committed (hholds.1 hr), hholds.2⟩
        · trivial
    · cases h
  | mark fate now =>
    simp only [advance] at h
    split at h
    · rename_i restored hphase
      rw [hphase] at hholds
      have ho := (Option.some.inj h).symm
      have hwrote : restored = true → Committed (w.follow n call o) n := fun hr => follow_committed (hholds.1 hr)
      have hsha := hledger hholds.2
      have hphase' : o.phase = .settled (.ok (summary call.archive restored)) ∨ o.phase = unverified := by
        rw [ho, marked]
        split
        · exact .inl rfl
        · exact .inr rfl
      rcases hphase' with hp | hp
      · rw [hp]
        exact ⟨restored, rfl, hwrote, hsha⟩
      · rw [hp]
        trivial
    · cases h

/-! ## A step after the commit -/

omit [ContentHash] [ManifestHash ρ σ] [ResultDocument ρ] [RequestDocument σ] in
/-- The rows of a restored tenant refer to the objects of its artifacts. -/
theorem referred {archive : TenantBackupArchive ρ σ} {uploads : Uploads} {restoredAt : Instant}
    (h : Restored archive uploads restoredAt w.platform) {objectKey : String}
    (hkey : objectKey ∈ archive.manifest.artifacts.map ArtifactDescriptor.objectKey) :
    (w.platform.db.artifacts.find? fun _ a => a.objectKey == objectKey).isSome = true := by
  obtain ⟨a, ha, rfl⟩ := List.mem_map.mp hkey
  have hget := get_selected h.artifacts (List.mem_map_of_mem ha)
  exact Table.find?_isSome_iff.mpr ⟨_, _, hget, beq_self_eq_true _⟩

omit [ContentHash] [ManifestHash ρ σ] [ResultDocument ρ] [RequestDocument σ] in
/-- A call that wrote its tenant deletes nothing after it. -/
theorem ended_advance {uploads : Uploads} {restoredAt : Instant} {action : RestoreAction ρ σ}
    {committed ledger : Prop} (h : w.advance call action = some o) (hended : RestorePhase.ended call.phase)
    (hholds : CallHolds (share w) n call.archive committed ledger call.phase)
    (hrestored : Restored call.archive uploads restoredAt w.platform) :
    o.store = w.store ∧ RestorePhase.ended o.phase := by
  cases action with
  | call raw requestedBy => cases h
  | inspect answers | put fate etag | compare fate | discard fate | remove objectKey fate | commit fate restoredAt
  | delete fate =>
    simp only [advance] at h
    split at h
    · rename_i hphase
      rw [hphase] at hended
      exact hended.elim
    · cases h
  | check answers =>
    simp only [advance] at h
    split at h
    · rename_i objectKey etag entries error hphase
      rw [hphase] at hholds
      cases h
      have hsome := referred hrestored hholds.1
      refine ⟨rfl, ?_⟩
      have hnot : ¬(answers && (w.platform.db.artifacts.find? fun _ a => a.objectKey == objectKey).isNone) = true := by
        rw [Bool.and_eq_true, Option.isNone_iff_eq_none]
        rintro ⟨-, hnone⟩
        rw [hnone] at hsome
        cases hsome
      rw [goes, if_neg hnot]
      exact ended_cleanup _ _
    · cases h
  | readLedger answers =>
    simp only [advance] at h
    split at h
    · cases h
      refine ⟨rfl, ?_⟩
      rw [goes, ledgerRead]
      dsimp only
      split
      · trivial
      · split <;> trivial
    · cases h
  | rebuild reply =>
    simp only [advance] at h
    split at h
    · cases h
      refine ⟨rfl, ?_⟩
      cases reply with
      | error e => trivial
      | ok rebuilt =>
        rw [goes, Restoring.rebuilt]
        dsimp only
        split <;> trivial
    · cases h
  | mark fate now =>
    simp only [advance] at h
    split at h
    · rename_i restored hphase
      have ho := (Option.some.inj h).symm
      obtain ⟨hstore, result, hnext⟩ := marked_outcome (w := w) call.archive restored fate now
      rw [ho]
      refine ⟨hstore, ?_⟩
      rw [hnext]
      trivial
    · cases h

/-! ## Every step keeps the invariant -/

omit [ContentHash] [ManifestHash ρ σ] [ResultDocument ρ] [RequestDocument σ] in
/-- What a step did to the database. -/
theorem platform_change {action : RestoreAction ρ σ} (h : w.advance call action = some o) :
    PlatformChange w.platform o.platform := by
  rcases advance_effect h with hidle | ⟨uploads, restoredAt, -, -, -, -, hw⟩
  · exact hidle.platform
  · exact .restored _ _ _ _ hw

/-- What another call left stays. -/
theorem Holds.other {m : Nat} {other : RestoreCall ρ σ} {uploads : Uploads} {restoredAt : Instant}
    (h : Holds w m other uploads restoredAt) (hs : Share.Sound (share w)) (href : Referenced w.platform)
    (hm : Share.Moves n (share w) (share (w.follow n call o))) (hchange : PlatformChange w.platform o.platform)
    (hne : n ≠ m) : Holds (w.follow n call o) m other uploads restoredAt where
  intact := h.intact
  ended := h.ended
  covers := h.covers.mono fun _ _ hk => hk.moves hs hm hne
  own x hx := (h.own x hx).moves hm fun he => absurd he hne
  restored := h.restored.change hchange
  ledger := h.ledger.change href hchange

/-- What the call itself left before stays. -/
theorem Holds.own_step {uploads : Uploads} {restoredAt : Instant} {action : RestoreAction ρ σ}
    (h : Holds w n call uploads restoredAt) (hadvance : w.advance call action = some o)
    (hsafe : CallSafe w n call) (href : Referenced w.platform)
    (hm : Share.Moves n (share w) (share (w.follow n call o))) :
    Holds (w.follow n call o) n { call with phase := o.phase } uploads restoredAt := by
  have hchange := platform_change hadvance
  obtain ⟨hstore, hended⟩ := ended_advance hadvance h.ended hsafe.holds h.restored
  exact
    { intact := h.intact
      ended := hended
      covers := h.covers.mono (kept_of_store fun k x hk => hstore ▸ hk)
      own := fun x hx => (h.own x hx).moves hm fun _ => hstore
      restored := h.restored.change hchange
      ledger := h.ledger.change href hchange }

/-- The call that writes its tenant. -/
theorem Holds.begins {uploads : Uploads} {restoredAt : Instant} (hs : Share.Sound (share w))
    (href : Referenced w.platform) (hcall : w.calls n = some call) (hsafe : CallSafe w n call)
    (hphase : call.phase = .committing uploads) (hended : RestorePhase.ended o.phase) (hstore : o.store = w.store)
    (hm : Share.Moves n (share w) (share (w.follow n call o)))
    (hw : Written call.archive call.requestedBy uploads restoredAt w.platform o.platform) :
    Holds (w.follow n call o) n { call with phase := o.phase } uploads restoredAt := by
  have hintact : call.archive.Intact := by
    apply hsafe.intact
    intro e he
    rw [hphase] at he
    cases he
  have hcovers : Assembled (share w) n call.archive call.archive.manifest.artifacts uploads := by
    have hholds := hsafe.holds
    rw [hphase] at hholds
    exact hholds
  exact
    { intact := hintact
      ended := hended
      covers := hcovers.mono (kept_of_store fun k x hk => hstore ▸ hk)
      own := by
        intro x hx
        have hheld : call.archive.objectOf x ∈ (share w).held n := by
          rw [share_held hcall, hphase]
          exact List.mem_map_of_mem hx
        exact (hs.owned hheld).moves hm fun _ => hstore
      restored := hw.restored href
      ledger := ⟨_, hw.session, rfl⟩ }

omit [ContentHash] [ManifestHash ρ σ] [ResultDocument ρ] [RequestDocument σ] in
/-- A call keeps its archive. -/
theorem call_before (hcall : w.calls n = some call) {m : Nat} {other : RestoreCall ρ σ}
    (h : (w.follow n call o).calls m = some other) :
    ∃ before, w.calls m = some before ∧ before.archive = other.archive := by
  by_cases hm : m = n
  · subst hm
    simp only [follow, if_true, Option.some.injEq] at h
    exact ⟨call, hcall, h ▸ rfl⟩
  · simp only [follow, if_neg hm] at h
    exact ⟨other, h, rfl⟩

omit [ContentHash] [ManifestHash ρ σ] [ResultDocument ρ] [RequestDocument σ] in
theorem call_stays (hcall : w.calls n = some call) {m : Nat} {other : RestoreCall ρ σ}
    (h : w.calls m = some other) :
    ∃ after, (w.follow n call o).calls m = some after ∧ after.archive = other.archive := by
  by_cases hm : m = n
  · subst hm
    obtain rfl := Option.some.inj (hcall.symm.trans h)
    exact ⟨_, if_pos rfl, rfl⟩
  · exact ⟨other, (if_neg hm).trans h, rfl⟩

omit [ContentHash] [ManifestHash ρ σ] [ResultDocument ρ] [RequestDocument σ] in
/-- Only the step of a transaction that found no tenant commits. -/
theorem committed_follow {action : RestoreAction ρ σ} (hadvance : w.advance call action = some o) {m : Nat}
    (h : Committed (w.follow n call o) m) :
    Committed w m ∨ m = n ∧ w.platform.db.tenants.get call.archive.tenantId = none := by
  obtain ⟨uploads, restoredAt, hm⟩ := h
  rcases List.mem_append.mp hm with hold | hnew
  · exact .inl ⟨uploads, restoredAt, hold⟩
  · obtain ⟨act, hact, he⟩ := List.mem_map.mp hnew
    obtain ⟨rfl, rfl⟩ := Prod.mk.inj he
    rcases advance_effect hadvance with hidle | ⟨_, _, -, -, -, -, hw⟩
    · exact absurd hact (hidle.acts _ _)
    · exact .inr ⟨rfl, hw.vacant⟩

theorem Safe.commits_follow (h : Safe p₀ w) (hcall : w.calls n = some call) {action : RestoreAction ρ σ}
    (hadvance : w.advance call action = some o) {m : Nat} {uploads : Uploads} {restoredAt : Instant}
    (hm : (m, .committed uploads restoredAt) ∈ (w.follow n call o).acts) :
    ∃ after, (w.follow n call o).calls m = some after ∧ Holds (w.follow n call o) m after uploads restoredAt := by
  have hmoves := advance_moves h.sound hcall hadvance
  rcases List.mem_append.mp hm with hold | hnew
  · obtain ⟨other, hother, hholds⟩ := h.commits m uploads restoredAt hold
    by_cases hmn : m = n
    · subst hmn
      obtain rfl := Option.some.inj (hcall.symm.trans hother)
      exact ⟨_, if_pos rfl, hholds.own_step hadvance (h.calls m call hcall) h.referenced hmoves⟩
    · exact ⟨other, (if_neg hmn).trans hother,
        hholds.other h.sound h.referenced hmoves (platform_change hadvance) (Ne.symm hmn)⟩
  · obtain ⟨act, hact, he⟩ := List.mem_map.mp hnew
    obtain ⟨rfl, rfl⟩ := Prod.mk.inj he
    rcases advance_effect hadvance with hidle | ⟨uploads', restoredAt', hphase, hended, hacts, hstore, hw⟩
    · exact absurd hact (hidle.acts _ _)
    · rw [hacts, List.mem_singleton] at hact
      injection hact with hu ht
      subst hu ht
      exact ⟨_, if_pos rfl,
        Holds.begins h.sound h.referenced hcall (h.calls _ call hcall) hphase hended hstore hmoves hw⟩

theorem Safe.calls_follow (h : Safe p₀ w) (hcall : w.calls n = some call) {action : RestoreAction ρ σ}
    (hadvance : w.advance call action = some o) {m : Nat} {after : RestoreCall ρ σ}
    (hm : (w.follow n call o).calls m = some after) : CallSafe (w.follow n call o) m after := by
  have hchange := platform_change hadvance
  by_cases hmn : m = n
  · subst hmn
    simp only [follow, if_true, Option.some.injEq] at hm
    subst hm
    have hsafe := h.calls m call hcall
    have hintact : call.archive.Intact := by
      apply hsafe.intact
      intro e he
      cases action <;> simp [advance, he] at hadvance
    exact ⟨fun _ => hintact,
      advance_holds hadvance hintact (fun hl => hl.change h.referenced hchange) hsafe.holds⟩
  · simp only [follow, if_neg hmn] at hm
    have hsafe := h.calls m after hm
    refine ⟨hsafe.intact, hsafe.holds.mono ?_ ?_ ?_⟩
    · exact fun _ _ hk => hk.moves h.sound (advance_moves h.sound hcall hadvance) (Ne.symm hmn)
    · rintro ⟨uploads, restoredAt, hc⟩
      exact ⟨uploads, restoredAt, List.mem_append_left _ hc⟩
    · exact fun hl => hl.change h.referenced hchange

theorem Safe.once_follow (h : Safe p₀ w) (hcall : w.calls n = some call) {action : RestoreAction ρ σ}
    (hadvance : w.advance call action = some o) {a b : Nat} {callA callB : RestoreCall ρ σ}
    (ha : Committed (w.follow n call o) a) (hb : Committed (w.follow n call o) b)
    (hcallA : (w.follow n call o).calls a = some callA) (hcallB : (w.follow n call o).calls b = some callB)
    (htenant : callA.archive.tenantId = callB.archive.tenantId) : a = b := by
  obtain ⟨beforeA, hbeforeA, heA⟩ := call_before hcall hcallA
  obtain ⟨beforeB, hbeforeB, heB⟩ := call_before hcall hcallB
  rw [← heA, ← heB] at htenant
  -- a tenant that was committed is there, so no other transaction found it vacant
  have hthere : ∀ c before, Committed w c → w.calls c = some before →
      before.archive.tenantId = call.archive.tenantId →
      w.platform.db.tenants.get call.archive.tenantId = none → False := by
    rintro c before ⟨uploads, restoredAt, hc⟩ hbefore he hvacant
    obtain ⟨other, hother, hholds⟩ := h.commits c uploads restoredAt hc
    obtain rfl := Option.some.inj (hbefore.symm.trans hother)
    have htenant := hholds.restored.tenant
    rw [he, hvacant] at htenant
    cases htenant
  rcases committed_follow hadvance ha with holdA | ⟨rfl, hvacant⟩
  · rcases committed_follow hadvance hb with holdB | ⟨rfl, hvacant⟩
    · exact h.once a b beforeA beforeB holdA holdB hbeforeA hbeforeB htenant
    · obtain rfl := Option.some.inj (hcall.symm.trans hbeforeB)
      exact (hthere a beforeA holdA hbeforeA htenant hvacant).elim
  · rcases committed_follow hadvance hb with holdB | ⟨rfl, -⟩
    · obtain rfl := Option.some.inj (hcall.symm.trans hbeforeA)
      exact (hthere b beforeB holdB hbeforeB htenant.symm hvacant).elim
    · rfl

theorem Safe.arrivals_follow (h : Safe p₀ w) (hcall : w.calls n = some call) {action : RestoreAction ρ σ}
    (hadvance : w.advance call action = some o) {tenantId : String}
    (hthere : (o.platform.db.tenants.get tenantId).isSome = true) :
    (p₀.db.tenants.get tenantId).isSome = true ∨
      ∃ m after, Committed (w.follow n call o) m ∧ (w.follow n call o).calls m = some after ∧
        after.archive.tenantId = tenantId := by
  have hbefore : ∀ hold : (w.platform.db.tenants.get tenantId).isSome = true,
      (p₀.db.tenants.get tenantId).isSome = true ∨ ∃ m after, Committed (w.follow n call o) m ∧
        (w.follow n call o).calls m = some after ∧ after.archive.tenantId = tenantId := by
    intro hold
    rcases h.arrivals tenantId hold with hstart | ⟨m, other, hcommitted, hother, htenant⟩
    · exact .inl hstart
    · obtain ⟨uploads, restoredAt, hm⟩ := hcommitted
      obtain ⟨after, hafter, he⟩ := call_stays hcall hother
      exact .inr ⟨m, after, ⟨uploads, restoredAt, List.mem_append_left _ hm⟩, hafter, by rw [he, htenant]⟩
  rcases advance_effect hadvance with hidle | ⟨uploads, restoredAt, -, -, hacts, -, hw⟩
  · rw [hidle.db] at hthere
    exact hbefore hthere
  · by_cases he : tenantId = call.archive.tenantId
    · refine .inr ⟨n, _, ⟨uploads, restoredAt, List.mem_append_right _ ?_⟩, if_pos rfl, he.symm⟩
      rw [hacts]
      exact List.mem_cons_self
    · rw [hw.tenant, Table.get_insert_other he] at hthere
      exact hbefore hthere

theorem Safe.follow (h : Safe p₀ w) (hcall : w.calls n = some call) {action : RestoreAction ρ σ}
    (hadvance : w.advance call action = some o) : Safe p₀ (w.follow n call o) where
  sound := (advance_moves h.sound hcall hadvance).sound h.sound
  referenced := h.referenced.change (platform_change hadvance)
  calls _ _ hm := h.calls_follow hcall hadvance hm
  commits _ _ _ hm := h.commits_follow hcall hadvance hm
  once _ _ _ _ ha hb hcallA hcallB he := h.once_follow hcall hadvance ha hb hcallA hcallB he
  arrivals _ hthere := h.arrivals_follow hcall hadvance hthere

/-- A call that begins holds nothing yet. -/
theorem share_begins (hnone : w.calls n = none) (raw : TenantBackupArchive ρ σ) (requestedBy : String) :
    share { w with calls := fun m => if m = n then some (begin raw requestedBy) else w.calls m } = share w := by
  have hheld : (begin raw requestedBy).held = [] := by
    rw [begin, RestoreCall.held]
    split
    · rfl
    · split <;> rfl
  rw [share, share, Share.mk.injEq]
  refine ⟨rfl, ?_, rfl, rfl⟩
  funext m
  by_cases hm : m = n
  · subst hm
    simp only [if_true, hnone, Option.elim_some, hheld, Option.elim_none]
  · simp only [if_neg hm]

theorem begin_safe (w : Restoring ρ σ) (n : Nat) (raw : TenantBackupArchive ρ σ) (requestedBy : String) :
    CallSafe w n (begin raw requestedBy) := by
  rw [begin]
  split
  · rename_i e _
    exact ⟨fun h => absurd rfl (h (.backup e)), trivial⟩
  · rename_i archive hverify
    split
    · exact ⟨fun _ => (verify_intact hverify).1, trivial⟩
    · exact ⟨fun h => absurd rfl (h _), trivial⟩

theorem Safe.begins (h : Safe p₀ w) (hnone : w.calls n = none) (raw : TenantBackupArchive ρ σ)
    (requestedBy : String) :
    Safe p₀ { w with calls := fun m => if m = n then some (begin raw requestedBy) else w.calls m } := by
  have hshare := share_begins hnone raw requestedBy
  have hcommitted : ∀ {m}, Committed w m → m ≠ n := by
    rintro m ⟨uploads, restoredAt, hm⟩ rfl
    obtain ⟨call, hcall, -⟩ := h.commits m uploads restoredAt hm
    rw [hnone] at hcall
    cases hcall
  exact
    { sound := hshare ▸ h.sound
      referenced := h.referenced
      calls := by
        intro m call hm
        dsimp only at hm
        split at hm
        · obtain rfl := Option.some.inj hm
          exact begin_safe _ m raw requestedBy
        · obtain ⟨hintact, hholds⟩ := h.calls m call hm
          exact ⟨hintact, hshare ▸ hholds⟩
      commits := by
        intro m uploads restoredAt hm
        obtain ⟨call, hcall, hholds⟩ := h.commits m uploads restoredAt hm
        refine ⟨call, (if_neg (hcommitted ⟨uploads, restoredAt, hm⟩)).trans hcall, ?_⟩
        exact ⟨hholds.intact, hholds.ended, hshare ▸ hholds.covers, hshare ▸ hholds.own, hholds.restored,
          hholds.ledger⟩
      once := by
        intro a b callA callB ha hb hcallA hcallB he
        have hcallA' := (if_neg (hcommitted ha)).symm.trans hcallA
        have hcallB' := (if_neg (hcommitted hb)).symm.trans hcallB
        exact h.once a b callA callB ha hb hcallA' hcallB' he
      arrivals := by
        intro tenantId hthere
        rcases h.arrivals tenantId hthere with hstart | ⟨m, call, hm, hcall, he⟩
        · exact .inl hstart
        · exact .inr ⟨m, call, hm, (if_neg (hcommitted hm)).trans hcall, he⟩ }

/-- Every step keeps the invariant. -/
theorem safe_step (action : Nat × RestoreAction ρ σ) (w : Restoring ρ σ) (h : Safe p₀ w) :
    Safe p₀ (step action w) := by
  rw [step]
  split
  · rename_i hnone
    split
    · exact h.begins hnone _ _
    · exact h
  · rename_i call hcall
    split
    · exact h
    · rename_i o hadvance
      exact h.follow hcall hadvance

theorem initial_safe (hp : Referenced p₀) (s : Objects.Store String) : Safe p₀ (initial p₀ s) where
  sound :=
    { present := fun _ _ _ h => (nomatch h)
      distinct := fun _ => List.nodup_nil
      apart := fun _ _ _ _ h => (nomatch h) }
  referenced := hp
  calls _ _ h := (nomatch h)
  commits _ _ _ h := (nomatch h)
  once _ _ _ _ h := (nomatch h)
  arrivals _ h := .inl h

/-- Every state of a run keeps the invariant. -/
theorem run_safe (hp : Referenced p₀) (s : Objects.Store String) (actions : List (Nat × RestoreAction ρ σ)) :
    Safe p₀ (run step actions (initial p₀ s)) :=
  run_keeps (fun w a => safe_step a w) (initial_safe hp s)

/-! ## What a call that restored a tenant can rely on -/

/-- The object that an entry of the uploads stands for. -/
def entryObject (archive : TenantBackupArchive ρ σ) (e : String × Uploaded) : Objects.Object :=
  (archive.objectOf (e.1, e.2.metadata.etag)).2

/-- What an export reads objects with. -/
def reader (s : Objects.Store String) : BlobReader := fun objectKey size => (Objects.get () objectKey size s).1

omit [ManifestHash ρ σ] [ResultDocument ρ] [RequestDocument σ] [ContentHash] in
theorem kept_entry {s : Share String} {archive : TenantBackupArchive ρ σ} {done : List ArtifactDescriptor}
    {uploads : Uploads} (h : Assembled s n archive done uploads) {e : String × Uploaded} (he : e ∈ uploads.rows) :
    Share.Kept s n e.1 (entryObject archive e) := by
  obtain ⟨body, hbody, hkept⟩ := (h.gathered e he).kept
  rw [entryObject, TenantBackupArchive.objectOf, hbody, Option.getD_some]
  exact hkept

/-- Objects that are there under the metadata of their uploads are read back as the bodies of the archive. -/
theorem stored_of_present {uploads : Uploads} {archive : TenantBackupArchive ρ σ} (hintact : archive.Intact)
    (hcovers : Assembled (share w) n archive archive.manifest.artifacts uploads)
    (hpresent : ∀ e ∈ uploads.rows, w.store.get e.1 = some (entryObject archive e)) :
    ReadBack (reader w.store) uploads archive := by
  intro a ha
  have hpath : a.objectKey ∈ uploads.rows.map Prod.fst := by
    rw [hcovers.paths]
    exact List.mem_map_of_mem ha
  obtain ⟨e, he, hkey⟩ := List.mem_map.mp hpath
  have hgathered := hcovers.gathered e he
  obtain ⟨body, hbody, hlength, -⟩ := hintact.body a ha
  have hsize : e.2.metadata.size = a.byteCount := by
    obtain ⟨a', ha', hkey', hsize'⟩ := hgathered.artifact
    obtain ⟨body', hbody', hlength', -⟩ := hintact.body a' ha'
    rw [hkey', hkey, hbody] at hbody'
    rw [hsize', ← hlength', ← Option.some.inj hbody', hlength]
  have hobject : w.store.get a.objectKey = some ⟨e.2.metadata.etag, body⟩ := by
    have hget := hpresent e he
    rw [entryObject, TenantBackupArchive.objectOf, hkey, hbody] at hget
    exact hget
  have hmetadata : e.2.metadata = Objects.Object.metadata a.objectKey ⟨e.2.metadata.etag, body⟩ := by
    have hpathname := hgathered.pathname
    rw [hkey] at hpathname
    rw [Objects.Object.metadata, hlength, ← hsize, ← hpathname]
  refine ⟨body, e.2, hbody, ?_, ?_, hgathered.pathname.trans hkey, hsize⟩
  · exact Table.get_eq_some.mpr (hkey ▸ he)
  · rw [reader, Objects.get, hobject]
    simp only [hlength, if_true]
    rw [← hmetadata]

/-- A tenant whose objects are all there is exported as it was restored. -/
theorem Holds.exports [Collation] {uploads : Uploads} {restoredAt : Instant} (h : Holds w n call uploads restoredAt)
    (hcanonical : call.archive.manifest.Canonical)
    (hpresent : ∀ e ∈ uploads.rows, w.store.get e.1 = some (entryObject call.archive e)) :
    buildArchive (reader w.store) w.platform call.archive.tenantId call.archive.manifest.createdAt =
      .ok call.archive :=
  (h.restored.exported h.intact hcanonical (stored_of_present h.intact h.covers hpresent)).buildArchive

/-- Calls that report the restore of one tenant, in whatever order the steps of all calls are taken, report
one archive, and at most one of them says that it wrote the tenant; where the tenant was not there before,
one call wrote it, and the tables have what its archive says. -/
theorem restores_agree {p : Platform ρ σ} (hp : Referenced p) (s : Objects.Store String)
    (actions : List (Nat × RestoreAction ρ σ)) (hw : w = run step actions (initial p s)) :
    (∀ n m call call' r r', w.calls n = some call → w.calls m = some call' → call.phase = .settled (.ok r) →
      call'.phase = .settled (.ok r') → r.tenantId = r'.tenantId →
        r.manifestSha256 = r'.manifestSha256 ∧ (r.restored = true → r'.restored = true → n = m)) ∧
    (∀ n call r, w.calls n = some call → call.phase = .settled (.ok r) → p.db.tenants.get r.tenantId = none →
      ∃ m call' uploads restoredAt, w.calls m = some call' ∧ (m, .committed uploads restoredAt) ∈ w.acts ∧
        call'.archive.tenantId = r.tenantId ∧ call'.archive.manifestSha256 = r.manifestSha256 ∧
        Restored call'.archive uploads restoredAt w.platform) ∧
    (∀ n m call call', Committed w n → Committed w m → w.calls n = some call → w.calls m = some call' →
      call.archive.tenantId = call'.archive.tenantId → n = m) := by
  have hsafe : Safe p w := hw ▸ run_safe hp s actions
  have hreport : ∀ n call r, w.calls n = some call → call.phase = .settled (.ok r) →
      r.tenantId = call.archive.tenantId ∧ (r.restored = true → Committed w n) ∧
        Ledger w.platform r.tenantId r.manifestSha256 := by
    intro n call r hcall hphase
    have hholds := (hsafe.calls n call hcall).holds
    rw [hphase] at hholds
    obtain ⟨restored, rfl, hwrote, hledger⟩ := hholds
    exact ⟨rfl, hwrote, hledger⟩
  refine ⟨?_, ?_, hsafe.once⟩
  · intro n m call call' r r' hcall hcall' hphase hphase' htenant
    obtain ⟨hid, hwrote, session, hget, hsha⟩ := hreport n call r hcall hphase
    obtain ⟨hid', hwrote', session', hget', hsha'⟩ := hreport m call' r' hcall' hphase'
    rw [htenant, hget'] at hget
    obtain rfl := Option.some.inj hget
    refine ⟨hsha.symm.trans hsha', fun hr hr' => ?_⟩
    exact hsafe.once n m call call' (hwrote hr) (hwrote' hr') hcall hcall' (by rw [← hid, ← hid', htenant])
  · intro n call r hcall hphase habsent
    obtain ⟨hid, -, session, hget, hsha⟩ := hreport n call r hcall hphase
    have hthere := hsafe.referenced.restoreSessions _ _ hget
    rcases hsafe.arrivals r.tenantId hthere with hstart | ⟨m, call', hm, hcall', he⟩
    · rw [habsent] at hstart
      cases hstart
    · obtain ⟨uploads, restoredAt, hcommit⟩ := hm
      obtain ⟨other, hother, hholds⟩ := hsafe.commits m uploads restoredAt hcommit
      obtain rfl := Option.some.inj (hcall'.symm.trans hother)
      obtain ⟨session', hget', hsha'⟩ := hholds.ledger
      rw [he, hget] at hget'
      obtain rfl := Option.some.inj hget'
      exact ⟨m, call', uploads, restoredAt, hcall', hcommit, he, hsha'.symm.trans hsha, hholds.restored⟩

/-- The objects of a tenant that a call wrote are its own. -/
structure Settled (p₀ : Platform ρ σ) (n : Nat) (archive : TenantBackupArchive ρ σ) (uploads : Uploads)
    (restoredAt : Instant) (w : Restoring ρ σ) : Prop where
  safe : Safe p₀ w
  committed : (n, .committed uploads restoredAt) ∈ w.acts
  call : ∃ call, w.calls n = some call ∧ call.archive = archive
  owned : ∀ e ∈ uploads.rows, Share.Owned (share w) n e.1 (entryObject archive e)

/-- A call keeps its archive. -/
theorem step_keeps_archive (action : Nat × RestoreAction ρ σ) (w : Restoring ρ σ) (hcall : w.calls n = some call) :
    ∃ after, (step action w).calls n = some after ∧ after.archive = call.archive := by
  rw [step]
  split
  · rename_i hnone
    have hne : n ≠ action.1 := by
      rintro rfl
      rw [hnone] at hcall
      cases hcall
    split
    · exact ⟨call, (if_neg hne).trans hcall, rfl⟩
    · exact ⟨call, hcall, rfl⟩
  · rename_i acting hacting
    split
    · exact ⟨call, hcall, rfl⟩
    · exact call_stays hacting hcall

theorem step_keeps_acts (action : Nat × RestoreAction ρ σ) (w : Restoring ρ σ) {act : Nat × RestoreAct}
    (h : act ∈ w.acts) : act ∈ (step action w).acts := by
  rw [step]
  split
  · split <;> exact h
  · split
    · exact h
    · exact List.mem_append_left _ h

theorem settled_step {archive : TenantBackupArchive ρ σ} {uploads : Uploads} {restoredAt : Instant}
    (action : Nat × RestoreAction ρ σ) (w : Restoring ρ σ) (h : Settled p₀ n archive uploads restoredAt w) :
    Settled p₀ n archive uploads restoredAt (step action w) := by
  obtain ⟨call, hcall, harchive⟩ := h.call
  obtain ⟨after, hafter, he⟩ := step_keeps_archive action w hcall
  refine ⟨safe_step action w h.safe, step_keeps_acts action w h.committed, ⟨after, hafter, he.trans harchive⟩, ?_⟩
  rw [step]
  split
  · rename_i hnone
    split
    · rw [share_begins hnone]
      exact h.owned
    · exact h.owned
  · rename_i acting hacting
    split
    · exact h.owned
    · rename_i o hadvance
      intro e hentry
      apply (h.owned e hentry).moves (advance_moves h.safe.sound hacting hadvance)
      rintro rfl
      obtain ⟨other, hother, hholds⟩ := h.safe.commits _ uploads restoredAt h.committed
      obtain rfl := Option.some.inj (hacting.symm.trans hother)
      exact (ended_advance hadvance hholds.ended (h.safe.calls _ acting hacting).holds hholds.restored).1

theorem step_calls_other (action : Nat × RestoreAction ρ σ) (w : Restoring ρ σ) (hne : n ≠ action.1) :
    (step action w).calls n = w.calls n := by
  rw [step]
  split
  · split
    · exact if_neg hne
    · rfl
  · split
    · rfl
    · exact if_neg hne

theorem run_calls_other (actions : List (Nat × RestoreAction ρ σ)) (w : Restoring ρ σ)
    (hn : n ∉ actions.map Prod.fst) : (run step actions w).calls n = w.calls n := by
  induction actions generalizing w with
  | nil => rfl
  | cons action rest ih =>
    rw [List.map_cons, List.mem_cons, not_or] at hn
    rw [run, ih _ hn.2, step_calls_other action w hn.1]

theorem run_keeps_archive (actions : List (Nat × RestoreAction ρ σ)) (w : Restoring ρ σ)
    (hcall : w.calls n = some call) :
    ∃ after, (run step actions w).calls n = some after ∧ after.archive = call.archive := by
  have hkeeps : ∀ (w : Restoring ρ σ) a, (∃ before, w.calls n = some before ∧ before.archive = call.archive) →
      ∃ after, (step a w).calls n = some after ∧ after.archive = call.archive := by
    rintro w a ⟨before, hbefore, he⟩
    obtain ⟨after, hafter, he'⟩ := step_keeps_archive a w hbefore
    exact ⟨after, hafter, he'.trans he⟩
  exact run_keeps hkeeps ⟨call, hcall, rfl⟩

end steps

end Restoring

end ReproForge

/-! ## Two restores of one backup -/

namespace ReproForge.Sample.Restores

open KeyedTable Runs Backups Restoring

/-- The second call finds the object, and then the tenant, of the first. -/
def atOnce : List (Nat × RestoreAction Empty Empty) :=
  [(0, .call backup "operator"), (1, .call backup "operator"), (0, .inspect true), (1, .inspect true),
    (0, .put .runs "etag-1"), (1, .put .runs "etag-2"), (1, .compare .runs), (0, .commit .runs (at' 4000)),
    (1, .commit .runs (at' 5000)), (0, .readLedger true), (1, .readLedger true), (0, .rebuild (.ok backup)),
    (1, .rebuild (.ok backup)), (0, .mark .runs (at' 6000)), (1, .mark .runs (at' 6000))]

def both : Restoring Empty Empty := run Restoring.step atOnce (initial target .empty)

/-- A third call, which comes after the first two. -/
def later : List (Nat × RestoreAction Empty Empty) :=
  [(2, .call backup "operator"), (2, .inspect true), (1, .commit .runs (at' 7000)), (2, .readLedger true)]

theorem both_run : both = run Restoring.step atOnce (initial target .empty) := rfl

def report (w : Restoring Empty Empty) (n : Nat) : Option TenantRestoreResult :=
  match w.calls n with
  | some ⟨_, _, .settled (.ok r)⟩ => some r
  | _ => none

def commitOf : Nat × RestoreAct → Option (Nat × List (String × Uploaded) × Instant)
  | (n, .committed uploads restoredAt) => some (n, uploads.rows, restoredAt)
  | _ => none

def removes : Nat × RestoreAct → Bool
  | (_, .removed _ _) => true
  | _ => false

theorem both_end : report both 0 = some (summary backup true) ∧ report both 1 = some (summary backup false) ∧
    both.acts.filterMap commitOf = [(0, uploads.rows, at' 4000)] ∧ both.acts.any removes = false := by
  decide +kernel

theorem report_some {w : Restoring Empty Empty} {n : Nat} {r : TenantRestoreResult} (h : report w n = some r) :
    ∃ call, w.calls n = some call ∧ call.phase = .settled (.ok r) := by
  rw [report] at h
  split at h
  · rename_i hcall
    cases h
    exact ⟨_, hcall, rfl⟩
  · cases h

theorem both_committed : (0, .committed uploads (at' 4000)) ∈ both.acts := by
  have hm : (0, uploads.rows, at' 4000) ∈ both.acts.filterMap commitOf := by
    rw [both_end.2.2.1]
    exact List.mem_cons_self
  obtain ⟨⟨n, act⟩, hact, he⟩ := List.mem_filterMap.mp hm
  cases act with
  | committed uploads' restoredAt =>
    obtain ⟨rfl, hcommit⟩ := Prod.mk.inj (Option.some.inj he)
    obtain ⟨hrows, rfl⟩ := Prod.mk.inj hcommit
    rwa [table_ext hrows] at hact
  | created _ _ => cases he
  | removed _ _ => cases he

theorem both_removed {n : Nat} {objectKey etag : String} : (n, .removed objectKey etag) ∉ both.acts := by
  intro hm
  have hany := both_end.2.2.2
  rw [List.any_eq_false] at hany
  exact hany _ hm rfl

/-- The first call, which wrote the tenant. -/
theorem both_first : ∃ call, both.calls 0 = some call ∧ call.archive = backup := by
  have hbegin : (begin backup "operator").archive = backup := by
    rw [begin, intact.verified]
    dsimp only
    split <;> rfl
  have hfirst : (Restoring.step (0, .call backup "operator") (initial target .empty)).calls 0 =
      some (begin backup "operator") := by simp [Restoring.step, initial]
  obtain ⟨call, hcall, he⟩ := run_keeps_archive atOnce.tail _ hfirst
  have hrun : both = run Restoring.step atOnce.tail
      (Restoring.step (0, .call backup "operator") (initial target .empty)) := by
    rw [both, atOnce, run, List.tail_cons]
  rw [← hrun] at hcall
  exact ⟨call, hcall, he.trans hbegin⟩

theorem canonical : backup.manifest.Canonical := exported.canonical

end ReproForge.Sample.Restores

namespace ReproForge.Restoring

open KeyedTable Runs Sample Sample.Backups Sample.Restores

theorem restores_agree_sample :
    report both 0 = some (summary backup true) ∧ report both 1 = some (summary backup false) ∧
      ∃ m call uploads restoredAt, both.calls m = some call ∧ (m, .committed uploads restoredAt) ∈ both.acts ∧
        call.archive.tenantId = "acme" ∧ call.archive.manifestSha256 = manifestSha256 ∧
        Restored call.archive uploads restoredAt both.platform := by
  refine ⟨both_end.1, both_end.2.1, ?_⟩
  obtain ⟨call, hcall, hphase⟩ := report_some both_end.1
  have habsent : target.db.tenants.get (summary backup true).tenantId = none := rfl
  exact (restores_agree target_consistent.toReferenced .empty atOnce both_run).2.1 0 call _ hcall hphase habsent

end ReproForge.Restoring
