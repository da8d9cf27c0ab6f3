import ReproForge.SharedObjects
import ReproForge.TenantRestores

/-!
# Restores at once

Any number of restores of any archives, each stopped by failures at any point: who
may delete which object, who commits a tenant, and what is in the tables after it.
-/
namespace ReproForge

open KeyedTable Transactions SharedObjects

variable {ρ σ : Type}

/-! ## What a call may delete -/

namespace RestorePhase

/-- The objects, by path and etag, that a call created and may still delete. -/
def holds : RestorePhase → List (String × String)
  | .uploading _ uploads | .comparing _ _ uploads | .committing uploads => createdOf uploads.rows
  | .discarding a etag uploads => createdOf uploads.rows ++ [(a.objectKey, etag)]
  | .removing objects _ => objects
  | .checking objectKey etag entries _ | .deleting objectKey etag entries _ => (objectKey, etag) :: createdOf entries
  | .inspecting | .verifying _ | .rebuilding _ | .marking _ | .settled _ => []

theorem createdOf_append (first second : List (String × Uploaded)) :
    createdOf (first ++ second) = createdOf first ++ createdOf second := by
  rw [createdOf, List.filter_append, List.map_append]
  rfl

theorem createdOf_insert (uploads : Uploads) (objectKey : String) (u : Uploaded) :
    List.Sublist (createdOf (uploads.insert objectKey u).rows)
      (createdOf uploads.rows ++ if u.created then [(objectKey, u.metadata.etag)] else []) := by
  cases hget : uploads.get objectKey with
  | some v =>
    rw [Table.insert_existing hget]
    exact List.sublist_append_left _ _
  | none =>
    rw [Table.rows_insert hget, createdOf_append]
    apply List.Sublist.append_left
    cases hcreated : u.created with
    | true => simp [createdOf, hcreated]
    | false => simp [createdOf, hcreated]

theorem holds_upload (rest : List ArtifactDescriptor) (uploads : Uploads) :
    (upload rest uploads).holds = createdOf uploads.rows := by
  rw [upload]
  split <;> rfl

theorem holds_abandon (uploads : Uploads) (error : BackupFailure) :
    (abandon uploads error).holds = createdOf uploads.rows := by
  rw [abandon]
  split
  · rename_i hempty
    rw [List.isEmpty_iff] at hempty
    rw [hempty]
    rfl
  · rfl

theorem holds_cleanup (entries : List (String × Uploaded)) (error : BackupFailure) :
    (cleanup entries error).holds = createdOf entries := by
  induction entries with
  | nil => rfl
  | cons e rest ih =>
    rw [cleanup, createdOf]
    cases hcreated : e.2.created with
    | true => simp [hcreated, holds, createdOf]
    | false => simp [hcreated, ih, createdOf]

theorem holds_uploaded (a : ArtifactDescriptor) (created : Bool) (metadata : Objects.Metadata String)
    (rest : List ArtifactDescriptor) (uploads : Uploads) :
    List.Sublist (uploaded a created metadata rest uploads).holds
      (createdOf uploads.rows ++ if created then [(a.objectKey, metadata.etag)] else []) := by
  rw [uploaded]
  split
  · rw [holds_upload]
    exact createdOf_insert uploads a.objectKey ⟨created, metadata⟩
  · cases created with
    | true => exact List.Sublist.refl _
    | false =>
      simp only [Bool.false_eq_true, if_false, List.append_nil, holds_abandon]
      exact List.Sublist.refl _

end RestorePhase

open RestorePhase

/-- An object as the archive of a call has it. -/
def TenantBackupArchive.objectOf (archive : TenantBackupArchive ρ σ) (x : String × String) : String × Objects.Object :=
  (x.1, ⟨x.2, (archive.objects.get x.1).getD []⟩)

def RestoreCall.held (call : RestoreCall ρ σ) : List (String × Objects.Object) :=
  call.phase.holds.map call.archive.objectOf

namespace Restoring

def share (w : Restoring ρ σ) : Share String where
  store := w.store
  held n := (w.calls n).elim [] RestoreCall.held
  created n objectKey etag := (n, .created objectKey etag) ∈ w.acts
  removed n objectKey etag := (n, .removed objectKey etag) ∈ w.acts

variable {w : Restoring ρ σ} {n : Nat} {call : RestoreCall ρ σ} {o : Outcome ρ σ}

theorem share_held (hcall : w.calls n = some call) : (share w).held n = call.phase.holds.map call.archive.objectOf := by
  simp only [share, hcall, Option.elim_some, RestoreCall.held]

theorem follow_held : (share (w.follow n call o)).held n = o.phase.holds.map call.archive.objectOf := by
  simp only [share, follow, if_true, Option.elim_some, RestoreCall.held]

theorem follow_passes : Share.Passes n (share w) (share (w.follow n call o)) where
  others m hm := by simp only [share, follow, if_neg hm]
  created _ _ _ h := List.mem_append_left _ h
  removed _ _ _ h := List.mem_append_left _ h

/-- A step that leaves the store alone and may delete no more than before. -/
theorem follow_quiet (hcall : w.calls n = some call) (hstore : o.store = w.store)
    (hholds : List.Sublist o.phase.holds call.phase.holds) : Share.Moves n (share w) (share (w.follow n call o)) := by
  apply Share.Moves.quiet follow_passes hstore
  rw [follow_held, share_held hcall]
  exact hholds.map _

theorem removal_moves (hcall : w.calls n = some call) {objectKey etag : String}
    {fate : Objects.Fate} {phase : RestorePhase} (hheld : (objectKey, etag) ∈ call.phase.holds)
    (hholds : List.Sublist phase.holds call.phase.holds) (hgone : objectKey ∉ phase.holds.map Prod.fst) :
    Share.Moves n (share w) (share (w.follow n call (w.removal objectKey etag fate phase))) := by
  by_cases hfate : fate = .failsBefore
  · subst hfate
    exact follow_quiet hcall rfl hholds
  · have hstore : (w.removal objectKey etag fate phase).store =
        ((Objects.delete false objectKey (some etag) w.store : Except Unit Bool × _)).2 := by
      cases fate with
      | runs => rfl
      | failsBefore => exact absurd rfl hfate
      | failsAfter => rfl
    refine Share.Moves.removes objectKey (call.archive.objectOf (objectKey, etag)).2 follow_passes ?_ ?_ ?_ ?_ ?_
    · rw [share_held hcall]
      exact List.mem_map_of_mem hheld
    · intro k hk
      change (w.removal objectKey etag fate phase).store.get k = w.store.get k
      rw [hstore]
      exact Objects.delete_other hk
    · rw [follow_held, share_held hcall]
      exact hholds.map _
    · rw [follow_held, List.map_map]
      exact hgone
    · apply List.mem_append_right
      simp [removal, hfate, TenantBackupArchive.objectOf]

/-- The paths of what a call may delete are distinct. -/
theorem holds_nodup (hs : Share.Sound (share w)) (hcall : w.calls n = some call) :
    (call.phase.holds.map Prod.fst).Nodup := by
  have hd := hs.distinct n
  rw [share_held hcall, List.map_map] at hd
  exact hd

theorem put_moves (hcall : w.calls n = some call) {a : ArtifactDescriptor} {rest : List ArtifactDescriptor}
    {uploads : Uploads} (hphase : call.phase = .uploading (a :: rest) uploads) (fate : Objects.Fate) (etag : String) :
    Share.Moves n (share w) (share (w.follow n call (w.putObject call.archive a rest uploads fate etag))) := by
  have hholds : call.phase.holds = createdOf uploads.rows := by rw [hphase]; rfl
  cases hbody : call.archive.objects.get a.objectKey with
  | none =>
    apply follow_quiet hcall
    · simp only [putObject, hbody, goes]
    · simp only [putObject, hbody, goes, holds_abandon, hholds]
      exact List.Sublist.refl _
  | some body =>
    cases hget : w.store.get a.objectKey with
    | some old =>
      -- the path is taken, so nothing is written whatever becomes of the call
      have hout : w.putObject call.archive a rest uploads fate etag = w.goes (.comparing a rest uploads) := by
        cases fate <;> simp [putObject, hbody, hget, Objects.put, Objects.Fate.call, goes]
      rw [hout]
      apply follow_quiet hcall rfl
      rw [hholds]
      exact List.Sublist.refl _
    | none =>
      have hcreates : ∀ phase, List.Sublist (holds phase) (createdOf uploads.rows ++ [(a.objectKey, etag)]) →
          Share.Moves n (share w) (share (w.follow n call
            ⟨phase, w.platform, w.store.insert a.objectKey ⟨etag, body⟩, [.created a.objectKey etag]⟩)) := by
        intro phase hsub
        refine Share.Moves.creates a.objectKey ⟨etag, body⟩ follow_passes hget rfl ?_ ?_
        · rw [follow_held, share_held hcall, hholds]
          have hmap := hsub.map call.archive.objectOf
          rw [List.map_append] at hmap
          simpa [TenantBackupArchive.objectOf, hbody] using hmap
        · exact List.mem_append_right _ List.mem_cons_self
      cases fate with
      | runs =>
        have hout : w.putObject call.archive a rest uploads .runs etag =
            ⟨.uploaded a true (Objects.Object.metadata a.objectKey ⟨etag, body⟩) rest uploads, w.platform,
              w.store.insert a.objectKey ⟨etag, body⟩, [.created a.objectKey etag]⟩ := by
          simp [putObject, hbody, hget, Objects.put, Objects.Fate.call]
        rw [hout]
        apply hcreates
        have hsub := holds_uploaded a true (Objects.Object.metadata a.objectKey ⟨etag, body⟩) rest uploads
        rw [if_pos rfl] at hsub
        exact hsub
      | failsBefore =>
        have hout : w.putObject call.archive a rest uploads .failsBefore etag = w.goes (.comparing a rest uploads) := by
          simp [putObject, hbody, hget, Objects.Fate.call, goes]
        rw [hout]
        apply follow_quiet hcall rfl
        rw [hholds]
        exact List.Sublist.refl _
      | failsAfter =>
        have hout : w.putObject call.archive a rest uploads .failsAfter etag =
            ⟨.comparing a rest uploads, w.platform, w.store.insert a.objectKey ⟨etag, body⟩,
              [.created a.objectKey etag]⟩ := by
          simp [putObject, hbody, hget, Objects.put, Objects.Fate.call]
        rw [hout]
        apply hcreates
        exact List.sublist_append_left _ _

theorem compare_holds (archive : TenantBackupArchive ρ σ) (a : ArtifactDescriptor) (rest : List ArtifactDescriptor)
    (uploads : Uploads) (fate : Objects.Fate) :
    List.Sublist (w.compareObject archive a rest uploads fate).holds (createdOf uploads.rows) := by
  have habandon : ∀ error, List.Sublist (abandon uploads error).holds (createdOf uploads.rows) := by
    intro error
    rw [holds_abandon]
  rw [compareObject]
  split
  · split
    · rename_i metadata _ _ _ _
      have hsub := holds_uploaded a false metadata rest uploads
      simp only [Bool.false_eq_true, if_false, List.append_nil] at hsub
      exact hsub
    · exact habandon _
  · exact habandon _

theorem commit_outcome (archive : TenantBackupArchive ρ σ) (requestedBy : String) (uploads : Uploads)
    (fate : Objects.Fate) (restoredAt : Instant) :
    (w.commitRestore archive requestedBy uploads fate restoredAt).store = w.store ∧
      ((∃ restored, (w.commitRestore archive requestedBy uploads fate restoredAt).phase = .verifying restored) ∨
        ∃ error, (w.commitRestore archive requestedBy uploads fate restoredAt).phase = cleanup uploads.rows error) := by
  rw [commitRestore]
  split
  · exact ⟨rfl, .inl ⟨_, rfl⟩⟩
  · exact ⟨rfl, .inr ⟨_, rfl⟩⟩

theorem marked_outcome (archive : TenantBackupArchive ρ σ) (restored : Bool) (fate : Objects.Fate) (now : Instant) :
    (w.marked archive restored fate now).store = w.store ∧
      ∃ result, (w.marked archive restored fate now).phase = .settled result := by
  rw [marked]
  split
  · exact ⟨rfl, _, rfl⟩
  · exact ⟨rfl, _, rfl⟩

/-- What a step of a call does to the objects. -/
theorem advance_moves (hs : Share.Sound (share w)) (hcall : w.calls n = some call) {action : RestoreAction ρ σ}
    (h : w.advance call action = some o) : Share.Moves n (share w) (share (w.follow n call o)) := by
  have hnodup := holds_nodup hs hcall
  cases action with
  | call raw requestedBy => cases h
  | inspect answers =>
    simp only [advance] at h
    split at h
    · rename_i hphase
      cases h
      apply follow_quiet hcall rfl
      have hnone : (w.inspected call.archive answers).holds = [] := by
        rw [inspected]
        split
        · rfl
        · split
          · rw [holds_upload]
            rfl
          · split <;> rfl
      rw [goes, hnone]
      exact List.nil_sublist _
    · cases h
  | put fate etag =>
    simp only [advance] at h
    split at h
    · rename_i a rest uploads hphase
      cases h
      exact put_moves hcall hphase fate etag
    · cases h
  | compare fate =>
    simp only [advance] at h
    split at h
    · rename_i a rest uploads hphase
      cases h
      apply follow_quiet hcall rfl
      rw [hphase]
      exact compare_holds call.archive a rest uploads fate
    · cases h
  | discard fate =>
    simp only [advance] at h
    split at h
    · rename_i a etag uploads hphase
      cases h
      rw [hphase] at hnodup
      have hlast : a.objectKey ∉ (createdOf uploads.rows).map Prod.fst := by
        intro hm
        rw [holds, List.map_append] at hnodup
        exact (List.nodup_append.mp hnodup).2.2 _ hm _ List.mem_cons_self rfl
      apply removal_moves hcall
      · rw [hphase]
        exact List.mem_append_right _ List.mem_cons_self
      · rw [holds_abandon, hphase]
        exact List.sublist_append_left _ _
      · rw [holds_abandon]
        exact hlast
    · cases h
  | remove objectKey fate =>
    simp only [advance] at h
    split at h
    · rename_i objects error hphase
      obtain ⟨x, hx, rfl⟩ := Option.map_eq_some_iff.mp h
      have hkey : x.1 = objectKey := by simpa using List.find?_some hx
      have hleft : holds (if (objects.filter fun o => o.1 != objectKey).isEmpty then .settled (.error error)
          else .removing (objects.filter fun o => o.1 != objectKey) error) =
            objects.filter fun o => o.1 != objectKey := by
        split
        · rename_i hempty
          rw [List.isEmpty_iff.mp hempty]
          rfl
        · rfl
      apply removal_moves hcall
      · rw [hphase]
        exact hkey ▸ List.mem_of_find?_eq_some hx
      · rw [hleft, hphase]
        exact List.filter_sublist
      · rw [hleft]
        intro hm
        obtain ⟨y, hy, he⟩ := List.mem_map.mp hm
        have hne := (List.mem_filter.mp hy).2
        rw [he] at hne
        simp at hne
    · cases h
  | commit fate restoredAt =>
    simp only [advance] at h
    split at h
    · rename_i uploads hphase
      cases h
      obtain ⟨hstore, ⟨restored, hnext⟩ | ⟨error, hnext⟩⟩ :=
        commit_outcome call.archive call.requestedBy uploads fate restoredAt
      · apply follow_quiet hcall hstore
        rw [hnext]
        exact List.nil_sublist _
      · apply follow_quiet hcall hstore
        rw [hnext, holds_cleanup, hphase]
        exact List.Sublist.refl _
    · cases h
  | check answers =>
    simp only [advance] at h
    split at h
    · rename_i objectKey etag entries error hphase
      cases h
      apply follow_quiet hcall rfl
      rw [hphase, goes]
      dsimp only
      split
      · exact List.Sublist.refl _
      · rw [holds_cleanup]
        exact List.sublist_cons_self _ _
    · cases h
  | delete fate =>
    simp only [advance] at h
    split at h
    · rename_i objectKey etag entries error hphase
      cases h
      rw [hphase] at hnodup
      apply removal_moves hcall
      · rw [hphase]
        exact List.mem_cons_self
      · rw [holds_cleanup, hphase]
        exact List.sublist_cons_self _ _
      · rw [holds_cleanup]
        exact (List.nodup_cons.mp hnodup).1
    · cases h
  | readLedger answers =>
    simp only [advance] at h
    split at h
    · cases h
      apply follow_quiet hcall rfl
      have hnone : (w.ledgerRead call.archive ‹Bool› answers).holds = [] := by
        rw [ledgerRead]
        split
        · rfl
        · split <;> rfl
      rw [goes, hnone]
      exact List.nil_sublist _
    · cases h
  | rebuild reply =>
    simp only [advance] at h
    split at h
    · rename_i restored hphase
      cases h
      apply follow_quiet hcall rfl
      have hnone : (rebuilt call.archive restored reply).holds = [] := by
        cases reply with
        | error e => rfl
        | ok archive =>
          rw [rebuilt]
          split <;> rfl
      rw [goes, hnone]
      exact List.nil_sublist _
    · cases h
  | mark fate now =>
    simp only [advance] at h
    split at h
    · rename_i restored hphase
      cases h
      obtain ⟨hstore, result, hnext⟩ := marked_outcome (w := w) call.archive restored fate now
      apply follow_quiet hcall hstore
      rw [hnext]
      exact List.nil_sublist _
    · cases h

end Restoring

/-! ## What the tables keep -/

section tables

variable {archive other : TenantBackupArchive ρ σ} {requestedBy : String} {uploads uploads' : Uploads}
  {restoredAt restoredAt' : Instant} {p p' : Platform ρ σ}

theorem foreign_keys {κ τ α : Type} {items : List α} {entry : α → κ × τ} {p : κ → τ → Bool}
    (h : ∀ a ∈ items, p (entry a).1 (entry a).2 = false) : ∀ row ∈ items.map entry, p row.1 row.2 = false := by
  intro row hrow
  obtain ⟨a, ha, rfl⟩ := List.mem_map.mp hrow
  exact h a ha

/-- A restored tenant is as it was after the restore of another one. -/
theorem Restored.written (h : Restored archive uploads restoredAt p)
    (hw : Written other requestedBy uploads' restoredAt' p p') : Restored archive uploads restoredAt p' := by
  have hne : archive.tenantId ≠ other.tenantId := by
    intro he
    have hvacant := hw.vacant
    rw [← he, h.tenant] at hvacant
    cases hvacant
  have hforeign : (other.tenantId == archive.tenantId) = false := beq_false_of_ne (Ne.symm hne)
  exact
    { tenant := by rw [hw.tenant, Table.get_insert_other hne, h.tenant]
      cases := by rw [select_kept hw.cases (foreign_keys fun _ _ => hforeign), h.cases]
      jobs := by rw [select_kept hw.jobs (foreign_keys fun _ _ => hforeign), h.jobs]
      idempotencyKeys := by
        rw [select_kept hw.idempotencyKeys (foreign_keys fun _ _ => hforeign), h.idempotencyKeys]
      runEvidence := by rw [select_kept hw.runEvidence (foreign_keys fun _ _ => hforeign), h.runEvidence]
      artifacts := by rw [select_kept hw.artifacts (foreign_keys fun _ _ => hforeign), h.artifacts] }

theorem get_of_appended {κ τ α : Type} [DecidableEq κ] {t t' : Table κ τ} {items : List α} {entry : α → κ × τ}
    (h : t'.rows = t.rows ++ items.map entry) {k : κ} {r : τ} (hget : t'.get k = some r) :
    t.get k = some r ∨ ∃ a ∈ items, entry a = (k, r) := by
  have hm := Table.get_eq_some.mp hget
  rw [h, List.mem_append] at hm
  rcases hm with hm | hm
  · exact .inl (Table.get_eq_some.mpr hm)
  · exact .inr (List.mem_map.mp hm)

/-- A restore leaves no row without its tenant. -/
theorem Written.referenced (hw : Written archive requestedBy uploads restoredAt p p') (h : Referenced p) :
    Referenced p' := by
  have hold : ∀ {id : String}, (p.db.tenants.get id).isSome = true → (p'.db.tenants.get id).isSome = true := by
    intro id hid
    obtain ⟨t, ht⟩ := Option.isSome_iff_exists.mp hid
    rw [hw.tenant, Table.get_insert_some ht]
    rfl
  have hnew : (p'.db.tenants.get archive.tenantId).isSome = true := by
    rw [hw.tenant, Table.get_insert_self hw.vacant]
    rfl
  exact
    { cases := by
        intro k c hk
        rcases get_of_appended hw.cases hk with hk | ⟨r, -, he⟩
        · exact hold (h.cases k c hk)
        · exact (Prod.mk.inj he).1 ▸ hnew
      jobs := by
        intro k j hk
        rcases get_of_appended hw.jobs hk with hk | ⟨r, -, he⟩
        · exact hold (h.jobs k j hk)
        · exact (Prod.mk.inj he).1 ▸ hnew
      idempotencyKeys := by
        intro k i hk
        rcases get_of_appended hw.idempotencyKeys hk with hk | ⟨r, -, he⟩
        · exact hold (h.idempotencyKeys k i hk)
        · exact (Prod.mk.inj he).1 ▸ hnew
      runEvidence := by
        intro k e hk
        rcases get_of_appended hw.runEvidence hk with hk | ⟨r, -, he⟩
        · exact hold (h.runEvidence k e hk)
        · exact (Prod.mk.inj he).1 ▸ hnew
      artifacts := by
        intro k a hk
        rcases get_of_appended hw.artifacts hk with hk | ⟨r, -, he⟩
        · exact hold (h.artifacts k a hk)
        · exact (Prod.mk.inj he).1 ▸ hnew
      restoreSessions := by
        intro id r hid
        by_cases he : id = archive.tenantId
        · rw [he]
          exact hnew
        · rw [hw.sessions id he] at hid
          exact hold (h.restoreSessions id r hid) }

/-- The ledger says of a tenant under which hash it was restored. -/
def Ledger (p : Platform ρ σ) (tenantId manifestSha256 : String) : Prop :=
  ∃ session, p.restoreSessions.get tenantId = some session ∧ session.backupSha256 = manifestSha256

/-- What a step of a call does to the database. -/
inductive PlatformChange (p p' : Platform ρ σ) : Prop where
  | none (h : p' = p)
  | restored (archive : TenantBackupArchive ρ σ) (requestedBy : String) (uploads : Uploads) (restoredAt : Instant)
      (h : Written archive requestedBy uploads restoredAt p p')
  | marked (archive : TenantBackupArchive ρ σ) (now : Instant) (h : p' = (markVerified archive now p).2)

theorem markVerified_kept (archive : TenantBackupArchive ρ σ) (now : Instant) (p : Platform ρ σ) :
    (markVerified archive now p).2.db = p.db ∧ (markVerified archive now p).2.runEvidence = p.runEvidence := by
  rw [markVerified]
  split
  · exact ⟨rfl, rfl⟩
  · split
    · exact ⟨rfl, rfl⟩
    · exact ⟨rfl, rfl⟩

theorem markVerified_session (archive : TenantBackupArchive ρ σ) (now : Instant) (p : Platform ρ σ) (id : String) :
    ((markVerified archive now p).2.restoreSessions.get id).map RestoreSessionRow.backupSha256 =
      (p.restoreSessions.get id).map RestoreSessionRow.backupSha256 := by
  cases hget : p.restoreSessions.get archive.tenantId with
  | none => simp only [markVerified, hget]
  | some session =>
    simp only [markVerified, hget]
    split
    · by_cases hid : id = archive.tenantId
      · subst hid
        rw [show Table.get (Table.set p.restoreSessions archive.tenantId _) archive.tenantId = _ from
          Table.get_set_self hget, hget]
        rfl
      · rw [show Table.get (Table.set p.restoreSessions archive.tenantId _) id = _ from Table.get_set_other _ _ hid]
    · rfl

theorem Ledger.change {tenantId manifestSha256 : String} (h : Ledger p tenantId manifestSha256) (href : Referenced p)
    (hc : PlatformChange p p') : Ledger p' tenantId manifestSha256 := by
  obtain ⟨session, hget, hsha⟩ := h
  cases hc with
  | none h => exact ⟨session, by rw [h, hget], hsha⟩
  | restored archive _ _ _ hw =>
    have hne : tenantId ≠ archive.tenantId := by
      intro he
      have hthere := href.restoreSessions tenantId session hget
      rw [he, hw.vacant] at hthere
      cases hthere
    exact ⟨session, by rw [hw.sessions tenantId hne, hget], hsha⟩
  | marked archive now h =>
    have hmap := markVerified_session archive now p tenantId
    rw [hget, Option.map_some, ← h, Option.map_eq_some_iff] at hmap
    obtain ⟨session', hget', hsha'⟩ := hmap
    exact ⟨session', hget', hsha'.trans hsha⟩

theorem Referenced.change (h : Referenced p) (hc : PlatformChange p p') : Referenced p' := by
  cases hc with
  | none he => exact he ▸ h
  | restored _ _ _ _ hw => exact hw.referenced h
  | marked archive now he =>
    obtain ⟨hdb, hevidence⟩ := markVerified_kept archive now p
    rw [← he] at hdb hevidence
    constructor
    case restoreSessions =>
      intro id r hid
      have hmap := markVerified_session archive now p id
      rw [← he, hid, Option.map_some] at hmap
      obtain ⟨session, hget, -⟩ := Option.map_eq_some_iff.mp hmap.symm
      rw [hdb]
      exact h.restoreSessions id session hget
    all_goals rw [hdb]
    · exact h.cases
    · exact h.jobs
    · exact h.idempotencyKeys
    · rw [hevidence]
      exact h.runEvidence
    · exact h.artifacts

theorem Restored.change (h : Restored archive uploads restoredAt p) (hc : PlatformChange p p') :
    Restored archive uploads restoredAt p' := by
  cases hc with
  | none he => exact he ▸ h
  | restored _ _ _ _ hw => exact h.written hw
  | marked archive now he =>
    obtain ⟨hdb, hevidence⟩ := markVerified_kept archive now p
    rw [← he] at hdb hevidence
    exact
      { tenant := by rw [hdb, h.tenant]
        cases := by rw [hdb, h.cases]
        jobs := by rw [hdb, h.jobs]
        idempotencyKeys := by rw [hdb, h.idempotencyKeys]
        runEvidence := by rw [hevidence, h.runEvidence]
        artifacts := by rw [hdb, h.artifacts] }

end tables

namespace Restoring

variable {w : Restoring ρ σ} {n : Nat} {call : RestoreCall ρ σ} {o : Outcome ρ σ}

/-! ## What a step does to the tables -/

/-- Where a call goes on after its transaction. -/
def RestorePhase.ended : RestorePhase → Prop
  | .checking _ _ _ _ | .verifying _ | .rebuilding _ | .marking _ | .settled _ => True
  | _ => False

theorem ended_cleanup (entries : List (String × Uploaded)) (error : BackupFailure) :
    RestorePhase.ended (cleanup entries error) := by
  induction entries with
  | nil => trivial
  | cons e rest ih =>
    rw [cleanup]
    split
    · trivial
    · exact ih

/-- What becomes of a transaction: either it did nothing, or it wrote the tenant. -/
theorem commit_effect (archive : TenantBackupArchive ρ σ) (requestedBy : String) (uploads : Uploads)
    (fate : Objects.Fate) (restoredAt : Instant)
    (ho : o = w.commitRestore archive requestedBy uploads fate restoredAt) :
    (o.platform = w.platform ∧ o.acts = []) ∨
      Written archive requestedBy uploads restoredAt w.platform o.platform ∧
        o.acts = [.committed uploads restoredAt] := by
  cases hrun : restoreTransaction archive requestedBy uploads restoredAt w.platform with
  | mk reply p' =>
    have hreply : (restoreTransaction archive requestedBy uploads restoredAt w.platform).1 = reply := by rw [hrun]
    cases reply with
    | error e =>
      have hatomic : atomically (restoreTransaction archive requestedBy uploads restoredAt) w.platform =
          (.error e, w.platform) := by rw [atomically, hrun]
      left
      subst ho
      cases fate <;> simp [commitRestore, commitActs, Objects.Fate.call, hatomic, hreply]
    | ok restored =>
      have hatomic : atomically (restoreTransaction archive requestedBy uploads restoredAt) w.platform =
          (.ok restored, p') := atomically_ok.mpr hrun
      cases restored with
      | false =>
        obtain ⟨hsame, -⟩ := restoreTransaction_false hrun
        left
        subst ho
        cases fate <;> simp [commitRestore, commitActs, Objects.Fate.call, hatomic, hreply, hsame]
      | true =>
        have hwritten := restoreTransaction_true hrun
        subst ho
        cases fate with
        | failsBefore =>
          left
          simp [commitRestore, commitActs, Objects.Fate.call]
        | runs =>
          right
          simp [commitRestore, commitActs, Objects.Fate.call, hatomic, hreply, hwritten]
        | failsAfter =>
          right
          simp [commitRestore, commitActs, Objects.Fate.call, hatomic, hreply, hwritten]

/-- A step other than that of a transaction commits nothing. -/
structure Idle (w : Restoring ρ σ) (o : Outcome ρ σ) : Prop where
  platform : PlatformChange w.platform o.platform
  db : o.platform.db = w.platform.db
  acts : ∀ uploads restoredAt, .committed uploads restoredAt ∉ o.acts

theorem idle_goes (phase : RestorePhase) : Idle w (w.goes phase) := ⟨.none rfl, rfl, fun _ _ h => (nomatch h)⟩

theorem idle_removal (objectKey etag : String) (fate : Objects.Fate) (phase : RestorePhase) :
    Idle w (w.removal objectKey etag fate phase) := by
  refine ⟨.none rfl, rfl, ?_⟩
  intro uploads restoredAt hm
  rw [removal] at hm
  dsimp only at hm
  split at hm
  · cases hm
  · simp at hm

theorem idle_put (archive : TenantBackupArchive ρ σ) (a : ArtifactDescriptor) (rest : List ArtifactDescriptor)
    (uploads : Uploads) (fate : Objects.Fate) (etag : String) :
    Idle w (w.putObject archive a rest uploads fate etag) := by
  have hacts : ∀ (b : Prop) [Decidable b] (uploads' : Uploads) (restoredAt : Instant),
      RestoreAct.committed uploads' restoredAt ∉ (if b then [] else [RestoreAct.created a.objectKey etag]) := by
    intro b _ uploads' restoredAt hm
    split at hm
    · cases hm
    · simp at hm
  rw [putObject]
  split
  · exact idle_goes _
  · dsimp only
    split
    · exact ⟨.none rfl, rfl, hacts _⟩
    · exact ⟨.none rfl, rfl, hacts _⟩

theorem idle_marked (archive : TenantBackupArchive ρ σ) (restored : Bool) (fate : Objects.Fate) (now : Instant) :
    Idle w (w.marked archive restored fate now) := by
  have hplatform : (w.marked archive restored fate now).platform = w.platform ∨
      (w.marked archive restored fate now).platform = (markVerified archive now w.platform).2 := by
    cases fate with
    | failsBefore => exact .inl rfl
    | runs =>
      right
      rw [marked]
      split
      · rename_i p hm
        rw [show markVerified archive now w.platform = (.ok _, p) from hm]
      · rename_i p hm
        rw [show markVerified archive now w.platform = (.error _, p) from hm]
    | failsAfter => exact .inr rfl
  have hacts : ∀ uploads restoredAt,
      .committed uploads restoredAt ∉ (w.marked archive restored fate now).acts := by
    rw [marked]
    split
    · exact fun _ _ h => (nomatch h)
    · exact fun _ _ h => (nomatch h)
  rcases hplatform with hsame | hmarked
  · exact ⟨.none hsame, congrArg Platform.db hsame, hacts⟩
  · refine ⟨.marked archive now hmarked, ?_, hacts⟩
    rw [hmarked]
    exact (markVerified_kept archive now w.platform).1

/-- Every step is idle but for that of a transaction that wrote the tenant of its call. -/
theorem advance_effect {action : RestoreAction ρ σ} (h : w.advance call action = some o) :
    Idle w o ∨ ∃ uploads restoredAt, call.phase = .committing uploads ∧ RestorePhase.ended o.phase ∧
      o.acts = [.committed uploads restoredAt] ∧ o.store = w.store ∧
      Written call.archive call.requestedBy uploads restoredAt w.platform o.platform := by
  cases action with
  | call raw requestedBy => cases h
  | commit fate restoredAt =>
    simp only [advance] at h
    split at h
    · rename_i uploads hphase
      have ho := (Option.some.inj h).symm
      obtain ⟨hstore, hnext⟩ := commit_outcome (w := w) call.archive call.requestedBy uploads fate restoredAt
      rcases commit_effect call.archive call.requestedBy uploads fate restoredAt ho with ⟨hp, hacts⟩ | ⟨hw, hacts⟩
      · left
        refine ⟨.none hp, congrArg Platform.db hp, ?_⟩
        rw [hacts]
        exact fun _ _ h => (nomatch h)
      · right
        refine ⟨uploads, restoredAt, hphase, ?_, hacts, ho ▸ hstore, hw⟩
        rw [ho]
        rcases hnext with ⟨restored, hnext⟩ | ⟨error, hnext⟩
        · rw [hnext]
          trivial
        · rw [hnext]
          exact ended_cleanup _ _
    · cases h
  | inspect answers | compare fate | check answers | readLedger answers | rebuild reply =>
    left
    simp only [advance] at h
    split at h
    · cases h
      exact idle_goes _
    · cases h
  | put fate etag =>
    left
    simp only [advance] at h
    split at h
    · cases h
      exact idle_put _ _ _ _ _ _
    · cases h
  | discard fate | delete fate =>
    left
    simp only [advance] at h
    split at h
    · cases h
      exact idle_removal _ _ _ _
    · cases h
  | remove objectKey fate =>
    left
    simp only [advance] at h
    split at h
    · obtain ⟨x, -, rfl⟩ := Option.map_eq_some_iff.mp h
      exact idle_removal _ _ _ _
    · cases h
  | mark fate now =>
    left
    simp only [advance] at h
    split at h
    · cases h
      exact idle_marked _ _ _ _
    · cases h

end Restoring

end ReproForge
