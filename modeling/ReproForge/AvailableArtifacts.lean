import ReproForge.ArtifactClaims
import ReproForge.System

/-!
# Available artifacts are present

A row is `AVAILABLE` only while the object that it describes is in the store,
as long as the provider and the database report what they did: each call that
holds a row knows the row, and the call that is about to make it available knows
the object.
-/
namespace ReproForge

open KeyedTable Transactions Transactions.Tx

variable {ρ σ : Type} [ContentHash]

/-! ## What a call knows -/

/-- The row is still at this version. -/
def Holds (rows : Table Key ArtifactRow) (d : ArtifactDescriptor) (version : Nat) (known : ArtifactRow → Prop) :
    Prop :=
  ∃ a, rows.get d.key = some a ∧ a.version = version ∧ rowDescriptor d.key a = some d ∧ known a

/-- The row was at this version, and if it still is, this is known of it. -/
def AsRead (rows : Table Key ArtifactRow) (d : ArtifactDescriptor) (version : Nat)
    (known : ArtifactRow → Prop) : Prop :=
  ∃ a, rows.get d.key = some a ∧ version ≤ a.version ∧
    (a.version = version → rowDescriptor d.key a = some d ∧ known a)

/-- The object of a descriptor, under this etag. -/
def Stored (blobs : Objects.Store String) (d : ArtifactDescriptor) (etag : String) : Prop :=
  ∃ o, blobs.get d.objectKey = some o ∧ o.etag = etag ∧ o.bytes.length = d.byteCount ∧
    ContentHash.sha256 o.bytes = d.sha256

/-- The object at the path of a row has the etag, the size and the hash that the row records. -/
def ArtifactRow.Present (blobs : Objects.Store String) (a : ArtifactRow) : Prop :=
  ∃ o, blobs.get a.objectKey = some o ∧ a.providerEtag = some o.etag ∧ o.bytes.length = a.byteCount ∧
    ContentHash.sha256 o.bytes = a.sha256

def AvailablePresent (v : Vault ρ σ) : Prop :=
  ∀ key a, v.db.artifacts.get key = some a → a.status = .available → a.Present v.blobs

def PutState.Sound (rows : Table Key ArtifactRow) (blobs : Objects.Store String) : PutState → Prop
  | .reserving bytes d | .finding bytes d => validatePut bytes d = true
  | .reclaiming bytes d _ => ContentHash.sha256 bytes = d.sha256
  | .uploading bytes d version =>
    ContentHash.sha256 bytes = d.sha256 ∧ Holds rows d version (fun a => a.status = .pending)
  | .fetching d version | .discarding d version _ _ | .failing d version _ =>
    Holds rows d version (fun a => a.status = .pending)
  | .finalizing d version m =>
    Holds rows d version (fun a => a.status = .pending) ∧ Stored blobs d m.etag
  | .verifying _ _ | .done _ => True

def DeleteState.Sound (rows : Table Key ArtifactRow) (blobs : Objects.Store String) : DeleteState → Prop
  | .claiming d version etag => AsRead rows d version (fun a => a.providerEtag = some etag)
  | .removing d version etag =>
    Holds rows d version (fun a => a.status = .deleting ∧ a.providerEtag = some etag) ∧ Stored blobs d etag
  -- The object of a row that is being deleted is there, so its deletion succeeds.
  | .checking _ _ => False
  | .completing d version => Holds rows d version (fun a => a.status = .deleting)
  | .restoring d version _ => AsRead rows d version (fun a => a.status = .deleting ∧
      ((integer version).isSome = true → ∃ etag, a.providerEtag = some etag ∧ Stored blobs d etag))
  | .finding _ _ | .done _ => True

def StoreCall.Sound (rows : Table Key ArtifactRow) (blobs : Objects.Store String) : StoreCall → Prop
  | .put s => s.Sound rows blobs
  | .delete s => s.Sound rows blobs
  | .idle | .read _ => True

structure Vault.Sound (v : Vault ρ σ) : Prop where
  claims : Claims (fun _ => False) v.db.artifacts v.calls
  paths : ∀ key key' a a', v.db.artifacts.get key = some a → v.db.artifacts.get key' = some a' →
    a.objectKey = a'.objectKey → key = key'
  checked : ∀ key a, v.db.artifacts.get key = some a → a.checks key = true
  present : AvailablePresent v
  calls : ∀ n, (v.calls n).Sound v.db.artifacts v.blobs

variable {rows rows' : Table Key ArtifactRow} {blobs blobs' : Objects.Store String} {d : ArtifactDescriptor}
  {version : Nat} {known : ArtifactRow → Prop}

omit [ContentHash] in
theorem Holds.asRead (h : Holds rows d version known) : AsRead rows d version known := by
  obtain ⟨a, ha, hv, hd, hk⟩ := h
  exact ⟨a, ha, Nat.le_of_eq hv.symm, fun _ => ⟨hd, hk⟩⟩

omit [ContentHash] in
theorem Holds.weaken {known' : ArtifactRow → Prop} (h : Holds rows d version known)
    (hk : ∀ a, known a → known' a) : Holds rows d version known' := by
  obtain ⟨a, ha, hv, hd, hknown⟩ := h
  exact ⟨a, ha, hv, hd, hk a hknown⟩

/-- A row that the call about to touch an object holds is not available. -/
theorem StoreCall.touching_held {c : StoreCall} (h : c.Sound rows blobs)
    (ht : c.touching? = some (d, version)) :
    c.claim? = some (d.key, version) ∧ Holds rows d version (fun a => a.status ≠ .available) := by
  cases c with
  | put s =>
    cases s <;> simp only [touching?, Option.some.injEq, Prod.mk.injEq, reduceCtorEq] at ht
    · obtain ⟨rfl, rfl⟩ := ht
      exact ⟨rfl, h.2.weaken (fun a ha => by simp [ha])⟩
    · obtain ⟨rfl, rfl⟩ := ht
      exact ⟨rfl, Holds.weaken h (fun a ha => by simp [ha])⟩
  | delete s =>
    cases s <;> simp only [touching?, Option.some.injEq, Prod.mk.injEq, reduceCtorEq] at ht
    obtain ⟨rfl, rfl⟩ := ht
    exact ⟨rfl, h.1.weaken (fun a ha => by simp [ha.1])⟩
  | idle => simp [touching?] at ht
  | read s => simp [touching?] at ht

/-! ## Frames -/

/-- A step of another call: the rows it held by a claim of its own, or took over, are not
those that this call holds. -/
structure Apart (rows rows' : Table Key ArtifactRow) (blobs blobs' : Objects.Store String)
    (claimed : Key × Nat → Prop) : Prop where
  /-- A row changes only to a higher version, and not under a claim. -/
  kept : ∀ key a, rows.get key = some a → rows'.get key = some a ∨
    (∃ a', rows'.get key = some a' ∧ a.version < a'.version) ∧
      (a.status = .pending ∨ a.status = .deleting → ¬ claimed (key, a.version))
  /-- An object changes only under a row that no claim names. -/
  objects : ∀ key a, rows.get key = some a → claimed (key, a.version) ∨ a.status = .available →
    blobs'.get a.objectKey = blobs.get a.objectKey

namespace Apart

variable {claimed : Key × Nat → Prop} (h : Apart rows rows' blobs blobs' claimed)

include h

omit [ContentHash] in
theorem holds (hh : Holds rows d version known) (hstatus : ∀ a, known a → a.status = .pending ∨ a.status = .deleting)
    (hc : claimed (d.key, version)) : Holds rows' d version known := by
  obtain ⟨a, ha, rfl, hd, hk⟩ := hh
  rcases h.kept d.key a ha with ha' | ⟨-, hnot⟩
  · exact ⟨a, ha', rfl, hd, hk⟩
  · exact absurd hc (hnot (hstatus a hk))

omit [ContentHash] in
theorem asRead (hr : AsRead rows d version known) : AsRead rows' d version known := by
  obtain ⟨a, ha, hle, hk⟩ := hr
  rcases h.kept d.key a ha with ha' | ⟨⟨a', ha', hlt⟩, -⟩
  · exact ⟨a, ha', hle, hk⟩
  · exact ⟨a', ha', by omega, fun he => by omega⟩

theorem stored {etag : String} (hs : Stored blobs d etag) (hh : Holds rows d version known)
    (hc : claimed (d.key, version)) : Stored blobs' d etag := by
  obtain ⟨a, ha, rfl, hd, -⟩ := hh
  obtain ⟨o, ho, hrest⟩ := hs
  refine ⟨o, ?_, hrest⟩
  have he := (rowDescriptor_some hd).2.2.1
  rw [he] at ho ⊢
  rw [h.objects d.key a ha (.inl hc), ho]

/-- What a call knows stays true while other calls take their steps. -/
theorem call {c : StoreCall} (hc : c.Sound rows blobs) (hclaim : ∀ k, c.claim? = some k → claimed k) :
    c.Sound rows' blobs' := by
  cases c with
  | idle => trivial
  | read s => trivial
  | put s =>
    cases s with
    | reserving bytes d => exact hc
    | finding bytes d => exact hc
    | verifying d etag => trivial
    | reclaiming bytes d version => exact hc
    | uploading bytes d version => exact ⟨hc.1, h.holds hc.2 (fun a => .inl) (hclaim _ rfl)⟩
    | fetching d version => exact h.holds hc (fun a => .inl) (hclaim _ rfl)
    | finalizing d version m =>
      exact ⟨h.holds hc.1 (fun a => .inl) (hclaim _ rfl), h.stored hc.2 hc.1 (hclaim _ rfl)⟩
    | discarding d version etag code => exact h.holds hc (fun a => .inl) (hclaim _ rfl)
    | failing d version code => exact h.holds hc (fun a => .inl) (hclaim _ rfl)
    | done result => trivial
  | delete s =>
    cases s with
    | finding scope artifactId => trivial
    | claiming d version etag => exact h.asRead hc
    | removing d version etag =>
      exact ⟨h.holds hc.1 (fun a ha => .inr ha.1) (hclaim _ rfl), h.stored hc.2 hc.1 (hclaim _ rfl)⟩
    | checking d version => exact hc
    | completing d version => exact h.holds hc (fun a => .inr) (hclaim _ rfl)
    | restoring d version code =>
      obtain ⟨a, ha, hle, hk⟩ := hc
      rcases h.kept d.key a ha with ha' | ⟨⟨a', ha', hlt⟩, -⟩
      · refine ⟨a, ha', hle, fun he => ⟨(hk he).1, (hk he).2.1, fun hi => ?_⟩⟩
        obtain ⟨etag, hetag, hs⟩ := (hk he).2.2 hi
        have hh : Holds rows d version (fun _ => True) := ⟨a, ha, he, (hk he).1, trivial⟩
        exact ⟨etag, hetag, h.stored hs hh (hclaim _ rfl)⟩
      · exact ⟨a', ha', by omega, fun he => by omega⟩
    | done result => trivial

end Apart

/-- The calls other than `n` keep what they know when `n` takes a step. -/
theorem Effect.apart {v : Vault ρ σ} (hs : v.Sound) {n : Nat} {c' : StoreCall} {db' : Db ρ σ}
    {blobs' : Objects.Store String} (h : Effect (v.calls n) v.db v.blobs c' db' blobs') :
    Apart v.db.artifacts db'.artifacts v.blobs blobs' (fun k => ∃ m, m ≠ n ∧ (v.calls m).claim? = some k) := by
  have hupdate : ∀ {k b b'}, ArtifactUpdate v.db db' k b b' →
      (b.status = .pending ∨ b.status = .deleting → (v.calls n).claim? = some (k, b.version)) →
      Apart v.db.artifacts db'.artifacts v.blobs v.blobs
        (fun k => ∃ m, m ≠ n ∧ (v.calls m).claim? = some k) := by
    intro k b b' hw hown
    refine ⟨fun key a ha => ?_, fun _ _ _ _ => rfl⟩
    by_cases hk : key = k
    · subst hk
      obtain rfl := Option.some.inj (ha.symm.trans hw.row)
      refine .inr ⟨⟨b', hw.get_self, by have := hw.version; omega⟩, ?_⟩
      rintro hstatus ⟨m, hm, hclaim⟩
      exact hm (hs.claims.distinct m n _ hclaim (hown hstatus))
    · exact .inl ((hw.get_other hk).trans ha)
  -- The row under which the call touches an object is its own, and not available.
  have htouched : ∀ {d version}, (v.calls n).touching? = some (d, version) →
      ∀ key a, v.db.artifacts.get key = some a →
        (∃ m, m ≠ n ∧ (v.calls m).claim? = some (key, a.version)) ∨ a.status = .available →
        a.objectKey ≠ d.objectKey := by
    intro d version ht key a ha hclaimed he
    obtain ⟨hclaim, b, hb, hv, hd, hstatus⟩ := StoreCall.touching_held (hs.calls n) ht
    have hkey : key = d.key := hs.paths key d.key a b ha hb (he.trans (rowDescriptor_some hd).2.2.1)
    subst hkey
    obtain rfl := Option.some.inj (ha.symm.trans hb)
    rcases hclaimed with ⟨m, hm, hother⟩ | hav
    · exact hm (hs.claims.distinct m n _ hother (hv ▸ hclaim))
    · exact hstatus hav
  cases h with
  | quiet => exact ⟨fun _ _ ha => .inl ha, fun _ _ _ _ => rfl⟩
  | reserved _ hinsert _ =>
    refine ⟨fun key a ha => .inl ?_, fun _ _ _ _ => rfl⟩
    rw [hinsert.result]
    exact Table.get_insert_some ha
  | reclaimed _ _ hfailed _ hw _ => exact hupdate hw (fun hstatus => by simp [hfailed] at hstatus)
  | deletionClaimed _ hav _ hw _ => exact hupdate hw (fun hstatus => by simp [hav] at hstatus)
  | settled hown _ hw _ _ => exact hupdate hw (fun _ => hown)
  | uploaded hc _ _ =>
    refine ⟨fun _ _ ha => .inl ha, fun key a ha hclaimed => ?_⟩
    exact Table.get_insert_other (htouched (by rw [hc]; rfl) key a ha hclaimed)
  | removed hc _ _ =>
    refine ⟨fun _ _ ha => .inl ha, fun key a ha hclaimed => ?_⟩
    exact Objects.delete_other (htouched hc key a ha hclaimed)

/-! ## The step of the call itself -/

/-- What the call knows after its step, and that a row it made available is present. -/
structure OwnStep (rows rows' : Table Key ArtifactRow) (blobs' : Objects.Store String) (c' : StoreCall) :
    Prop where
  call : c'.Sound rows' blobs'
  available : ∀ key a', rows'.get key = some a' → a'.status = .available →
    rows.get key = some a' ∨ a'.Present blobs'

variable {db db' : Db ρ σ}

/-- A step that leaves the rows alone. -/
theorem OwnStep.rest {c' : StoreCall} (h : c'.Sound rows blobs) : OwnStep rows rows blobs c' :=
  ⟨h, fun _ _ ha _ => .inl ha⟩

omit [ContentHash] in
theorem ArtifactUpdate.row_cases {key : Key} {a a' : ArtifactRow} (h : ArtifactUpdate db db' key a a') {k : Key}
    {b : ArtifactRow} (hb : db'.artifacts.get k = some b) : (k = key ∧ b = a') ∨ db.artifacts.get k = some b := by
  by_cases hk : k = key
  · subst hk
    exact .inl ⟨rfl, (Option.some.inj (h.get_self.symm.trans hb)).symm⟩
  · exact .inr ((h.get_other hk).symm.trans hb)

theorem ArtifactUpdate.own {key : Key} {a a' : ArtifactRow} {c' : StoreCall} (hw : ArtifactUpdate db db' key a a')
    (hpresent : a'.status = .available → a'.Present blobs) (h : c'.Sound db'.artifacts blobs) :
    OwnStep db.artifacts db'.artifacts blobs c' := by
  refine ⟨h, fun k b hb hav => ?_⟩
  rcases hw.row_cases hb with ⟨rfl, rfl⟩ | hold
  · exact .inr (hpresent hav)
  · exact .inl hold

omit [ContentHash] in
theorem ArtifactInsertion.row_cases (h : ArtifactInsertion db db' d) {key : Key} {a : ArtifactRow}
    (ha : db'.artifacts.get key = some a) :
    (key = d.key ∧ a = newArtifact d) ∨ db.artifacts.get key = some a := by
  rw [h.result] at ha
  by_cases hk : key = d.key
  · subst hk
    exact .inl ⟨rfl, (Option.some.inj ((Table.get_insert_self h.fresh).symm.trans ha)).symm⟩
  · exact .inr ((Table.get_insert_other hk).symm.trans ha)

theorem PutState.acquired_sound {bytes : List UInt8} {key : Key} {a : ArtifactRow} (ha : rows.get key = some a)
    (hstatus : a.status = .pending) (hhash : ContentHash.sha256 bytes = a.sha256) :
    (PutState.acquired bytes key a).Sound rows blobs := by
  unfold acquired
  cases hd : rowDescriptor key a with
  | none => trivial
  | some stored =>
    obtain ⟨-, hkey, -, -, hsha, -⟩ := rowDescriptor_some hd
    refine ⟨hhash.trans hsha.symm, a, ?_, rfl, ?_, hstatus⟩
    · rw [hkey]
      exact ha
    · rw [hkey]
      exact hd

theorem PutState.uploaded_sound {stored : ArtifactDescriptor} {o : Objects.Object}
    (hh : Holds rows stored version (fun a => a.status = .pending)) (ho : blobs.get stored.objectKey = some o)
    (hhash : ContentHash.sha256 o.bytes = stored.sha256) :
    (PutState.uploaded stored version (o.metadata stored.objectKey)).Sound rows blobs := by
  unfold uploaded
  split
  · rename_i hm
    simp only [metadataMatches, Objects.Object.metadata, Bool.and_eq_true, beq_iff_eq] at hm
    exact ⟨hh, o, ho, rfl, hm.1.2, hhash⟩
  · exact hh

theorem validatePut_iff {bytes : List UInt8} {d : ArtifactDescriptor} :
    validatePut bytes d = true ↔
      d.valid = true ∧ d.byteCount = bytes.length ∧ d.sha256 = ContentHash.sha256 bytes := by
  simp [validatePut, and_assoc]

theorem PutState.reserving_own (env : Outside) {bytes : List UInt8}
    (hs : PutState.Sound db.artifacts blobs (.reserving bytes d)) :
    let r := PutState.step env db blobs (.reserving bytes d)
    OwnStep db.artifacts r.2.1.artifacts r.2.2 (.put r.1) := by
  dsimp only [step]
  have hhash := (validatePut_iff.mp hs).2.2
  rcases runSerializableTransaction_cases 3 env.attempts (reserveArtifact d) db with
    ⟨e, he⟩ | ⟨reply, db', ho, hr⟩
  · rw [he]
    exact .rest trivial
  · rcases reserveArtifact_ok ho with ⟨rfl, rfl⟩ | ⟨rfl, hinsert⟩
    · rcases hr with hr | hr <;> rw [hr]
      · exact .rest hs
      · exact .rest trivial
    · have hself : db'.artifacts.get d.key = some (newArtifact d) := by
        rw [hinsert.result]
        exact Table.get_insert_self hinsert.fresh
      have hown : ∀ c' : StoreCall, c'.Sound db'.artifacts blobs →
          OwnStep db.artifacts db'.artifacts blobs c' := by
        refine fun c' hc' => ⟨hc', fun key a' ha' hav => ?_⟩
        rcases hinsert.row_cases ha' with ⟨-, rfl⟩ | hold
        · cases hav
        · exact .inl hold
      rcases hr with hr | hr <;> rw [hr]
      · exact hown _ (acquired_sound hself rfl hhash.symm)
      · exact hown _ trivial

theorem PutState.finding_own (env : Outside) {bytes : List UInt8}
    (hs : PutState.Sound db.artifacts blobs (.finding bytes d)) :
    let r := PutState.step env db blobs (.finding bytes d)
    OwnStep db.artifacts r.2.1.artifacts r.2.2 (.put r.1) := by
  dsimp only [step]
  rcases transaction_cases env.attempt (findByIdentity d) db with ⟨e, he⟩ | ⟨reply, db', ho, hr⟩
  · rw [he]
    exact .rest trivial
  · obtain ⟨rfl, -⟩ := findByIdentity_ok ho
    rcases hr with hr | hr <;> rw [hr]
    · cases reply with
      | none => exact .rest trivial
      | some row =>
        refine .rest ?_
        simp only [conflict]
        split
        · split <;> trivial
        · split
          · trivial
          · exact (validatePut_iff.mp hs).2.2.symm
        · trivial
    · exact .rest trivial

theorem PutState.reclaiming_own (env : Outside) {bytes : List UInt8}
    (hs : PutState.Sound db.artifacts blobs (.reclaiming bytes d version)) :
    let r := PutState.step env db blobs (.reclaiming bytes d version)
    OwnStep db.artifacts r.2.1.artifacts r.2.2 (.put r.1) := by
  dsimp only [step]
  rcases transaction_cases env.attempt (reclaimArtifact d version env.now) db with
    ⟨e, he⟩ | ⟨reply, db', ho, hr⟩
  · rw [he]
    exact .rest trivial
  · rcases reclaimArtifact_ok ho with ⟨rfl, rfl⟩ | ⟨key, a, hidentifies, -, -, rfl, hw⟩
    · rcases hr with hr | hr <;> rw [hr] <;> exact .rest trivial
    · simp only [ArtifactDescriptor.identifies, Bool.and_eq_true, beq_iff_eq] at hidentifies
      rcases hr with hr | hr <;> rw [hr]
      · exact hw.own (fun hav => by cases hav) (acquired_sound hw.get_self rfl (hs.trans hidentifies.2.symm))
      · exact hw.own (fun hav => by cases hav) trivial

theorem PutState.uploading_own (env : Outside) {bytes : List UInt8}
    (hs : PutState.Sound db.artifacts blobs (.uploading bytes d version)) :
    let r := PutState.step env db blobs (.uploading bytes d version)
    OwnStep db.artifacts r.2.1.artifacts r.2.2 (.put r.1) := by
  dsimp only [step]
  split
  · rename_i m blobs' hr
    obtain ⟨ho, rfl⟩ := Objects.put_ok (Objects.call_ok hr)
    exact .rest (uploaded_sound hs.2 ho hs.1)
  · exact .rest hs.2

theorem PutState.fetching_own (env : Outside)
    (hs : PutState.Sound db.artifacts blobs (.fetching d version)) :
    let r := PutState.step env db blobs (.fetching d version)
    OwnStep db.artifacts r.2.1.artifacts r.2.2 (.put r.1) := by
  dsimp only [step]
  split
  · rename_i bytes m blobs' hr
    have hget := Objects.call_ok hr
    obtain ⟨o, ho, rfl, rfl, -⟩ := Objects.get_some hget
    have hstore := Objects.get_store ArtifactFailure.blob d.objectKey d.byteCount blobs
    rw [hget] at hstore
    obtain rfl := hstore
    refine .rest ?_
    split
    · rename_i hc
      simp only [contentMatches, Bool.and_eq_true, beq_iff_eq] at hc
      exact uploaded_sound hs ho hc.2
    · exact hs
  · exact .rest hs
  · exact .rest hs

theorem PutState.finalizing_own (env : Outside) {m : BlobMetadata} (hack : env.attempt ≠ .failsAfter)
    (hs : PutState.Sound db.artifacts blobs (.finalizing d version m)) :
    let r := PutState.step env db blobs (.finalizing d version m)
    OwnStep db.artifacts r.2.1.artifacts r.2.2 (.put r.1) := by
  dsimp only [step]
  obtain ⟨hh, hstored⟩ := hs
  cases hi : integer version with
  | none => exact .rest hh
  | some version' =>
    obtain ⟨rfl, -⟩ := integer_some.mp hi
    dsimp only
    cases hr : env.attempt.transaction (finalizeArtifact d.key version' m.etag env.now) db with
    | mk reply db' =>
      cases reply with
      | error e =>
        rcases Attempt.transaction_error hr with rfl | ⟨hlost, -⟩
        · exact .rest hh
        · exact absurd hlost hack
      | ok reply =>
        rcases updateArtifact_ok (Attempt.transaction_ok hr) with ⟨rfl, rfl⟩ | ⟨a, -, rfl, hw⟩
        · exact .rest hh
        · obtain ⟨b, hb, -, hd, -⟩ := hh
          obtain rfl := Option.some.inj (hb.symm.trans hw.row)
          have hdone : PutState.finalized d version' m (.ok (some (b.finalized m.etag env.now))) =
              .done (.ok d) := by
            have hdescriptor : rowDescriptor d.key (b.finalized m.etag env.now) = some d :=
              (rowDescriptor_congr rfl).trans hd
            unfold finalized
            dsimp only
            rw [hdescriptor]
          refine hw.own (fun _ => ?_) (by rw [hdone]; trivial)
          obtain ⟨o, ho, hetag, hsize, hhash⟩ := hstored
          obtain ⟨-, -, hpath, hcount, hsha, -⟩ := rowDescriptor_some hd
          exact ⟨o, hpath ▸ ho, congrArg some hetag.symm, hsize.trans hcount, hhash.trans hsha⟩

theorem PutState.failing_own (env : Outside) {code : ArtifactErrorCode} :
    let r := PutState.step env db blobs (.failing d version code)
    OwnStep db.artifacts r.2.1.artifacts r.2.2 (.put r.1) := by
  dsimp only [step]
  cases hi : integer version with
  | none => exact .rest trivial
  | some version' =>
    dsimp only
    rcases transaction_cases env.attempt
        (failArtifact d.key version' (providerFailureCode code) env.now) db with
      ⟨e, he⟩ | ⟨reply, db', ho, hr⟩
    · rw [he]
      exact .rest trivial
    · rcases updateArtifact_ok ho with ⟨rfl, rfl⟩ | ⟨a, -, rfl, hw⟩
      · rcases hr with hr | hr <;> rw [hr] <;> exact .rest trivial
      · rcases hr with hr | hr <;> rw [hr] <;> exact hw.own (fun hav => by cases hav) trivial

theorem DeleteState.finding_own (env : Outside) {scope : TenantScope} {artifactId : String} :
    let r := DeleteState.step env db blobs (.finding scope artifactId)
    OwnStep db.artifacts r.2.1.artifacts r.2.2 (.delete r.1) := by
  dsimp only [step]
  rcases transaction_cases env.attempt (findAuthorized scope artifactId .available) db with
    ⟨e, he⟩ | ⟨reply, db', ho, hr⟩
  · rw [he]
    exact .rest trivial
  · obtain ⟨rfl, hfound⟩ := findAuthorized_ok ho
    rcases hr with hr | hr <;> rw [hr]
    · cases reply with
      | none => exact .rest trivial
      | some a =>
        refine .rest ?_
        simp only [found]
        split
        · trivial
        · rename_i etag hetag
          split
          · trivial
          · split
            · rename_i d version hd hi
              obtain ⟨rfl, -⟩ := integer_some.mp hi
              have hkey := (rowDescriptor_some hd).2.1
              refine ⟨a, ?_, Nat.le_refl _, fun _ => ⟨?_, hetag⟩⟩
              · rw [hkey]
                exact (hfound a rfl).1
              · rw [hkey]
                exact hd
            · trivial
    · exact .rest trivial

theorem DeleteState.claiming_own (env : Outside) {etag : String}
    (hpresent : ∀ key a, db.artifacts.get key = some a → a.status = .available → a.Present blobs)
    (hs : DeleteState.Sound db.artifacts blobs (.claiming d version etag)) :
    let r := DeleteState.step env db blobs (.claiming d version etag)
    OwnStep db.artifacts r.2.1.artifacts r.2.2 (.delete r.1) := by
  dsimp only [step]
  rcases transaction_cases env.attempt (claimArtifactDeletion d.key version env.now) db with
    ⟨e, he⟩ | ⟨reply, db', ho, hr⟩
  · rw [he]
    exact .rest trivial
  · rcases updateArtifact_ok ho with ⟨rfl, rfl⟩ | ⟨a, hc, rfl, hw⟩
    · rcases hr with hr | hr <;> rw [hr] <;> exact .rest trivial
    · simp only [Bool.and_eq_true, beq_iff_eq] at hc
      obtain ⟨b, hb, -, hknown⟩ := hs
      obtain rfl := Option.some.inj (hb.symm.trans hw.row)
      obtain ⟨hd, hetag⟩ := hknown hc.2
      obtain ⟨-, -, hpath, hcount, hsha, -⟩ := rowDescriptor_some hd
      obtain ⟨o, hobj, hetag', hsize, hhash⟩ := hpresent d.key b hb hc.1
      have hstored : Stored blobs d etag :=
        ⟨o, hpath ▸ hobj, Option.some.inj (hetag'.symm.trans hetag), hsize.trans hcount.symm,
          hhash.trans hsha.symm⟩
      rcases hr with hr | hr <;> rw [hr]
      · refine hw.own (fun hav => by cases hav) ⟨⟨_, hw.get_self, rfl, ?_, rfl, hetag⟩, hstored⟩
        exact (rowDescriptor_congr rfl).trans hd
      · exact hw.own (fun hav => by cases hav) trivial

theorem DeleteState.removing_own (env : Outside) {etag : String} (hack : env.fate ≠ .failsAfter)
    (hs : DeleteState.Sound db.artifacts blobs (.removing d version etag)) :
    let r := DeleteState.step env db blobs (.removing d version etag)
    OwnStep db.artifacts r.2.1.artifacts r.2.2 (.delete r.1) := by
  dsimp only [step]
  obtain ⟨hh, hstored⟩ := hs
  cases hfate : env.fate with
  | runs =>
    obtain ⟨o, ho, hetag, -⟩ := hstored
    have hmatch : o.matches (some etag) = true := by simp [Objects.Object.matches, hetag]
    have hdelete := Objects.delete_matching (ε := ArtifactFailure) env.absent ho hmatch
    simp only [Objects.Fate.call, hdelete]
    exact .rest (hh.weaken (fun a ha => ha.1))
  | failsBefore =>
    refine .rest ?_
    obtain ⟨a, ha, hv, hd, hdeleting, hetag⟩ := hh
    exact ⟨a, ha, Nat.le_of_eq hv.symm, fun _ => ⟨hd, hdeleting, fun _ => ⟨etag, hetag, hstored⟩⟩⟩
  | failsAfter => exact absurd hfate hack

omit [ContentHash] in
/-- The update that completes a deletion passes its trigger and its constraints. -/
theorem deletionCompleted_allowed {key : Key} {a : ArtifactRow} {now : Instant} (hchecks : a.checks key = true)
    (hstatus : a.status = .deleting) (hle : a.updatedAt ≤ now) (hnow : datetime now = true) :
    artifactUpdateAllowed key a (a.deletionCompleted now) = true := by
  simp only [ArtifactRow.checks, ArtifactRow.lifecycleShape, hstatus, Bool.and_eq_true, decide_eq_true_eq,
    Option.isNone_iff_eq_none] at hchecks
  obtain ⟨⟨⟨⟨⟨⟨⟨⟨⟨hid, hsha⟩, hpath⟩, hretention⟩, -⟩, hetag⟩, -⟩, -⟩, hcreated⟩,
    ⟨⟨hsome, hverified⟩, hnone⟩, -⟩ := hchecks
  have hcreated' : a.createdAt ≤ now := Int.le_trans hcreated hle
  have hversion' : 1 ≤ a.version + 1 := by omega
  simp only [artifactUpdateAllowed, successorVersion, ArtifactRow.deletionCompleted, ArtifactRow.checks,
    ArtifactRow.lifecycleShape, hid, hsha, hpath, hetag, hsome, hverified, hnone, hnow, hle, hretention, hcreated',
    hversion', beq_self_eq_true, Option.all_some, Option.all_none, Option.isSome_some, Option.isNone_none,
    decide_true, Bool.and_self]

/-- The statement that completes a deletion reaches the database, at a time that the row accepts. -/
structure Completes (rows : Table Key ArtifactRow) (d : ArtifactDescriptor) (env : Outside) : Prop where
  reaches : env.attempt = .runs ∨ env.attempt = .failsAfter
  now : datetime env.now = true
  order : ∀ a, rows.get d.key = some a → a.updatedAt ≤ env.now

theorem DeleteState.completing_own (env : Outside) (hcompletes : Completes db.artifacts d env)
    (hchecked : ∀ key a, db.artifacts.get key = some a → a.checks key = true)
    (hs : DeleteState.Sound db.artifacts blobs (.completing d version)) :
    let r := DeleteState.step env db blobs (.completing d version)
    OwnStep db.artifacts r.2.1.artifacts r.2.2 (.delete r.1) := by
  dsimp only [step]
  obtain ⟨a, ha, hv, hd, hdeleting⟩ := hs
  cases hi : integer version with
  | none => exact .rest ⟨a, ha, Nat.le_of_eq hv.symm, fun _ => ⟨hd, hdeleting, fun h => by simp [hi] at h⟩⟩
  | some version' =>
    obtain ⟨rfl, -⟩ := integer_some.mp hi
    have hallowed := deletionCompleted_allowed (hchecked _ a ha) hdeleting (hcompletes.order a ha) hcompletes.now
    have hw : ArtifactUpdate db
        { db with artifacts := db.artifacts.set d.key (a.deletionCompleted env.now) } d.key a
        (a.deletionCompleted env.now) := ⟨ha, hallowed, rfl⟩
    have hrun : completeArtifactDeletion d.key version' env.now db = (.ok (some (a.deletionCompleted env.now)),
        { db with artifacts := db.artifacts.set d.key (a.deletionCompleted env.now) }) := by
      simp only [completeArtifactDeletion, updateArtifact, updateRow, ha, hdeleting, hv, beq_self_eq_true,
        Bool.and_self, if_true, hallowed]
    dsimp only
    rcases hcompletes.reaches with hattempt | hattempt
    · simp only [hattempt, Attempt.transaction, atomically, hrun]
      exact hw.own (fun hav => by cases hav) trivial
    · simp only [hattempt, Attempt.transaction, atomically, hrun]
      refine hw.own (fun hav => by cases hav) ⟨_, hw.get_self, ?_, fun he => ?_⟩
      · simp only [ArtifactRow.deletionCompleted]
        omega
      · simp only [ArtifactRow.deletionCompleted] at he
        omega

theorem DeleteState.restoring_own (env : Outside) {code : ArtifactErrorCode}
    (hs : DeleteState.Sound db.artifacts blobs (.restoring d version code)) :
    let r := DeleteState.step env db blobs (.restoring d version code)
    OwnStep db.artifacts r.2.1.artifacts r.2.2 (.delete r.1) := by
  dsimp only [step]
  cases hi : integer version with
  | none => exact .rest trivial
  | some version' =>
    obtain ⟨rfl, -⟩ := integer_some.mp hi
    dsimp only
    rcases transaction_cases env.attempt (restoreArtifact d.key version' env.now) db with
      ⟨e, he⟩ | ⟨reply, db', ho, hr⟩
    · rw [he]
      exact .rest trivial
    · rcases updateArtifact_ok ho with ⟨rfl, rfl⟩ | ⟨a, hc, rfl, hw⟩
      · rcases hr with hr | hr <;> rw [hr] <;> exact .rest trivial
      · simp only [Bool.and_eq_true, beq_iff_eq] at hc
        obtain ⟨b, hb, -, hknown⟩ := hs
        obtain rfl := Option.some.inj (hb.symm.trans hw.row)
        obtain ⟨hd, -, hstored⟩ := hknown hc.2
        obtain ⟨etag, hetag, o, hobj, hetag', hsize, hhash⟩ := hstored (by rw [hi]; rfl)
        obtain ⟨-, -, hpath, hcount, hsha, -⟩ := rowDescriptor_some hd
        have hpresent : (b.restored env.now).Present blobs :=
          ⟨o, hpath ▸ hobj, hetag.trans (congrArg some hetag'.symm), hsize.trans hcount, hhash.trans hsha⟩
        rcases hr with hr | hr <;> rw [hr] <;> exact hw.own (fun _ => hpresent) trivial

/-! ## The condition, and runs -/

/-- What the provider and the database report is what they did, where the handlers of
`put` and `delete` rely on it. -/
def Vault.Acknowledged (v : Vault ρ σ) : VaultAction ρ σ → Prop
  | .advance n env =>
    match v.calls n with
    | .put (.finalizing _ _ _) => env.attempt ≠ .failsAfter
    | .delete (.removing _ _ _) => env.fate ≠ .failsAfter
    | .delete (.completing d _) => Completes v.db.artifacts d env
    | _ => True
  | _ => True

theorem Vault.Sound.own {v : Vault ρ σ} (hs : v.Sound) {n : Nat} {env : Outside}
    (hack : v.Acknowledged (.advance n env)) :
    let r := (v.calls n).step env v.db v.blobs
    OwnStep v.db.artifacts r.2.1.artifacts r.2.2 r.1 := by
  have hcall := hs.calls n
  simp only [Acknowledged] at hack
  generalize v.calls n = c at hcall hack ⊢
  cases c with
  | idle => exact .rest trivial
  | read s =>
    have hquiet : (s.step env v.db v.blobs).2.1 = v.db := by
      cases s with
      | finding scope artifactId =>
        have hreads : (env.attempt.transaction (findAuthorized scope artifactId .available) v.db).2 = v.db :=
          env.attempt.transaction_reads (fun _ _ h => (findAuthorized_ok h).1)
        simp only [ReadState.step]
        split
        · rename_i hr
          rw [hr] at hreads
          exact hreads
        · rename_i hr
          rw [hr] at hreads
          split <;> exact hreads
        · rename_i hr
          rw [hr] at hreads
          exact hreads
      | fetching d etag =>
        simp only [ReadState.step]
        split <;> rfl
      | done result => rfl
    dsimp only [StoreCall.step]
    rw [hquiet]
    exact .rest trivial
  | put s =>
    cases s with
    | reserving bytes d => exact PutState.reserving_own env hcall
    | finding bytes d => exact PutState.finding_own env hcall
    | verifying d etag =>
      dsimp only [StoreCall.step, PutState.step]
      split <;> exact .rest trivial
    | reclaiming bytes d version => exact PutState.reclaiming_own env hcall
    | uploading bytes d version => exact PutState.uploading_own env hcall
    | fetching d version => exact PutState.fetching_own env hcall
    | finalizing d version m => exact PutState.finalizing_own env hack hcall
    | discarding d version etag code => exact .rest hcall
    | failing d version code => exact PutState.failing_own env
    | done result => exact .rest trivial
  | delete s =>
    cases s with
    | finding scope artifactId => exact DeleteState.finding_own env
    | claiming d version etag => exact DeleteState.claiming_own env hs.present hcall
    | removing d version etag => exact DeleteState.removing_own env hack hcall
    | checking d version => exact hcall.elim
    | completing d version => exact DeleteState.completing_own env hack hs.checked hcall
    | restoring d version code => exact DeleteState.restoring_own env hcall
    | done result => exact .rest trivial

omit [ContentHash] in
theorem Settled.objectKey {a a' : ArtifactRow} (h : Settled a a') : a'.objectKey = a.objectKey := by
  cases h <;> rfl

omit [ContentHash] in
theorem ArtifactUpdate.checks {key : Key} {a a' : ArtifactRow} (h : ArtifactUpdate db db' key a a') :
    a'.checks key = true := by
  have hallowed := h.allowed
  simp only [artifactUpdateAllowed, Bool.and_eq_true] at hallowed
  exact hallowed.2

omit [ContentHash] in
/-- An update moves no row to another path. -/
theorem ArtifactUpdate.from_row {key : Key} {a a' : ArtifactRow} (h : ArtifactUpdate db db' key a a')
    (hpath : a'.objectKey = a.objectKey) {k : Key} {b : ArtifactRow} (hb : db'.artifacts.get k = some b) :
    (db.artifacts.get k = some b ∨ b.checks k = true) ∧
      ∃ b₀, db.artifacts.get k = some b₀ ∧ b₀.objectKey = b.objectKey := by
  rcases h.row_cases hb with ⟨rfl, rfl⟩ | hb'
  · exact ⟨.inr h.checks, a, h.row, hpath.symm⟩
  · exact ⟨.inl hb', b, hb', rfl⟩

omit [ContentHash] in
/-- The paths of the rows stay distinct and the rows within their constraints. -/
theorem Effect.constraints {c c' : StoreCall} (h : Effect c db blobs c' db' blobs')
    (hpaths : ∀ key key' a a', db.artifacts.get key = some a → db.artifacts.get key' = some a' →
      a.objectKey = a'.objectKey → key = key')
    (hchecked : ∀ key a, db.artifacts.get key = some a → a.checks key = true) :
    (∀ key key' a a', db'.artifacts.get key = some a → db'.artifacts.get key' = some a' →
      a.objectKey = a'.objectKey → key = key') ∧
      ∀ key a, db'.artifacts.get key = some a → a.checks key = true := by
  have hupdate : ∀ {k b b'}, ArtifactUpdate db db' k b b' → b'.objectKey = b.objectKey →
      (∀ key key' a a', db'.artifacts.get key = some a → db'.artifacts.get key' = some a' →
        a.objectKey = a'.objectKey → key = key') ∧
        ∀ key a, db'.artifacts.get key = some a → a.checks key = true := by
    intro k b b' hw hpath
    constructor
    · intro key key' a a' ha ha' he
      obtain ⟨-, a₀, h₀, hp⟩ := hw.from_row hpath ha
      obtain ⟨-, a₀', h₀', hp'⟩ := hw.from_row hpath ha'
      exact hpaths key key' a₀ a₀' h₀ h₀' (hp.trans (he.trans hp'.symm))
    · intro key a ha
      rcases (hw.from_row hpath ha).1 with hold | hnew
      · exact hchecked key a hold
      · exact hnew
  cases h with
  | quiet => exact ⟨hpaths, hchecked⟩
  | reserved _ hinsert _ =>
    have hcases : ∀ key a, db'.artifacts.get key = some a → _ := fun key a ha => hinsert.row_cases ha
    constructor
    · intro key key' a a' ha ha' he
      rcases hcases key a ha with ⟨rfl, rfl⟩ | ha <;> rcases hcases key' a' ha' with ⟨rfl, rfl⟩ | ha'
      · rfl
      · exact absurd he.symm (hinsert.unique key' a' ha')
      · exact absurd he (hinsert.unique key a ha)
      · exact hpaths key key' a a' ha ha' he
    · intro key a ha
      rcases hcases key a ha with ⟨rfl, rfl⟩ | ha
      · exact hinsert.checks
      · exact hchecked key a ha
  | reclaimed _ _ _ _ hw _ => exact hupdate hw rfl
  | deletionClaimed _ _ _ hw _ => exact hupdate hw rfl
  | settled _ hsettled hw _ _ => exact hupdate hw hsettled.objectKey
  | uploaded => exact ⟨hpaths, hchecked⟩
  | removed => exact ⟨hpaths, hchecked⟩

/-- Step lemma. -/
theorem Vault.Sound.step {v : Vault ρ σ} (hs : v.Sound) {action : VaultAction ρ σ} (hack : v.Acknowledged action) :
    (Vault.step action v).Sound := by
  cases action with
  | start n request =>
    refine ⟨hs.claims.start n request.start_claim, hs.paths, hs.checked, hs.present, fun m => ?_⟩
    simp only [Vault.step, Vault.start]
    by_cases hm : m = n
    · subst hm
      rw [Function.update_self]
      cases request with
      | put bytes d =>
        simp only [StoreRequest.start, PutState.start]
        split
        · rename_i hvalid
          exact hvalid
        · trivial
      | read scope artifactId => trivial
      | delete scope artifactId =>
        simp only [StoreRequest.start, DeleteState.start]
        split <;> trivial
    · rw [Function.update_of_ne hm]
      exact hs.calls m
  | advance n env =>
    have heffect := (v.calls n).step_effect env v.db v.blobs
    have hown := hs.own hack
    have hapart := heffect.apart hs
    obtain ⟨hpaths, hchecked⟩ := heffect.constraints hs.paths hs.checked
    refine ⟨hs.claims.update n heffect (fun _ => id) (fun _ _ _ => id), hpaths, hchecked, ?_, fun m => ?_⟩
    · intro key a ha hav
      rcases hown.available key a ha hav with hold | hpresent
      · obtain ⟨o, ho, hrest⟩ := hs.present key a hold hav
        exact ⟨o, (hapart.objects key a hold (.inr hav)).trans ho, hrest⟩
      · exact hpresent
    · simp only [Vault.step, Vault.advance]
      by_cases hm : m = n
      · subst hm
        rw [Function.update_self]
        exact hown.call
      · rw [Function.update_of_ne hm]
        exact hapart.call (hs.calls m) (fun k hk => ⟨m, hm, hk⟩)
  | others db => exact ⟨hs.claims, hs.paths, hs.checked, hs.present, hs.calls⟩

/-- No artifact, no object, no call. -/
def Vault.initial (db : Db ρ σ) : Vault ρ σ :=
  ⟨{ db with artifacts := .empty, deletionRequests := .empty }, .empty, fun _ => .idle⟩

theorem sound_initial (db : Db ρ σ) : (Vault.initial db).Sound where
  claims := ⟨fun _ _ _ h => (nomatch h), fun _ _ _ h _ => (nomatch h)⟩
  paths := fun _ _ _ _ h _ => by cases h
  checked := fun _ _ h => by cases h
  present := fun _ _ h _ => by cases h
  calls := fun _ => trivial

/-- In every interleaving of any number of puts, reads and deletions that meets the condition,
every artifact that is available in the state reached has its object in the store. -/
theorem available_present (db : Db ρ σ) (actions : List (VaultAction ρ σ))
    (h : Runs.Guarded Vault.step Vault.Acknowledged actions (Vault.initial db)) :
    AvailablePresent (Runs.run Vault.step actions (Vault.initial db)) := by
  have hsound : (Runs.run Vault.step actions (Vault.initial db)).Sound :=
    Runs.run_invariant (fun v action hv hack => hv.step hack) (sound_initial db) h
  exact hsound.present

end ReproForge

/-! ## A sample artifact -/

namespace ReproForge.Sample

open KeyedTable

scoped instance : ContentHash where
  sha256 bytes :=
    if bytes = [123, 125, 10] then "ca3d163bab055381827226140568f3bef7eaac187cebd76878e0b63e9e442356" else ""

def document : CaseDomain Empty where
  case := ⟨opening, [], "case-1", .draft, opening⟩
  repositorySource := none
  result := none
  sampleId := some .cliSpaces
  schemaVersion := "2.0"

/-- A tenant with one case. -/
def archive : Db Empty Empty :=
  { (Db.initial opening tenants : Db Empty Empty) with
    cases := Table.empty.insert ⟨"acme", "case-1"⟩
      ⟨.trustedSample, ⟨none, none, some .cliSpaces⟩, .draft, document, "2.0", 1, opening, opening,
        opening + days 30⟩ }

def runLog : ArtifactDescriptor where
  artifactId := "log-1"
  byteCount := 3
  caseId := "case-1"
  createdAt := opening
  kind := .runLog
  objectKey :=
    "tenants/acme/cases/case-1/run-log/ca3d163bab055381827226140568f3bef7eaac187cebd76878e0b63e9e442356"
  retentionUntil := opening + days 30
  sha256 := "ca3d163bab055381827226140568f3bef7eaac187cebd76878e0b63e9e442356"
  tenantId := "acme"

def calm : Outside := ⟨[], .runs, opening, "etag-1", false⟩

/-- The statement takes effect and its acknowledgement is lost. -/
def unacknowledged : Outside := { calm with attempts := [.failsAfter] }

/-- A write up to the statement that makes its row available. -/
def written : List (VaultAction Empty Empty) :=
  [.start 0 (.put [123, 125, 10] runLog), .advance 0 calm, .advance 0 calm]

end ReproForge.Sample

namespace ReproForge

open Sample KeyedTable

/-- The acknowledgement of that statement is lost, so the handler removes the object of a row
that is available. -/
theorem available_without_object :
    ¬ AvailablePresent (Runs.run Vault.step (written ++ [.advance 0 unacknowledged, .advance 0 calm])
      (Vault.initial archive)) := by
  intro h
  have hstate : ((Runs.run Vault.step (written ++ [.advance 0 unacknowledged, .advance 0 calm])
        (Vault.initial archive)).db.artifacts.get runLog.key).map
          (fun a => (a.status, a.objectKey)) = some (.available, runLog.objectKey) ∧
      (Runs.run Vault.step (written ++ [.advance 0 unacknowledged, .advance 0 calm])
        (Vault.initial archive)).blobs.get runLog.objectKey = none := by
    decide +kernel
  generalize Runs.run Vault.step (written ++ [.advance 0 unacknowledged, .advance 0 calm])
    (Vault.initial archive) = v at h hstate
  obtain ⟨a, ha, hcolumns⟩ := Option.map_eq_some_iff.mp hstate.1
  simp only [Prod.mk.injEq] at hcolumns
  obtain ⟨o, ho, -⟩ := h runLog.key a ha hcolumns.1
  rw [hcolumns.2, hstate.2] at ho
  cases ho

/-- A calm step of a call that is no deletion. -/
theorem acknowledged_calm {v : Vault Empty Empty} {n : Nat}
    (h : (match v.calls n with | .delete _ => false | _ => true) = true) :
    v.Acknowledged (.advance n calm) := by
  simp only [Vault.Acknowledged]
  generalize v.calls n = c at h ⊢
  cases c with
  | put s =>
    cases s with
    | finalizing d version m => exact fun he => by cases he
    | _ => trivial
  | delete s => cases h
  | _ => trivial

theorem available_present_sample :
    AvailablePresent (Runs.run Vault.step (written ++ [.advance 0 calm]) (Vault.initial archive)) := by
  have hguard : Runs.Guarded Vault.step Vault.Acknowledged (written ++ [.advance 0 calm])
      (Vault.initial archive) :=
    ⟨trivial, acknowledged_calm (by decide +kernel), acknowledged_calm (by decide +kernel),
      acknowledged_calm (by decide +kernel), trivial⟩
  exact available_present archive _ hguard

end ReproForge
