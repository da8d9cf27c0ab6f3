import ReproForge.SandboxQuarantine
import ReproForge.System

/-!
# Open quarantines

A resolution in the audit stands for a resource that the provider has deleted. A
quarantine is listed until then, unless its tenant is purged before. A deletion
that its call does not record is never recorded: the provider has nothing left
to delete when an operator asks again.
-/
namespace ReproForge

open KeyedTable Transactions Transactions.Tx

variable {ρ σ : Type} {db db' db'' : Db ρ σ}

/-! ## What other operations do to the audit -/

/-- The row is neither a quarantine nor a resolution. -/
def AuditRow.Foreign (row : AuditRow) : Prop :=
  row.action ≠ "sandbox.cleanup-quarantined" ∧ row.action ≠ "sandbox.cleanup-resolved"

/-- Rows of the lost tenants can go, and rows of other events can come. -/
structure AuditChange (lost : String → Prop) (db db' : Db ρ σ) : Prop where
  kept : ∀ key row, db.auditEvents.get key = some row → ¬ lost key.tenantId → db'.auditEvents.get key = some row
  fresh : ∀ key row, db'.auditEvents.get key = some row → db.auditEvents.get key = some row ∨ row.Foreign

abbrev AuditGrowth (db db' : Db ρ σ) : Prop := AuditChange (fun _ => False) db db'

theorem AuditGrowth.of_same (h : db'.auditEvents = db.auditEvents) : AuditGrowth db db' := by
  constructor
  · intro key row hrow _
    rw [h]
    exact hrow
  · intro key row hrow
    rw [h] at hrow
    exact .inl hrow

theorem AuditGrowth.trans (h : AuditGrowth db db') (h' : AuditGrowth db' db'') : AuditGrowth db db'' := by
  constructor
  · intro key row hrow hlost
    exact h'.kept key row (h.kept key row hrow hlost) hlost
  · intro key row hrow
    rcases h'.fresh key row hrow with hold | hforeign
    · exact h.fresh key row hold
    · exact .inr hforeign

theorem AuditGrowth.of_insert {key : Key} {row : AuditRow} (hfresh : db.auditEvents.get key = none)
    (hforeign : row.Foreign) (h : db'.auditEvents = db.auditEvents.insert key row) : AuditGrowth db db' := by
  constructor
  · intro k r hr _
    rw [h]
    exact Table.get_insert_some hr
  · intro k r hr
    rw [h] at hr
    rcases Table.get_insert_cases hfresh hr with ⟨-, rfl⟩ | hold
    · exact .inr hforeign
    · exact .inl hold

/-- A loop of operations that let the audit grow lets it grow. -/
theorem AuditGrowth.of_steps {R : Db ρ σ → Db ρ σ → Prop} (hR : ∀ s s', R s s' → AuditGrowth s s')
    (h : Relation.ReflTransGen R db db') : AuditGrowth db db' := by
  induction h with
  | refl => exact .of_same rfl
  | tail _ hone ih => exact ih.trans (hR _ _ hone)

section retention

variable [Sha256] [ResultDocument ρ] [RequestDocument σ]

theorem requestCancellation_audit {scope : TenantScope} {jobId : String} {at' : Instant}
    {reply : Option CancellationRequestResult} (h : requestCancellation scope jobId at' db = (.ok reply, db')) :
    db'.auditEvents = db.auditEvents := by
  rcases requestCancellation_ok h with ⟨-, rfl⟩ | ⟨_, _, -, rfl, -⟩ | ⟨_, _, -, hw⟩
  · rfl
  · rfl
  · cases hw with
    | requested _ hw => rw [hw.result]
    | cancelled _ hw => rw [hw.result]

omit [Sha256] [ResultDocument ρ] [RequestDocument σ] in
theorem updateTenant_audit {id : String} {condition : TenantRow → Bool} {assign : TenantRow → TenantRow}
    {reply : Option TenantRow} (h : updateTenant id condition assign db = (.ok reply, db')) :
    db'.auditEvents = db.auditEvents := by
  rcases updateRow_ok h with ⟨-, rfl⟩ | ⟨row, -, -, -, -, rfl⟩ <;> rfl

omit [ResultDocument ρ] [RequestDocument σ] in
theorem appendRequestAudit_growth {actorId requestId tenantId : String} {at' : Instant} {reason : DeletionReason}
    {u : Unit} (h : appendRequestAudit actorId at' reason requestId tenantId db = (.ok u, db')) :
    AuditGrowth db db' := by
  simp only [appendRequestAudit, insertRetainedAuditOrIgnore] at h
  split at h
  · rw [← (Prod.mk.inj h).2]
    exact .of_same rfl
  · obtain ⟨hfresh, rfl⟩ := insertRetainedAudit_ok h
    exact .of_insert hfresh ⟨by simp, by simp⟩ rfl

theorem scheduleDeletion_growth {tenantId requestId requestedBy : String} {scheduledAt at' : Instant}
    {reason : DeletionReason} {reply : Bool}
    (h : scheduleDeletion tenantId requestId requestedBy scheduledAt at' reason db = (.ok reply, db')) :
    AuditGrowth db db' := by
  simp only [scheduleDeletion, bind_ok, require_ok] at h
  obtain ⟨_, _, ⟨-, rfl⟩, inserted, t, hinsert, h⟩ := h
  have ht : AuditGrowth db t := by
    rcases insertDeletion_ok hinsert with ⟨-, rfl⟩ | ⟨-, -, -, -, rfl⟩ <;> exact .of_same rfl
  split at h
  · simp only [suspendAndCancelTenant, bind_ok, read_ok, pure_ok] at h
    obtain ⟨_, t₁, haudit, _, t₂, ⟨_, _, ⟨rfl, rfl⟩, replies, t₃, hcancel, found, t₄, hsuspend, -, rfl⟩, -, rfl⟩ := h
    have hcancelled : AuditGrowth t₁ t₃ := by
      refine .of_steps (R := AuditGrowth) (fun _ _ hg => hg) (forEach_steps ?_ hcancel)
      intro job reply s s' hone
      exact .single (.of_same (requestCancellation_audit hone))
    have hrequested : AuditGrowth t t₃ := (appendRequestAudit_growth haudit).trans hcancelled
    exact (ht.trans hrequested).trans (.of_same (updateTenant_audit hsuspend))
  · obtain ⟨-, rfl⟩ := pure_ok.mp h
    exact ht

theorem requestDeletion_growth {input : DeletionInput} {reply : Bool}
    (h : requestDeletion input db = (.ok reply, db')) : AuditGrowth db db' := by
  simp only [requestDeletion, bind_ok, require_ok, read_ok] at h
  obtain ⟨_, _, ⟨-, rfl⟩, _, _, ⟨-, rfl⟩, _, _, ⟨rfl, rfl⟩, h⟩ := h
  split at h
  · rw [(pure_ok.mp h).2]
    exact .of_same rfl
  · split at h
    · rw [(pure_ok.mp h).2]
      exact .of_same rfl
    · exact scheduleDeletion_growth h

theorem scheduleDue_growth {input : ScheduleInput} {locked ids : List String}
    (h : scheduleDue input locked db = (.ok ids, db')) : AuditGrowth db db' := by
  simp only [scheduleDue, bind_ok, require_ok, read_ok, pure_ok] at h
  obtain ⟨_, _, ⟨-, rfl⟩, _, _, ⟨rfl, rfl⟩, scheduled, t, hloop, -, rfl⟩ := h
  refine .of_steps (R := AuditGrowth) (fun _ _ hg => hg) (forEach_steps ?_ hloop)
  intro tenant reply s s' hone
  simp only [scheduleTenant, bind_ok, demand_ok, pure_ok] at hone
  obtain ⟨_, _, ⟨-, rfl⟩, inserted, _, hs, -, rfl⟩ := hone
  exact .single (scheduleDeletion_growth hs)

omit [ResultDocument ρ] [RequestDocument σ] in
/-- A completed deletion takes the audit of its tenant with it. -/
theorem complete_change {claim : DeletionClaim} {at' : Instant} {u : Unit}
    (h : complete claim at' db = (.ok u, db')) : AuditChange (· = claim.tenantId) db db' := by
  obtain ⟨r, hp⟩ := complete_ok h
  obtain ⟨key, row, hkey, haction, haudit⟩ := hp.audit
  have hunused : (db.auditEvents.delete (fun k _ => k.tenantId == claim.tenantId)).get key = none := by
    rw [Table.get_delete]
    cases db.auditEvents.get key <;> simp [Option.filter, hkey]
  constructor
  · intro k x hx hlost
    rw [haudit]
    refine Table.get_insert_some ?_
    rw [Table.get_delete, hx]
    simp [Option.filter, hlost]
  · intro k x hx
    rw [haudit] at hx
    rcases Table.get_insert_cases hunused hx with ⟨-, rfl⟩ | hold
    · exact .inr ⟨by rw [haction]; simp, by rw [haction]; simp⟩
    · rw [Table.get_delete, Option.filter_eq_some_iff] at hold
      exact .inl hold.1

/-- The tenants whose audit an operation purges. -/
def RetentionOperation.Purges : RetentionOperation → String → Prop
  | .complete claim _ => (· = claim.tenantId)
  | _ => fun _ => False

theorem RetentionOperation.change {operation : RetentionOperation} {u : Unit}
    (h : operation.statement db = (.ok u, db')) : AuditChange operation.Purges db db' := by
  cases operation with
  | request input =>
    obtain ⟨_, _, hr, hpure⟩ := bind_ok.mp h
    obtain ⟨-, rfl⟩ := pure_ok.mp hpure
    exact requestDeletion_growth hr
  | schedule input locked =>
    obtain ⟨_, _, hr, hpure⟩ := bind_ok.mp h
    obtain ⟨-, rfl⟩ := pure_ok.mp hpure
    exact scheduleDue_growth hr
  | claimNext at' ownerId locked =>
    obtain ⟨_, _, hr, hpure⟩ := bind_ok.mp h
    obtain ⟨-, rfl⟩ := pure_ok.mp hpure
    rcases claimNext_ok hr with ⟨-, rfl⟩ | ⟨claim, r, r', -, hc⟩
    · exact AuditGrowth.of_same rfl
    · exact AuditGrowth.of_same (by rw [hc.rest])
  | markFailed claim at' failure =>
    obtain ⟨r, r', hf⟩ := markFailed_ok h
    exact AuditGrowth.of_same (by rw [hf.rest])
  | complete claim at' => exact complete_change h

end retention

/-! ## What the two events leave in the audit -/

/-- The event of the row is about this resource of the provider. -/
def AuditRow.About (resource : ProviderResource) (row : AuditRow) : Prop :=
  row.metadataText "providerId" = some resource.2 ∧ row.metadataText "cleanupKind" = some resource.1.text

/-- No resolution of the resource is recorded, of any attempt. -/
def Unresolved (db : Db ρ σ) (resource : ProviderResource) : Prop :=
  ∀ key row, db.auditEvents.get key = some row → row.action = "sandbox.cleanup-resolved" → ¬ row.About resource

theorem QuarantineResourceType.text_injective {a b : QuarantineResourceType} (h : a.text = b.text) : a = b := by
  cases a <;> cases b <;> simp_all [text]

theorem QuarantineResourceType.ofText_text (a : QuarantineResourceType) : ofText a.text = some a := by
  cases a <;> rfl

/-- A row is about one resource. -/
theorem AuditRow.About.unique {row : AuditRow} {a b : ProviderResource} (ha : row.About a) (hb : row.About b) : a = b := by
  have hid : a.2 = b.2 := Option.some.inj (ha.1.symm.trans hb.1)
  have hkind : a.1 = b.1 := QuarantineResourceType.text_injective (Option.some.inj (ha.2.symm.trans hb.2))
  exact Prod.ext hkind hid

theorem AuditRow.names_iff {action : String} {r : QuarantineResource} {key : Key} {row : AuditRow} :
    row.names action r key = true ↔ key.tenantId = r.tenantId ∧ row.action = action ∧ row.targetId = r.attemptId ∧
      row.About r.resource := by
  simp [AuditRow.names, AuditRow.About, QuarantineResource.resource, and_assoc]

theorem lookup_quarantined {r : QuarantineResource} : (lookupQuarantine r db).quarantined = true ↔
    ∃ key row, db.auditEvents.get key = some row ∧ row.names "sandbox.cleanup-quarantined" r key = true := by
  rw [lookupQuarantine, Option.isSome_iff_exists]
  constructor
  · rintro ⟨found, hfound⟩
    exact ⟨found.1, found.2, Table.find?_some hfound⟩
  · rintro ⟨key, row, hrow, hnames⟩
    exact Table.find?_isSome hrow hnames

theorem lookup_resolved {r : QuarantineResource} : (lookupQuarantine r db).resolved = true ↔
    ∃ key row, db.auditEvents.get key = some row ∧ row.names "sandbox.cleanup-resolved" r key = true := by
  rw [lookupQuarantine, Option.isSome_iff_exists]
  constructor
  · rintro ⟨found, hfound⟩
    exact ⟨found.1, found.2, Table.find?_some hfound⟩
  · rintro ⟨key, row, hrow, hnames⟩
    exact Table.find?_isSome hrow hnames

theorem Unresolved.lookup {r : QuarantineResource} (h : Unresolved db r.resource) :
    (lookupQuarantine r db).resolved = false := by
  rw [Bool.eq_false_iff]
  intro hresolved
  obtain ⟨key, row, hrow, hnames⟩ := lookup_resolved.mp hresolved
  obtain ⟨-, haction, -, habout⟩ := AuditRow.names_iff.mp hnames
  exact h key row hrow haction habout

/-- The row of an event that is appended. -/
def AuditEvent.row (e : AuditEvent) : AuditRow :=
  ⟨e.actorId, e.action, e.targetType, e.targetId, e.outcome, e.metadata, e.occurredAt⟩

theorem appendAudit_ok {e : AuditEvent} {u : Unit} (h : appendAudit e db = (.ok u, db')) :
    db.auditEvents.get ⟨e.tenantId, e.eventId⟩ = none ∧
      db' = { db with auditEvents := db.auditEvents.insert ⟨e.tenantId, e.eventId⟩ e.row } := by
  obtain ⟨_, _, hvalid, hinsert⟩ := bind_ok.mp h
  obtain ⟨-, rfl⟩ := require_ok.mp hvalid
  exact insertAuditEvent_ok hinsert

/-- A transaction leaves what it found, or what its operation left. -/
theorem transaction_database {α : Type} (attempt : Attempt) (operation : Statement ρ σ α) (db : Db ρ σ) :
    (attempt.transaction operation db).2 = db ∨
      ∃ a, operation db = (.ok a, (attempt.transaction operation db).2) := by
  rcases transaction_cases attempt operation db with ⟨e, he⟩ | ⟨a, db', ho, hr | hr⟩
  · left
    rw [he]
  · right
    rw [hr]
    exact ⟨a, ho⟩
  · right
    rw [hr]
    exact ⟨a, ho⟩

section events

variable [Sha256] (r : QuarantineResource) (at' : Instant)

theorem quarantined_names : AuditRow.names "sandbox.cleanup-quarantined" r ⟨r.tenantId, (r.quarantinedEvent at').eventId⟩
    (r.quarantinedEvent at').row = true := AuditRow.names_iff.mpr ⟨rfl, rfl, rfl, rfl, rfl⟩

theorem resolved_names : AuditRow.names "sandbox.cleanup-resolved" r ⟨r.tenantId, (r.resolvedEvent at').eventId⟩
    (r.resolvedEvent at').row = true := AuditRow.names_iff.mpr ⟨rfl, rfl, rfl, rfl, rfl⟩

end events

theorem AuditChange.resolutions {lost : String → Prop} (h : AuditChange lost db db') (key : Key) (row : AuditRow)
    (hrow : db'.auditEvents.get key = some row) (haction : row.action = "sandbox.cleanup-resolved") :
    db.auditEvents.get key = some row := by
  rcases h.fresh key row hrow with hold | hforeign
  · exact hold
  · exact absurd haction hforeign.2

/-- A record of the sink is one event. -/
theorem recordQuarantine_ok [Sha256] {r : QuarantineResource} {at' : Instant} {u : Unit}
    (h : recordQuarantine r at' db = (.ok u, db')) : r.recordable = true ∧
      db.auditEvents.get ⟨r.tenantId, (r.quarantinedEvent at').eventId⟩ = none ∧
      db' = { db with
        auditEvents := db.auditEvents.insert ⟨r.tenantId, (r.quarantinedEvent at').eventId⟩ (r.quarantinedEvent at').row } := by
  simp only [recordQuarantine, bind_ok, require_ok] at h
  obtain ⟨_, _, ⟨hvalid, rfl⟩, _, _, ⟨-, rfl⟩, h⟩ := h
  exact ⟨hvalid, appendAudit_ok h⟩

/-! ## Deletions and their resolutions -/

namespace QuarantineWorld

/-- What is resolved was deleted. A call that is about to append a resolution is the only one that can, and
what was interrupted is not resolved. -/
structure Accounted (w : QuarantineWorld ρ σ) : Prop where
  earned : ∀ key row, w.db.auditEvents.get key = some row → row.action = "sandbox.cleanup-resolved" →
    ∃ resource ∈ w.deleted, row.About resource
  recording : ∀ n input, w.calls n = .recording input → input.resource ∈ w.deleted ∧
    Unresolved w.db input.resource ∧ (∀ x ∈ w.interrupted, x.resource ≠ input.resource) ∧
    ∀ m other, w.calls m = .recording other → other.resource = input.resource → m = n
  interrupted : ∀ x ∈ w.interrupted, x.resource ∈ w.deleted ∧ Unresolved w.db x.resource

variable {w : QuarantineWorld ρ σ}

/-- A resource that is still there has no resolution. -/
theorem Accounted.of_available (h : w.Accounted) {resource : ProviderResource} (ha : w.available resource = true) :
    resource ∉ w.deleted ∧ Unresolved w.db resource := by
  have hkept : resource ∉ w.deleted := by
    simp only [available, Bool.and_eq_true, Bool.not_eq_true', List.contains_eq_mem, decide_eq_false_iff_not] at ha
    exact ha.2
  refine ⟨hkept, fun key row hrow haction habout => ?_⟩
  obtain ⟨other, hother, habout'⟩ := h.earned key row hrow haction
  rw [habout'.unique habout] at hother
  exact hkept hother

/-- An operation that adds no resolution. -/
theorem Accounted.of_database (h : w.Accounted) (db' : Db ρ σ)
    (hrows : ∀ key row, db'.auditEvents.get key = some row → row.action = "sandbox.cleanup-resolved" →
      w.db.auditEvents.get key = some row) (recorded : List QuarantineResource) :
    ({ w with db := db', recorded := recorded } : QuarantineWorld ρ σ).Accounted := by
  have hkept : ∀ {resource : ProviderResource}, Unresolved w.db resource → Unresolved db' resource :=
    fun hu key row hrow haction => hu key row (hrows key row hrow haction) haction
  constructor
  · intro key row hrow haction
    exact h.earned key row (hrows key row hrow haction) haction
  · intro n input hcall
    obtain ⟨hdeleted, hunresolved, hapart, honly⟩ := h.recording n input hcall
    exact ⟨hdeleted, hkept hunresolved, hapart, honly⟩
  · intro x hx
    obtain ⟨hdeleted, hunresolved⟩ := h.interrupted x hx
    exact ⟨hdeleted, hkept hunresolved⟩

theorem move_calls (w : QuarantineWorld ρ σ) (n : Nat) (c : ResolveCall) (m : Nat) :
    (w.move n c).calls m = if m = n then c else w.calls m := rfl

/-- A call that leaves its stage, or reaches one at which it records nothing. -/
theorem Accounted.of_move (h : w.Accounted) (n : Nat) {c : ResolveCall} (hc : ∀ input, c ≠ .recording input) :
    (w.move n c).Accounted := by
  have hcall : ∀ m input, (w.move n c).calls m = .recording input → w.calls m = .recording input := by
    intro m input hm
    rw [move_calls] at hm
    split at hm
    · exact absurd hm (hc input)
    · exact hm
  refine ⟨h.earned, fun m input hm => ?_, h.interrupted⟩
  obtain ⟨hdeleted, hunresolved, hapart, honly⟩ := h.recording m input (hcall m input hm)
  exact ⟨hdeleted, hunresolved, hapart, fun k other hk => honly k other (hcall k other hk)⟩

/-- The provider deletes a resource for a call that goes on to record it. -/
theorem Accounted.of_deletion (h : w.Accounted) (n : Nat) {input : QuarantineResource}
    (ha : w.available input.resource = true) :
    ({ w.move n (.recording input) with deleted := input.resource :: w.deleted } : QuarantineWorld ρ σ).Accounted := by
  obtain ⟨hkept, hunresolved⟩ := h.of_available ha
  have hothers : ∀ m other, w.calls m = .recording other → other.resource ≠ input.resource := by
    intro m other hm he
    exact hkept (he ▸ (h.recording m other hm).1)
  have hcall : ∀ m other, (w.move n (.recording input)).calls m = .recording other →
      (m = n ∧ other = input) ∨ w.calls m = .recording other := by
    intro m other hm
    rw [move_calls] at hm
    split at hm
    · rename_i hmn
      exact .inl ⟨hmn, (ResolveCall.recording.inj hm).symm⟩
    · exact .inr hm
  constructor
  · intro key row hrow haction
    obtain ⟨resource, hdeleted, habout⟩ := h.earned key row hrow haction
    exact ⟨resource, List.mem_cons_of_mem _ hdeleted, habout⟩
  · intro m other hm
    rcases hcall m other hm with ⟨rfl, rfl⟩ | hold
    · refine ⟨List.mem_cons_self, hunresolved, fun x hx he => hkept (he ▸ (h.interrupted x hx).1), ?_⟩
      intro k third hk he
      rcases hcall k third hk with ⟨rfl, -⟩ | hkold
      · rfl
      · exact absurd he (hothers k third hkold)
    · obtain ⟨hdeleted, hunresolved', hapart, honly⟩ := h.recording m other hold
      refine ⟨List.mem_cons_of_mem _ hdeleted, hunresolved', hapart, ?_⟩
      intro k third hk he
      rcases hcall k third hk with ⟨rfl, rfl⟩ | hkold
      · exact absurd he.symm (hothers m other hold)
      · exact honly k third hkold he
  · intro x hx
    obtain ⟨hdeleted, hunresolved'⟩ := h.interrupted x hx
    exact ⟨List.mem_cons_of_mem _ hdeleted, hunresolved'⟩

/-- The provider deletes a resource, and the call fails. -/
theorem Accounted.of_unheard (h : w.Accounted) (n : Nat) {input : QuarantineResource}
    (ha : w.available input.resource = true) :
    ({ w.move n .threw with
        deleted := input.resource :: w.deleted
        interrupted := input :: w.interrupted } : QuarantineWorld ρ σ).Accounted := by
  obtain ⟨hkept, hunresolved⟩ := h.of_available ha
  have hm := h.of_move n (c := .threw) (fun _ => nofun)
  constructor
  · intro key row hrow haction
    obtain ⟨resource, hdeleted, habout⟩ := h.earned key row hrow haction
    exact ⟨resource, List.mem_cons_of_mem _ hdeleted, habout⟩
  · intro m other hcall
    obtain ⟨hdeleted, hunresolved', hapart, honly⟩ := hm.recording m other hcall
    refine ⟨List.mem_cons_of_mem _ hdeleted, hunresolved', ?_, honly⟩
    intro x hx he
    rcases List.mem_cons.mp hx with rfl | hx
    · exact hkept (he ▸ hdeleted)
    · exact hapart x hx he
  · intro x hx
    rcases List.mem_cons.mp hx with rfl | hx
    · exact ⟨List.mem_cons_self, hunresolved⟩
    · obtain ⟨hdeleted, hunresolved'⟩ := h.interrupted x hx
      exact ⟨List.mem_cons_of_mem _ hdeleted, hunresolved'⟩

/-- A call that was about to record a resolution does not do so. -/
theorem Accounted.of_interruption (h : w.Accounted) {n : Nat} {input : QuarantineResource} {c : ResolveCall}
    (hcall : w.calls n = .recording input) (hc : ∀ input, c ≠ .recording input) :
    ({ w.move n c with interrupted := input :: w.interrupted } : QuarantineWorld ρ σ).Accounted := by
  obtain ⟨hdeleted, hunresolved, -, honly⟩ := h.recording n input hcall
  have hm := h.of_move n hc
  refine ⟨hm.earned, fun m other hother => ?_, fun x hx => ?_⟩
  · obtain ⟨hdeleted', hunresolved', hapart, honly'⟩ := hm.recording m other hother
    refine ⟨hdeleted', hunresolved', fun x hx he => ?_, honly'⟩
    rcases List.mem_cons.mp hx with rfl | hx
    · rw [move_calls] at hother
      split at hother
      · exact hc other hother
      · rename_i hmn
        exact hmn (honly m other hother he.symm)
    · exact hapart x hx he
  · rcases List.mem_cons.mp hx with rfl | hx
    · exact ⟨hdeleted, hunresolved⟩
    · exact h.interrupted x hx

variable [Sha256]

/-- A resolution is appended by the call that had the resource deleted. -/
theorem Accounted.of_resolution (h : w.Accounted) {n : Nat} {input : QuarantineResource} {c : ResolveCall}
    (hcall : w.calls n = .recording input) (hc : ∀ input, c ≠ .recording input) {at' : Instant} {u : Unit}
    {db' : Db ρ σ} (hok : appendAudit (input.resolvedEvent at') w.db = (.ok u, db')) :
    ({ w.move n c with db := db' } : QuarantineWorld ρ σ).Accounted := by
  obtain ⟨hdeleted, -, hinterrupted, honly⟩ := h.recording n input hcall
  have habout : (input.resolvedEvent at').row.About input.resource :=
    (AuditRow.names_iff.mp (resolved_names input at')).2.2.2
  have hrows : ∀ key row, db'.auditEvents.get key = some row →
      row = (input.resolvedEvent at').row ∨ w.db.auditEvents.get key = some row := by
    intro key row hrow
    obtain ⟨hfresh, rfl⟩ := appendAudit_ok hok
    rcases Table.get_insert_cases hfresh hrow with ⟨-, rfl⟩ | hold
    · exact .inl rfl
    · exact .inr hold
  have hkept : ∀ {resource : ProviderResource}, resource ≠ input.resource → Unresolved w.db resource →
      Unresolved db' resource := by
    intro resource hne hu key row hrow haction hrowAbout
    rcases hrows key row hrow with rfl | hold
    · exact hne (hrowAbout.unique habout)
    · exact hu key row hold haction hrowAbout
  have hm := h.of_move n hc
  constructor
  · intro key row hrow haction
    rcases hrows key row hrow with rfl | hold
    · exact ⟨input.resource, hdeleted, habout⟩
    · exact h.earned key row hold haction
  · intro m other hother
    obtain ⟨hdeleted', hunresolved', hapart, honly'⟩ := hm.recording m other hother
    refine ⟨hdeleted', hkept (fun he => ?_) hunresolved', hapart, honly'⟩
    rw [move_calls] at hother
    split at hother
    · exact hc other hother
    · rename_i hmn
      exact hmn (honly m other hother he)
  · intro x hx
    obtain ⟨hdeleted', hunresolved'⟩ := h.interrupted x hx
    exact ⟨hdeleted', hkept (hinterrupted x hx) hunresolved'⟩

theorem record_rows {r : QuarantineResource} {at' : Instant} {attempt : Attempt} {db : Db ρ σ} (key : Key)
    (row : AuditRow) (hrow : (attempt.transaction (recordQuarantine r at') db).2.auditEvents.get key = some row) :
    db.auditEvents.get key = some row ∨ (r.recordable = true ∧ key.tenantId = r.tenantId ∧
      row = (r.quarantinedEvent at').row) := by
  rcases transaction_database attempt (recordQuarantine r at') db with hsame | ⟨u, hok⟩
  · rw [hsame] at hrow
    exact .inl hrow
  · obtain ⟨hvalid, hfresh, hdb⟩ := recordQuarantine_ok hok
    rw [hdb] at hrow
    rcases Table.get_insert_cases hfresh hrow with ⟨rfl, rfl⟩ | hold
    · exact .inr ⟨hvalid, rfl, rfl⟩
    · exact .inl hold

variable [ResultDocument ρ] [RequestDocument σ]

theorem retention_change (attempt : Attempt) (operation : RetentionOperation) (db : Db ρ σ) :
    AuditChange operation.Purges db (attempt.transaction operation.statement db).2 := by
  rcases transaction_database attempt operation.statement db with hsame | ⟨u, hok⟩
  · rw [hsame]
    exact ⟨fun _ _ hrow _ => hrow, fun _ _ => .inl⟩
  · exact RetentionOperation.change hok

omit [Sha256] [ResultDocument ρ] [RequestDocument σ] in
theorem insertAuditEvent_growth {key : Key} {row : AuditRow} (hforeign : row.Foreign) (db : Db ρ σ) :
    AuditGrowth db (insertAuditEvent key row db).2 := by
  cases hok : insertAuditEvent key row db with
  | mk reply db' =>
    cases reply with
    | ok u =>
      obtain ⟨hfresh, rfl⟩ := insertAuditEvent_ok hok
      exact .of_insert hfresh hforeign rfl
    | error e =>
      unfold insertAuditEvent at hok
      split at hok
      · cases hok
      · rw [← (Prod.mk.inj hok).2]
        exact .of_same rfl

/-- Whatever happens, what is resolved was deleted. -/
theorem accounted_step (h : w.Accounted) (action : QuarantineAction ρ σ) : (step action w).Accounted := by
  cases action with
  | provide resource => exact ⟨h.earned, h.recording, h.interrupted⟩
  | record r at' attempt =>
    refine h.of_database _ (fun key row hrow haction => ?_) _
    rcases record_rows key row hrow with hold | ⟨-, -, rfl⟩
    · exact hold
    · exact absurd haction (by decide : "sandbox.cleanup-quarantined" ≠ "sandbox.cleanup-resolved")
  | resolve n input =>
    simp only [step]
    split
    · refine h.of_move n fun other he => ?_
      unfold ResolveCall.begin at he
      split at he
      · cases he
      · split at he
        · cases he
        · split at he <;> cases he
    · exact h
  | delete n reply =>
    simp only [step]
    split
    · split
      · rename_i ha
        cases reply with
        | deletes => exact h.of_deletion n ha
        | fails => exact h.of_move n fun _ => nofun
        | deletesUnheard => exact h.of_unheard n ha
      · exact h.of_move n fun _ => nofun
    · exact h
  | append n at' attempt =>
    simp only [step]
    split
    · rename_i input hcall
      rcases transaction_cases attempt (appendAudit (input.resolvedEvent at')) w.db with ⟨e, he⟩ | ⟨u, db', hok, hr | hr⟩
      · rw [he]
        dsimp only
        split
        · refine h.of_move n ?_
          exact fun _ => nofun
        · refine h.of_interruption hcall ?_
          exact fun _ => nofun
      · rw [hr]
        refine h.of_resolution hcall ?_ hok
        exact fun _ => nofun
      · rw [hr]
        dsimp only
        have hresolved : (lookupQuarantine input db').resolved = true := by
          obtain ⟨hfresh, rfl⟩ := appendAudit_ok hok
          exact lookup_resolved.mpr ⟨_, _, Table.get_insert_self hfresh, resolved_names input at'⟩
        rw [if_pos hresolved]
        refine h.of_resolution hcall ?_ hok
        exact fun _ => nofun
    · exact h
  | confirm n answers =>
    simp only [step]
    split
    · refine h.of_move n fun other he => ?_
      split at he <;> cases he
    · exact h
  | crash n =>
    simp only [step]
    split
    · rename_i input hcall
      refine h.of_interruption hcall ?_
      exact fun _ => nofun
    · exact h.of_move n fun _ => nofun
    · exact h.of_move n fun _ => nofun
    · exact h
  | retention attempt operation => exact h.of_database _ (retention_change attempt operation w.db).resolutions _
  | audit key row =>
    simp only [step]
    split
    · exact h
    · rename_i hforeign
      simp only [Bool.or_eq_true, decide_eq_true_eq, not_or] at hforeign
      exact h.of_database _ (insertAuditEvent_growth hforeign w.db).resolutions _
  | others db => exact h.of_database { db with auditEvents := w.db.auditEvents } (fun _ _ hrow _ => hrow) w.recorded

omit [Sha256] [ResultDocument ρ] [RequestDocument σ] in
theorem accounted_initial {db : Db ρ σ} (hdb : ∀ key row, db.auditEvents.get key = some row → row.Foreign) :
    (initial db).Accounted where
  earned := fun key row hrow haction => absurd haction (hdb key row hrow).2
  recording := fun _ _ hcall => nomatch hcall
  interrupted := fun _ hx => nomatch hx

theorem accounted_run {db : Db ρ σ} (hdb : ∀ key row, db.auditEvents.get key = some row → row.Foreign)
    (actions : List (QuarantineAction ρ σ)) : (Runs.run step actions (initial db)).Accounted := by
  have hkeeps : ∀ (w : QuarantineWorld ρ σ) (action : QuarantineAction ρ σ), Accounted w → Accounted (step action w) :=
    fun w action hw => accounted_step hw action
  exact Runs.run_keeps hkeeps (accounted_initial hdb)

/-! ## Interruptions -/

/-- The resource is gone, and no call is about to say so. -/
structure Lost (w : QuarantineWorld ρ σ) (resource : ProviderResource) : Prop where
  deleted : resource ∈ w.deleted
  unresolved : Unresolved w.db resource
  unrecorded : ∀ n input, w.calls n = .recording input → input.resource ≠ resource

omit [Sha256] [ResultDocument ρ] [RequestDocument σ] in
theorem Accounted.lost (h : w.Accounted) {x : QuarantineResource} (hx : x ∈ w.interrupted) : w.Lost x.resource where
  deleted := (h.interrupted x hx).1
  unresolved := (h.interrupted x hx).2
  unrecorded := fun n input hcall he => (h.recording n input hcall).2.2.1 x hx he.symm

/-- The call has no answer for the resource, and is not about to have one. -/
def Unanswered (resource : ProviderResource) : ResolveCall → Prop
  | .recording input => input.resource ≠ resource
  | .confirming input => input.resource ≠ resource
  | .returned input _ => input.resource ≠ resource
  | _ => True

section lost

variable {resource : ProviderResource}

omit [Sha256] [ResultDocument ρ] [RequestDocument σ] in
theorem Lost.of_move (h : w.Lost resource) (n : Nat) {c : ResolveCall} (hc : Unanswered resource c) :
    (w.move n c).Lost resource ∧
      ∀ m, Unanswered resource (w.calls m) → Unanswered resource ((w.move n c).calls m) := by
  refine ⟨⟨h.deleted, h.unresolved, fun m input hcall => ?_⟩, fun m hm => ?_⟩
  · rw [move_calls] at hcall
    split at hcall
    · rw [hcall] at hc
      exact hc
    · exact h.unrecorded m input hcall
  · rw [move_calls]
    split
    · exact hc
    · exact hm

omit [Sha256] [ResultDocument ρ] [RequestDocument σ] in
theorem Lost.of_database (h : w.Lost resource) (db' : Db ρ σ)
    (hrows : ∀ key row, db'.auditEvents.get key = some row → row.action = "sandbox.cleanup-resolved" →
      w.db.auditEvents.get key = some row) (recorded : List QuarantineResource) :
    ({ w with db := db', recorded := recorded } : QuarantineWorld ρ σ).Lost resource :=
  ⟨h.deleted, fun key row hrow haction => h.unresolved key row (hrows key row hrow haction) haction, h.unrecorded⟩

omit [ResultDocument ρ] [RequestDocument σ] in
/-- A resolution of another resource. -/
theorem Lost.of_resolution (h : w.Lost resource) {input : QuarantineResource} (hne : input.resource ≠ resource)
    {at' : Instant} {u : Unit} {db' : Db ρ σ} (hok : appendAudit (input.resolvedEvent at') w.db = (.ok u, db')) :
    ({ w with db := db' } : QuarantineWorld ρ σ).Lost resource := by
  refine ⟨h.deleted, fun key row hrow haction habout => ?_, h.unrecorded⟩
  obtain ⟨hfresh, rfl⟩ := appendAudit_ok hok
  rcases Table.get_insert_cases hfresh hrow with ⟨-, rfl⟩ | hold
  · exact hne ((AuditRow.names_iff.mp (resolved_names input at')).2.2.2.unique habout)
  · exact h.unresolved key row hold haction habout

omit [Sha256] [ResultDocument ρ] [RequestDocument σ] in
theorem Lost.begin (h : w.Lost resource) (input : QuarantineResource) :
    Unanswered resource (.begin input w.db) := by
  unfold ResolveCall.begin
  split
  · trivial
  · split
    · rename_i hresolved
      intro he
      rw [← he] at h
      rw [h.unresolved.lookup] at hresolved
      cases hresolved
    · split <;> trivial

/-- What is lost stays lost, and no call gets an answer for it. -/
theorem lost_step (h : w.Lost resource) (action : QuarantineAction ρ σ) :
    (step action w).Lost resource ∧
      ∀ n, Unanswered resource (w.calls n) → Unanswered resource ((step action w).calls n) := by
  cases action with
  | provide resource => exact ⟨⟨h.deleted, h.unresolved, h.unrecorded⟩, fun _ => id⟩
  | record r at' attempt =>
    refine ⟨h.of_database _ (fun key row hrow haction => ?_) _, fun _ => id⟩
    rcases record_rows key row hrow with hold | ⟨-, -, rfl⟩
    · exact hold
    · exact absurd haction (by decide : "sandbox.cleanup-quarantined" ≠ "sandbox.cleanup-resolved")
  | resolve n input =>
    simp only [step]
    split
    · exact h.of_move n (h.begin input)
    · exact ⟨h, fun _ => id⟩
  | delete n reply =>
    simp only [step]
    split
    · rename_i input _
      split
      · rename_i ha
        have hne : input.resource ≠ resource := by
          intro he
          simp only [available, he, Bool.and_eq_true, Bool.not_eq_true', List.contains_eq_mem,
            decide_eq_false_iff_not] at ha
          exact ha.2 h.deleted
        cases reply with
        | deletes =>
          obtain ⟨hmoved, hcalls⟩ := h.of_move n (c := .recording input) hne
          exact ⟨⟨List.mem_cons_of_mem _ hmoved.deleted, hmoved.unresolved, hmoved.unrecorded⟩, hcalls⟩
        | fails => exact h.of_move n trivial
        | deletesUnheard =>
          obtain ⟨hmoved, hcalls⟩ := h.of_move n (c := .threw) trivial
          exact ⟨⟨List.mem_cons_of_mem _ hmoved.deleted, hmoved.unresolved, hmoved.unrecorded⟩, hcalls⟩
      · exact h.of_move n trivial
    · exact ⟨h, fun _ => id⟩
  | append n at' attempt =>
    simp only [step]
    split
    · rename_i input hcall
      have hne := h.unrecorded n input hcall
      rcases transaction_cases attempt (appendAudit (input.resolvedEvent at')) w.db with ⟨e, he⟩ | ⟨u, db', hok, hr | hr⟩
      · rw [he]
        obtain ⟨hmoved, hcalls⟩ := h.of_move n (c := .confirming input) hne
        exact ⟨⟨hmoved.deleted, hmoved.unresolved, hmoved.unrecorded⟩, hcalls⟩
      · rw [hr]
        obtain ⟨hmoved, hcalls⟩ := (h.of_resolution hne hok).of_move n (c := .returned input true) hne
        exact ⟨⟨hmoved.deleted, hmoved.unresolved, hmoved.unrecorded⟩, hcalls⟩
      · rw [hr]
        obtain ⟨hmoved, hcalls⟩ := (h.of_resolution hne hok).of_move n (c := .confirming input) hne
        exact ⟨⟨hmoved.deleted, hmoved.unresolved, hmoved.unrecorded⟩, hcalls⟩
    · exact ⟨h, fun _ => id⟩
  | confirm n answers =>
    simp only [step]
    split
    · rename_i input _
      refine h.of_move n ?_
      split
      · rename_i hanswer
        intro he
        rw [← he] at h
        rw [h.unresolved.lookup, Bool.and_false] at hanswer
        cases hanswer
      · trivial
    · exact ⟨h, fun _ => id⟩
  | crash n =>
    simp only [step]
    split
    · obtain ⟨hmoved, hcalls⟩ := h.of_move n (c := .threw) trivial
      exact ⟨⟨hmoved.deleted, hmoved.unresolved, hmoved.unrecorded⟩, hcalls⟩
    · exact h.of_move n trivial
    · exact h.of_move n trivial
    · exact ⟨h, fun _ => id⟩
  | retention attempt operation =>
    exact ⟨h.of_database _ (retention_change attempt operation w.db).resolutions _, fun _ => id⟩
  | audit key row =>
    simp only [step]
    split
    · exact ⟨h, fun _ => id⟩
    · rename_i hforeign
      simp only [Bool.or_eq_true, decide_eq_true_eq, not_or] at hforeign
      exact ⟨h.of_database _ (insertAuditEvent_growth hforeign w.db).resolutions _, fun _ => id⟩
  | others db =>
    exact ⟨h.of_database { db with auditEvents := w.db.auditEvents } (fun _ _ hrow _ => hrow) w.recorded, fun _ => id⟩

end lost

/-- A call of `resolve` for the resource returns, now or after further steps. -/
def Recoverable (w : QuarantineWorld ρ σ) (r : QuarantineResource) : Prop :=
  ∃ later n input changed, w.calls n = .idle ∧ input.resource = r.resource ∧
    (Runs.run step later w).calls n = .returned input changed

/-- No later call resolves what was interrupted. -/
theorem Accounted.unrecoverable (h : w.Accounted) {x : QuarantineResource} (hx : x ∈ w.interrupted) :
    ¬ Recoverable w x := by
  rintro ⟨later, n, input, changed, hidle, hresource, hreturned⟩
  have hrun : ∀ w : QuarantineWorld ρ σ, w.Lost x.resource ∧ Unanswered x.resource (w.calls n) →
      ∀ later, Unanswered x.resource ((Runs.run step later w).calls n) := by
    intro w hw later
    have hkeeps : ∀ (w : QuarantineWorld ρ σ) (action : QuarantineAction ρ σ),
        w.Lost x.resource ∧ Unanswered x.resource (w.calls n) →
          (step action w).Lost x.resource ∧ Unanswered x.resource ((step action w).calls n) := by
      rintro w action ⟨hlost, hunanswered⟩
      obtain ⟨hlost', hcalls⟩ := lost_step hlost action
      exact ⟨hlost', hcalls n hunanswered⟩
    exact (Runs.run_keeps hkeeps hw).2
  have hend := hrun w ⟨h.lost hx, by rw [hidle]; trivial⟩ later
  rw [hreturned] at hend
  exact hend hresource

/-! ## Runs that forget nothing -/

/-- No listing fails over a recorded identifier; no deletion is lost between the provider and the audit; no
tenant is purged while a resource of its attempts is quarantined and not deleted. -/
def Careful (w : QuarantineWorld ρ σ) : QuarantineAction ρ σ → Prop
  | .record r _ _ => controlCharacters r.providerResourceId = false
  | .delete _ reply => reply ≠ .deletesUnheard
  | .append n at' attempt => ∀ input, w.calls n = .recording input →
    (attempt = .runs ∨ attempt = .failsAfter) ∧ ∃ db, appendAudit (input.resolvedEvent at') w.db = (.ok (), db)
  | .crash n => ∀ input, w.calls n ≠ .recording input
  | .retention _ operation => ∀ r ∈ w.recorded, operation.Purges r.tenantId → r.resource ∈ w.deleted
  | _ => True

/-- A listing that is long enough names the resource. -/
def Listed (db : Db ρ σ) (r : QuarantineResource) : Prop :=
  ∃ quarantine : OpenQuarantine, (quarantine.tenantId = r.tenantId ∧ quarantine.attemptId = r.attemptId ∧
      quarantine.resourceType = r.resourceType ∧ quarantine.providerResourceId = r.providerResourceId) ∧
    (∃ row ∈ openRows db, parseQuarantineRow row = some quarantine) ∧
    ∀ limit : Int, 1 ≤ limit → limit ≤ 100 → (openRows db).length ≤ limit →
      ∃ listed, listOpen limit db = (.ok listed, db) ∧ quarantine ∈ listed

/-- What was quarantined is listed until it is deleted, what is resolved was deleted, and what was interrupted
can be resolved. -/
structure Unforgotten (w : QuarantineWorld ρ σ) : Prop where
  listed : ∀ r ∈ w.recorded, r.resource ∉ w.deleted → Listed w.db r
  earned : ∀ r, (lookupQuarantine r w.db).resolved = true → r.resource ∈ w.deleted
  recoverable : ∀ r ∈ w.interrupted, Recoverable w r

/-- The invariant of careful runs. -/
structure Remembered (w : QuarantineWorld ρ σ) : Prop where
  parses : ∀ key row, w.db.auditEvents.get key = some row → row.action = "sandbox.cleanup-quarantined" →
    (parseQuarantineRow (key, row)).isSome = true
  quarantined : ∀ r ∈ w.recorded, r.resource ∉ w.deleted → (lookupQuarantine r w.db).quarantined = true
  uninterrupted : w.interrupted = []

omit [Sha256] [ResultDocument ρ] [RequestDocument σ] in
theorem remembered_initial {db : Db ρ σ} (hdb : ∀ key row, db.auditEvents.get key = some row → row.Foreign) :
    (initial db).Remembered where
  parses := fun key row hrow haction => absurd haction (hdb key row hrow).1
  quarantined := fun _ hr => nomatch hr
  uninterrupted := rfl

omit [ResultDocument ρ] [RequestDocument σ] in
/-- What the sink accepts without control characters is listed without an error. -/
theorem quarantined_parses {r : QuarantineResource} (hvalid : r.recordable = true)
    (hprintable : controlCharacters r.providerResourceId = false) (at' : Instant) {key : Key}
    (hkey : key.tenantId = r.tenantId) : (parseQuarantineRow (key, (r.quarantinedEvent at').row)).isSome = true := by
  have hid : (r.quarantinedEvent at').row.metadataText "providerId" = some r.providerResourceId := rfl
  have hkind : (r.quarantinedEvent at').row.metadataText "cleanupKind" = some r.resourceType.text := rfl
  have htarget : (r.quarantinedEvent at').row.targetId = r.attemptId := rfl
  simp only [QuarantineResource.recordable, Bool.and_eq_true] at hvalid
  obtain ⟨⟨⟨⟨-, hattempt⟩, hshort⟩, hlong⟩, htenant⟩ := hvalid
  simp only [parseQuarantineRow, hid, hkind, htarget, Option.bind_some, QuarantineResourceType.ofText_text,
    providerResourceId, hprintable, hshort, hlong, hattempt, hkey, htenant, Bool.not_false, Bool.and_self,
    if_true, Option.isSome_some]

omit [Sha256] [ResultDocument ρ] [RequestDocument σ] in
/-- Rows that an operation keeps, and resources that it does not bring back. -/
theorem Remembered.of_database (h : w.Remembered) {lost : String → Prop} {db' : Db ρ σ}
    (hc : AuditChange lost w.db db') (hlost : ∀ r ∈ w.recorded, lost r.tenantId → r.resource ∈ w.deleted) :
    ({ w with db := db' } : QuarantineWorld ρ σ).Remembered := by
  refine ⟨fun key row hrow haction => ?_, fun r hr hkept => ?_, h.uninterrupted⟩
  · rcases hc.fresh key row hrow with hold | hforeign
    · exact h.parses key row hold haction
    · exact absurd haction hforeign.1
  · obtain ⟨key, row, hrow, hnames⟩ := lookup_quarantined.mp (h.quarantined r hr hkept)
    have htenant : ¬ lost key.tenantId := by
      rw [(AuditRow.names_iff.mp hnames).1]
      exact fun hgone => hkept (hlost r hr hgone)
    exact lookup_quarantined.mpr ⟨key, row, hc.kept key row hrow htenant, hnames⟩

omit [Sha256] [ResultDocument ρ] [RequestDocument σ] in
theorem Remembered.of_deletion (h : w.Remembered) (resource : ProviderResource) (calls : Nat → ResolveCall) :
    ({ w with deleted := resource :: w.deleted, calls := calls } : QuarantineWorld ρ σ).Remembered :=
  ⟨h.parses, fun r hr hkept => h.quarantined r hr fun hold => hkept (List.mem_cons_of_mem _ hold), h.uninterrupted⟩

omit [ResultDocument ρ] [RequestDocument σ] in
theorem Remembered.of_resolution (h : w.Remembered) {input : QuarantineResource} {at' : Instant} {u : Unit}
    {db' : Db ρ σ} (hok : appendAudit (input.resolvedEvent at') w.db = (.ok u, db')) :
    ({ w with db := db' } : QuarantineWorld ρ σ).Remembered := by
  obtain ⟨hfresh, rfl⟩ := appendAudit_ok hok
  refine ⟨fun key row hrow haction => ?_, fun r hr hkept => ?_, h.uninterrupted⟩
  · rcases Table.get_insert_cases hfresh hrow with ⟨-, rfl⟩ | hold
    · exact absurd haction (by decide : "sandbox.cleanup-resolved" ≠ "sandbox.cleanup-quarantined")
    · exact h.parses key row hold haction
  · obtain ⟨key, row, hrow, hnames⟩ := lookup_quarantined.mp (h.quarantined r hr hkept)
    exact lookup_quarantined.mpr ⟨key, row, Table.get_insert_some hrow, hnames⟩

omit [ResultDocument ρ] [RequestDocument σ] in
theorem Remembered.of_record (h : w.Remembered) {r : QuarantineResource}
    (hprintable : controlCharacters r.providerResourceId = false) (at' : Instant) (attempt : Attempt) :
    ({ w with
        db := (attempt.transaction (recordQuarantine r at') w.db).2
        recorded := if (lookupQuarantine r (attempt.transaction (recordQuarantine r at') w.db).2).quarantined then
          r :: w.recorded else w.recorded } : QuarantineWorld ρ σ).Remembered := by
  have hkept : ∀ key row, w.db.auditEvents.get key = some row →
      (attempt.transaction (recordQuarantine r at') w.db).2.auditEvents.get key = some row := by
    intro key row hrow
    rcases transaction_database attempt (recordQuarantine r at') w.db with hsame | ⟨u, hok⟩
    · rw [hsame]
      exact hrow
    · rw [(recordQuarantine_ok hok).2.2]
      exact Table.get_insert_some hrow
  have hold : ∀ x ∈ w.recorded, x.resource ∉ w.deleted →
      (lookupQuarantine x (attempt.transaction (recordQuarantine r at') w.db).2).quarantined = true := by
    intro x hx hopen
    obtain ⟨key, row, hrow, hnames⟩ := lookup_quarantined.mp (h.quarantined x hx hopen)
    exact lookup_quarantined.mpr ⟨key, row, hkept key row hrow, hnames⟩
  refine ⟨fun key row hrow haction => ?_, fun x hx hopen => ?_, h.uninterrupted⟩
  · rcases record_rows key row hrow with hrow | ⟨hvalid, hkey, rfl⟩
    · exact h.parses key row hrow haction
    · exact quarantined_parses hvalid hprintable at' hkey
  · dsimp only at hx
    split at hx
    · rename_i hquarantined
      rcases List.mem_cons.mp hx with rfl | hx
      · exact hquarantined
      · exact hold x hx hopen
    · exact hold x hx hopen

omit [Sha256] [ResultDocument ρ] [RequestDocument σ] in
theorem Remembered.of_move (h : w.Remembered) (n : Nat) (c : ResolveCall) : (w.move n c).Remembered :=
  ⟨h.parses, h.quarantined, h.uninterrupted⟩

theorem remembered_step (h : w.Remembered) (action : QuarantineAction ρ σ) (hcareful : w.Careful action) :
    (step action w).Remembered := by
  cases action with
  | provide resource => exact ⟨h.parses, h.quarantined, h.uninterrupted⟩
  | record r at' attempt => exact h.of_record hcareful at' attempt
  | resolve n input =>
    simp only [step]
    split
    · exact h.of_move n _
    · exact h
  | delete n reply =>
    simp only [step]
    split
    · split
      · cases reply with
        | deletes => exact h.of_deletion _ _
        | fails => exact h.of_move n _
        | deletesUnheard => exact absurd rfl hcareful
      · exact h.of_move n _
    · exact h
  | append n at' attempt =>
    simp only [step]
    split
    · rename_i input hcall
      obtain ⟨hattempt, db, hok⟩ := hcareful input hcall
      have hatomically := atomically_ok.mpr hok
      rcases hattempt with rfl | rfl
      · simp only [Attempt.transaction, hatomically]
        exact (h.of_resolution hok).of_move n _
      · have hresolved : (lookupQuarantine input db).resolved = true := by
          obtain ⟨hfresh, rfl⟩ := appendAudit_ok hok
          exact lookup_resolved.mpr ⟨_, _, Table.get_insert_self hfresh, resolved_names input at'⟩
        simp only [Attempt.transaction, hatomically, hresolved, if_true]
        exact (h.of_resolution hok).of_move n _
    · exact h
  | confirm n answers =>
    simp only [step]
    split
    · exact h.of_move n _
    · exact h
  | crash n =>
    simp only [step]
    split
    · rename_i input hcall
      exact absurd hcall (hcareful input)
    · exact h.of_move n _
    · exact h.of_move n _
    · exact h
  | retention attempt operation => exact h.of_database (retention_change attempt operation w.db) hcareful
  | audit key row =>
    simp only [step]
    split
    · exact h
    · rename_i hforeign
      simp only [Bool.or_eq_true, decide_eq_true_eq, not_or] at hforeign
      exact h.of_database (insertAuditEvent_growth hforeign w.db) fun _ _ => False.elim
  | others db => exact ⟨h.parses, h.quarantined, h.uninterrupted⟩

omit [Sha256] [ResultDocument ρ] [RequestDocument σ]

theorem parseQuarantineRow_some {row : Key × AuditRow} {quarantine : OpenQuarantine}
    (h : parseQuarantineRow row = some quarantine) : quarantine.tenantId = row.1.tenantId ∧
      quarantine.attemptId = row.2.targetId ∧ row.2.metadataText "providerId" = some quarantine.providerResourceId ∧
      (row.2.metadataText "cleanupKind").bind QuarantineResourceType.ofText = some quarantine.resourceType := by
  unfold parseQuarantineRow at h
  split at h
  · rename_i hid hkind
    split at h
    · obtain rfl := Option.some.inj h
      exact ⟨rfl, rfl, hid, hkind⟩
    · cases h
  · cases h

theorem forEach_demand {ε α β s : Type} {f : α → Option β} {e : ε} {items : List α}
    (h : ∀ a ∈ items, (f a).isSome = true) (state : s) :
    forEach (fun a => demand (f a) e) items state = (.ok (items.filterMap f), state) := by
  induction items with
  | nil => rfl
  | cons a rest ih =>
    obtain ⟨b, hb⟩ := Option.isSome_iff_exists.mp (h a List.mem_cons_self)
    have hrest := ih fun a' ha' => h a' (List.mem_cons_of_mem a ha')
    refine forEach_cons_ok.mpr ⟨b, state, rest.filterMap f, by rw [hb, demand_some], hrest, ?_⟩
    rw [List.filterMap_cons, hb]

theorem mem_openRows {db : Db ρ σ} {row : Key × AuditRow} : row ∈ openRows db ↔
    db.auditEvents.get row.1 = some row.2 ∧ row.2.action = "sandbox.cleanup-quarantined" ∧
      unresolved db row.1 row.2 = true := by
  rw [openRows, List.mem_mergeSort]
  constructor
  · intro h
    obtain ⟨hget, hcondition⟩ := Table.mem_select.mp h
    simp only [Bool.and_eq_true, beq_iff_eq] at hcondition
    exact ⟨hget, hcondition⟩
  · rintro ⟨hget, haction, hopen⟩
    exact Table.mem_select.mpr ⟨hget, by simp [haction, hopen]⟩

theorem Accounted.resolved (h : w.Accounted) {r : QuarantineResource}
    (hresolved : (lookupQuarantine r w.db).resolved = true) : r.resource ∈ w.deleted := by
  obtain ⟨key, row, hrow, hnames⟩ := lookup_resolved.mp hresolved
  obtain ⟨-, haction, -, habout⟩ := AuditRow.names_iff.mp hnames
  obtain ⟨resource, hdeleted, habout'⟩ := h.earned key row hrow haction
  exact habout'.unique habout ▸ hdeleted

/-- A quarantine of a resource that is not deleted is not resolved. -/
theorem Accounted.open (h : w.Accounted) {r : QuarantineResource} (hkept : r.resource ∉ w.deleted) {key : Key}
    {row : AuditRow} (hnames : row.names "sandbox.cleanup-quarantined" r key = true) :
    unresolved w.db key row = true := by
  rw [unresolved, Option.isNone_iff_eq_none]
  cases hfound : w.db.auditEvents.find? (fun key' x => key'.tenantId == key.tenantId &&
      x.action == "sandbox.cleanup-resolved" && x.targetId == row.targetId &&
      sameText (x.metadataText "providerId") (row.metadataText "providerId") &&
      sameText (x.metadataText "cleanupKind") (row.metadataText "cleanupKind")) with
  | none => rfl
  | some found =>
    exfalso
    obtain ⟨hget, hcondition⟩ := Table.find?_some hfound
    obtain ⟨-, -, -, hid, hkind⟩ := AuditRow.names_iff.mp hnames
    simp only [sameText, hid, hkind, Bool.and_eq_true, beq_iff_eq] at hcondition
    obtain ⟨⟨⟨⟨-, haction⟩, -⟩, -, hid'⟩, -, hkind'⟩ := hcondition
    obtain ⟨resource, hdeleted, habout⟩ := h.earned found.1 found.2 hget haction
    have hsame : resource = r.resource := habout.unique ⟨hid', hkind'⟩
    exact hkept (hsame ▸ hdeleted)

theorem Remembered.listed (h : w.Remembered) (ha : w.Accounted) {r : QuarantineResource} (hr : r ∈ w.recorded)
    (hkept : r.resource ∉ w.deleted) : Listed w.db r := by
  obtain ⟨key, row, hrow, hnames⟩ := lookup_quarantined.mp (h.quarantined r hr hkept)
  obtain ⟨htenant, haction, htarget, hid, hkind⟩ := AuditRow.names_iff.mp hnames
  obtain ⟨quarantine, hparse⟩ := Option.isSome_iff_exists.mp (h.parses key row hrow haction)
  obtain ⟨htenant', htarget', hid', hkind'⟩ := parseQuarantineRow_some hparse
  have hopen : (key, row) ∈ openRows w.db := mem_openRows.mpr ⟨hrow, haction, ha.open hkept hnames⟩
  have hall : ∀ x ∈ openRows w.db, (parseQuarantineRow x).isSome = true := by
    intro x hx
    obtain ⟨hget, hx, -⟩ := mem_openRows.mp hx
    exact h.parses x.1 x.2 hget hx
  refine ⟨quarantine, ⟨htenant'.trans htenant, htarget'.trans htarget, ?_, ?_⟩, ⟨_, hopen, hparse⟩, ?_⟩
  · rw [hkind, Option.bind_some, QuarantineResourceType.ofText_text] at hkind'
    exact (Option.some.inj hkind').symm
  · exact (Option.some.inj (hid.symm.trans hid')).symm
  · intro limit hpositive hhundred hlimit
    have htake : (openRows w.db).take limit.toNat = openRows w.db := List.take_of_length_le (by omega)
    refine ⟨(openRows w.db).filterMap parseQuarantineRow, ?_, List.mem_filterMap.mpr ⟨_, hopen, hparse⟩⟩
    have hlist := forEach_demand (e := DurableError.schema) hall w.db
    simp only [listOpen, bind_apply, hpositive, hhundred, decide_true, Bool.and_self, require_true, read_apply, htake,
      hlist]

variable [Sha256] [ResultDocument ρ] [RequestDocument σ]

theorem unforgotten_of (h : w.Remembered) (ha : w.Accounted) : w.Unforgotten where
  listed := fun _ hr hkept => h.listed ha hr hkept
  earned := fun _ hresolved => ha.resolved hresolved
  recoverable := fun r hr => by
    rw [h.uninterrupted] at hr
    cases hr

end QuarantineWorld

end ReproForge

/-! ## A sample quarantine -/

namespace ReproForge.Sample.Quarantine

/-- The digests that name the events of the resource below and of the deletion of its tenant. -/
scoped instance (priority := 2000) quarantineDigests : Sha256 where
  hex text :=
    if text = "acme\u0000job-1.attempt-1\u0000sandbox\u0000sbx-1" then
      "39cc2800d8a0e51461ef022d8f2288ce60f647640e3faae876fea6233cfd161a"
    else if text = "acme:delete-1" then "f0115a144b84116ec60dbae04fd3a5b67ef08a51063a714365c67724b09f615b"
    else ""

end ReproForge.Sample.Quarantine

namespace ReproForge.Sample

open KeyedTable

def leftover : QuarantineResource := ⟨"user-1", "job-1.attempt-1", "sbx-1", .sandbox, "acme"⟩

/-- The tenant is in deletion, and its executor has deleted every object. -/
def departing : Db Empty Empty :=
  { Db.initial opening (Table.empty.insert "acme" ⟨.deleting, opening, opening, none, none⟩) with
    deletionRequests := Table.empty.insert ⟨"acme", "delete-1"⟩
      ⟨"user-1", .running, some opening, none, none, none, some "executor-1", some (opening + 300000), 2, opening,
        opening⟩ }

def quarantined : List (QuarantineAction Empty Empty) :=
  [.provide leftover.resource, .record leftover opening .runs]

def purgedQuarantine : List (QuarantineAction Empty Empty) :=
  quarantined ++ [.retention .runs
    (.complete ⟨[], opening + 300000, "executor-1", "user-1", "delete-1", "acme", 2⟩ (opening + 1000))]

def deletedResource : List (QuarantineAction Empty Empty) :=
  quarantined ++ [.resolve 0 leftover, .delete 0 .deletes]

def resolvedQuarantine : List (QuarantineAction Empty Empty) := deletedResource ++ [.append 0 opening .runs]

end ReproForge.Sample

namespace ReproForge.QuarantineWorld

open KeyedTable Transactions Transactions.Tx Sample Sample.Quarantine

/-- A purge takes the record of a sandbox that still exists; a crash after the deletion leaves a record that no
call resolves. -/
theorem quarantine_forgotten : ¬ Unforgotten (Runs.run step purgedQuarantine (initial departing)) ∧
    ¬ Unforgotten (Runs.run step (deletedResource ++ [.crash 0]) (initial (Db.initial opening tenants))) := by
  constructor
  · intro h
    have hrun : leftover ∈ (Runs.run step purgedQuarantine (initial departing)).recorded ∧
        (Runs.run step purgedQuarantine (initial departing)).deleted = [] ∧
        ∀ row ∈ (Runs.run step purgedQuarantine (initial departing)).db.auditEvents.rows,
          row.2.action ≠ "sandbox.cleanup-quarantined" := by decide +kernel
    obtain ⟨hrecorded, hdeleted, hrows⟩ := hrun
    obtain ⟨_, -, ⟨row, hrow, -⟩, -⟩ := h.listed leftover hrecorded (by rw [hdeleted]; exact List.not_mem_nil)
    obtain ⟨hget, haction, -⟩ := mem_openRows.mp hrow
    exact hrows row (Table.get_eq_some.mp hget) haction
  · intro h
    have hinterrupted : leftover ∈ (Runs.run step (deletedResource ++ [.crash 0])
        (initial (Db.initial opening tenants))).interrupted := by decide +kernel
    have hempty : ∀ key row, (Db.initial opening tenants : Db Empty Empty).auditEvents.get key = some row →
        row.Foreign := fun _ _ hrow => nomatch hrow
    exact (accounted_run hempty _).unrecoverable hinterrupted (h.recoverable leftover hinterrupted)

section quarantines

variable {ρ σ : Type} [Sha256] [ResultDocument ρ] [RequestDocument σ]

/-- In every run, what is resolved was deleted by the provider before, and what was interrupted stays open for
good. A careful run has nothing interrupted, and what it quarantines is listed until it is deleted. -/
theorem quarantines_remembered (db : Db ρ σ) (hdb : ∀ key row, db.auditEvents.get key = some row → row.Foreign)
    (actions : List (QuarantineAction ρ σ)) :
    (∀ r, (lookupQuarantine r (Runs.run step actions (initial db)).db).resolved = true →
        r.resource ∈ (Runs.run step actions (initial db)).deleted) ∧
      (∀ r ∈ (Runs.run step actions (initial db)).interrupted, ¬ Recoverable (Runs.run step actions (initial db)) r) ∧
      (Runs.Guarded step Careful actions (initial db) → Unforgotten (Runs.run step actions (initial db))) := by
  have haccounted := accounted_run hdb actions
  refine ⟨fun _ hresolved => haccounted.resolved hresolved, fun r hr => haccounted.unrecoverable hr, fun hcareful => ?_⟩
  have hkeeps : ∀ (w : QuarantineWorld ρ σ) (action : QuarantineAction ρ σ), Remembered w → Careful w action →
      Remembered (step action w) := fun w action hw => remembered_step hw action
  exact unforgotten_of (Runs.run_invariant hkeeps (remembered_initial hdb) hcareful) haccounted

end quarantines

theorem deletedResource_careful (db : Db Empty Empty) : Runs.Guarded step Careful deletedResource (initial db) := by
  have hprintable : controlCharacters leftover.providerResourceId = false := by decide +kernel
  exact ⟨trivial, hprintable, trivial, ProviderReply.noConfusion, trivial⟩

theorem quarantines_remembered_sample :
    Unforgotten (Runs.run step resolvedQuarantine (initial (Db.initial opening tenants))) := by
  refine (quarantines_remembered (Db.initial opening tenants) (fun _ _ hrow => nomatch hrow) resolvedQuarantine).2.2 ?_
  have hrun : (Runs.run step deletedResource (initial (Db.initial opening tenants))).calls 0 = .recording leftover ∧
      (appendAudit (leftover.resolvedEvent opening)
        (Runs.run step deletedResource (initial (Db.initial opening tenants))).db).1.toOption = some () := by
    decide +kernel
  refine Runs.guarded_append.mpr ⟨deletedResource_careful _, ?_, trivial⟩
  intro input hcall
  obtain rfl := ResolveCall.recording.inj (hrun.1.symm.trans hcall)
  exact ⟨.inl rfl, _, ok_of_reply hrun.2⟩

end ReproForge.QuarantineWorld
