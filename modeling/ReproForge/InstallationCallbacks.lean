import ReproForge.InstallationStates

/-!
# Installation states are used once

A state is claimed by the callback that consumes its record, and `bind` is the
act behind that claim. What a store promises of its records is all that is
needed of it.
-/
namespace ReproForge

open KeyedTable FirstClaims

variable {β ε : Type}

/-! ## What holds of a flow -/

def CallbackFailure.callback : CallbackFailure → Option InstallationCallback
  | .unauthenticated | .malformed | .undated => none
  | .unconsumed callback | .unverified callback | .substituted callback | .unbound callback => some callback

def InstallationFlow.callback : InstallationFlow → Option InstallationCallback
  | .consuming _ callback | .verifying _ callback | .binding _ callback _ | .connected _ callback _ => some callback
  | .invalid _ failure => failure.callback
  | .idle | .unauthorized | .creating _ | .uncreated _ | .issued _ | .asking _ => none

def InstallationFlow.request : InstallationFlow → Option CallbackRequest
  | .asking request | .consuming request _ | .verifying request _ | .binding request _ _ | .connected request _ _
  | .invalid request _ => some request
  | .idle | .unauthorized | .creating _ | .uncreated _ | .issued _ => none

/-- The row of a record, consumed or not. -/
structure InstallationStateRow.Holds (row : InstallationStateRow) (record : GitHubInstallationStateRecord) : Prop where
  tenantId : row.tenantId = record.actor.tenantId
  principalId : row.principalId = record.actor.principalId
  expiresAt : row.expiresAt = record.expiresAt

/-- The row that a callback has consumed. -/
structure InstallationStateRow.Consumed (row : InstallationStateRow) (callback : InstallationCallback) : Prop where
  tenantId : row.tenantId = callback.actor.tenantId
  principalId : row.principalId = callback.actor.principalId
  consumedAt : row.consumedAt = some callback.at'
  expiresAt : callback.at' ≤ row.expiresAt

namespace Installing

variable [Sha256] {store : InstallationStateStore β ε} {w w' : Installing β} {n m : Nat}
  {next : InstallationFlow}

def FlowHolds (store : InstallationStateStore β ε) (w : Installing β) (n : Nat) : InstallationFlow → Prop
  | .idle | .asking _ | .consuming _ _ => ∀ stateHash, (stateHash, n) ∉ w.ledger.claimed
  | .unauthorized => True
  | .creating authorization | .uncreated authorization =>
    authorization.record.stateHash = Sha256.hex authorization.state
  | .issued authorization => authorization.record.stateHash = Sha256.hex authorization.state ∧
      ∃ row, (store.records w.store).get authorization.record.stateHash = some row ∧ row.Holds authorization.record
  | .verifying _ callback => (callback.stateHash, n) ∈ w.ledger.claimed ∧ ∀ stateHash, (stateHash, n) ∉ w.ledger.acted
  | .binding _ callback _ | .connected _ callback _ => (callback.stateHash, n) ∈ w.ledger.acted
  | .invalid _ (.unbound callback) => (callback.stateHash, n) ∈ w.ledger.acted
  | .invalid _ _ => ∀ stateHash, (stateHash, n) ∉ w.ledger.acted

structure Sound (store : InstallationStateStore β ε) (w : Installing β) : Prop where
  orderly : w.ledger.Orderly
  consumed : ∀ stateHash n, (stateHash, n) ∈ w.ledger.claimed → ∃ callback row, (w.flows n).callback = some callback ∧
    callback.stateHash = stateHash ∧ (store.records w.store).get stateHash = some row ∧ row.Consumed callback
  bound : w.binds.map (fun b => (b.callback.stateHash, b.flow)) = w.ledger.acted
  verified : ∀ b ∈ w.binds, (w.flows b.flow).callback = some b.callback ∧
    ⟨b.flow, b.callback.input.code, b.callback.input.installationId, b.installation⟩ ∈ w.verified ∧
    b.installation.installationId = b.callback.input.installationId
  flows : ∀ n, FlowHolds store w n (w.flows n)

theorem sound_initial (store : InstallationStateStore β ε) (s : β) : Sound store (initial s) where
  orderly := .empty
  consumed := fun _ _ h => (nomatch h)
  bound := rfl
  verified := fun _ h => (nomatch h)
  flows := fun _ _ h => (nomatch h)

/-! ## What a step may change -/

inductive Changes (store : InstallationStateStore β ε) (n : Nat) (next : InstallationFlow) (w w' : Installing β) : Prop where
  | quiet (hrecords : store.records w'.store = store.records w.store) (hledger : w'.ledger = w.ledger)
      (hbinds : w'.binds = w.binds) (hverified : ∀ v ∈ w.verified, v ∈ w'.verified)
  | created (record : GitHubInstallationStateRecord) (hnext : next.request = none)
      (hfree : (store.records w.store).get record.stateHash = none)
      (hrecords : store.records w'.store = (store.records w.store).put record.stateHash record.row)
      (hledger : w'.ledger = w.ledger) (hbinds : w'.binds = w.binds) (hverified : w'.verified = w.verified)
  | consumed (callback : InstallationCallback) (row : InstallationStateRow) (hnext : next.callback = some callback)
      (hrow : (store.records w.store).get callback.stateHash = some row)
      (hadmits : row.admits callback.actor callback.at')
      (hrecords : store.records w'.store =
        (store.records w.store).put callback.stateHash { row with consumedAt := some callback.at' })
      (hledger : w'.ledger = w.ledger.claim callback.stateHash n) (hbinds : w'.binds = w.binds)
      (hverified : w'.verified = w.verified)
  | bound (callback : InstallationCallback) (installation : VerifiedGitHubInstallation)
      (hnext : next.callback = some callback) (hclaimed : (callback.stateHash, n) ∈ w.ledger.claimed)
      (hfirst : (callback.stateHash, n) ∉ w.ledger.acted)
      (hid : installation.installationId = callback.input.installationId)
      (hrecords : store.records w'.store = store.records w.store)
      (hledger : w'.ledger = w.ledger.act callback.stateHash n)
      (hbinds : w'.binds = w.binds ++ [⟨n, callback, installation⟩])
      (hverified : w'.verified =
        w.verified ++ [⟨n, callback.input.code, callback.input.installationId, installation⟩])

/-- Of a hash that can be consumed nobody has consumed the record. -/
theorem Sound.free (hw : Sound store w) {stateHash : String} {row : InstallationStateRow}
    (hrow : (store.records w.store).get stateHash = some row) (hopen : row.consumedAt = none) (i : Nat) :
    (stateHash, i) ∉ w.ledger.claimed := by
  intro hclaimed
  obtain ⟨_, row', -, -, hrow', hconsumed⟩ := hw.consumed stateHash i hclaimed
  obtain rfl := Option.some.inj (hrow.symm.trans hrow')
  have hclosed := hconsumed.consumedAt
  rw [hopen] at hclosed
  cases hclosed

namespace Changes

variable {stateHash : String}

theorem ledger (hc : Changes store n next w w') (hw : Sound store w) : Ledger.Step n w.ledger w'.ledger := by
  cases hc with
  | quiet _ hledger _ _ => exact hledger ▸ .stay
  | created _ _ _ _ hledger _ _ => exact hledger ▸ .stay
  | consumed callback row _ hrow hadmits _ hledger _ _ =>
    exact hledger ▸ .claim callback.stateHash (hw.free hrow hadmits.2.2.1)
  | bound callback _ _ hclaimed hfirst _ _ hledger _ _ =>
    exact hledger ▸ .act callback.stateHash hclaimed hfirst

/-- A row stays, unless it is open and the caller consumes it. -/
theorem row_cases (hc : Changes store n next w w') {row : InstallationStateRow}
    (hrow : (store.records w.store).get stateHash = some row) :
    (store.records w'.store).get stateHash = some row ∨ row.consumedAt = none ∧
      ∃ at', (store.records w'.store).get stateHash = some { row with consumedAt := some at' } := by
  cases hc with
  | quiet hrecords _ _ _ => exact .inl (hrecords ▸ hrow)
  | created record _ hfree hrecords _ _ _ =>
    left
    rw [hrecords, Table.get_put, if_neg]
    · exact hrow
    · rintro rfl
      rw [hfree] at hrow
      cases hrow
  | consumed callback row' _ hrow' hadmits hrecords _ _ _ =>
    rw [hrecords, Table.get_put]
    by_cases hsame : stateHash = callback.stateHash
    · subst hsame
      obtain rfl := Option.some.inj (hrow.symm.trans hrow')
      exact .inr ⟨hadmits.2.2.1, callback.at', if_pos rfl⟩
    · exact .inl ((if_neg hsame).trans hrow)
  | bound _ _ _ _ _ _ hrecords _ _ _ => exact .inl (hrecords ▸ hrow)

theorem row_stays (hc : Changes store n next w w') {row : InstallationStateRow}
    (hrow : (store.records w.store).get stateHash = some row) (hclosed : row.consumedAt ≠ none) :
    (store.records w'.store).get stateHash = some row := by
  rcases hc.row_cases hrow with hsame | ⟨hopen, -⟩
  · exact hsame
  · exact absurd hopen hclosed

/-- A record stays that of whoever asked for it. -/
theorem row_holds (hc : Changes store n next w w') {row : InstallationStateRow} {record : GitHubInstallationStateRecord}
    (hrow : (store.records w.store).get stateHash = some row) (hholds : row.Holds record) :
    ∃ row', (store.records w'.store).get stateHash = some row' ∧ row'.Holds record := by
  rcases hc.row_cases hrow with hsame | ⟨-, at', hconsumed⟩
  · exact ⟨row, hsame, hholds⟩
  · exact ⟨_, hconsumed, hholds.tenantId, hholds.principalId, hholds.expiresAt⟩

theorem flow (hc : Changes store n next w w') (hw : Sound store w) (hmn : m ≠ n) {flow : InstallationFlow}
    (h : FlowHolds store w m flow) : FlowHolds store w' m flow := by
  have hclaimed : ∀ stateHash, (stateHash, m) ∈ w'.ledger.claimed ↔ (stateHash, m) ∈ w.ledger.claimed :=
    fun _ => (hc.ledger hw).claimed_other hmn
  have hacted : ∀ stateHash, (stateHash, m) ∈ w'.ledger.acted ↔ (stateHash, m) ∈ w.ledger.acted :=
    fun _ => (hc.ledger hw).acted_other hmn
  cases flow with
  | issued authorization =>
    obtain ⟨hhash, row, hrow, hholds⟩ := h
    exact ⟨hhash, hc.row_holds hrow hholds⟩
  | invalid request failure =>
    cases failure <;> simp only [FlowHolds, hacted] at h ⊢ <;> exact h
  | idle => simpa only [FlowHolds, hclaimed] using h
  | asking request => simpa only [FlowHolds, hclaimed] using h
  | consuming request callback => simpa only [FlowHolds, hclaimed] using h
  | verifying request callback => simpa only [FlowHolds, hclaimed, hacted] using h
  | binding request callback installation => simpa only [FlowHolds, hacted] using h
  | connected request callback installation => simpa only [FlowHolds, hacted] using h
  | unauthorized => exact h
  | creating authorization => exact h
  | uncreated authorization => exact h

end Changes

/-- What a step of one flow does. -/
structure Moves (store : InstallationStateStore β ε) (n : Nat) (next : InstallationFlow) (w w' : Installing β) : Prop where
  flows : w'.flows = Function.update w.flows n next
  callback : ∀ callback, (w.flows n).callback = some callback → next.callback = some callback
  request : w.flows n ≠ .idle → next.request = (w.flows n).request
  changes : Changes store n next w w'
  holds : FlowHolds store w' n next

namespace Moves

theorem flow (h : Moves store n next w w') (m : Nat) : w'.flows m = if m = n then next else w.flows m := by
  rw [h.flows, Function.update_apply]

theorem keeps_callback (h : Moves store n next w w') {callback : InstallationCallback}
    (hcallback : (w.flows m).callback = some callback) : (w'.flows m).callback = some callback := by
  rw [h.flow]
  split
  · rename_i hmn
    subst hmn
    exact h.callback callback hcallback
  · exact hcallback

/-- Step lemma. -/
theorem sound (h : Moves store n next w w') (hw : Sound store w) : Sound store w' where
  orderly := (h.changes.ledger hw).orderly hw.orderly
  consumed := by
    intro stateHash m hm
    have hold : (stateHash, m) ∈ w.ledger.claimed → ∃ callback row, (w'.flows m).callback = some callback ∧
        callback.stateHash = stateHash ∧ (store.records w'.store).get stateHash = some row ∧ row.Consumed callback := by
      intro hclaimed
      obtain ⟨callback, row, hcallback, hhash, hrow, hconsumed⟩ := hw.consumed stateHash m hclaimed
      refine ⟨callback, row, h.keeps_callback hcallback, hhash, h.changes.row_stays hrow ?_, hconsumed⟩
      rw [hconsumed.consumedAt]
      exact Option.some_ne_none _
    have hchanges := h.changes
    cases hchanges with
    | quiet _ hledger _ _ => exact hold (hledger ▸ hm)
    | created _ _ _ _ hledger _ _ => exact hold (hledger ▸ hm)
    | consumed callback row hnext hrow hadmits hrecords hledger _ _ =>
      rw [hledger] at hm
      rcases Ledger.mem_claimed_claim.mp hm with hm | hm
      · exact hold hm
      · obtain ⟨rfl, rfl⟩ := Prod.mk.inj hm
        obtain ⟨htenant, hprincipal, -, hexpires⟩ := hadmits
        refine ⟨callback, { row with consumedAt := some callback.at' }, ?_, rfl, ?_, htenant, hprincipal, rfl, hexpires⟩
        · rw [h.flow, if_pos rfl, hnext]
        · rw [hrecords, Table.get_put, if_pos rfl]
    | bound _ _ _ _ _ _ _ hledger _ _ =>
      rw [hledger] at hm
      exact hold hm
  bound := by
    have hchanges := h.changes
    cases hchanges with
    | quiet _ hledger hbinds _ => rw [hledger, hbinds, hw.bound]
    | created _ _ _ _ hledger hbinds _ => rw [hledger, hbinds, hw.bound]
    | consumed _ _ _ _ _ _ hledger hbinds _ => rw [hledger, hbinds, hw.bound, Ledger.acted_claim]
    | bound callback installation _ _ _ _ _ hledger hbinds _ =>
      rw [hledger, hbinds, List.map_append, hw.bound]
      rfl
  verified := by
    have hold : (∀ v ∈ w.verified, v ∈ w'.verified) → ∀ b ∈ w.binds, (w'.flows b.flow).callback = some b.callback ∧
        ⟨b.flow, b.callback.input.code, b.callback.input.installationId, b.installation⟩ ∈ w'.verified ∧
        b.installation.installationId = b.callback.input.installationId := by
      intro hverified b hb
      obtain ⟨hcallback, hanswer, hid⟩ := hw.verified b hb
      exact ⟨h.keeps_callback hcallback, hverified _ hanswer, hid⟩
    have hchanges := h.changes
    cases hchanges with
    | quiet _ _ hbinds hverified => exact hbinds ▸ hold hverified
    | created _ _ _ _ _ hbinds hverified => exact hbinds ▸ hold (fun v hv => hverified ▸ hv)
    | consumed _ _ _ _ _ _ _ hbinds hverified => exact hbinds ▸ hold (fun v hv => hverified ▸ hv)
    | bound callback installation hnext _ _ hid _ _ hbinds hverified =>
      intro b hb
      rw [hbinds, List.mem_append, List.mem_singleton] at hb
      rcases hb with hb | rfl
      · exact hold (fun v hv => hverified ▸ List.mem_append_left _ hv) b hb
      · refine ⟨?_, ?_, hid⟩
        · rw [h.flow, if_pos rfl, hnext]
        · rw [hverified]
          exact List.mem_append_right _ (List.mem_singleton.mpr rfl)
  flows := by
    intro m
    rw [h.flow]
    split
    · rename_i hmn
      rw [hmn]
      exact h.holds
    · rename_i hmn
      exact h.changes.flow hw hmn (hw.flows m)

end Moves

/-! ## One step -/

theorem holds_congr (hrecords : store.records w'.store = store.records w.store) (hledger : w'.ledger = w.ledger)
    {flow : InstallationFlow} (h : FlowHolds store w n flow) : FlowHolds store w' n flow := by
  cases flow with
  | invalid request failure =>
    cases failure <;> simp only [FlowHolds, hledger] at h ⊢ <;> exact h
  | idle => simpa only [FlowHolds, hledger] using h
  | asking request => simpa only [FlowHolds, hledger] using h
  | consuming request callback => simpa only [FlowHolds, hledger] using h
  | verifying request callback => simpa only [FlowHolds, hledger] using h
  | binding request callback installation => simpa only [FlowHolds, hledger] using h
  | connected request callback installation => simpa only [FlowHolds, hledger] using h
  | unauthorized => exact h
  | creating authorization => exact h
  | uncreated authorization => exact h
  | issued authorization => simpa only [FlowHolds, hrecords] using h

/-- A step after which records and ledger are as they were. -/
theorem quiet_moves {flow : InstallationFlow} (hflow : w.flows n = flow)
    (hflows : w'.flows = Function.update w.flows n next)
    (hcallback : ∀ callback, flow.callback = some callback → next.callback = some callback)
    (hrequest : flow ≠ .idle → next.request = flow.request)
    (hrecords : store.records w'.store = store.records w.store) (hledger : w'.ledger = w.ledger)
    (hbinds : w'.binds = w.binds) (hverified : ∀ v ∈ w.verified, v ∈ w'.verified) (hholds : FlowHolds store w n next) :
    Moves store n next w w' := by
  subst hflow
  exact ⟨hflows, hcallback, hrequest, .quiet hrecords hledger hbinds hverified, holds_congr hrecords hledger hholds⟩

theorem create_moves (hw : Sound store w) {authorization : InstallationAuthorization}
    (hflow : w.flows n = .creating authorization) (env : CallbackSurroundings ε) {created : Bool} {s : β}
    (hcreate : store.create env.store authorization.record w.store = (created, s)) :
    Moves store n (if created then .issued authorization else .uncreated authorization) w
      ({ w with store := s }.turn n (if created then .issued authorization else .uncreated authorization)) := by
  have hhash := hw.flows n
  rw [hflow] at hhash
  have hlaw := store.create_records env.store authorization.record w.store
  rw [hcreate] at hlaw
  dsimp only at hlaw
  rcases hlaw with ⟨hsame, rfl⟩ | ⟨hfree, hput⟩
  · exact quiet_moves hflow rfl (fun _ h => (nomatch h)) (fun _ => rfl) hsame rfl rfl (fun _ hv => hv) hhash
  · refine ⟨rfl, ?_, ?_, .created authorization.record ?_ hfree hput rfl rfl rfl, ?_⟩
    · intro callback hcallback
      rw [hflow] at hcallback
      cases hcallback
    · intro _
      rw [hflow]
      cases created <;> rfl
    · cases created <;> rfl
    · cases created with
      | false => exact hhash
      | true =>
        refine ⟨hhash, authorization.record.row, ?_, rfl, rfl, rfl⟩
        exact (congrArg (fun records => records.get authorization.record.stateHash) hput).trans
          ((Table.get_put ..).trans (if_pos rfl))

/-- The consumption of a record, whether or not the store gets to say so. -/
theorem consume_moves (hw : Sound store w) {request : CallbackRequest} {callback : InstallationCallback}
    (hflow : w.flows n = .consuming request callback) (env : CallbackSurroundings ε) :
    ∃ next, Moves store n next w (w.consume store n env request callback) := by
  have hunclaimed : ∀ stateHash, (stateHash, n) ∉ w.ledger.claimed := by
    have hholds := hw.flows n
    rwa [hflow] at hholds
  have hunacted : ∀ stateHash, (stateHash, n) ∉ w.ledger.acted :=
    fun stateHash hacted => hunclaimed stateHash (hw.orderly.claimants _ hacted)
  have hlaw := store.consume_records env.store callback.actor callback.at' callback.stateHash w.store
  rw [consume]
  generalize store.consume env.store callback.actor callback.at' callback.stateHash w.store = outcome at hlaw ⊢
  obtain ⟨reply, s⟩ := outcome
  dsimp only at hlaw ⊢
  rcases hlaw with ⟨hsame, hreply⟩ | ⟨row, hrow, hadmits, hput⟩
  · rw [if_neg hreply, if_pos (by rw [hsame])]
    exact ⟨_, quiet_moves hflow rfl (fun _ h => h) (fun _ => rfl) hsame rfl rfl (fun _ hv => hv) hunacted⟩
  · have hchanged : (store.records s).get callback.stateHash ≠ (store.records w.store).get callback.stateHash := by
      rw [hput, Table.get_put, if_pos rfl, hrow]
      intro hsame
      have hconsumed := congrArg InstallationStateRow.consumedAt (Option.some.inj hsame)
      rw [hadmits.2.2.1] at hconsumed
      cases hconsumed
    have hcalls : ∀ callback', (w.flows n).callback = some callback' → some callback = some callback' := by
      intro callback' hcallback'
      rwa [hflow] at hcallback'
    rw [if_neg hchanged]
    split
    · refine ⟨.verifying request callback, rfl, hcalls, fun _ => by rw [hflow]; rfl,
        .consumed callback row rfl hrow hadmits hput rfl rfl rfl, ?_, hunacted⟩
      exact Ledger.mem_claimed_claim.mpr (.inr rfl)
    · exact ⟨.invalid request (.unconsumed callback), rfl, hcalls, fun _ => by rw [hflow]; rfl,
        .consumed callback row rfl hrow hadmits hput rfl rfl rfl, hunacted⟩

theorem verify_moves (hw : Sound store w) {request : CallbackRequest} {callback : InstallationCallback}
    (hflow : w.flows n = .verifying request callback) (env : CallbackSurroundings ε) :
    ∃ next, Moves store n next w (w.verify n env request callback) := by
  have hholds := hw.flows n
  rw [hflow] at hholds
  obtain ⟨hclaimed, hunacted⟩ := hholds
  rw [verify]
  split
  · exact ⟨_, quiet_moves hflow rfl (fun _ h => h) (fun _ => rfl) rfl rfl rfl (fun _ hv => hv) hunacted⟩
  · rename_i installation hanswer
    dsimp only
    split
    · rename_i hid
      refine ⟨.binding request callback installation, rfl, ?_, fun _ => by rw [hflow]; rfl,
        .bound callback installation rfl hclaimed (hunacted _) hid rfl rfl rfl rfl, ?_⟩
      · intro callback' hcallback'
        rwa [hflow] at hcallback'
      · exact Ledger.mem_acted_act.mpr (.inr rfl)
    · exact ⟨_, quiet_moves hflow rfl (fun _ h => h) (fun _ => rfl) rfl rfl rfl
        (fun _ hv => List.mem_append_left _ hv) hunacted⟩

theorem bind_moves (hw : Sound store w) {request : CallbackRequest} {callback : InstallationCallback}
    {installation : VerifiedGitHubInstallation} (hflow : w.flows n = .binding request callback installation)
    (env : CallbackSurroundings ε) {bound : Bool} {s : β}
    (hbind : store.bind env.store callback.actor installation w.store = (bound, s)) :
    Moves store n (if bound then .connected request callback installation else .invalid request (.unbound callback)) w
      ({ w with store := s }.turn n
        (if bound then .connected request callback installation else .invalid request (.unbound callback))) := by
  have hholds := hw.flows n
  rw [hflow] at hholds
  have hlaw := store.bind_records env.store callback.actor installation w.store
  rw [hbind] at hlaw
  cases bound with
  | true => exact quiet_moves hflow rfl (fun _ h => h) (fun _ => rfl) hlaw rfl rfl (fun _ hv => hv) hholds
  | false => exact quiet_moves hflow rfl (fun _ h => h) (fun _ => rfl) hlaw rfl rfl (fun _ hv => hv) hholds

/-! ## What a reached state says -/

theorem Sound.acted (hw : Sound store w) {b : BindCall} (hb : b ∈ w.binds) :
    (b.callback.stateHash, b.flow) ∈ w.ledger.acted := by
  rw [← hw.bound]
  exact List.mem_map.mpr ⟨b, hb, rfl⟩

/-- The row that a callback consumed before it called `bind`. -/
theorem Sound.row (hw : Sound store w) {b : BindCall} (hb : b ∈ w.binds) :
    ∃ row, (store.records w.store).get b.callback.stateHash = some row ∧ row.Consumed b.callback := by
  obtain ⟨callback, row, hcallback, -, hrow, hconsumed⟩ := hw.consumed _ _ (hw.orderly.claimants _ (hw.acted hb))
  obtain rfl := Option.some.inj (hcallback.symm.trans (hw.verified b hb).1)
  exact ⟨row, hrow, hconsumed⟩

theorem Sound.once (hw : Sound store w) (stateHash : String) :
    (w.binds.filter (fun b => b.callback.stateHash = stateHash)).length ≤ 1 := by
  have honce := hw.orderly.acted_once stateHash
  rwa [← hw.bound, List.filter_map, List.length_map] at honce

theorem Sound.creator (hw : Sound store w) {b : BindCall} (hb : b ∈ w.binds) {authorization : InstallationAuthorization}
    (hissued : w.flows n = .issued authorization) (hstate : b.callback.stateHash = Sha256.hex authorization.state) :
    b.callback.actor = authorization.record.actor ∧ b.callback.at' ≤ authorization.record.expiresAt := by
  have hholds := hw.flows n
  rw [hissued] at hholds
  obtain ⟨hhash, row, hrow, hrecord⟩ := hholds
  obtain ⟨row', hrow', hconsumed⟩ := hw.row hb
  rw [hstate, ← hhash, hrow] at hrow'
  obtain rfl := Option.some.inj hrow'
  have hprincipal := hconsumed.principalId.symm.trans hrecord.principalId
  have htenant := hconsumed.tenantId.symm.trans hrecord.tenantId
  refine ⟨?_, hrecord.expiresAt ▸ hconsumed.expiresAt⟩
  generalize b.callback.actor = actor at hprincipal htenant
  generalize authorization.record.actor = actor' at hprincipal htenant
  cases actor
  cases actor'
  dsimp only at hprincipal htenant
  rw [hprincipal, htenant]

/-- A callback that fails before its call of `bind` never acts. -/
theorem Sound.idle_failure (hw : Sound store w) {request : CallbackRequest} {failure : CallbackFailure}
    (hflow : w.flows n = .invalid request failure) (hfailure : ∀ callback, failure ≠ .unbound callback)
    (stateHash : String) : (stateHash, n) ∉ w.ledger.acted := by
  have hholds := hw.flows n
  rw [hflow] at hholds
  cases failure with
  | unbound callback => exact absurd rfl (hfailure callback)
  | unauthenticated => exact hholds stateHash
  | malformed => exact hholds stateHash
  | undated => exact hholds stateHash
  | unconsumed callback => exact hholds stateHash
  | unverified callback => exact hholds stateHash
  | substituted callback => exact hholds stateHash

theorem Sound.failed (hw : Sound store w) {request : CallbackRequest} {failure : CallbackFailure}
    {callback : InstallationCallback} (hflow : w.flows n = .invalid request failure)
    (hcallback : failure.callback = some callback) (hclaimed : (callback.stateHash, n) ∈ w.ledger.claimed)
    {b : BindCall} (hb : b ∈ w.binds) (hhash : b.callback.stateHash = callback.stateHash) :
    b.flow = n ∧ failure = .unbound callback := by
  have hacted := hw.acted hb
  rw [hhash] at hacted
  obtain rfl := hw.orderly.holder (hw.orderly.claimants _ hacted) hclaimed
  refine ⟨rfl, ?_⟩
  by_contra hnot
  refine hw.idle_failure hflow ?_ _ hacted
  rintro callback' rfl
  exact hnot (congrArg CallbackFailure.unbound (Option.some.inj hcallback))

/-! ## Steps of a run -/

variable [NumberCoercion]

theorem advance_moves (hw : Sound store w) (n : Nat) (env : CallbackSurroundings ε) :
    ∃ next, Moves store n next w (w.advance store n env) := by
  have hholds := hw.flows n
  have hstays : ∃ next, Moves store n next w w :=
    ⟨w.flows n, (Function.update_eq_self n w.flows).symm, fun _ h => h, fun _ => rfl,
      .quiet rfl rfl rfl (fun _ hv => hv), hholds⟩
  rw [advance]
  cases hflow : w.flows n with
  | idle => exact hstays
  | unauthorized => exact hstays
  | uncreated authorization => exact hstays
  | issued authorization => exact hstays
  | connected request callback installation => exact hstays
  | invalid request failure => exact hstays
  | creating authorization => exact ⟨_, create_moves hw hflow env rfl⟩
  | asking request =>
    rw [hflow] at hholds
    have hunacted : ∀ stateHash, (stateHash, n) ∉ w.ledger.acted :=
      fun stateHash hacted => hholds stateHash (hw.orderly.claimants _ hacted)
    have hturn : ∀ next : InstallationFlow, next.request = some request → FlowHolds store w n next →
        Moves store n next w (w.turn n next) := by
      intro next hnext hnow
      exact quiet_moves hflow rfl (fun _ h => (nomatch h)) (fun _ => hnext) rfl rfl rfl (fun _ hv => hv) hnow
    dsimp only
    split
    · exact ⟨_, hturn _ rfl hunacted⟩
    · split
      · exact ⟨_, hturn _ rfl hunacted⟩
      · split
        · exact ⟨_, hturn _ rfl hholds⟩
        · exact ⟨_, hturn _ rfl hunacted⟩
  | consuming request callback => exact consume_moves hw hflow env
  | verifying request callback => exact verify_moves hw hflow env
  | binding request callback installation => exact ⟨_, bind_moves hw hflow env rfl⟩

theorem step_moves (hw : Sound store w) (action : InstallingAction ε) :
    ∃ next, Moves store action.flow next w (step store action w) := by
  have hstays : ∀ n, ∃ next, Moves store n next w w := fun n =>
    ⟨w.flows n, (Function.update_eq_self n w.flows).symm, fun _ h => h, fun _ => rfl,
      .quiet rfl rfl rfl (fun _ hv => hv), hw.flows n⟩
  have hbegins : ∀ {n} {next : InstallationFlow}, w.flows n = .idle → FlowHolds store w n next →
      Moves store n next w (w.turn n next) := by
    intro n next hidle hholds
    exact quiet_moves hidle rfl (fun _ h => (nomatch h)) (fun h => absurd rfl h) rfl rfl rfl (fun _ hv => hv) hholds
  cases action with
  | advance n env => exact advance_moves hw n env
  | issue n input =>
    rw [step]
    split
    · rename_i authorization hidle hauthorize
      exact ⟨_, hbegins hidle (authorize_isState hauthorize).2.1⟩
    · rename_i hidle hauthorize
      exact ⟨_, hbegins hidle trivial⟩
    · exact hstays n
  | callback n request =>
    rw [step]
    split
    · rename_i hidle
      have hholds := hw.flows n
      rw [hidle] at hholds
      exact ⟨_, hbegins hidle hholds⟩
    · exact hstays n

/-! ## Whole runs -/

/-- What holds of the states in every run. -/
structure SingleUse (store : InstallationStateStore β ε) (s : β) (actions : List (InstallingAction ε))
    (w : Installing β) : Prop where
  once : ∀ stateHash, (w.binds.filter (fun b => b.callback.stateHash = stateHash)).length ≤ 1
  /-- Where a state that was issued is bound, its creator is back in time. -/
  creator : ∀ b ∈ w.binds, ∀ n authorization, w.flows n = .issued authorization →
    b.callback.stateHash = Sha256.hex authorization.state →
    b.callback.actor = authorization.record.actor ∧ b.callback.at' ≤ authorization.record.expiresAt
  verified : ∀ b ∈ w.binds,
    ⟨b.flow, b.callback.input.code, b.callback.input.installationId, b.installation⟩ ∈ w.verified ∧
      b.installation.installationId = b.callback.input.installationId
  /-- A callback that fails has not called `bind`, unless that call is what failed. -/
  unbound : ∀ n request failure, w.flows n = .invalid request failure →
    (∀ callback, failure ≠ .unbound callback) → ∀ b ∈ w.binds, b.flow ≠ n
  /-- With the state of a callback that has consumed it and failed nobody calls `bind` but that
  callback in failing. -/
  failed : ∀ n request failure callback, w.flows n = .invalid request failure → failure.callback = some callback →
    (callback.stateHash, n) ∈ w.ledger.claimed →
    ∀ b ∈ w.binds, b.callback.stateHash = callback.stateHash → b.flow = n ∧ failure = .unbound callback
  /-- A callback leaves the records alone in every step after which it has consumed none. -/
  untouched : ∀ before action after, actions = before ++ action :: after →
    ((Runs.run (step store) (before ++ [action]) (initial s)).flows action.flow).request ≠ none →
    (∀ stateHash, (stateHash, action.flow) ∉ (Runs.run (step store) (before ++ [action]) (initial s)).ledger.claimed) →
    store.records (Runs.run (step store) (before ++ [action]) (initial s)).store =
      store.records (Runs.run (step store) before (initial s)).store

theorem Sound.step (hw : Sound store w) (action : InstallingAction ε) : Sound store (step store action w) := by
  obtain ⟨_, hmoves⟩ := step_moves hw action
  exact hmoves.sound hw

theorem Sound.run (hw : Sound store w) (actions : List (InstallingAction ε)) :
    Sound store (Runs.run (Installing.step store) actions w) :=
  Runs.run_keeps (fun _ action hw => hw.step action) hw

theorem Sound.untouched (hw : Sound store w) (action : InstallingAction ε)
    (hrequest : ((Installing.step store action w).flows action.flow).request ≠ none)
    (hunclaimed : ∀ stateHash, (stateHash, action.flow) ∉ (Installing.step store action w).ledger.claimed) :
    store.records (Installing.step store action w).store = store.records w.store := by
  obtain ⟨next, hmoves⟩ := step_moves hw action
  have hchanges := hmoves.changes
  cases hchanges with
  | quiet hrecords _ _ _ => exact hrecords
  | created _ hnext _ _ _ _ _ =>
    rw [hmoves.flow, if_pos rfl] at hrequest
    exact absurd hnext hrequest
  | consumed callback _ _ _ _ _ hledger _ _ =>
    refine absurd ?_ (hunclaimed callback.stateHash)
    rw [hledger]
    exact Ledger.mem_claimed_claim.mpr (.inr rfl)
  | bound _ _ _ _ _ _ hrecords _ _ _ => exact hrecords

/-- Over every store that keeps its promises a state is used once. -/
theorem single_use (store : InstallationStateStore β ε) (s : β) (actions : List (InstallingAction ε)) :
    SingleUse store s actions (Runs.run (step store) actions (initial s)) := by
  have hreached : ∀ actions, Sound store (Runs.run (step store) actions (initial s)) :=
    fun actions => (sound_initial store s).run actions
  constructor
  · exact (hreached actions).once
  · intro b hb n authorization hissued hstate
    exact (hreached actions).creator hb hissued hstate
  · exact fun b hb => ((hreached actions).verified b hb).2
  · rintro n request failure hflow hfailure b hb rfl
    exact (hreached actions).idle_failure hflow hfailure _ ((hreached actions).acted hb)
  · intro n request failure callback hflow hcallback hclaimed b hb hhash
    exact (hreached actions).failed hflow hcallback hclaimed hb hhash
  · rintro before action after rfl hrequest hunclaimed
    rw [Runs.run_append, Runs.run, Runs.run] at hrequest hunclaimed ⊢
    exact (hreached before).untouched action hrequest hunclaimed

end Installing

/-- In every run of issuances and callbacks over the store in memory, and over that in the
database, whatever becomes of its calls, a state is used once. -/
theorem installation_state_single_use {ρ σ : Type} [Sha256] [NumberCoercion] :
    (∀ (records : InMemoryStates.Records) (actions : List (InstallingAction Bool)),
      Installing.SingleUse InMemoryStates.store records actions
        (Runs.run (Installing.step InMemoryStates.store) actions (Installing.initial records))) ∧
      ∀ (p : Platform ρ σ) (actions : List (InstallingAction PostgresStates.Surroundings)),
        Installing.SingleUse PostgresStates.store p actions
          (Runs.run (Installing.step PostgresStates.store) actions (Installing.initial p)) :=
  ⟨Installing.single_use InMemoryStates.store, Installing.single_use PostgresStates.store⟩

end ReproForge

/-! ## A callback before and after its user signs in -/

namespace ReproForge.Sample.Callback

open KeyedTable

scoped instance : Sha256 where
  hex text :=
    if text = "AAAAAAAAAAAAAAAAAAAAAAAAAAAAAAAAAAAAAAAAAAA" then
      "0f007385b6f9d4b7eeb2748605afe1a984a0a3bfa3f014d09e2a784ce9e5cd1a"
    else ""

scoped instance : NumberCoercion := ⟨fun text => if text = "7001" then some 7001 else none⟩

def creator : GitHubInstallationActor := ⟨"user-1", "acme"⟩

def snapshot : VerifiedGitHubInstallation := ⟨9001, "synthetic-owner", 7001, none, [], .selected⟩

def request : CallbackRequest :=
  ⟨some "synthetic-code", some "7001", some "AAAAAAAAAAAAAAAAAAAAAAAAAAAAAAAAAAAAAAAAAAA"⟩

/-- The user is signed in or not; everything else works. -/
def meets (signedIn : Bool) : CallbackSurroundings Bool :=
  ⟨if signedIn then some creator else none, 60000, some snapshot, true⟩

/-- A state is issued, and a callback comes back before its user has signed in. -/
def signedOut : List (InstallingAction Bool) :=
  [.issue 0 ⟨creator, "reproforge-development", 0, List.replicate 32 0⟩, .advance 0 (meets true), .callback 1 request,
    .advance 1 (meets false)]

/-- The same request, with its user signed in. -/
def signedIn : List (InstallingAction Bool) :=
  [.callback 2 request, .advance 2 (meets true), .advance 2 (meets true), .advance 2 (meets true),
    .advance 2 (meets true)]

def reached (actions : List (InstallingAction Bool)) : Installing InMemoryStates.Records :=
  Runs.run (Installing.step InMemoryStates.store) actions (Installing.initial Table.empty)

/-- A callback that fails before it has consumed its state can be replayed with that state. -/
theorem replayed_after_failure :
    ¬∀ (before after : List (InstallingAction Bool)) (n m : Nat) (request request' : CallbackRequest)
      (failure : CallbackFailure) (callback : InstallationCallback) (installation : VerifiedGitHubInstallation),
      (reached before).flows n = .invalid request failure → (reached before).flows m = .idle →
      (reached (before ++ after)).flows m = .connected request' callback installation →
      request'.state ≠ request.state := by
  intro h
  have hrun : (reached signedOut).flows 1 = .invalid request .unauthenticated ∧ (reached signedOut).flows 2 = .idle ∧
      (reached (signedOut ++ signedIn)).flows 2 =
        .connected request ⟨creator, ⟨"synthetic-code", 7001, "AAAAAAAAAAAAAAAAAAAAAAAAAAAAAAAAAAAAAAAAAAA"⟩, 60000⟩
          snapshot := by
    decide +kernel
  exact h signedOut signedIn 1 2 request request .unauthenticated _ snapshot hrun.1 hrun.2.1 hrun.2.2 rfl

end ReproForge.Sample.Callback
