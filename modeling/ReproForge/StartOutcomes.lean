import ReproForge.OutboxSafety
import ReproForge.RepositoryStarts

/-!
# The outcome of a start

A start publishes a batch of the shared outbox before it answers, and judges
itself by the summary of that batch. Here its run of `publishBatch` takes its
steps among those of all other publishers and of the rest of the system, and the
answer of the call is told from what becomes of the claims of its batch.
-/
namespace ReproForge

open KeyedTable Transactions Transactions.Tx

variable {ρ ν : Type}

/-! ## A start and its batch -/

/-- What a step of a call meets, its run of `publishBatch` included. -/
structure BatchSurroundings extends StartSurroundings where
  /-- The clock of the host. -/
  at' : Instant
  locked : List Key
  /-- The queue returns a message id or throws. -/
  sent : Option (Option String)
  settling : Attempt

def OutboxPublishSummary.judged (summary : OutboxPublishSummary) : PublishSummary :=
  ⟨summary.dead, summary.delivered, summary.retryScheduled⟩

/-- The next step of a publisher. -/
def Publisher.next [ResultDocument ρ] [RequestSchemas ν] [Sha256] (n : Nat) (env : BatchSurroundings) :
    Publisher → PublishingAction ρ (ResolvedRepositoryExecutionRequest ν)
  | .idle _ => .publish n env.attempts env.at' env.locked
  | .sending _ _ _ => .send n env.sent
  | .marking _ _ _ _ | .failing _ _ _ => .settle n env.settling env.at'

/-- The starts, with the run of `publishBatch` of each call. -/
structure BatchedStarts (ρ ν : Type) where
  starts : Starts ρ ν
  publishers : Nat → Publisher
  sent : List QueueMessage

/-- Other publishers are part of the world. -/
inductive BatchedAction (ρ ν : Type) where
  | call : Nat → RepositoryPrincipal → StartRepositoryReproductionInput ν → BatchedAction ρ ν
  | advance : Nat → BatchSurroundings → BatchedAction ρ ν
  | world : Action ρ (ResolvedRepositoryExecutionRequest ν) → BatchedAction ρ ν

section service

variable [ResultDocument ρ] [RequestSchemas ν] [LocaleCompare] [JsonNumber ν] [Sha256]

namespace BatchedStarts

def initial (now : Instant) (tenants : Table String TenantRow) : BatchedStarts ρ ν :=
  ⟨Starts.initial now tenants, fun _ => .idle none, []⟩

def publishing (w : BatchedStarts ρ ν) : Publishing ρ (ResolvedRepositoryExecutionRequest ν) :=
  ⟨w.starts.world.db, w.publishers, w.sent⟩

def withPublishing (w : BatchedStarts ρ ν) (p : Publishing ρ (ResolvedRepositoryExecutionRequest ν)) :
    BatchedStarts ρ ν :=
  ⟨{ w.starts with world := { w.starts.world with db := p.db } }, p.publishers, p.sent⟩

/-- `publishBatch` returned a summary, or threw. -/
def returned (service : StartService) (n : Nat) (env : BatchSurroundings) (summary : Option OutboxPublishSummary)
    (w : BatchedStarts ρ ν) : BatchedStarts ρ ν where
  starts := w.starts.advance service n
    { env.toStartSurroundings with published := summary.map OutboxPublishSummary.judged }
  publishers := Function.update w.publishers n (.idle none)
  sent := w.sent

def publishStep (service : StartService) (policy : PublisherPolicy) (n : Nat) (env : BatchSurroundings)
    (w : BatchedStarts ρ ν) : BatchedStarts ρ ν :=
  let w := w.withPublishing (w.publishing.step (fun _ => policy) ((w.publishers n).next n env))
  match w.publishers n with
  | .idle summary => w.returned service n env summary
  | _ => w

def advance (service : StartService) (policy : PublisherPolicy) (n : Nat) (env : BatchSurroundings)
    (w : BatchedStarts ρ ν) : BatchedStarts ρ ν :=
  match w.starts.calls n with
  | .publishing _ _ _ _ => w.publishStep service policy n env
  | _ => { w with starts := w.starts.advance service n env.toStartSurroundings }

def step (service : StartService) (policy : PublisherPolicy) : BatchedAction ρ ν → BatchedStarts ρ ν → BatchedStarts ρ ν
  | .call n principal input, w =>
    ⟨Starts.step service (.call n principal input) w.starts, Function.update w.publishers n (.idle none), w.sent⟩
  | .advance n env, w => w.advance service policy n env
  | .world action, w => { w with starts := Starts.step service (.world action) w.starts }

/-- The condition of the durable system. -/
def Permitted (w : BatchedStarts ρ ν) : BatchedAction ρ ν → Prop
  | .world action => w.starts.world.Permitted action
  | _ => True

end BatchedStarts

end service

/-! ## What becomes of a claim -/

/-- The outbox accepts the report of a delivery: the claim still holds its event. -/
def OutboxClaim.accepted {σ : Type} (claim : OutboxClaim) (messageId : Option String) (env : BatchSurroundings)
    (db : Db ρ σ) : Bool :=
  env.settling == .runs && datetime env.at' && claim.claimedAt ≤ env.at' &&
    messageId.all (fun m => 1 ≤ utf16Length m && utf16Length m ≤ 512) &&
    (db.outboxEvents.get claim.key).any (fun o =>
      o.heldBy claim && outboxUpdateAllowed claim.key o (o.delivered env.at' messageId))

/-- The report of a failure changes nothing: the claim no longer holds its event, or
the clock of the host stands before it. -/
def OutboxClaim.lapsed {σ : Type} (claim : OutboxClaim) (env : BatchSurroundings) (db : Db ρ σ) : Bool :=
  env.settling == .runs && (nextAttemptAt claim env.at').any (fun next =>
    !(datetime env.at' && datetime next && claim.claimedAt ≤ env.at' &&
      (db.outboxEvents.get claim.key).any (fun o => o.heldBy claim)))

/-- The transaction that claims a batch commits and is acknowledged. -/
def PublisherPolicy.claims {σ : Type} (policy : PublisherPolicy) (env : BatchSurroundings) (db : Db ρ σ) : Bool :=
  (runSerializableTransaction 3 env.attempts
    (claimPending ⟨env.at', policy.claimSeconds, policy.maxBatchSize, policy.ownerId⟩ env.locked) db).1.isOk

def Publisher.clear {σ : Type} (policy : PublisherPolicy) (env : BatchSurroundings) (db : Db ρ σ) : Publisher → Bool
  | .idle _ => policy.claims env db
  | .failing _ claim _ => claim.lapsed env db
  | .sending _ _ _ | .marking _ _ _ _ => true

def Publisher.delivers {σ : Type} (env : BatchSurroundings) (db : Db ρ σ) : Publisher → Bool
  | .marking _ claim messageId _ => claim.accepted messageId env db
  | _ => false

namespace BatchedStarts

/-- Nothing in the step stands between the call and its success: the batch is claimed, a
failure is reported too late to count, the call's own message is consumed and its record is read. -/
def Clear (policy : PublisherPolicy) (n : Nat) (w : BatchedStarts ρ ν) : BatchedAction ρ ν → Prop
  | .advance m env => m = n → match w.starts.calls n with
    | .publishing _ _ _ _ => (w.publishers n).clear policy env w.starts.world.db = true
    | .consuming _ _ _ => env.consumed = true
    | .reading _ _ _ => env.fate = .runs
    | _ => True
  | _ => True

/-- The call delivers an event of its batch, its own or another. -/
def Delivers (n : Nat) (w : BatchedStarts ρ ν) : BatchedAction ρ ν → Prop
  | .advance m env => m = n ∧ match w.starts.calls n with
    | .publishing _ _ _ _ => (w.publishers n).delivers env w.starts.world.db = true
    | _ => False
  | _ => False

end BatchedStarts

/-! ## One step of a batch -/

section batch

variable {σ : Type} {db db' : Db ρ σ} {claim : OutboxClaim} {env : BatchSurroundings} {policy : PublisherPolicy}

theorem transaction_runs {α : Type} {attempt : Attempt} {operation : Statement ρ σ α} {a : α} :
    attempt.transaction operation db = (.ok a, db') ↔ attempt = .runs ∧ operation db = (.ok a, db') := by
  cases attempt with
  | runs => simp [Attempt.transaction, atomically_ok]
  | serializationFailure => simp [Attempt.transaction]
  | failsBefore => simp [Attempt.transaction]
  | failsAfter =>
    simp only [Attempt.transaction]
    split <;> simp

theorem updateOutbox_taken {key : Key} {o : OutboxRow} (condition : OutboxRow → Bool) {assign : OutboxRow → OutboxRow}
    (ho : db.outboxEvents.get key = some o) (hcondition : condition o = true)
    (hallowed : outboxUpdateAllowed key o (assign o) = true) :
    updateOutbox key condition assign db =
      (.ok (some (assign o)), { db with outboxEvents := db.outboxEvents.set key (assign o) }) := by
  simp [updateOutbox, updateRow, ho, hcondition, hallowed]

theorem updateOutbox_none {key : Key} {condition : OutboxRow → Bool} {assign : OutboxRow → OutboxRow} :
    updateOutbox key condition assign db = (.ok none, db') ↔
      (db.outboxEvents.get key).any condition = false ∧ db' = db := by
  unfold updateOutbox updateRow
  cases ho : db.outboxEvents.get key with
  | none => simp [eq_comm]
  | some o =>
    dsimp only
    cases hcondition : condition o with
    | false => simp [hcondition, eq_comm]
    | true =>
      rw [if_pos rfl]
      split <;> simp [hcondition]

theorem markDelivered_accepted (claim : OutboxClaim) (messageId : Option String) (env : BatchSurroundings) (db : Db ρ σ) :
    (∃ db', env.settling.transaction (markDelivered claim ⟨env.at', messageId⟩) db = (.ok true, db')) ↔
      claim.accepted messageId env db = true := by
  simp only [transaction_runs, OutboxClaim.accepted, Bool.and_eq_true, beq_iff_eq, Option.any_eq_true]
  constructor
  · rintro ⟨db', hruns, h⟩
    rcases markDelivered_ok h with ⟨hfalse, -⟩ | ⟨o, -, hheld, hw⟩
    · cases hfalse
    · simp only [markDelivered] at h
      split at h
      · rename_i hguard
        simp only [Bool.and_eq_true] at hguard
        exact ⟨⟨⟨⟨hruns, hguard.1.1⟩, hguard.1.2⟩, hguard.2⟩, o, hw.event, hheld, hw.allowed⟩
      · cases (pure_ok.mp h).1
  · rintro ⟨⟨⟨⟨hruns, hdate⟩, hlate⟩, hid⟩, o, ho, hheld, hallowed⟩
    have hupdate := updateOutbox_taken (fun o => o.heldBy claim) ho hheld hallowed
    refine ⟨{ db with outboxEvents := db.outboxEvents.set claim.key (o.delivered env.at' messageId) }, hruns, ?_⟩
    simp only [markDelivered, hdate, hlate, hid, Bool.and_self, if_true, bind_ok, pure_ok]
    exact ⟨_, _, hupdate, rfl, rfl⟩

theorem nextAttemptAt_later {failedAt next : Instant} (h : nextAttemptAt claim failedAt = some next) :
    failedAt ≤ next := by
  unfold nextAttemptAt at h
  dsimp only at h
  split at h
  · rw [← Option.some.inj h]
    exact Int.le_add_of_nonneg_right (by positivity)
  · cases h

theorem recordFailure_lapsed (policy : PublisherPolicy) (db : Db ρ σ) {next : Instant} (hnext : nextAttemptAt claim env.at' = some next) :
    (∃ db', env.settling.transaction
      (recordFailure claim ⟨"QUEUE_PUBLISH_FAILED", env.at', policy.maxAttempts, next⟩) db = (.ok .lost, db')) ↔
      claim.lapsed env db = true := by
  have hcode : isFailureCode "QUEUE_PUBLISH_FAILED" = true := by decide +kernel
  simp only [transaction_runs, OutboxClaim.lapsed, hnext, Option.any_some, Bool.and_eq_true, beq_iff_eq,
    exists_and_left]
  refine and_congr_right fun _ => ?_
  simp only [recordFailure, hcode, nextAttemptAt_later hnext, policy.maxAttempts_range.1,
    policy.maxAttempts_range.2, decide_true, Bool.and_true]
  cases hguard : datetime env.at' && datetime next && decide (claim.claimedAt ≤ env.at') with
  | false => simp
  | true =>
    simp only [if_true, bind_ok, pure_ok, Bool.true_and, Bool.not_eq_true']
    constructor
    · rintro ⟨db', result, t, hu, hlost, rfl⟩
      cases result with
      | none => exact (updateOutbox_none.mp hu).1
      | some o' =>
        obtain ⟨hnone, -⟩ | ⟨o, -, -, -, hfailed, -⟩ := updateRow_ok hu
        · cases hnone
        · obtain rfl := Option.some.inj hfailed
          simp only [Option.map_some, OutboxRow.failedDelivery] at hlost
          split at hlost <;> cases hlost
    · intro hmissed
      exact ⟨db, none, db, updateOutbox_none.mpr ⟨hmissed, rfl⟩, rfl, rfl⟩

/-- What the next step of a publisher makes of it. -/
inductive BatchStep (policy : PublisherPolicy) (env : BatchSurroundings) (db : Db ρ σ) : Publisher → Publisher → Prop where
  | claimed (last : Option OutboxPublishSummary) (claims : List OutboxClaim) : policy.claims env db = true →
      claims.length ≤ policy.maxBatchSize →
      BatchStep policy env db (.idle last) (.loop ⟨claims.length, 0, 0, 0, 0⟩ claims)
  | unclaimed (last : Option OutboxPublishSummary) : policy.claims env db = false →
      BatchStep policy env db (.idle last) (.idle none)
  | sent (summary : OutboxPublishSummary) (claim : OutboxClaim) (messageId : Option String) (rest : List OutboxClaim) :
      BatchStep policy env db (.sending summary claim rest) (.marking summary claim messageId rest)
  | thrown (summary : OutboxPublishSummary) (claim : OutboxClaim) (rest : List OutboxClaim) :
      BatchStep policy env db (.sending summary claim rest) (.failing summary claim rest)
  | delivered (summary : OutboxPublishSummary) (claim : OutboxClaim) (messageId : Option String)
      (rest : List OutboxClaim) : claim.accepted messageId env db = true →
      BatchStep policy env db (.marking summary claim messageId rest)
        (.loop { summary with delivered := summary.delivered + 1 } rest)
  | conflicted (summary : OutboxPublishSummary) (claim : OutboxClaim) (messageId : Option String)
      (rest : List OutboxClaim) : claim.accepted messageId env db = false →
      BatchStep policy env db (.marking summary claim messageId rest)
        (.loop { summary with conflicted := summary.conflicted + 1 } rest)
  | unreported (summary : OutboxPublishSummary) (claim : OutboxClaim) (messageId : Option String)
      (rest : List OutboxClaim) : claim.accepted messageId env db = false →
      BatchStep policy env db (.marking summary claim messageId rest) (.failing summary claim rest)
  | lapsed (summary : OutboxPublishSummary) (claim : OutboxClaim) (rest : List OutboxClaim) :
      claim.lapsed env db = true → BatchStep policy env db (.failing summary claim rest) (.loop (summary.count .lost) rest)
  | failed (summary : OutboxPublishSummary) (claim : OutboxClaim) (rest : List OutboxClaim)
      (disposition : OutboxFailureDisposition) : claim.lapsed env db = false → disposition ≠ .lost →
      BatchStep policy env db (.failing summary claim rest) (.loop (summary.count disposition) rest)
  | unrecorded (summary : OutboxPublishSummary) (claim : OutboxClaim) (rest : List OutboxClaim) :
      claim.lapsed env db = false → BatchStep policy env db (.failing summary claim rest) (.idle none)

/-- The rows of the reproductions stay. -/
structure SameReproductions (db db' : Db ρ σ) : Prop where
  idempotencyKeys : db'.idempotencyKeys = db.idempotencyKeys
  cases : db'.cases = db.cases
  jobs : db'.jobs = db.jobs

theorem SameReproductions.refl (db : Db ρ σ) : SameReproductions db db := ⟨rfl, rfl, rfl⟩

theorem SameReproductions.trans {s t u : Db ρ σ} (hst : SameReproductions s t) (htu : SameReproductions t u) : SameReproductions s u :=
  ⟨htu.idempotencyKeys.trans hst.idempotencyKeys, htu.cases.trans hst.cases, htu.jobs.trans hst.jobs⟩

theorem OutboxWrite.same {key : Key} {o o' : OutboxRow} (h : OutboxWrite db db' key o o') : SameReproductions db db' := by
  rw [h.result]
  exact ⟨rfl, rfl, rfl⟩

theorem claimPending_same (input : ClaimPendingInput) (locked : List Key) :
    Within SameReproductions (claimPending input locked : Statement ρ σ (List OutboxClaim)) := by
  intro db claims db' h
  simp only [claimPending] at h
  split at h
  · simp only [bind_ok, require_ok, read_ok] at h
    obtain ⟨_, _, ⟨-, rfl⟩, _, _, ⟨rfl, rfl⟩, hloop⟩ := h
    refine within_forEach (R := SameReproductions) .refl SameReproductions.trans (fun event => ?_) _ _ claims db' hloop
    intro s claim s' hclaim
    obtain ⟨o, hw, -⟩ := claimEvent_ok hclaim
    exact hw.same
  · obtain ⟨-, rfl⟩ := pure_ok.mp h
    exact .refl db'

theorem markDelivered_same (claim : OutboxClaim) (input : DeliveryInput) :
    Within SameReproductions (markDelivered claim input : Statement ρ σ Bool) := by
  intro s reply s' h
  rcases markDelivered_ok h with ⟨-, rfl⟩ | ⟨o, -, -, hw⟩
  · exact .refl s'
  · exact hw.same

theorem recordFailure_same (claim : OutboxClaim) (input : DeliveryFailure) :
    Within SameReproductions (recordFailure claim input : Statement ρ σ OutboxFailureDisposition) := by
  intro s reply s' h
  rcases recordFailure_ok h with rfl | ⟨o, -, hw⟩
  · exact .refl s'
  · exact hw.same

theorem transaction_same {α : Type} (attempt : Attempt) {operation : Statement ρ σ α}
    (h : Within SameReproductions operation) (db : Db ρ σ) : SameReproductions db (attempt.transaction operation db).2 := by
  rcases transaction_cases attempt operation db with ⟨e, he⟩ | ⟨reply, db', ho, hr | hr⟩
  · rw [he]
    exact .refl db
  · rw [hr]
    exact h db reply db' ho
  · rw [hr]
    exact h db reply db' ho

theorem claimPending_length {input : ClaimPendingInput} {locked : List Key} {claims : List OutboxClaim}
    (h : claimPending input locked db = (.ok claims, db')) : claims.length ≤ input.limit := by
  simp only [claimPending] at h
  split at h
  · simp only [bind_ok, require_ok, read_ok] at h
    obtain ⟨_, _, ⟨-, rfl⟩, _, _, ⟨rfl, rfl⟩, hloop⟩ := h
    obtain ⟨rfl, -, -⟩ := claimEvents_ok (dueEvents_nodup _ _ _ _) (fun e he => (mem_dueEvents he).1) hloop
    rw [List.length_map, dueEvents]
    exact List.length_take_le _ _
  · rw [(pure_ok.mp h).1]
    exact Nat.zero_le _

/-- The next step of a publisher moves that publisher alone. -/
structure BatchMoved (policy : PublisherPolicy) (env : BatchSurroundings) (n : Nat) (w w' : Publishing ρ σ) : Prop where
  step : BatchStep policy env w.db (w.publishers n) (w'.publishers n)
  others : ∀ m, m ≠ n → w'.publishers m = w.publishers m
  same : SameReproductions w.db w'.db

theorem batchMoved_withPublisher {w w' : Publishing ρ σ} {n : Nat} {p : Publisher}
    (hw : w'.publishers = w.publishers) (hstep : BatchStep policy env w.db (w.publishers n) p)
    (hsame : SameReproductions w.db w'.db) : BatchMoved policy env n w (w'.withPublisher n p) where
  step := by
    simpa [Publishing.withPublisher] using hstep
  others := by
    intro m hm
    simp [Publishing.withPublisher, hm, hw]
  same := hsame

theorem publish_moved (w : Publishing ρ σ) (n : Nat) {last : Option OutboxPublishSummary}
    (hp : w.publishers n = .idle last) :
    BatchMoved policy env n w (w.publish policy n env.attempts env.at' env.locked) := by
  unfold Publishing.publish
  split
  · rename_i claims db' h
    have hclaims := runSerializableTransaction_ok h
    refine batchMoved_withPublisher rfl ?_ (claimPending_same _ _ _ _ _ hclaims)
    rw [hp]
    refine .claimed last claims ?_ (claimPending_length hclaims)
    rw [PublisherPolicy.claims, h]
    rfl
  · rename_i e db' h
    refine batchMoved_withPublisher rfl ?_ ?_
    · rw [hp]
      refine .unclaimed last ?_
      rw [PublisherPolicy.claims, h]
      rfl
    · rcases runSerializableTransaction_cases 3 env.attempts
        (claimPending ⟨env.at', policy.claimSeconds, policy.maxBatchSize, policy.ownerId⟩ env.locked) w.db with
        ⟨f, hf⟩ | ⟨claims, db'', ho, hr | hr⟩
      · rw [hf] at h
        rw [← (Prod.mk.inj h).2]
        exact .refl w.db
      · rw [hr] at h
        cases (Prod.mk.inj h).1
      · rw [hr] at h
        rw [← (Prod.mk.inj h).2]
        exact claimPending_same _ _ _ _ _ ho

theorem markDelivered_moved (w : Publishing ρ σ) (n : Nat) {summary : OutboxPublishSummary} {messageId : Option String}
    {rest : List OutboxClaim} (hp : w.publishers n = .marking summary claim messageId rest) :
    BatchMoved policy env n w (w.markDelivered n summary claim messageId rest env.settling env.at') := by
  have hsame := transaction_same env.settling (markDelivered_same claim ⟨env.at', messageId⟩) w.db
  have haccepted := markDelivered_accepted claim messageId env w.db
  unfold Publishing.markDelivered
  split
  · rename_i db' h
    rw [h] at hsame
    refine batchMoved_withPublisher rfl ?_ hsame
    rw [hp]
    exact .delivered summary claim messageId rest (haccepted.mp ⟨db', h⟩)
  · rename_i db' h
    rw [h] at hsame haccepted
    refine batchMoved_withPublisher rfl ?_ hsame
    rw [hp]
    refine .conflicted summary claim messageId rest ?_
    simpa using haccepted
  · rename_i e db' h
    rw [h] at hsame haccepted
    refine batchMoved_withPublisher rfl ?_ hsame
    rw [hp]
    refine .unreported summary claim messageId rest ?_
    simpa using haccepted

theorem recordFailure_moved (w : Publishing ρ σ) (n : Nat) {summary : OutboxPublishSummary} {rest : List OutboxClaim}
    (hp : w.publishers n = .failing summary claim rest) :
    BatchMoved policy env n w (w.recordFailure policy n summary claim rest env.settling env.at') := by
  unfold Publishing.recordFailure
  split
  · rename_i hnext
    refine batchMoved_withPublisher rfl ?_ (.refl w.db)
    rw [hp]
    refine .unrecorded summary claim rest ?_
    simp [OutboxClaim.lapsed, hnext]
  · rename_i next hnext
    have hsame := transaction_same env.settling (recordFailure_same claim
      ⟨"QUEUE_PUBLISH_FAILED", env.at', policy.maxAttempts, next⟩) w.db
    have hlapsed := recordFailure_lapsed policy w.db hnext
    split
    · rename_i disposition db' h
      rw [h] at hsame hlapsed
      refine batchMoved_withPublisher rfl ?_ hsame
      rw [hp]
      by_cases hlost : disposition = .lost
      · subst hlost
        exact .lapsed summary claim rest (hlapsed.mp ⟨db', rfl⟩)
      · refine .failed summary claim rest disposition ?_ hlost
        simpa [hlost] using hlapsed
    · rename_i e db' h
      rw [h] at hsame hlapsed
      refine batchMoved_withPublisher rfl ?_ hsame
      rw [hp]
      refine .unrecorded summary claim rest ?_
      simpa using hlapsed

/-- How many steps a batch of at most `limit` claims has left, with those that follow it. -/
def Publisher.left (limit : Nat) : Publisher → Nat
  | .idle _ => 3 * limit + 3
  | .sending _ _ rest => 3 * rest.length + 5
  | .marking _ _ _ rest => 3 * rest.length + 4
  | .failing _ _ rest => 3 * rest.length + 3

/-- The steps that a publisher leaves to its call when it has come this far. -/
def Publisher.after (limit : Nat) : Publisher → Nat
  | .idle _ => 2
  | p => p.left limit

theorem loop_after (limit : Nat) (summary : OutboxPublishSummary) (claims : List OutboxClaim) :
    (Publisher.loop summary claims).after limit ≤ 3 * claims.length + 2 := by
  cases claims with
  | nil => exact le_refl 2
  | cons claim claims => exact le_refl (3 * claims.length + 5)

theorem BatchStep.left {p p' : Publisher} (h : BatchStep policy env db p p') :
    p'.after policy.maxBatchSize + 1 ≤ p.left policy.maxBatchSize := by
  have hloop := loop_after policy.maxBatchSize
  cases h with
  | claimed last claims _ hlimit =>
    have := hloop ⟨claims.length, 0, 0, 0, 0⟩ claims
    simp only [Publisher.left]
    omega
  | delivered summary claim messageId rest => exact Nat.succ_le_succ ((hloop _ rest).trans (Nat.le_succ _))
  | conflicted summary claim messageId rest => exact Nat.succ_le_succ ((hloop _ rest).trans (Nat.le_succ _))
  | lapsed summary claim rest => exact Nat.succ_le_succ (hloop _ rest)
  | failed summary claim rest => exact Nat.succ_le_succ (hloop _ rest)
  | unclaimed | sent | thrown | unreported | unrecorded =>
    simp only [Publisher.after, Publisher.left]
    omega

end batch

section service

variable [ResultDocument ρ] [RequestSchemas ν] [Sha256]

/-- Spec of a step of `publishBatch`. -/
theorem next_moved (policy : PublisherPolicy) (env : BatchSurroundings) (n : Nat)
    (w : Publishing ρ (ResolvedRepositoryExecutionRequest ν)) :
    BatchMoved policy env n w (w.step (fun _ => policy) ((w.publishers n).next n env)) := by
  cases hp : w.publishers n with
  | idle last =>
    simp only [Publisher.next, Publishing.step, hp]
    exact publish_moved w n hp
  | sending summary claim rest =>
    simp only [Publisher.next, Publishing.step, hp]
    cases env.sent with
    | none =>
      refine batchMoved_withPublisher rfl ?_ (.refl w.db)
      rw [hp]
      exact .thrown summary claim rest
    | some messageId =>
      refine batchMoved_withPublisher rfl ?_ (.refl w.db)
      rw [hp]
      exact .sent summary claim messageId rest
  | marking summary claim messageId rest =>
    simp only [Publisher.next, Publishing.step, hp]
    exact markDelivered_moved w n hp
  | failing summary claim rest =>
    simp only [Publisher.next, Publishing.step, hp]
    exact recordFailure_moved w n hp

end service

/-! ## The steps of a call -/

section steps

variable [ResultDocument ρ] [RequestSchemas ν]

/-- The ids in the key of a reproduction are opaque. -/
theorem Lockstep.opaqueKey {σ : Type} [RequestDocument σ] {db : Db ρ σ} (hdb : Lockstep db) {key : IdempotencyKey}
    {i : IdempotencyRow} (hi : db.idempotencyKeys.get key = some i) :
    opaqueId key.callerId = true ∧ opaqueId key.tenantId = true := by
  obtain ⟨row, hrow, rfl⟩ := hdb.joined key i hi
  obtain ⟨found, hfound⟩ := readableRow_iff.mp (hdb.readable row hrow)
  have hanchor := rowToRecord_anchor hfound
  have hok := (rowToRecord_ok hfound).1.anchor
  rw [hanchor] at hok
  exact ⟨hok.callerId, hok.tenantId⟩

variable [LocaleCompare] [JsonNumber ν] [Sha256] {w : BatchedStarts ρ ν} {service : StartService}
  {policy : PublisherPolicy} {n : Nat} {env : BatchSurroundings} {call : RepositoryCall ν}
  {record : DurableReproductionRecord ρ (ResolvedRepositoryExecutionRequest ν)} {requireNewDelivery reused : Bool}

/-- The verdict of a call on the summary of its batch. -/
def judged (service : StartService) (call : RepositoryCall ν)
    (record : DurableReproductionRecord ρ (ResolvedRepositoryExecutionRequest ν)) (requireNewDelivery reused : Bool) :
    Option OutboxPublishSummary → StartPhase ρ ν
  | none => .done call .failed
  | some summary =>
    if summary.dead > 0 || summary.retryScheduled > 0 || requireNewDelivery && summary.delivered < 1 then
      .done call .failed
    else if service.queued then .reading call record reused else .consuming call record reused

theorem returned_calls (hcall : w.starts.calls n = .publishing call record requireNewDelivery reused)
    (summary : Option OutboxPublishSummary) :
    (w.returned service n env summary).starts.calls n = judged service call record requireNewDelivery reused summary := by
  unfold BatchedStarts.returned Starts.advance
  rw [hcall]
  cases summary with
  | none => exact Starts.turn_calls _ n _
  | some summary =>
    dsimp only [Option.map_some, judged, OutboxPublishSummary.judged]
    split
    · exact Starts.turn_calls _ n _
    · exact Starts.turn_calls _ n _

/-- Where a call is whose publisher has come to `p`. -/
inductive Arrives (service : StartService) (w : BatchedStarts ρ ν) (n : Nat) (call : RepositoryCall ν)
    (record : DurableReproductionRecord ρ (ResolvedRepositoryExecutionRequest ν)) (requireNewDelivery reused : Bool) :
    Publisher → Prop where
  | busy (p : Publisher) : (∀ summary, p ≠ .idle summary) →
      w.starts.calls n = .publishing call record requireNewDelivery reused → w.publishers n = p →
      Arrives service w n call record requireNewDelivery reused p
  | returned (summary : Option OutboxPublishSummary) :
      w.starts.calls n = judged service call record requireNewDelivery reused summary →
      Arrives service w n call record requireNewDelivery reused (.idle summary)

theorem advance_arrives (service : StartService) (policy : PublisherPolicy) (env : BatchSurroundings)
    (hcall : w.starts.calls n = .publishing call record requireNewDelivery reused) :
    ∃ p, BatchStep policy env w.starts.world.db (w.publishers n) p ∧
      Arrives service (w.advance service policy n env) n call record requireNewDelivery reused p := by
  have hmoved := next_moved policy env n w.publishing
  refine ⟨_, hmoved.step, ?_⟩
  rw [BatchedStarts.advance, hcall]
  unfold BatchedStarts.publishStep
  dsimp only
  split
  · rename_i summary hidle
    have hp : (w.publishing.step (fun _ => policy) ((w.publishing.publishers n).next n env)).publishers n = .idle summary :=
      hidle
    rw [hp]
    exact .returned summary (returned_calls (w := w.withPublishing _) hcall summary)
  · rename_i hbusy
    exact .busy _ hbusy hcall rfl

/-- Whatever a publisher does, the starts stay sound. -/
theorem publishStep_sound (hs : w.starts.Sound) (service : StartService) (policy : PublisherPolicy) (n : Nat)
    (env : BatchSurroundings) : (w.publishStep service policy n env).starts.Sound := by
  have hsame := (next_moved policy env n w.publishing).same
  obtain ⟨hlockstep, hkept⟩ := hs.world.lockstep.of_same hsame.idempotencyKeys hsame.cases hsame.jobs
  have hpublished : (w.withPublishing (w.publishing.step (fun _ => policy) ((w.publishers n).next n env))).starts.Sound := by
    refine hs.moves ⟨hlockstep, fun found hfound => (hs.world.anchored found hfound).kept hkept⟩ ?_
    intro key i hi
    exact (congrArg (fun rows => rows.get key) hsame.idempotencyKeys).trans hi
  unfold BatchedStarts.publishStep
  dsimp only
  split
  · exact hpublished.advance service n _
  · exact hpublished

theorem batched_step_sound (hs : w.starts.Sound) {action : BatchedAction ρ ν} (hp : w.Permitted action) :
    (BatchedStarts.step service policy action w).starts.Sound := by
  cases action with
  | call n principal input => exact hs.step service (show w.starts.Permitted (.call n principal input) from trivial)
  | world action => exact hs.step service (show w.starts.Permitted (.world action) from hp)
  | advance n env =>
    rw [BatchedStarts.step, BatchedStarts.advance]
    split
    · exact publishStep_sound hs service policy n env
    · exact hs.advance service n env.toStartSurroundings

/-- Where a call can be whose record is reserved. -/
inductive StartPhase.Tracks (call : RepositoryCall ν)
    (record : DurableReproductionRecord ρ (ResolvedRepositoryExecutionRequest ν)) (requireNewDelivery reused : Bool) :
    StartPhase ρ ν → Prop where
  | publishing : Tracks call record requireNewDelivery reused (.publishing call record requireNewDelivery reused)
  | consuming : Tracks call record requireNewDelivery reused (.consuming call record reused)
  | reading : Tracks call record requireNewDelivery reused (.reading call record reused)
  | succeeded (snapshot : ReproductionSnapshot ρ) : snapshot.case.id = record.snapshot.case.id →
      snapshot.job.id = record.snapshot.job.id →
      Tracks call record requireNewDelivery reused (.done call (.ok reused snapshot))
  | failed : Tracks call record requireNewDelivery reused (.done call .failed)

def StartPhase.succeeds : StartPhase ρ ν → Bool
  | .done _ (.ok _ _) => true
  | _ => false

def StartPhase.fails : StartPhase ρ ν → Bool
  | .done _ .failed => true
  | _ => false

def StartPhase.publishes : StartPhase ρ ν → Bool
  | .publishing _ _ _ _ => true
  | _ => false

theorem advance_quiet (hquiet : (w.starts.calls n).publishes = false) :
    w.advance service policy n env = { w with starts := w.starts.advance service n env.toStartSurroundings } := by
  unfold BatchedStarts.advance
  split
  · rename_i hcall
    rw [hcall] at hquiet
    cases hquiet
  · rfl

/-- The final lookup finds the record that the call reserved. -/
theorem reading_step (service : StartService) (policy : PublisherPolicy) (env : BatchSurroundings)
    (hs : w.starts.Sound) (hcall : w.starts.calls n = .reading call record reused) :
    (env.fate = .runs ∧ ∃ snapshot, snapshot.case.id = record.snapshot.case.id ∧
      snapshot.job.id = record.snapshot.job.id ∧
      (w.advance service policy n env).starts.calls n = .done call (.ok reused snapshot)) ∨
    (env.fate ≠ .runs ∧ (w.advance service policy n env).starts.calls n = .done call .failed) := by
  have hsettled := hs.settled n
  rw [hcall] at hsettled
  obtain ⟨i, hi, ha, -⟩ := hsettled
  rw [advance_quiet (by rw [hcall]; rfl)]
  dsimp only
  rw [Starts.advance, hcall]
  dsimp only
  by_cases hfate : env.fate = .runs
  · left
    have hkey : (⟨(recordScope record).tenantId, (recordScope record).callerId, record.idempotencyKey⟩ :
        IdempotencyKey) = call.key := ha.key
    obtain ⟨hcaller, htenant⟩ := hs.world.lockstep.opaqueKey hi
    rw [← hkey] at hcaller htenant
    have hscope : (recordScope record).valid = true := by
      simp only [TenantScope.valid, Bool.and_eq_true]
      exact ⟨⟨hcaller, hcaller⟩, htenant⟩
    rw [← hkey] at hi
    obtain ⟨stored, hstored⟩ := lookup_finds hs.world.lockstep hscope hi
    obtain ⟨i', hi', ha'⟩ := lookup_some hstored
    obtain rfl := Option.some.inj (hi.symm.trans hi')
    refine ⟨hfate, stored.snapshot, ha'.case.trans ha.case.symm, ha'.job.trans ha.job.symm, ?_⟩
    rw [hfate, hstored]
    dsimp only
    rw [Starts.turn_calls, startResult, if_pos ha'.valid]
  · right
    refine ⟨hfate, ?_⟩
    have hlookup : lookup env.fate (recordScope record) record.idempotencyKey w.starts.world.db = none := if_neg hfate
    rw [hlookup]
    exact Starts.turn_calls _ n _

theorem consuming_step (service : StartService) (policy : PublisherPolicy) (env : BatchSurroundings)
    (hcall : w.starts.calls n = .consuming call record reused) :
    (w.advance service policy n env).starts.calls n =
      if env.consumed then .reading call record reused else .done call .failed := by
  rw [advance_quiet (by rw [hcall]; rfl)]
  dsimp only
  rw [Starts.advance, hcall]
  exact Starts.turn_calls _ n _

theorem done_step (service : StartService) (policy : PublisherPolicy) (env : BatchSurroundings)
    {reply : StartReply ρ} (hcall : w.starts.calls n = .done call reply) :
    (w.advance service policy n env).starts.calls n = .done call reply := by
  rw [advance_quiet (by rw [hcall]; rfl)]
  dsimp only
  rw [Starts.advance, hcall]
  exact hcall

/-! ## What a call will answer -/

/-- The summary so far of a batch. -/
def Publisher.summary : Publisher → OutboxPublishSummary
  | .idle _ => ⟨0, 0, 0, 0, 0⟩
  | .sending summary _ _ | .marking summary _ _ _ | .failing summary _ _ => summary

/-- No failure counts so far. -/
def OutboxPublishSummary.clean (summary : OutboxPublishSummary) : Prop :=
  summary.dead = 0 ∧ summary.retryScheduled = 0

/-- The actions still to come let a batch succeed that has this summary. -/
def BatchPromises (service : StartService) (policy : PublisherPolicy) (n : Nat) (requireNewDelivery : Bool)
    (actions : List (BatchedAction ρ ν)) (w : BatchedStarts ρ ν) (summary : OutboxPublishSummary) : Prop :=
  summary.clean ∧ Runs.Guarded (BatchedStarts.step service policy) (BatchedStarts.Clear policy n) actions w ∧
    (requireNewDelivery = true → 1 ≤ summary.delivered ∨
      Runs.Occurs (BatchedStarts.step service policy) (BatchedStarts.Delivers n) actions w)

/-- The actions still to come let the call succeed. -/
def Promises (service : StartService) (policy : PublisherPolicy) (n : Nat) (actions : List (BatchedAction ρ ν))
    (w : BatchedStarts ρ ν) : Prop :=
  match w.starts.calls n with
  | .publishing _ _ requireNewDelivery _ =>
    BatchPromises service policy n requireNewDelivery actions w (w.publishers n).summary
  | .consuming _ _ _ | .reading _ _ _ =>
    Runs.Guarded (BatchedStarts.step service policy) (BatchedStarts.Clear policy n) actions w
  | .done _ (.ok _ _) => True
  | _ => False

/-- The action is not a new call under the number. -/
def BatchedAction.spares (n : Nat) : BatchedAction ρ ν → Prop
  | .call m _ _ => m ≠ n
  | _ => True

/-- The action is a step of the call. -/
def BatchedAction.advances (n : Nat) : BatchedAction ρ ν → Bool
  | .advance m _ => m == n
  | _ => false

/-- The batch of the call is over. -/
def StartPhase.beyond : StartPhase ρ ν → Bool
  | .consuming _ _ _ | .reading _ _ _ | .done _ _ => true
  | _ => false

theorem advance_other {m : Nat} (hm : n ≠ m) :
    (w.advance service policy m env).starts.calls n = w.starts.calls n ∧
      (w.advance service policy m env).publishers n = w.publishers n := by
  have hadvance : ∀ (s : Starts ρ ν) (e : StartSurroundings), (s.advance service m e).calls n = s.calls n := by
    intro s e
    obtain ⟨next, db, heffect, -⟩ := s.advance_effect service m e
    rw [heffect]
    exact Function.update_of_ne hm _ _
  unfold BatchedStarts.advance
  split
  · have hothers := (next_moved policy env m w.publishing).others n hm
    unfold BatchedStarts.publishStep
    dsimp only
    split
    · exact ⟨hadvance _ _, (Function.update_of_ne hm _ _).trans hothers⟩
    · exact ⟨rfl, hothers⟩
  · exact ⟨hadvance _ _, rfl⟩

/-- The steps of the others leave a call as it is. -/
theorem step_other (service : StartService) (policy : PublisherPolicy)
    {action : BatchedAction ρ ν} (hspares : action.spares n) (hother : action.advances n = false) :
    (BatchedStarts.step service policy action w).starts.calls n = w.starts.calls n ∧
      (BatchedStarts.step service policy action w).publishers n = w.publishers n := by
  cases action with
  | call m principal input =>
    have hm : n ≠ m := hspares.symm
    exact ⟨Function.update_of_ne hm _ _, Function.update_of_ne hm _ _⟩
  | advance m env =>
    have hm : n ≠ m := by
      intro h
      simp [BatchedAction.advances, h] at hother
    exact advance_other hm
  | world action => exact ⟨rfl, rfl⟩

theorem beyond_step {action : BatchedAction ρ ν} (hbeyond : (w.starts.calls n).beyond = true)
    (hspares : action.spares n) :
    ((BatchedStarts.step service policy action w).starts.calls n).beyond = true := by
  cases hown : action.advances n with
  | false =>
    rw [(step_other service policy hspares hown).1]
    exact hbeyond
  | true =>
    cases action with
    | call m principal input => cases hown
    | world action => cases hown
    | advance m env =>
      obtain rfl : m = n := by simpa [BatchedAction.advances] using hown
      rw [BatchedStarts.step]
      cases hcall : w.starts.calls m with
      | consuming call record reused =>
        rw [consuming_step service policy env hcall]
        split <;> rfl
      | reading call record reused =>
        rw [advance_quiet (by rw [hcall]; rfl)]
        dsimp only
        rw [Starts.advance, hcall]
        dsimp only
        split <;> rw [Starts.turn_calls] <;> rfl
      | done call reply =>
        rw [done_step service policy env hcall]
        rfl
      | _ => simp [hcall, StartPhase.beyond] at hbeyond

section rest

variable {rest : List (BatchedAction ρ ν)}

/-- Nothing stands between a call and the success that it reported. -/
theorem guarded_done (service : StartService) (policy : PublisherPolicy)
    {reply : StartReply ρ} (hcall : w.starts.calls n = .done call reply)
    (hspares : ∀ action ∈ rest, action.spares n) :
    Runs.Guarded (BatchedStarts.step service policy) (BatchedStarts.Clear policy n) rest w := by
  have hstays : ∀ (v : BatchedStarts ρ ν) action, v.starts.calls n = .done call reply → action.spares n →
      (BatchedStarts.step service policy action v).starts.calls n = .done call reply := by
    intro v action hdone haction
    cases hown : action.advances n with
    | false => exact (step_other service policy haction hown).1.trans hdone
    | true =>
      cases action with
      | call m principal input => cases hown
      | world action => cases hown
      | advance m env =>
        obtain rfl : m = n := by simpa [BatchedAction.advances] using hown
        exact done_step service policy env hdone
  refine Runs.Guarded.of_invariant hstays ?_ hcall (Runs.guarded_of_forall hspares w)
  intro v action hdone _
  cases action with
  | advance m env =>
    intro _
    rw [hdone]
    trivial
  | call m principal input => trivial
  | world action => trivial

/-- A batch that is over delivers nothing. -/
theorem beyond_delivers (service : StartService) (policy : PublisherPolicy)
    (hbeyond : (w.starts.calls n).beyond = true) (hspares : ∀ action ∈ rest, action.spares n) :
    ¬ Runs.Occurs (BatchedStarts.step service policy) (BatchedStarts.Delivers n) rest w := by
  have hstays : ∀ (v : BatchedStarts ρ ν) action, (v.starts.calls n).beyond = true → action.spares n →
      ((BatchedStarts.step service policy action v).starts.calls n).beyond = true :=
    fun v action hv haction => beyond_step hv haction
  refine Runs.not_occurs (Runs.Guarded.of_invariant hstays ?_ hbeyond (Runs.guarded_of_forall hspares w))
  intro v action hv _ hdelivers
  cases action with
  | advance m env =>
    have hphase := hdelivers.2
    cases hcall : v.starts.calls n with
    | publishing call record requireNewDelivery reused => simp [hcall, StartPhase.beyond] at hv
    | _ => simp [hcall] at hphase
  | call m principal input => exact hdelivers
  | world action => exact hdelivers

/-- A call that got the summary of its batch answers what the summary promises. -/
theorem promises_judged {summary : OutboxPublishSummary}
    (hcall : w.starts.calls n = judged service call record requireNewDelivery reused (some summary))
    (hspares : ∀ action ∈ rest, action.spares n) :
    Promises service policy n rest w ↔ BatchPromises service policy n requireNewDelivery rest w summary := by
  have hbeyond : (w.starts.calls n).beyond = true := by
    rw [hcall, judged]
    split
    · rfl
    · split <;> rfl
  have hnone := beyond_delivers service policy hbeyond hspares
  unfold Promises BatchPromises OutboxPublishSummary.clean
  rw [hcall, judged]
  by_cases hbad : (summary.dead > 0 || summary.retryScheduled > 0 || requireNewDelivery && summary.delivered < 1) = true
  · rw [if_pos hbad]
    simp only [Bool.or_eq_true, Bool.and_eq_true, decide_eq_true_eq] at hbad
    constructor
    · exact False.elim
    · rintro ⟨⟨hdead, hretry⟩, -, hnew⟩
      rcases hbad with (hpositive | hpositive) | ⟨hrequired, hmissing⟩
      · omega
      · omega
      · rcases hnew hrequired with hdelivered | hlater
        · omega
        · exact hnone hlater
  · rw [if_neg hbad]
    simp only [Bool.or_eq_true, Bool.and_eq_true, decide_eq_true_eq, not_or, not_and, not_lt] at hbad
    obtain ⟨⟨hdead, hretry⟩, hnew⟩ := hbad
    have hclean : summary.dead = 0 ∧ summary.retryScheduled = 0 := by omega
    cases service.queued with
    | true => exact ⟨fun h => ⟨hclean, h, fun hrequired => .inl (hnew hrequired)⟩, fun h => h.2.1⟩
    | false => exact ⟨fun h => ⟨hclean, h, fun hrequired => .inl (hnew hrequired)⟩, fun h => h.2.1⟩

/-- A publisher at the head of its loop promises what its summary does. -/
theorem promises_loop {summary : OutboxPublishSummary} {claims : List OutboxClaim}
    (harrives : Arrives service w n call record requireNewDelivery reused (.loop summary claims))
    (hspares : ∀ action ∈ rest, action.spares n) :
    Promises service policy n rest w ↔ BatchPromises service policy n requireNewDelivery rest w summary := by
  cases claims with
  | nil =>
    cases harrives with
    | busy _ hbusy => exact absurd rfl (hbusy (some summary))
    | returned _ hcall => exact promises_judged hcall hspares
  | cons claim claims =>
    cases harrives with
    | busy _ _ hcall hp => rw [Promises, hcall, hp]; rfl

/-- A publisher that threw fails its call. -/
theorem promises_thrown (harrives : Arrives service w n call record requireNewDelivery reused (.idle none)) :
    ¬ Promises service policy n rest w := by
  cases harrives with
  | busy _ hbusy => exact absurd rfl (hbusy none)
  | returned _ hcall =>
    rw [Promises, hcall]
    exact id

theorem promises_busy {p : Publisher} (hbusy : ∀ summary, p ≠ .idle summary)
    (harrives : Arrives service w n call record requireNewDelivery reused p) :
    Promises service policy n rest w ↔ BatchPromises service policy n requireNewDelivery rest w p.summary := by
  cases harrives with
  | busy _ _ hcall hp => rw [Promises, hcall, hp]
  | returned summary => exact absurd rfl (hbusy summary)

/-- A step of the batch keeps what the call will answer. -/
theorem publishing_promises (hcall : w.starts.calls n = .publishing call record requireNewDelivery reused)
    (hspares : ∀ action ∈ rest, action.spares n) :
    Promises service policy n (.advance n env :: rest) w ↔ Promises service policy n rest (w.advance service policy n env) := by
  obtain ⟨p, hstep, harrives⟩ := advance_arrives service policy env hcall
  have hclear : BatchedStarts.Clear policy n w (.advance n env) ↔
      (w.publishers n).clear policy env w.starts.world.db = true := by simp [BatchedStarts.Clear, hcall]
  have hdelivers : BatchedStarts.Delivers n w (.advance n env) ↔
      (w.publishers n).delivers env w.starts.world.db = true := by simp [BatchedStarts.Delivers, hcall]
  have hbefore : Promises service policy n (.advance n env :: rest) w ↔
      BatchPromises service policy n requireNewDelivery (.advance n env :: rest) w (w.publishers n).summary := by
    rw [Promises, hcall]
  rw [hbefore, BatchPromises, Runs.Guarded, Runs.Occurs, hclear, hdelivers, BatchedStarts.step]
  generalize w.publishers n = before at hstep
  generalize w.advance service policy n env = w' at harrives
  cases hstep with
  | claimed last claims hclaims _ =>
    rw [promises_loop harrives hspares]
    simp [BatchPromises, OutboxPublishSummary.clean, Publisher.summary, Publisher.clear, Publisher.delivers, hclaims]
  | unclaimed last hclaims =>
    simp [promises_thrown harrives, Publisher.clear, hclaims]
  | sent summary claim messageId claims =>
    rw [promises_busy (fun _ => Publisher.noConfusion) harrives]
    simp [BatchPromises, OutboxPublishSummary.clean, Publisher.summary, Publisher.clear, Publisher.delivers]
  | thrown summary claim claims =>
    rw [promises_busy (fun _ => Publisher.noConfusion) harrives]
    simp [BatchPromises, OutboxPublishSummary.clean, Publisher.summary, Publisher.clear, Publisher.delivers]
  | delivered summary claim messageId claims haccepted =>
    rw [promises_loop harrives hspares]
    simp [BatchPromises, OutboxPublishSummary.clean, Publisher.summary, Publisher.clear, Publisher.delivers, haccepted]
  | conflicted summary claim messageId claims haccepted =>
    rw [promises_loop harrives hspares]
    simp [BatchPromises, OutboxPublishSummary.clean, Publisher.summary, Publisher.clear, Publisher.delivers, haccepted]
  | unreported summary claim messageId claims haccepted =>
    rw [promises_busy (fun _ => Publisher.noConfusion) harrives]
    simp [BatchPromises, OutboxPublishSummary.clean, Publisher.summary, Publisher.clear, Publisher.delivers, haccepted]
  | lapsed summary claim claims hlapsed =>
    rw [promises_loop harrives hspares]
    simp [BatchPromises, OutboxPublishSummary.clean, OutboxPublishSummary.count, Publisher.summary, Publisher.clear,
      Publisher.delivers, hlapsed]
  | failed summary claim claims disposition hlapsed hcounts =>
    rw [promises_loop harrives hspares]
    cases disposition with
    | dead => simp [BatchPromises, OutboxPublishSummary.clean, OutboxPublishSummary.count, Publisher.clear, hlapsed]
    | retry => simp [BatchPromises, OutboxPublishSummary.clean, OutboxPublishSummary.count, Publisher.clear, hlapsed]
    | lost => exact absurd rfl hcounts
  | unrecorded summary claim claims hlapsed =>
    simp [promises_thrown harrives, Publisher.clear, hlapsed]

/-- The steps of the others keep what a call will answer. -/
theorem promises_other {action : BatchedAction ρ ν} (hspares : action.spares n) (hother : action.advances n = false) :
    Promises service policy n (action :: rest) w ↔
      Promises service policy n rest (BatchedStarts.step service policy action w) := by
  obtain ⟨hcalls, hpublishers⟩ := step_other service policy hspares hother
  have hclear : BatchedStarts.Clear policy n w action := by
    cases action with
    | advance m env =>
      intro hm
      simp [BatchedAction.advances, hm] at hother
    | call m principal input => trivial
    | world action => trivial
  have hdelivers : ¬ BatchedStarts.Delivers n w action := by
    cases action with
    | advance m env =>
      rintro ⟨hm, -⟩
      simp [BatchedAction.advances, hm] at hother
    | call m principal input => exact id
    | world action => exact id
  unfold Promises BatchPromises
  rw [hcalls, hpublishers]
  simp only [Runs.Guarded, Runs.Occurs, hclear, hdelivers, true_and, false_or]

/-- Step lemma. -/
theorem tracks_step (service : StartService) (policy : PublisherPolicy)
    {action : BatchedAction ρ ν} (hs : w.starts.Sound)
    (htracks : (w.starts.calls n).Tracks call record requireNewDelivery reused) (haction : action.spares n)
    (hspares : ∀ action ∈ rest, action.spares n) :
    ((BatchedStarts.step service policy action w).starts.calls n).Tracks call record requireNewDelivery reused ∧
      (Promises service policy n (action :: rest) w ↔
        Promises service policy n rest (BatchedStarts.step service policy action w)) := by
  cases hown : action.advances n with
  | false =>
    refine ⟨?_, promises_other haction hown⟩
    rw [(step_other service policy haction hown).1]
    exact htracks
  | true =>
    cases action with
    | call m principal input => cases hown
    | world action => cases hown
    | advance m env =>
      obtain rfl : m = n := by simpa [BatchedAction.advances] using hown
      rw [BatchedStarts.step]
      generalize hcall : w.starts.calls m = phase at htracks
      cases htracks with
      | publishing =>
        refine ⟨?_, publishing_promises hcall hspares⟩
        obtain ⟨p, -, harrives⟩ := advance_arrives service policy env hcall
        cases harrives with
        | busy _ _ hphase _ =>
          rw [hphase]
          exact .publishing
        | returned summary hphase =>
          rw [hphase]
          cases summary with
          | none => exact .failed
          | some summary =>
            rw [judged]
            split
            · exact .failed
            · split
              · exact .reading
              · exact .consuming
      | consuming =>
        have hstep := consuming_step service policy env hcall
        unfold Promises
        rw [hstep, hcall]
        cases hconsumed : env.consumed with
        | true => exact ⟨.reading, by simp [Runs.Guarded, BatchedStarts.Clear, BatchedStarts.step, hcall, hconsumed]⟩
        | false => exact ⟨.failed, by simp [Runs.Guarded, BatchedStarts.Clear, hcall, hconsumed]⟩
      | reading =>
        unfold Promises
        rw [hcall]
        rcases reading_step service policy env hs hcall with
          ⟨hfate, snapshot, hcase, hjob, hstep⟩ | ⟨hfate, hstep⟩
        · have hdone := guarded_done service policy hstep hspares
          rw [hstep]
          exact ⟨.succeeded snapshot hcase hjob,
            by simp [Runs.Guarded, BatchedStarts.Clear, BatchedStarts.step, hcall, hfate, hdone]⟩
        · rw [hstep]
          exact ⟨.failed, by simp [Runs.Guarded, BatchedStarts.Clear, hcall, hfate]⟩
      | succeeded snapshot hcase hjob =>
        have hstep := done_step service policy env hcall
        unfold Promises
        rw [hstep, hcall]
        exact ⟨.succeeded snapshot hcase hjob, Iff.rfl⟩
      | failed =>
        have hstep := done_step service policy env hcall
        unfold Promises
        rw [hstep, hcall]
        exact ⟨.failed, Iff.rfl⟩

/-- Run lemma. -/
theorem tracks_run {actions : List (BatchedAction ρ ν)} (hs : w.starts.Sound)
    (hpermitted : Runs.Guarded (BatchedStarts.step service policy) BatchedStarts.Permitted actions w)
    (htracks : (w.starts.calls n).Tracks call record requireNewDelivery reused)
    (hspares : ∀ action ∈ actions, action.spares n) :
    ((Runs.run (BatchedStarts.step service policy) actions w).starts.calls n).Tracks call record requireNewDelivery reused ∧
      (Promises service policy n actions w ↔
        Promises service policy n [] (Runs.run (BatchedStarts.step service policy) actions w)) := by
  induction actions generalizing w with
  | nil => exact ⟨htracks, Iff.rfl⟩
  | cons action rest ih =>
    have hrest : ∀ a ∈ rest, a.spares n := fun a ha => hspares a (List.mem_cons_of_mem action ha)
    obtain ⟨hnext, hpromises⟩ := tracks_step service policy hs htracks
      (hspares action List.mem_cons_self) hrest
    obtain ⟨hlast, hfollows⟩ := ih (batched_step_sound hs hpermitted.1) hpermitted.2 hnext hrest
    exact ⟨hlast, hpromises.trans hfollows⟩

end rest

/-! ## A call ends -/

/-- How many steps a call has left that is publishing. -/
def StartPhase.left (limit : Nat) (p : Publisher) : StartPhase ρ ν → Nat
  | .publishing _ _ _ _ => p.left limit
  | .consuming _ _ _ => 2
  | .reading _ _ _ => 1
  | _ => 0

def BatchedStarts.left (policy : PublisherPolicy) (n : Nat) (w : BatchedStarts ρ ν) : Nat :=
  (w.starts.calls n).left policy.maxBatchSize (w.publishers n)

omit [ResultDocument ρ] [RequestSchemas ν] [LocaleCompare] [JsonNumber ν] [Sha256] in
theorem judged_left (summary : Option OutboxPublishSummary) (limit : Nat) (p : Publisher) :
    (judged service call record requireNewDelivery reused summary).left limit p ≤ 2 := by
  cases summary with
  | none => exact Nat.zero_le 2
  | some summary =>
    rw [judged]
    split
    · exact Nat.zero_le 2
    · split
      · exact Nat.le_succ 1
      · exact le_refl 2

omit [ResultDocument ρ] [RequestSchemas ν] [LocaleCompare] [JsonNumber ν] [Sha256] in
theorem Arrives.left {p : Publisher} (h : Arrives service w n call record requireNewDelivery reused p) :
    w.left policy n ≤ p.after policy.maxBatchSize := by
  rw [BatchedStarts.left]
  cases h with
  | busy p hbusy hcall hp =>
    rw [hcall, hp]
    cases p with
    | idle summary => exact absurd rfl (hbusy summary)
    | sending | marking | failing => exact le_refl _
  | returned summary hcall =>
    rw [hcall]
    exact judged_left summary _ _

theorem publishing_left (service : StartService) (policy : PublisherPolicy) (env : BatchSurroundings)
    (hcall : w.starts.calls n = .publishing call record requireNewDelivery reused) :
    (w.advance service policy n env).left policy n + 1 ≤ w.left policy n := by
  obtain ⟨p, hstep, harrives⟩ := advance_arrives service policy env hcall
  have hbefore : w.left policy n = (w.publishers n).left policy.maxBatchSize := by
    rw [BatchedStarts.left, hcall]
    rfl
  rw [hbefore]
  exact (Nat.succ_le_succ harrives.left).trans hstep.left

/-- Each step of a call leaves it fewer, and nobody else adds one. -/
theorem left_step (service : StartService) (policy : PublisherPolicy)
    {action : BatchedAction ρ ν} (hs : w.starts.Sound)
    (htracks : (w.starts.calls n).Tracks call record requireNewDelivery reused) (haction : action.spares n) :
    (BatchedStarts.step service policy action w).left policy n ≤
      w.left policy n - (if action.advances n then 1 else 0) := by
  cases hown : action.advances n with
  | false =>
    obtain ⟨hcalls, hpublishers⟩ := step_other service policy haction hown
    rw [BatchedStarts.left, hcalls, hpublishers]
    exact le_refl _
  | true =>
    cases action with
    | call m principal input => cases hown
    | world action => cases hown
    | advance m env =>
      obtain rfl : m = n := by simpa [BatchedAction.advances] using hown
      rw [BatchedStarts.step, if_pos rfl]
      generalize hcall : w.starts.calls m = phase at htracks
      cases htracks with
      | publishing =>
        have := publishing_left service policy env hcall
        omega
      | consuming =>
        rw [BatchedStarts.left, BatchedStarts.left, consuming_step service policy env hcall, hcall]
        split
        · exact le_refl 1
        · exact Nat.zero_le _
      | reading =>
        rcases reading_step service policy env hs hcall with
          ⟨-, snapshot, -, -, hstep⟩ | ⟨-, hstep⟩ <;> rw [BatchedStarts.left, hstep] <;> exact Nat.zero_le _
      | succeeded =>
        rw [BatchedStarts.left, done_step service policy env hcall]
        exact Nat.zero_le _
      | failed =>
        rw [BatchedStarts.left, done_step service policy env hcall]
        exact Nat.zero_le _

theorem left_run {actions : List (BatchedAction ρ ν)} (hs : w.starts.Sound)
    (hpermitted : Runs.Guarded (BatchedStarts.step service policy) BatchedStarts.Permitted actions w)
    (htracks : (w.starts.calls n).Tracks call record requireNewDelivery reused)
    (hspares : ∀ action ∈ actions, action.spares n) :
    (Runs.run (BatchedStarts.step service policy) actions w).left policy n ≤
      w.left policy n - actions.countP (BatchedAction.advances n) := by
  induction actions generalizing w with
  | nil => exact le_refl _
  | cons action rest ih =>
    have hrest : ∀ a ∈ rest, a.spares n := fun a ha => hspares a (List.mem_cons_of_mem action ha)
    have haction := hspares action List.mem_cons_self
    have hnext := (tracks_step service policy hs htracks haction hrest).1
    have hone := left_step service policy hs htracks haction
    have hlast := ih (batched_step_sound hs hpermitted.1) hpermitted.2 hnext hrest
    rw [Runs.run, List.countP_cons]
    omega

theorem batched_sound {now : Instant} {tenants : Table String TenantRow} {actions : List (BatchedAction ρ ν)}
    (h : Runs.Guarded (BatchedStarts.step service policy) BatchedStarts.Permitted actions
      (BatchedStarts.initial now tenants)) :
    (Runs.run (BatchedStarts.step service policy) actions (BatchedStarts.initial now tenants)).starts.Sound := by
  have hstep : ∀ (w : BatchedStarts ρ ν) action, w.starts.Sound → w.Permitted action →
      (BatchedStarts.step service policy action w).starts.Sound := fun w action hs hp => batched_step_sound hs hp
  refine Runs.run_invariant hstep ?_ h
  have hopen : Runs.Guarded (Starts.step service) Starts.Permitted [] (Starts.initial now tenants : Starts ρ ν) := trivial
  exact Starts.sound_run hopen

/-- A start that has its reservation ends, and it answers with its case and job exactly if
its batch is claimed, no failure that it reports for the batch counts, it delivers an event itself
where its own is new, its message is consumed and its record read. -/
theorem start_outcome {now : Instant} {tenants : Table String TenantRow} {before after : List (BatchedAction ρ ν)}
    (h : Runs.Guarded (BatchedStarts.step service policy) BatchedStarts.Permitted (before ++ after)
      (BatchedStarts.initial now tenants))
    (hpublishing : (Runs.run (BatchedStarts.step service policy) before (BatchedStarts.initial now tenants)).starts.calls n =
      .publishing call record requireNewDelivery reused)
    (hidle : (Runs.run (BatchedStarts.step service policy) before (BatchedStarts.initial now tenants)).publishers n =
      .idle none)
    (honce : ∀ principal input, .call n principal input ∉ after) :
    (3 * policy.maxBatchSize + 3 ≤ after.countP (BatchedAction.advances n) →
      ∃ reply, (Runs.run (BatchedStarts.step service policy) (before ++ after)
        (BatchedStarts.initial now tenants)).starts.calls n = .done call reply) ∧
    ∀ reply, (Runs.run (BatchedStarts.step service policy) (before ++ after)
        (BatchedStarts.initial now tenants)).starts.calls n = .done call reply →
      ((∃ snapshot, reply = .ok reused snapshot ∧ snapshot.case.id = record.snapshot.case.id ∧
          snapshot.job.id = record.snapshot.job.id) ↔
        Runs.Guarded (BatchedStarts.step service policy) (BatchedStarts.Clear policy n) after
            (Runs.run (BatchedStarts.step service policy) before (BatchedStarts.initial now tenants)) ∧
          (requireNewDelivery = true → Runs.Occurs (BatchedStarts.step service policy) (BatchedStarts.Delivers n) after
            (Runs.run (BatchedStarts.step service policy) before (BatchedStarts.initial now tenants)))) := by
  obtain ⟨hbefore, hafter⟩ := Runs.guarded_append.mp h
  have hs := batched_sound hbefore
  rw [Runs.run_append]
  generalize Runs.run (BatchedStarts.step service policy) before (BatchedStarts.initial now tenants) = w at *
  have hspares : ∀ action ∈ after, action.spares n := by
    intro action haction
    cases action with
    | call m principal input =>
      rintro rfl
      exact honce principal input haction
    | advance m env => trivial
    | world action => trivial
  have htracks : (w.starts.calls n).Tracks call record requireNewDelivery reused := by
    rw [hpublishing]
    exact .publishing
  obtain ⟨hlast, hpromises⟩ := tracks_run hs hafter htracks hspares
  constructor
  · intro hsteps
    have hleft := left_run hs hafter htracks hspares
    have hstart : w.left policy n = 3 * policy.maxBatchSize + 3 := by
      rw [BatchedStarts.left, hpublishing, hidle]
      rfl
    have hzero : (Runs.run (BatchedStarts.step service policy) after w).left policy n = 0 := by omega
    rw [BatchedStarts.left] at hzero
    generalize (Runs.run (BatchedStarts.step service policy) after w).publishers n = p at hzero
    generalize (Runs.run (BatchedStarts.step service policy) after w).starts.calls n = phase at hlast hzero ⊢
    cases hlast with
    | publishing => cases p <;> simp [StartPhase.left, Publisher.left] at hzero
    | consuming => cases hzero
    | reading => cases hzero
    | succeeded snapshot => exact ⟨_, rfl⟩
    | failed => exact ⟨_, rfl⟩
  · intro reply hdone
    have hpromised : Promises service policy n after w ↔
        Runs.Guarded (BatchedStarts.step service policy) (BatchedStarts.Clear policy n) after w ∧
          (requireNewDelivery = true →
            Runs.Occurs (BatchedStarts.step service policy) (BatchedStarts.Delivers n) after w) := by
      rw [Promises, hpublishing, hidle]
      simp [BatchPromises, OutboxPublishSummary.clean, Publisher.summary]
    rw [← hpromised, hpromises, Promises, hdone]
    rw [hdone] at hlast
    cases hlast with
    | succeeded snapshot hcase hjob => simp [hcase, hjob]
    | failed => simp

end steps

end ReproForge

namespace ReproForge.Sample.Outcomes

open Sample.Repository

def batchPolicy : PublisherPolicy := ⟨30, 5, 1, "publisher-1", by decide, by decide, by decide⟩

def batchSurroundings : BatchSurroundings :=
  { working "acme/web" with at' := opening + 1000, locked := [], sent := some (some "message-1"), settling := .runs }

/-- The first start comes to publish. -/
def reserves : List (BatchedAction Empty (Fin 10)) :=
  .call 0 repositoryPrincipal repositoryInput :: List.replicate 4 (.advance 0 batchSurroundings)

/-- It claims its event, sends it, reports the delivery and reads its record. -/
def ownBatch : List (BatchedAction Empty (Fin 10)) := List.replicate 4 (.advance 0 batchSurroundings)

def rivalClaim : OutboxClaim :=
  ⟨opening + 1000, opening + 31000, "publisher-2", 1,
    ⟨"case-1", "outbox_case-1", "job-1", .requested, "1.0", "acme"⟩, 2⟩

/-- Another publisher delivers the event before the call claims its batch. -/
def rivalBatch : List (BatchedAction Empty (Fin 10)) :=
  [.world (.event (.call [] (.claimPending ⟨opening + 1000, 30, 1, "publisher-2"⟩ []))),
    .world (.event (.call [] (.markDelivered rivalClaim ⟨opening + 1000, some "message-1"⟩))),
    .advance 0 batchSurroundings]

def batchRun (actions : List (BatchedAction Empty (Fin 10))) (w : BatchedStarts Empty (Fin 10)) :
    BatchedStarts Empty (Fin 10) :=
  Runs.run (BatchedStarts.step queuedService batchPolicy) actions w

/-- The state in which the first start publishes. -/
def atPublishing (start : DurableStartInput Empty (ResolvedRepositoryExecutionRequest (Fin 10))) :
    BatchedStarts Empty (Fin 10) :=
  ⟨⟨⟨(startCall [] .default start (Db.initial opening tenants)).2, []⟩,
    Function.update (fun _ => .idle) 0 (.publishing (named "acme/web") start.record true false)⟩,
    Function.update (fun _ => .idle none) 0 (.idle none), []⟩

end ReproForge.Sample.Outcomes

namespace ReproForge

open Sample Sample.Repository Sample.Outcomes KeyedTable JsonValues

theorem quiet_advance (starts : Starts Empty (Fin 10)) (publishers : Nat → Publisher)
    (hquiet : (starts.calls 0).publishes = false) :
    BatchedStarts.step queuedService batchPolicy (.advance 0 batchSurroundings) ⟨starts, publishers, []⟩ =
      ⟨starts.advance queuedService 0 (working "acme/web"), publishers, []⟩ :=
  advance_quiet (w := ⟨starts, publishers, []⟩) hquiet

/-- The first start reserves its reproduction. -/
theorem reserves_publishing : ∃ start, startInput (ρ := Empty) reservationLifetime firstCommand = some start ∧
    batchRun reserves (BatchedStarts.initial opening tenants) = atPublishing start := by
  obtain ⟨start, hstart, hhash, hopen, hcreated⟩ := first_start
  refine ⟨start, hstart, ?_⟩
  rw [← first_startCommand] at hstart
  have hlooking := looking_named (Starts.initial opening tenants) 0 "acme/web" (by decide +kernel)
  have hlooks : (((Starts.initial opening tenants : Starts Empty (Fin 10)).turn 0
      (.resolving repositoryPrincipal repositoryInput)).turn 0 (.looking (named "acme/web"))).calls 0 =
      .looking (named "acme/web") := Starts.turn_calls _ 0 _
  obtain ⟨hlook, hadmit, hreserve⟩ := fresh_reserved queuedService (working "acme/web") hlooks rfl rfl key_free hstart
    (first_reserved hcreated) (hhash.trans first_commandHash.symm) hopen
  simp only [Runs.run, Starts.step] at hlooking
  have hvalid : repositoryInput.valid = true := by decide +kernel
  rw [if_pos hvalid] at hlooking
  have hcalled : BatchedStarts.step queuedService batchPolicy (.call 0 repositoryPrincipal repositoryInput)
      (BatchedStarts.initial opening tenants : BatchedStarts Empty (Fin 10)) =
      ⟨(Starts.initial opening tenants).turn 0 (.resolving repositoryPrincipal repositoryInput),
        Function.update (fun _ => .idle none) 0 (.idle none), []⟩ := by
    rw [BatchedStarts.step, Starts.step, if_pos hvalid]
    rfl
  have hquiet : ∀ (w : Starts Empty (Fin 10)) (phase : StartPhase Empty (Fin 10)), phase.publishes = false →
      ((w.turn 0 phase).calls 0).publishes = false := by
    intro w phase hphase
    rw [Starts.turn_calls]
    exact hphase
  simp only [batchRun, reserves, List.replicate, Runs.run]
  rw [hcalled, quiet_advance _ _ (hquiet _ _ rfl), hlooking, quiet_advance _ _ (hquiet _ _ rfl), hlook,
    quiet_advance _ _ (hquiet _ _ rfl), hadmit, quiet_advance _ _ (hquiet _ _ rfl), hreserve]
  simp only [atPublishing, Starts.turn, Function.update_idem]
  rfl

theorem batches_evaluated : ∃ start, startInput (ρ := Empty) reservationLifetime firstCommand = some start ∧
    ((batchRun ownBatch (atPublishing start)).starts.calls 0).succeeds = true ∧
    ((batchRun rivalBatch (atPublishing start)).starts.calls 0).fails = true ∧
    ((batchRun rivalBatch (atPublishing start)).starts.world.db.outboxEvents.get ⟨"acme", "outbox_case-1"⟩).any
      (fun o => o.payload.jobId == start.record.jobId && o.status == .delivered) = true := by
  have h : (startInput (ρ := Empty) reservationLifetime firstCommand).any (fun start =>
      ((batchRun ownBatch (atPublishing start)).starts.calls 0).succeeds &&
        ((batchRun rivalBatch (atPublishing start)).starts.calls 0).fails &&
          ((batchRun rivalBatch (atPublishing start)).starts.world.db.outboxEvents.get ⟨"acme", "outbox_case-1"⟩).any
            (fun o => o.payload.jobId == start.record.jobId && o.status == .delivered)) = true := by decide +kernel
  obtain ⟨start, hstart, hfacts⟩ := (Option.any_eq_true _ _).mp h
  simp only [Bool.and_eq_true] at hfacts
  exact ⟨start, hstart, hfacts.1.1, hfacts.1.2, hfacts.2⟩

theorem atPublishing_calls (start : DurableStartInput Empty (ResolvedRepositoryExecutionRequest (Fin 10))) :
    (atPublishing start).starts.calls 0 = .publishing (named "acme/web") start.record true false := by
  rw [atPublishing]
  rfl

section sample

variable {start : DurableStartInput Empty (ResolvedRepositoryExecutionRequest (Fin 10))}
  {later : List (BatchedAction Empty (Fin 10))}

theorem later_permitted (hreserves : batchRun reserves (BatchedStarts.initial opening tenants) = atPublishing start)
    (h : Runs.Guarded (BatchedStarts.step queuedService batchPolicy) BatchedStarts.Permitted later (atPublishing start)) :
    Runs.Guarded (BatchedStarts.step queuedService batchPolicy) BatchedStarts.Permitted (reserves ++ later)
      (BatchedStarts.initial opening tenants) := by
  rw [← hreserves] at h
  exact Runs.guarded_append.mpr ⟨⟨trivial, trivial, trivial, trivial, trivial, trivial⟩, h⟩

theorem later_run (hreserves : batchRun reserves (BatchedStarts.initial opening tenants) = atPublishing start) :
    batchRun (reserves ++ later) (BatchedStarts.initial opening tenants) = batchRun later (atPublishing start) := by
  rw [← hreserves]
  exact Runs.run_append _ _ _ _

theorem later_tracks (hreserves : batchRun reserves (BatchedStarts.initial opening tenants) = atPublishing start)
    (h : Runs.Guarded (BatchedStarts.step queuedService batchPolicy) BatchedStarts.Permitted later (atPublishing start))
    (hspares : ∀ action ∈ later, action.spares 0) :
    ((batchRun later (atPublishing start)).starts.calls 0).Tracks (named "acme/web") start.record true false := by
  have hs := batched_sound (Runs.guarded_append.mp (later_permitted hreserves h)).1
  rw [batchRun] at hreserves
  rw [hreserves] at hs
  have htracks : ((atPublishing start).starts.calls 0).Tracks (named "acme/web") start.record true false := by
    rw [atPublishing_calls]
    exact .publishing
  exact (tracks_run hs h htracks hspares).1

end sample

/-- The event of a start is delivered by another publisher, and the start fails. -/
theorem delivered_start_fails : ∃ call record o,
    Runs.Guarded (BatchedStarts.step queuedService batchPolicy) BatchedStarts.Permitted (reserves ++ rivalBatch)
      (BatchedStarts.initial opening tenants) ∧
    (batchRun reserves (BatchedStarts.initial opening tenants)).starts.calls 0 = .publishing call record true false ∧
    (batchRun (reserves ++ rivalBatch) (BatchedStarts.initial opening tenants)).starts.world.db.outboxEvents.get
      ⟨"acme", "outbox_case-1"⟩ = some o ∧ o.payload.jobId = record.jobId ∧ o.status = .delivered ∧
    (batchRun (reserves ++ rivalBatch) (BatchedStarts.initial opening tenants)).starts.calls 0 = .done call .failed := by
  obtain ⟨start, hstart, hreserves⟩ := reserves_publishing
  obtain ⟨start', hstart', -, hfails, hdelivered⟩ := batches_evaluated
  obtain rfl := Option.some.inj (hstart.symm.trans hstart')
  have hpermitted : Runs.Guarded (BatchedStarts.step queuedService batchPolicy) BatchedStarts.Permitted rivalBatch
      (atPublishing start) := ⟨fun _ h => h.elim, fun _ h => h.elim, trivial, trivial⟩
  have hspares : ∀ action ∈ rivalBatch, action.spares 0 := by
    intro action haction
    simp only [rivalBatch, List.mem_cons, List.not_mem_nil, or_false] at haction
    rcases haction with rfl | rfl | rfl <;> trivial
  have hlast := later_tracks hreserves hpermitted hspares
  obtain ⟨o, ho, hfacts⟩ := (Option.any_eq_true _ _).mp hdelivered
  simp only [Bool.and_eq_true, beq_iff_eq] at hfacts
  refine ⟨named "acme/web", start.record, o, later_permitted hreserves hpermitted, ?_, ?_, hfacts.1, hfacts.2, ?_⟩
  · rw [hreserves]
    exact atPublishing_calls start
  · rw [later_run hreserves]
    exact ho
  · rw [later_run hreserves]
    generalize (batchRun rivalBatch (atPublishing start)).starts.calls 0 = phase at hfails hlast ⊢
    cases hlast with
    | failed => rfl
    | _ => cases hfails

theorem start_outcome_sample : ∃ snapshot,
    (batchRun (reserves ++ ownBatch) (BatchedStarts.initial opening tenants)).starts.calls 0 =
      .done (named "acme/web") (.ok false snapshot) ∧
    Runs.Guarded (BatchedStarts.step queuedService batchPolicy) (BatchedStarts.Clear batchPolicy 0) ownBatch
      (batchRun reserves (BatchedStarts.initial opening tenants)) ∧
    Runs.Occurs (BatchedStarts.step queuedService batchPolicy) (BatchedStarts.Delivers 0) ownBatch
      (batchRun reserves (BatchedStarts.initial opening tenants)) := by
  obtain ⟨start, hstart, hreserves⟩ := reserves_publishing
  obtain ⟨start', hstart', hsucceeds, -⟩ := batches_evaluated
  obtain rfl := Option.some.inj (hstart.symm.trans hstart')
  have hpermitted : Runs.Guarded (BatchedStarts.step queuedService batchPolicy) BatchedStarts.Permitted ownBatch
      (atPublishing start) := ⟨trivial, trivial, trivial, trivial, trivial⟩
  have hspares : ∀ action ∈ ownBatch, action.spares 0 := by
    intro action haction
    rw [List.eq_of_mem_replicate haction]
    trivial
  have hlast := later_tracks hreserves hpermitted hspares
  obtain ⟨snapshot, hcase, hjob, hdone⟩ : ∃ snapshot, snapshot.case.id = start.record.snapshot.case.id ∧
      snapshot.job.id = start.record.snapshot.job.id ∧
      (batchRun ownBatch (atPublishing start)).starts.calls 0 = .done (named "acme/web") (.ok false snapshot) := by
    generalize (batchRun ownBatch (atPublishing start)).starts.calls 0 = phase at hsucceeds hlast ⊢
    cases hlast with
    | succeeded snapshot hcase hjob => exact ⟨snapshot, hcase, hjob, rfl⟩
    | _ => cases hsucceeds
  rw [← later_run hreserves] at hdone
  have hcalls := atPublishing_calls start
  have hpublishers : (atPublishing start).publishers 0 = .idle none := by
    rw [atPublishing]
    rfl
  rw [← hreserves] at hcalls hpublishers
  have honce : ∀ principal input, .call 0 principal input ∉ ownBatch := by
    intro principal input h
    cases List.eq_of_mem_replicate h
  have hall := later_permitted hreserves hpermitted
  rw [batchRun] at hcalls hpublishers hdone ⊢
  rw [batchRun]
  have houtcome := (start_outcome hall hcalls hpublishers honce).2 _ hdone
  obtain ⟨hclear, hdelivers⟩ := houtcome.mp ⟨snapshot, rfl, hcase, hjob⟩
  exact ⟨snapshot, hdone, hclear, hdelivers rfl⟩

end ReproForge
