import Mathlib.Algebra.GroupWithZero.Nat

/-!
# Contracts of the durable ports

Identifiers, instants and the messages that cross the durable ports, each with
the check its schema makes. An instant is a number of milliseconds since the
epoch. The schemas accept four-digit years only, and a timestamp outside that
range is not a valid database literal either, so `datetime` bounds every
instant that an operation takes in.
-/
namespace ReproForge

abbrev Instant := Int

/-- `z.string().datetime()`: the years 0000 to 9999. -/
def datetime (t : Instant) : Bool := -62167219200000 ≤ t && t ≤ 253402300799999

def canonicalTimestamp (t : Instant) : Option Instant := if datetime t then some t else none

def maxSafeInteger : Nat := 9007199254740991

/-- Numbers read back from a `bigint` column must be safe integers. -/
def integer (n : Nat) : Option Nat := if n ≤ maxSafeInteger then some n else none

def opaqueChar (c : Char) : Bool := c.isAlphanum || c == '.' || c == '_' || c == ':' || c == '-'

/-- `^[A-Za-z0-9][A-Za-z0-9._:-]{0,127}$` -/
def opaqueId (s : String) : Bool :=
  match s.toList with
  | [] => false
  | c :: rest => c.isAlphanum && rest.all opaqueChar && rest.length ≤ 127

theorem opaque_no_slash {id : String} (h : opaqueId id = true) : '/' ∉ id.toList := by
  unfold opaqueId at h
  intro hslash
  split at h
  · rename_i hnil
    rw [hnil] at hslash
    cases hslash
  · rename_i c rest hcons
    simp only [Bool.and_eq_true, List.all_eq_true] at h
    rw [hcons] at hslash
    rcases List.mem_cons.mp hslash with rfl | hrest
    · exact absurd h.1.1 (by decide)
    · exact absurd (h.1.2 _ hrest) (by decide)

theorem split_at_slash {a b x y : List Char} (ha : '/' ∉ a) (hb : '/' ∉ b) (h : a ++ '/' :: x = b ++ '/' :: y) :
    a = b := by
  induction a generalizing b with
  | nil =>
    cases b with
    | nil => rfl
    | cons c b =>
      obtain ⟨rfl, -⟩ := List.cons.inj h
      exact absurd List.mem_cons_self hb
  | cons c a ih =>
    cases b with
    | nil =>
      obtain ⟨rfl, -⟩ := List.cons.inj h
      exact absurd List.mem_cons_self ha
    | cons d b =>
      obtain ⟨rfl, hrest⟩ := List.cons.inj h
      rw [ih (fun hm => ha (List.mem_cons_of_mem c hm)) (fun hm => hb (List.mem_cons_of_mem c hm)) hrest]

def lowerHex (c : Char) : Bool := c.isDigit || ('a' ≤ c && c ≤ 'f')

def hexDigest (length : Nat) (s : String) : Bool := s.toList.length == length && s.toList.all lowerHex

/-- `^[A-Z][A-Z0-9_]{0,95}$` -/
def isFailureCode (s : String) : Bool :=
  match s.toList with
  | [] => false
  | c :: rest => c.isUpper && rest.all (fun c => c.isUpper || c.isDigit || c == '_') && rest.length ≤ 95

/-- The length that JavaScript reports: code points past U+FFFF count twice. -/
def utf16Length (s : String) : Nat := (s.toList.map (fun c => if c.toNat > 0xFFFF then 2 else 1)).sum

structure TenantScope where
  callerId : String
  principalId : String
  tenantId : String
  deriving DecidableEq, Repr

def TenantScope.valid (s : TenantScope) : Bool :=
  opaqueId s.callerId && opaqueId s.principalId && opaqueId s.tenantId

inductive MessageKind where
  | requested | cancelled | recoveryRequested | deletionRequested
  deriving DecidableEq, Repr

structure QueueMessage where
  caseId : String
  eventId : String
  jobId : String
  kind : MessageKind
  schemaVersion : String
  tenantId : String
  deriving DecidableEq, Repr

def QueueMessage.valid (m : QueueMessage) : Bool :=
  opaqueId m.caseId && opaqueId m.eventId && opaqueId m.jobId && m.schemaVersion == "1.0" &&
    opaqueId m.tenantId

structure JobLease where
  acquiredAt : Instant
  attempt : Nat
  expiresAt : Instant
  jobId : String
  ownerId : String
  tenantId : String
  deriving DecidableEq, Repr

def JobLease.valid (l : JobLease) : Bool :=
  datetime l.acquiredAt && 0 < l.attempt && l.attempt ≤ 100 && datetime l.expiresAt &&
    opaqueId l.jobId && opaqueId l.ownerId && opaqueId l.tenantId && l.acquiredAt < l.expiresAt

inductive AuditOutcome where
  | success | denied | failure
  deriving DecidableEq, Repr

inductive AuditTarget where
  | account | artifact | case | installation | job | repository
  deriving DecidableEq, Repr

inductive MetadataValue where
  | text : String → MetadataValue
  | number : Int → MetadataValue
  | flag : Bool → MetadataValue
  | null : MetadataValue
  deriving DecidableEq, Repr

structure AuditEvent where
  action : String
  actorId : String
  eventId : String
  metadata : List (String × MetadataValue)
  occurredAt : Instant
  outcome : AuditOutcome
  targetId : String
  targetType : AuditTarget
  tenantId : String
  deriving DecidableEq, Repr

def forbiddenAuditWords : List String :=
  ["authorization", "cookie", "credential", "password", "secret", "source", "token", "command"]

def occursIn (word : List Char) : List Char → Bool
  | [] => word.isEmpty
  | c :: rest => word.isPrefixOf (c :: rest) || occursIn word rest

/-- `forbiddenAuditKey.test(key)`, case-insensitively. -/
def forbiddenAuditKey (key : String) : Bool :=
  forbiddenAuditWords.any (fun word => occursIn word.toList (key.toList.map Char.toLower))

def MetadataValue.valid : MetadataValue → Bool
  | .text s => utf16Length s ≤ 512
  | _ => true

/-- `^[a-z][a-z0-9.-]*$`, 1 to 96 characters -/
def auditAction (s : String) : Bool :=
  match s.toList with
  | [] => false
  | c :: rest =>
    c.isLower && rest.all (fun c => c.isLower || c.isDigit || c == '.' || c == '-') && rest.length ≤ 95

def AuditEvent.valid (e : AuditEvent) : Bool :=
  auditAction e.action && opaqueId e.actorId && opaqueId e.eventId &&
    e.metadata.all (fun entry =>
      0 < utf16Length entry.1 && utf16Length entry.1 ≤ 64 && !forbiddenAuditKey entry.1 &&
        entry.2.valid) &&
    datetime e.occurredAt && opaqueId e.targetId && opaqueId e.tenantId

inductive QuotaResource where
  | activeJobs | artifactBytes | cpuMilliseconds | exports
  deriving DecidableEq, Repr

structure QuotaReservation where
  amount : Nat
  caseId : String
  expiresAt : Instant
  jobId : String
  reservationId : String
  resource : QuotaResource
  tenantId : String
  deriving DecidableEq, Repr

def QuotaReservation.valid (q : QuotaReservation) : Bool :=
  0 < q.amount && q.amount ≤ maxSafeInteger && opaqueId q.caseId && datetime q.expiresAt &&
    opaqueId q.jobId && opaqueId q.reservationId && opaqueId q.tenantId

structure LeaseFailure where
  at' : Instant
  code : String
  nextAttemptAt : Instant
  retryable : Bool
  deriving DecidableEq, Repr

inductive LeaseFailureDisposition where
  | cancelled | exhausted | requeued
  deriving DecidableEq, Repr

structure LeaseRecoverySummary where
  cancelled : Nat
  exhausted : Nat
  requeued : Nat
  deriving DecidableEq, Repr

inductive CancellationDisposition where
  | cancelled | requested
  deriving DecidableEq, Repr

structure CancellationRequestResult where
  caseId : String
  changed : Bool
  disposition : CancellationDisposition
  deriving DecidableEq, Repr

structure OutboxClaim where
  claimedAt : Instant
  claimExpiresAt : Instant
  claimOwnerId : String
  deliveryAttempt : Nat
  message : QueueMessage
  version : Nat
  deriving DecidableEq, Repr

inductive OutboxFailureDisposition where
  | dead | lost | retry
  deriving DecidableEq, Repr

end ReproForge
