import ReproForge.CaseLifecycle

/-!
# Durable reproduction records

A record pairs the case and job of one reproduction with its request and its
result. The result and request documents are opaque here: what the durable
layer needs of them is whether their schema accepts them, whether a result is
the repository kind, and which revision a request names.
-/
namespace ReproForge

structure ImmutableRepositorySource where
  commitSha : String
  fullName : String
  private' : Bool
  repositoryId : String
  deriving DecidableEq, Repr

/-- The characters that `\s` matches. -/
def jsSpace (c : Char) : Bool :=
  [0x9, 0xA, 0xB, 0xC, 0xD, 0x20, 0xA0, 0x1680, 0x2028, 0x2029, 0x202F, 0x205F, 0x3000,
    0xFEFF].contains c.toNat || (0x2000 ≤ c.toNat && c.toNat ≤ 0x200A)

def trim (text : List Char) : List Char := ((text.dropWhile jsSpace).reverse.dropWhile jsSpace).reverse

/-- `^[^/\s]+\/[^/\s]+$` -/
def ownerAndName (s : String) : Bool :=
  let owner := s.toList.takeWhile (· != '/')
  let rest := s.toList.dropWhile (· != '/')
  !owner.isEmpty && owner.all (fun c => !jsSpace c) &&
    match rest with
    | [] => false
    | _ :: name => !name.isEmpty && name.all (fun c => c != '/' && !jsSpace c)

def ImmutableRepositorySource.valid (s : ImmutableRepositorySource) : Bool :=
  hexDigest 40 s.commitSha && 3 ≤ utf16Length s.fullName && utf16Length s.fullName ≤ 255 &&
    ownerAndName s.fullName && opaqueId s.repositoryId

inductive SampleId where
  | cliSpaces
  deriving DecidableEq, Repr

class ResultDocument (ρ : Type) where
  /-- The result schema accepts the document. -/
  valid : ρ → Bool
  /-- The document carries `kind: "repository"`. -/
  repository : ρ → Bool

class RequestDocument (ρ : Type) where
  /-- `resolvedRepositoryExecutionRequestSchema` accepts the document. -/
  valid : ρ → Bool
  source : ρ → ImmutableRepositorySource

variable {ρ : Type} {σ : Type}

structure ReproductionSnapshot (ρ : Type) where
  case : ReproCase
  job : ReproductionJob
  repositorySource : Option ImmutableRepositorySource
  result : Option ρ
  sampleId : Option SampleId
  schemaVersion : String
  deriving DecidableEq

def ReproductionSnapshot.valid [ResultDocument ρ] (s : ReproductionSnapshot ρ) : Bool :=
  s.case.valid && s.job.valid && s.repositorySource.all ImmutableRepositorySource.valid &&
    s.result.all ResultDocument.valid && s.schemaVersion == "2.0" &&
    s.sampleId.isSome != s.repositorySource.isSome &&
    s.result.all (fun r =>
      if ResultDocument.repository r then s.repositorySource.isSome else s.sampleId.isSome)

structure RequestedBudget where
  maxToolCalls : Int
  requiredRuns : Int
  deriving DecidableEq, Repr

def RequestedBudget.valid (b : RequestedBudget) : Bool :=
  1 ≤ b.maxToolCalls && b.maxToolCalls ≤ 20 && 1 ≤ b.requiredRuns && b.requiredRuns ≤ 5

structure DurableReproductionRecord (ρ σ : Type) where
  callerId : String
  caseId : String
  commandHash : String
  createdAt : Instant
  idempotencyKey : String
  jobId : String
  requestedBudget : Option RequestedBudget
  repositoryRequest : Option σ
  snapshot : ReproductionSnapshot ρ
  tenantId : String
  updatedAt : Instant
  version : Nat
  deriving DecidableEq

def controlCharacter (c : Char) : Bool := c.toNat ≤ 0x1F || c.toNat == 0x7F

def wordChar (c : Char) : Bool := c.isAlphanum || c == '_' || c == '-'

/-- One alternative of the credential pattern matches at the start of `text`,
which is already in lower case. -/
def credentialAt (text : List Char) : Bool :=
  (match text with
  | 's' :: 'k' :: '-' :: rest => 16 ≤ (rest.takeWhile wordChar).length
  | 'g' :: 'h' :: c :: '_' :: rest =>
    ['p', 'o', 'u', 's', 'r'].contains c && 16 ≤ (rest.takeWhile Char.isAlphanum).length
  | _ => false) ||
  (if "bearer".toList.isPrefixOf text then
    let rest := text.drop 6
    !(rest.takeWhile jsSpace).isEmpty &&
      8 ≤ ((rest.dropWhile jsSpace).takeWhile (fun c => !jsSpace c)).length
  else false) ||
  ["postgres://", "postgresql://"].any (fun scheme =>
    scheme.toList.isPrefixOf text &&
      let rest := text.drop scheme.toList.length
      let user := rest.takeWhile (fun c => c != '@' && !jsSpace c)
      !user.isEmpty && (rest.drop user.length).head? == some '@')

/-- The secret pattern that no failure message may match, anywhere and in any case. -/
def containsCredential (message : String) : Bool := search (message.toList.map Char.toLower)
where
  search : List Char → Bool
    | [] => false
    | c :: rest => credentialAt (c :: rest) || search rest

def sanitizedFailure (f : JobFailure) : Bool :=
  isFailureCode f.code && utf16Length f.message ≤ 512 && !f.message.toList.any controlCharacter &&
    !containsCredential f.message

/-- The request and the snapshot name the same immutable revision. -/
def requestMatchesSource [RequestDocument σ] (request : Option σ)
    (source : Option ImmutableRepositorySource) : Bool :=
  match request, source with
  | none, none => true
  | some r, some s =>
    RequestDocument.valid r && (RequestDocument.source r).commitSha == s.commitSha &&
      (RequestDocument.source r).repositoryId == s.repositoryId
  | _, _ => false

def validateRecord [ResultDocument ρ] [RequestDocument σ] (record : DurableReproductionRecord ρ σ)
    (initial : Bool) : Bool :=
  opaqueId record.callerId && opaqueId record.tenantId && record.snapshot.valid &&
    hexDigest 64 record.commandHash && 1 ≤ utf16Length record.idempotencyKey &&
    utf16Length record.idempotencyKey ≤ 128 && record.caseId == record.snapshot.case.id &&
    record.jobId == record.snapshot.job.id && record.caseId == record.snapshot.job.caseId &&
    requestMatchesSource record.repositoryRequest record.snapshot.repositorySource &&
    record.requestedBudget.all RequestedBudget.valid && record.version ≤ maxSafeInteger &&
    1 ≤ record.version && (!initial || record.version == 1) && record.createdAt ≤ record.updatedAt &&
    datetime record.createdAt && datetime record.updatedAt &&
    record.snapshot.job.failure.all sanitizedFailure

/-- The document kept in `cases.domain_state`: the snapshot without its job. -/
structure CaseDomain (ρ : Type) where
  case : ReproCase
  repositorySource : Option ImmutableRepositorySource
  result : Option ρ
  sampleId : Option SampleId
  schemaVersion : String
  deriving DecidableEq

def serializeCaseDomain (record : DurableReproductionRecord ρ σ) : CaseDomain ρ where
  case := record.snapshot.case
  repositorySource := record.snapshot.repositorySource
  result := record.snapshot.result
  sampleId := record.snapshot.sampleId
  schemaVersion := record.snapshot.schemaVersion

/-- The document kept in `cases.source_descriptor`. -/
structure SourceDescriptor (σ : Type) where
  budget : Option RequestedBudget
  repositoryRequest : Option σ
  sampleId : Option SampleId
  deriving DecidableEq

def sourceDescriptor (record : DurableReproductionRecord ρ σ) : SourceDescriptor σ where
  budget := record.requestedBudget
  repositoryRequest := record.repositoryRequest
  sampleId := if record.repositoryRequest.isSome then none else record.snapshot.sampleId

end ReproForge
