import ReproForge.CanonicalJson
import ReproForge.ChunkReading
import ReproForge.SourceArchives

/-!
# Bounded readers

The two readers that take bytes from outside: of the archive of a repository,
up to a fixed size, and of a stored object, whose size is known before.
-/
namespace ReproForge

open JsonValues

/-- What a stream delivers, and how it ends. -/
structure ByteStream where
  chunks : List (List UInt8)
  /-- A read fails after the chunks. -/
  broken : Bool
  cancelFails : Bool

/-! ## The archive of a repository -/

inductive SourceAcquisitionCode where
  | archiveDownloadFailed | archiveLimitExceeded | archiveInspectionFailed | credentialUnavailable
  | extractionFailed | networkLockdownFailed | unsafeArchive
  deriving DecidableEq, Repr

inductive ArchiveReadError where
  | acquisition (code : SourceAcquisitionCode)
  /-- An error of the stream, as it is. -/
  | stream
  deriving DecidableEq, Repr

structure ArchiveResponse where
  contentLength : Option String
  body : Option ByteStream

/-- The number of a trimmed header `^(?:0|[1-9][0-9]*)$` -/
def headerLength (raw : String) : Option Nat :=
  match trim raw.toList with
  | [] => none
  | c :: digits =>
    if c = '0' then if digits.isEmpty then some 0 else none
    else if (c :: digits).all Char.isDigit then some (digitsValue (c :: digits))
    else none

/-- What the header alone makes of a response. -/
def checkContentLength : Option String → Except ArchiveReadError Unit
  | none => .ok ()
  | some raw =>
    match headerLength raw with
    | none => .error (.acquisition .archiveDownloadFailed)
    | some n => if maxArchiveBytes < n then .error (.acquisition .archiveLimitExceeded) else .ok ()

def archiveBound : Chunks.Bound := ⟨maxArchiveBytes.toNat, fun _ => true⟩

/-- A failure of `cancel()` is ignored. -/
def archiveRefusal : Chunks.Refusal → ArchiveReadError
  | .exceeded => .acquisition .archiveLimitExceeded
  | .mismatched | .broken => .stream

def readBoundedArchive (response : ArchiveResponse) : Except ArchiveReadError (List UInt8) := do
  checkContentLength response.contentLength
  match response.body with
  | none => throw (.acquisition .archiveDownloadFailed)
  | some stream => (Chunks.read archiveBound stream.broken 0 stream.chunks).mapError archiveRefusal

/-! ## A stored object -/

inductive BlobReadError where
  | exceededTrustedSize | mismatchedTrustedSize
  /-- An error of the stream or of `cancel()`. -/
  | stream
  deriving DecidableEq, Repr

def blobBound (trustedSize : Nat) : Chunks.Bound := ⟨trustedSize, (· == trustedSize)⟩

def blobRefusal (cancelFails : Bool) : Chunks.Refusal → BlobReadError
  | .exceeded => if cancelFails then .stream else .exceededTrustedSize
  | .mismatched => .mismatchedTrustedSize
  | .broken => .stream

def collectStream (stream : ByteStream) (trustedSize : Nat) : Except BlobReadError (List UInt8) :=
  (Chunks.read (blobBound trustedSize) stream.broken 0 stream.chunks).mapError (blobRefusal stream.cancelFails)

/-! ## The readers and the bytes -/

/-- With an admitted header the archive is the bytes of the stream, up to the limit. -/
theorem readBoundedArchive_eq {contentLength : Option String} (hheader : checkContentLength contentLength = .ok ())
    (chunks : List (List UInt8)) (cancelFails : Bool) :
    readBoundedArchive ⟨contentLength, some ⟨chunks, false, cancelFails⟩⟩ =
      if (chunks.flatten.length : Int) ≤ maxArchiveBytes then .ok chunks.flatten
      else .error (.acquisition .archiveLimitExceeded) := by
  have hlimit : (archiveBound.most : Int) = maxArchiveBytes := rfl
  rw [readBoundedArchive, hheader]
  change (Chunks.read archiveBound false 0 chunks).mapError archiveRefusal = _
  rw [Chunks.read_eq]
  by_cases hmore : archiveBound.most < chunks.flatten.length
  · have hover : ¬(chunks.flatten.length : Int) ≤ maxArchiveBytes := by omega
    rw [if_neg hover, Chunks.outcome_exceeded hmore]
    rfl
  · have hwithin : (chunks.flatten.length : Int) ≤ maxArchiveBytes := by omega
    rw [if_pos hwithin, Chunks.outcome_ok (Nat.not_lt.mp hmore) rfl]
    rfl

/-- A stored object is the bytes of the stream, when there are as many as expected. -/
theorem collectStream_eq (chunks : List (List UInt8)) (cancelFails : Bool) (trustedSize : Nat) :
    collectStream ⟨chunks, false, cancelFails⟩ trustedSize =
      if chunks.flatten.length = trustedSize then .ok chunks.flatten
      else if trustedSize < chunks.flatten.length then .error (blobRefusal cancelFails .exceeded)
      else .error .mismatchedTrustedSize := by
  rw [collectStream, Chunks.read_eq]
  dsimp only
  by_cases hmore : trustedSize < chunks.flatten.length
  · have hexceeded : Chunks.outcome (blobBound trustedSize) false chunks.flatten = .error .exceeded :=
      Chunks.outcome_exceeded hmore
    rw [hexceeded, if_neg (Nat.ne_of_gt hmore), if_pos hmore]
    rfl
  · have hmost : chunks.flatten.length ≤ (blobBound trustedSize).most := Nat.not_lt.mp hmore
    rw [if_neg hmore]
    by_cases hsize : chunks.flatten.length = trustedSize
    · rw [if_pos hsize, Chunks.outcome_ok hmost (beq_iff_eq.mpr hsize)]
      rfl
    · rw [if_neg hsize, Chunks.outcome_mismatched hmost (beq_eq_false_iff_ne.mpr hsize)]
      rfl

/-- Both readers give the bytes of their stream, however it is split, when there
are not too many of them and, of a stored object, not too few. Until the stream
ends they hold no more than the limit and one chunk, and then no more than the
chunks and their copy. -/
theorem bounded_readers (chunks : List (List UInt8)) (cancelFails : Bool) :
    (∀ contentLength, checkContentLength contentLength = .ok () →
      readBoundedArchive ⟨contentLength, some ⟨chunks, false, cancelFails⟩⟩ =
        if (chunks.flatten.length : Int) ≤ maxArchiveBytes then .ok chunks.flatten
        else .error (.acquisition .archiveLimitExceeded)) ∧
    (∀ trustedSize, collectStream ⟨chunks, false, cancelFails⟩ trustedSize =
      if chunks.flatten.length = trustedSize then .ok chunks.flatten
      else if trustedSize < chunks.flatten.length then .error (blobRefusal cancelFails .exceeded)
      else .error .mismatchedTrustedSize) ∧
    Chunks.ReadsWithin archiveBound false 0 chunks ∧
    ∀ trustedSize, Chunks.ReadsWithin (blobBound trustedSize) false 0 chunks :=
  ⟨fun _ hheader => readBoundedArchive_eq hheader chunks cancelFails, collectStream_eq chunks cancelFails,
    Chunks.readsWithin chunks, fun _ => Chunks.readsWithin chunks⟩

/-- A stream of three bytes, one at a time, under the largest length that the limit admits. -/
theorem bounded_readers_three :
    readBoundedArchive ⟨some " 104857600 ", some ⟨[[1], [2], [], [3]], false, true⟩⟩ = .ok [1, 2, 3] ∧
      collectStream ⟨[[1], [2], [], [3]], false, true⟩ 3 = .ok [1, 2, 3] ∧
      collectStream ⟨[[1], [2], [], [3]], false, true⟩ 2 = .error .stream ∧
      collectStream ⟨[[1], [2], [], [3]], false, true⟩ 4 = .error .mismatchedTrustedSize := by
  obtain ⟨harchive, hblob, -⟩ := bounded_readers [[1], [2], [], [3]] true
  refine ⟨(harchive (some " 104857600 ") (by decide)).trans (if_pos (by decide)), ?_, ?_, ?_⟩
  · exact (hblob 3).trans (if_pos (by decide))
  · exact (hblob 2).trans (by decide)
  · exact (hblob 4).trans (by decide)

/-- Of three bytes in three chunks a reader holds six when it copies them: more
than the three that it may return and a chunk of one. -/
theorem copy_held_twice :
    ¬ ∀ (chunks : List (List UInt8)) (trustedSize steps : Nat),
      ∃ chunk ∈ [] :: chunks,
        (Chunks.after (blobBound trustedSize) false 0 chunks steps).held ≤ trustedSize + chunk.length := by
  intro h
  have hcopying : (Chunks.after (blobBound 3) false 0 [[(1 : UInt8)], [2], [3]] 7).held = 6 := rfl
  obtain ⟨chunk, hchunk, hheld⟩ := h [[1], [2], [3]] 3 7
  have hone : ∀ chunk ∈ ([] :: [[1], [2], [3]] : List (List UInt8)), chunk.length ≤ 1 := by decide
  have := hone chunk hchunk
  omega

end ReproForge
