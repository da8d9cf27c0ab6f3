import ReproForge.CanonicalForm
import ReproForge.RepositoryProofs

/-!
# Source archives

The entries of a source archive are checked in one pass before any of them is
unpacked: their paths, their common root and their sizes. What is left is a
manifest of the files below the root, in the order of their paths.
-/
namespace ReproForge

open JsonValues Words

variable {ν : Type}

/-- `value.normalize("NFC")` -/
class Normalization where
  nfc : String → String

/-! ## Archives -/

inductive SourceValidationCode where
  | archiveLimitExceeded | duplicatePath | emptyArchive | extractedLimitExceeded | invalidManifest
  | invalidRoot | multipleRoots | pathEscape | unsafeEntryType
  deriving DecidableEq, Repr

def maxArchiveBytes : Int := 100 * 1024 * 1024

def maxEntries : Nat := 25000

def maxExtractedBytes : Int := 500 * 1024 * 1024

inductive EntryType where
  | file | directory | symlink | hardlink | device | fifo | socket
  deriving DecidableEq, Repr

def EntryType.text : EntryType → String
  | .file => "file"
  | .directory => "directory"
  | .symlink => "symlink"
  | .hardlink => "hardlink"
  | .device => "device"
  | .fifo => "fifo"
  | .socket => "socket"

structure ArchiveEntry where
  path : String
  size : Int
  type : EntryType
  deriving DecidableEq, Repr

structure ArchiveInput where
  archiveBytes : Int
  archiveSha256 : String
  entries : List ArchiveEntry
  deriving DecidableEq, Repr

structure SourceFile where
  path : String
  size : Int
  deriving DecidableEq, Repr

structure ArchiveManifest where
  archiveBytes : Int
  archiveSha256 : String
  extractedBytes : Int
  fileCount : Nat
  files : List SourceFile
  rootDirectory : String
  deriving DecidableEq, Repr

section schemas

variable [IntegerNumber ν]

def archiveEntrySchema : Schema ν ArchiveEntry :=
  .strictObject <| .equiv
    (.required "path" (.string (fun path => 1 ≤ utf16Length path && utf16Length path ≤ 4096)) <|
      .required "size" (.integer nonnegative) <|
      .required "type" (.enumeration EntryType.text
        [.file, .directory, .symlink, .hardlink, .device, .fifo, .socket] (by rintro ⟨⟩ <;> rfl)) .nil)
    { toFun := fun ⟨path, size, type, _⟩ => ⟨path, size, type⟩
      invFun := fun e => ⟨e.path, e.size, e.type, ()⟩
      left_inv := fun _ => rfl
      right_inv := fun _ => rfl }

def archiveInputSchema : Schema ν ArchiveInput :=
  .strictObject <| .equiv
    (.required "archiveBytes" (.integer nonnegative) <|
      .required "archiveSha256" (.string (hexDigest 64)) <|
      .required "entries" (.array archiveEntrySchema (fun _ => true)) .nil)
    { toFun := fun ⟨archiveBytes, archiveSha256, entries, _⟩ => ⟨archiveBytes, archiveSha256, entries⟩
      invFun := fun a => ⟨a.archiveBytes, a.archiveSha256, a.entries, ()⟩
      left_inv := fun _ => rfl
      right_inv := fun _ => rfl }

end schemas

/-! ## One pass over the entries -/

/-- `^[A-Za-z]:[\\/]` -/
def drivePath (path : String) : Bool :=
  match path.toList with
  | letter :: ':' :: slash :: _ => letter.isAlpha && (slash == '\\' || slash == '/')
  | _ => false

def isSafeArchivePath (path : String) : Bool :=
  path.toList.head? != some '/' && path.toList.head? != some '\\' && !drivePath path &&
    !path.toList.contains '\\' && noControlCharacters path &&
    (pathSegments path).all (fun segment => !segment.isEmpty && segment != ['.'] && segment != ['.', '.'])

/-- `left + right` in double precision, for two safe integers that are not negative: from 2⁵³ on, only even
sums are there, and an odd one goes to the multiple of four beside it. -/
def doubleSum (left right : Int) : Int :=
  let sum := left + right
  if sum ≤ 9007199254740992 then sum
  else if sum % 4 = 1 then sum - 1
  else if sum % 4 = 3 then sum + 1
  else sum

/-- The variables of the loop. -/
structure Unpacking where
  extractedBytes : Int
  files : List SourceFile
  rootDirectory : Option String
  seen : List String

section validation

variable [Normalization]

def Unpacking.visit (u : Unpacking) (entry : ArchiveEntry) : Except SourceValidationCode Unpacking :=
  let normalizedPath := Normalization.nfc entry.path
  if !isSafeArchivePath normalizedPath then .error .pathEscape
  else
    let segments := pathSegments normalizedPath
    let root := String.ofList (segments.headD [])
    let relativeSegments := segments.tail
    if root = "" || root = "." || root = ".." then .error .invalidRoot
    else
      let rootDirectory := u.rootDirectory.getD root
      if root ≠ rootDirectory then .error .multipleRoots
      else if relativeSegments.length = 0 then
        if entry.type ≠ .directory then .error .invalidRoot
        else .ok { u with rootDirectory := some rootDirectory }
      else if entry.type ≠ .file && entry.type ≠ .directory then .error .unsafeEntryType
      else
        let relativePath := String.ofList (['/'].intercalate relativeSegments)
        if u.seen.contains relativePath then .error .duplicatePath
        else
          let seen := u.seen ++ [relativePath]
          if entry.type = .directory then .ok { u with rootDirectory := some rootDirectory, seen := seen }
          else
            let extractedBytes := doubleSum u.extractedBytes entry.size
            if !safe extractedBytes || extractedBytes > maxExtractedBytes then .error .extractedLimitExceeded
            else .ok ⟨extractedBytes, u.files ++ [⟨relativePath, entry.size⟩], some rootDirectory, seen⟩

variable [LocaleCompare]

/-- `left.path.localeCompare(right.path) <= 0` -/
def SourceFile.before (left right : SourceFile) : Prop := LocaleCompare.le left.path right.path = true

instance : DecidableRel SourceFile.before :=
  fun left right => inferInstanceAs (Decidable (LocaleCompare.le left.path right.path = true))

def ArchiveInput.manifest (input : ArchiveInput) : Except SourceValidationCode ArchiveManifest :=
  if input.archiveBytes > maxArchiveBytes || input.entries.length > maxEntries then .error .archiveLimitExceeded
  else
    match input.entries.foldlM Unpacking.visit ⟨0, [], none, []⟩ with
    | .error code => .error code
    | .ok u =>
      match u.rootDirectory with
      | none => .error .emptyArchive
      | some rootDirectory =>
        if rootDirectory = "" || u.files.length = 0 then .error .emptyArchive
        else .ok {
          archiveBytes := input.archiveBytes
          archiveSha256 := input.archiveSha256
          extractedBytes := u.extractedBytes
          fileCount := u.files.length
          files := u.files.insertionSort SourceFile.before
          rootDirectory := rootDirectory }

def validateArchiveManifest [IntegerNumber ν] (raw : Json ν) : Except SourceValidationCode ArchiveManifest :=
  match archiveInputSchema.decode raw with
  | none => .error .invalidManifest
  | some input => input.manifest

end validation

/-! ## Sizes -/

def extractedSize (files : List SourceFile) : Int := (files.map SourceFile.size).sum

theorem extractedSize_append (files files' : List SourceFile) :
    extractedSize (files ++ files') = extractedSize files + extractedSize files' := by
  rw [extractedSize, List.map_append, List.sum_append]
  rfl

@[simp] theorem extractedSize_nil : extractedSize [] = 0 := rfl

@[simp] theorem extractedSize_singleton (f : SourceFile) : extractedSize [f] = f.size := by
  rw [extractedSize, List.map_singleton, List.sum_singleton]

theorem extractedSize_nonneg {files : List SourceFile} (h : ∀ f ∈ files, 0 ≤ f.size) : 0 ≤ extractedSize files := by
  rw [extractedSize]
  refine List.sum_nonneg ?_
  intro size hsize
  obtain ⟨f, hf, rfl⟩ := List.mem_map.mp hsize
  exact h f hf

/-- Sums within the limit are exact, and no other sum passes for one within the limit. -/
theorem doubleSum_within {left right : Int} (hleft : 0 ≤ left) (hbound : left ≤ maxExtractedBytes) (hright : 0 ≤ right) :
    (safe (doubleSum left right) = true ∧ doubleSum left right ≤ maxExtractedBytes ↔
      left + right ≤ maxExtractedBytes) ∧
    (left + right ≤ maxExtractedBytes → doubleSum left right = left + right) := by
  have hlimit : maxExtractedBytes = 524288000 := rfl
  rw [doubleSum, safe, decide_eq_true_eq]
  split
  · omega
  · split
    · omega
    · split <;> omega

/-! ## What an archive holds -/

section contents

variable [Normalization]

namespace ArchiveEntry

def segments (e : ArchiveEntry) : List (List Char) := pathSegments (Normalization.nfc e.path)

/-- The directory that the path begins with. -/
def root (e : ArchiveEntry) : String := String.ofList (e.segments.headD [])

/-- The path below the root, unless the entry is the root itself. -/
def relativePath (e : ArchiveEntry) : Option String :=
  if e.segments.tail = [] then none else some (String.ofList (['/'].intercalate e.segments.tail))

/-- The file that the entry is unpacked to. -/
def file (e : ArchiveEntry) : Option SourceFile :=
  if e.type = .file then e.relativePath.map (fun path => ⟨path, e.size⟩) else none

/-- What the policy asks of an entry on its own. -/
structure Admitted (root : String) (e : ArchiveEntry) : Prop where
  path : isSafeArchivePath (Normalization.nfc e.path) = true
  root : e.root = root
  directory : e.relativePath = none → e.type = .directory
  type : e.type = .file ∨ e.type = .directory

end ArchiveEntry

/-- The files below the root. -/
def sourceFiles (entries : List ArchiveEntry) : List SourceFile := entries.filterMap ArchiveEntry.file

def relativePaths (entries : List ArchiveEntry) : List String := entries.filterMap ArchiveEntry.relativePath

/-- What the policy asks of an archive whose root directory is `root`. -/
structure Acceptable (root : String) (input : ArchiveInput) : Prop where
  archiveBytes : input.archiveBytes ≤ maxArchiveBytes
  entryCount : input.entries.length ≤ maxEntries
  admitted : ∀ e ∈ input.entries, e.Admitted root
  distinct : (relativePaths input.entries).Nodup
  nonempty : sourceFiles input.entries ≠ []
  size : extractedSize (sourceFiles input.entries) ≤ maxExtractedBytes

theorem sourceFiles_cons (e : ArchiveEntry) (rest : List ArchiveEntry) :
    sourceFiles (e :: rest) = e.file.toList ++ sourceFiles rest := by
  rw [sourceFiles, sourceFiles, List.filterMap_cons]
  cases e.file <;> rfl

theorem relativePaths_cons (e : ArchiveEntry) (rest : List ArchiveEntry) :
    relativePaths (e :: rest) = e.relativePath.toList ++ relativePaths rest := by
  rw [relativePaths, relativePaths, List.filterMap_cons]
  cases e.relativePath <;> rfl

/-- The first directory of a safe path has a proper name. -/
theorem root_proper {e : ArchiveEntry} (h : isSafeArchivePath (Normalization.nfc e.path) = true) :
    ¬(e.root = "" ∨ e.root = "." ∨ e.root = "..") := by
  have hall := (Bool.and_eq_true_iff.mp h).2
  rw [ArchiveEntry.root, ArchiveEntry.segments]
  cases hsegments : pathSegments (Normalization.nfc e.path) with
  | nil => exact absurd hsegments (pieces_ne_nil _ _)
  | cons first rest =>
    rw [hsegments, List.all_cons, Bool.and_eq_true_iff] at hall
    have hfirst := hall.1
    rw [List.headD_cons]
    intro hname
    have hlists : first = [] ∨ first = ['.'] ∨ first = ['.', '.'] := by
      refine hname.imp ?_ (Or.imp ?_ ?_) <;> intro heq
      · exact String.ofList_injective heq
      · exact String.ofList_injective heq
      · exact String.ofList_injective heq
    rcases hlists with rfl | rfl | rfl <;> simp at hfirst

/-! ## The pass finds out -/

/-- What holds of the variables before each entry. -/
structure Unpacking.Sound (u : Unpacking) : Prop where
  nonneg : 0 ≤ u.extractedBytes
  bounded : u.extractedBytes ≤ maxExtractedBytes
  distinct : u.seen.Nodup

/-- The variables after an entry that is let through. -/
def Unpacking.after (u : Unpacking) (e : ArchiveEntry) : Unpacking where
  extractedBytes := u.extractedBytes + extractedSize e.file.toList
  files := u.files ++ e.file.toList
  rootDirectory := some (u.rootDirectory.getD e.root)
  seen := u.seen ++ e.relativePath.toList

theorem Unpacking.Sound.after {u : Unpacking} (hu : u.Sound) {e : ArchiveEntry} (hsize : 0 ≤ e.size)
    (hdistinct : (u.seen ++ e.relativePath.toList).Nodup)
    (hwithin : u.extractedBytes + extractedSize e.file.toList ≤ maxExtractedBytes) : (u.after e).Sound where
  nonneg := by
    have hnonneg := hu.nonneg
    have hfile : 0 ≤ extractedSize e.file.toList := by
      rw [ArchiveEntry.file]
      split
      · cases e.relativePath with
        | none => exact le_refl _
        | some path => exact (extractedSize_singleton _).symm ▸ hsize
      · exact le_refl _
    exact Int.add_nonneg hnonneg hfile
  bounded := hwithin
  distinct := hdistinct

theorem relativePath_root {e : ArchiveEntry} (h : e.segments.tail = []) : e.relativePath = none := by
  rw [ArchiveEntry.relativePath, if_pos h]

theorem relativePath_below {e : ArchiveEntry} (h : e.segments.tail ≠ []) :
    e.relativePath = some (String.ofList (['/'].intercalate e.segments.tail)) := by
  rw [ArchiveEntry.relativePath, if_neg h]

section round

variable {u u' : Unpacking} {e : ArchiveEntry}

/-- A path that is safe and begins with the root directory comes to the checks of its entry. -/
theorem visit_inside (hsafe : isSafeArchivePath (Normalization.nfc e.path) = true)
    (hroot : e.root = u.rootDirectory.getD e.root) :
    u.visit e =
      if e.segments.tail.length = 0 then
        if e.type ≠ .directory then .error .invalidRoot
        else .ok { u with rootDirectory := some (u.rootDirectory.getD e.root) }
      else if e.type ≠ .file && e.type ≠ .directory then .error .unsafeEntryType
      else if u.seen.contains (String.ofList (['/'].intercalate e.segments.tail)) then .error .duplicatePath
      else if e.type = .directory then
        .ok { u with
          rootDirectory := some (u.rootDirectory.getD e.root)
          seen := u.seen ++ [String.ofList (['/'].intercalate e.segments.tail)] }
      else if !safe (doubleSum u.extractedBytes e.size) || doubleSum u.extractedBytes e.size > maxExtractedBytes then
        .error .extractedLimitExceeded
      else .ok ⟨doubleSum u.extractedBytes e.size,
        u.files ++ [⟨String.ofList (['/'].intercalate e.segments.tail), e.size⟩],
        some (u.rootDirectory.getD e.root), u.seen ++ [String.ofList (['/'].intercalate e.segments.tail)]⟩ := by
  have hproper : ¬((e.root = "" || e.root = "." || e.root = "..") = true) := by
    simpa [or_assoc] using root_proper hsafe
  have hunsafe : ¬((!isSafeArchivePath (Normalization.nfc e.path)) = true) := by simpa using hsafe
  exact (if_neg hunsafe).trans ((if_neg hproper).trans (if_neg (not_not.mpr hroot)))

theorem visit_outside (h : ¬(isSafeArchivePath (Normalization.nfc e.path) = true ∧
    e.root = u.rootDirectory.getD e.root)) : u.visit e ≠ .ok u' := by
  rw [Unpacking.visit]
  dsimp only
  by_cases hsafe : isSafeArchivePath (Normalization.nfc e.path) = true
  · have hroot : e.root ≠ u.rootDirectory.getD e.root := fun hroot => h ⟨hsafe, hroot⟩
    rw [ArchiveEntry.root, ArchiveEntry.segments] at hroot
    rw [if_neg (by simpa using hsafe), if_pos hroot]
    split <;> exact fun hok => by cases hok
  · rw [if_pos (by simpa using hsafe)]
    exact fun hok => by cases hok

theorem visit_root_ok_iff (hu : u.Sound) (hsafe : isSafeArchivePath (Normalization.nfc e.path) = true)
    (hroot : e.root = u.rootDirectory.getD e.root) (htail : e.segments.tail = []) :
    u.visit e = .ok u' ↔ e.Admitted (u.rootDirectory.getD e.root) ∧ (u.seen ++ e.relativePath.toList).Nodup ∧
      u.extractedBytes + extractedSize e.file.toList ≤ maxExtractedBytes ∧ u' = u.after e := by
  have hpath := relativePath_root htail
  have hfile : e.file = none := by rw [ArchiveEntry.file, hpath, Option.map_none, ite_self]
  rw [visit_inside hsafe hroot, if_pos (List.length_eq_zero_iff.mpr htail)]
  by_cases htype : e.type = .directory
  · rw [if_neg (not_not.mpr htype), Except.ok.injEq, Unpacking.after, hpath, hfile]
    simp only [Option.toList_none, extractedSize_nil, Int.add_zero, List.append_nil]
    constructor
    · rintro rfl
      exact ⟨⟨hsafe, hroot, fun _ => htype, .inr htype⟩, hu.distinct, hu.bounded, rfl⟩
    · rintro ⟨-, -, -, rfl⟩
      rfl
  · rw [if_pos htype]
    exact ⟨fun h => (by cases h), fun h => absurd (h.1.directory hpath) htype⟩

theorem distinct_below (hu : u.Sound) (htail : e.segments.tail ≠ []) :
    (u.seen ++ e.relativePath.toList).Nodup ↔ String.ofList (['/'].intercalate e.segments.tail) ∉ u.seen := by
  rw [relativePath_below htail, Option.toList_some, List.nodup_append]
  constructor
  · intro h hseen
    exact h.2.2 _ hseen _ (List.mem_singleton_self _) rfl
  · intro hseen
    refine ⟨hu.distinct, List.nodup_singleton _, ?_⟩
    rintro path hmem _ hsame rfl
    rw [List.mem_singleton.mp hsame] at hmem
    exact hseen hmem

theorem visit_below_ok_iff (hu : u.Sound) (hsize : 0 ≤ e.size)
    (hsafe : isSafeArchivePath (Normalization.nfc e.path) = true) (hroot : e.root = u.rootDirectory.getD e.root)
    (htail : e.segments.tail ≠ []) :
    u.visit e = .ok u' ↔ e.Admitted (u.rootDirectory.getD e.root) ∧ (u.seen ++ e.relativePath.toList).Nodup ∧
      u.extractedBytes + extractedSize e.file.toList ≤ maxExtractedBytes ∧ u' = u.after e := by
  have hpath := relativePath_below htail
  rw [visit_inside hsafe hroot, if_neg (fun hlength => htail (List.length_eq_zero_iff.mp hlength)),
    distinct_below hu htail]
  by_cases htype : e.type = .file ∨ e.type = .directory
  swap
  · rw [if_pos (by simpa [not_or] using htype)]
    exact ⟨fun h => (by cases h), fun h => absurd h.1.type htype⟩
  have hadmitted : e.Admitted (u.rootDirectory.getD e.root) :=
    ⟨hsafe, hroot, fun hnone => (by rw [hpath] at hnone; cases hnone), htype⟩
  rw [if_neg (by simpa [imp_iff_not_or] using htype)]
  by_cases hseen : String.ofList (['/'].intercalate e.segments.tail) ∈ u.seen
  · rw [if_pos (List.contains_iff_mem.mpr hseen)]
    exact ⟨fun h => (by cases h), fun h => absurd hseen h.2.1⟩
  rw [if_neg (fun hcontains => hseen (List.contains_iff_mem.mp hcontains))]
  by_cases hdirectory : e.type = .directory
  · have hfile : e.file = none := by rw [ArchiveEntry.file, if_neg (by rw [hdirectory]; decide)]
    rw [if_pos hdirectory, Except.ok.injEq, Unpacking.after, hfile, hpath]
    simp only [Option.toList_none, Option.toList_some, extractedSize_nil, Int.add_zero, List.append_nil]
    constructor
    · rintro rfl
      exact ⟨hadmitted, hseen, hu.bounded, rfl⟩
    · rintro ⟨-, -, -, rfl⟩
      rfl
  · have hfile : e.file = some ⟨String.ofList (['/'].intercalate e.segments.tail), e.size⟩ := by
      rw [ArchiveEntry.file, if_pos (htype.resolve_right hdirectory), hpath, Option.map_some]
    obtain ⟨hwithin, hexact⟩ := doubleSum_within hu.nonneg hu.bounded hsize
    rw [if_neg hdirectory, Unpacking.after, hfile, hpath]
    simp only [Option.toList_some, extractedSize_singleton]
    by_cases hbound : u.extractedBytes + e.size ≤ maxExtractedBytes
    · obtain ⟨hsafeSum, hsum⟩ := hwithin.mpr hbound
      rw [if_neg (by simp [hsafeSum, hsum]), Except.ok.injEq, hexact hbound]
      constructor
      · rintro rfl
        exact ⟨hadmitted, hseen, hbound, rfl⟩
      · rintro ⟨-, -, -, rfl⟩
        rfl
    · have hover : ¬(safe (doubleSum u.extractedBytes e.size) = true ∧
          doubleSum u.extractedBytes e.size ≤ maxExtractedBytes) := fun h => hbound (hwithin.mp h)
      rw [if_pos (by simpa [imp_iff_not_or] using hover)]
      exact ⟨fun h => (by cases h), fun h => absurd h.2.2.1 hbound⟩

/-- One round of the loop. -/
theorem visit_ok_iff (hu : u.Sound) (hsize : 0 ≤ e.size) :
    u.visit e = .ok u' ↔ e.Admitted (u.rootDirectory.getD e.root) ∧ (u.seen ++ e.relativePath.toList).Nodup ∧
      u.extractedBytes + extractedSize e.file.toList ≤ maxExtractedBytes ∧ u' = u.after e := by
  by_cases h : isSafeArchivePath (Normalization.nfc e.path) = true ∧ e.root = u.rootDirectory.getD e.root
  · obtain ⟨hsafe, hroot⟩ := h
    by_cases htail : e.segments.tail = []
    · exact visit_root_ok_iff hu hsafe hroot htail
    · exact visit_below_ok_iff hu hsize hsafe hroot htail
  · exact ⟨fun hok => absurd hok (visit_outside h), fun hok => absurd ⟨hok.1.path, hok.1.root⟩ h⟩

end round

theorem sourceFiles_nonneg {entries : List ArchiveEntry} (h : ∀ e ∈ entries, 0 ≤ e.size) :
    ∀ f ∈ sourceFiles entries, 0 ≤ f.size := by
  intro f hf
  obtain ⟨e, he, hfile⟩ := List.mem_filterMap.mp hf
  rw [ArchiveEntry.file] at hfile
  split at hfile
  · obtain ⟨path, -, rfl⟩ := Option.map_eq_some_iff.mp hfile
    exact h e he
  · cases hfile

/-- The variables after all entries. -/
def Unpacking.afterAll (u : Unpacking) (entries : List ArchiveEntry) : Unpacking where
  extractedBytes := u.extractedBytes + extractedSize (sourceFiles entries)
  files := u.files ++ sourceFiles entries
  rootDirectory := u.rootDirectory.or (entries.head?.map ArchiveEntry.root)
  seen := u.seen ++ relativePaths entries

theorem Unpacking.afterAll_cons (u : Unpacking) (e : ArchiveEntry) (rest : List ArchiveEntry) :
    (u.after e).afterAll rest = u.afterAll (e :: rest) := by
  rw [Unpacking.afterAll, Unpacking.afterAll, Unpacking.after, sourceFiles_cons, relativePaths_cons,
    extractedSize_append]
  simp only [Unpacking.mk.injEq, List.append_assoc, Int.add_assoc, true_and, and_true]
  cases u.rootDirectory <;> rfl

/-- The entries have one root directory, which is the one that is known, if any. -/
theorem admitted_cons {known : Option String} {e : ArchiveEntry} {rest : List ArchiveEntry} :
    (e.Admitted (known.getD e.root) ∧
      ∃ root, (∀ r ∈ some (known.getD e.root), r = root) ∧ ∀ e' ∈ rest, e'.Admitted root) ↔
    ∃ root, (∀ r ∈ known, r = root) ∧ ∀ e' ∈ e :: rest, e'.Admitted root := by
  constructor
  · rintro ⟨hfirst, root, hroot, hrest⟩
    have hknown : known.getD e.root = root := hroot _ rfl
    rw [hknown] at hfirst
    refine ⟨root, ?_, ?_⟩
    · rintro r hr
      rw [Option.mem_def.mp hr] at hknown
      exact hknown
    · intro e' he'
      rcases List.mem_cons.mp he' with rfl | he'
      · exact hfirst
      · exact hrest e' he'
  · rintro ⟨root, hknown, hall⟩
    have hfirst := hall e List.mem_cons_self
    have hsame : known.getD e.root = root := by
      cases known with
      | none => exact hfirst.root
      | some r => exact hknown r rfl
    rw [hsame]
    exact ⟨hfirst, root, fun r hr => (Option.mem_some_iff.mp hr).symm,
      fun e' he' => hall e' (List.mem_cons_of_mem e he')⟩

/-- The loop. -/
theorem visits_ok_iff {entries : List ArchiveEntry} (hsizes : ∀ e ∈ entries, 0 ≤ e.size) {u u' : Unpacking}
    (hu : u.Sound) :
    entries.foldlM Unpacking.visit u = .ok u' ↔
      (∃ root, (∀ r ∈ u.rootDirectory, r = root) ∧ ∀ e ∈ entries, e.Admitted root) ∧
      (u.seen ++ relativePaths entries).Nodup ∧
      u.extractedBytes + extractedSize (sourceFiles entries) ≤ maxExtractedBytes ∧ u' = u.afterAll entries := by
  induction entries generalizing u with
  | nil =>
    have hafter : u.afterAll [] = u := by
      rw [Unpacking.afterAll]
      simp [sourceFiles, relativePaths]
    rw [hafter, List.foldlM_nil]
    have hknown : ∃ root, (∀ r ∈ u.rootDirectory, r = root) ∧ ∀ e ∈ ([] : List ArchiveEntry), e.Admitted root := by
      refine ⟨u.rootDirectory.getD "", ?_, fun e he => (List.not_mem_nil he).elim⟩
      intro r hr
      rw [Option.mem_def.mp hr]
      rfl
    constructor
    · intro h
      cases h
      exact ⟨hknown, by simpa [relativePaths] using hu.distinct, by simpa [sourceFiles] using hu.bounded, rfl⟩
    · rintro ⟨-, -, -, rfl⟩
      rfl
  | cons e rest ih =>
    have hsize := hsizes e List.mem_cons_self
    have hrest : ∀ e' ∈ rest, 0 ≤ e'.size := fun e' he' => hsizes e' (List.mem_cons_of_mem e he')
    have htail : 0 ≤ extractedSize (sourceFiles rest) := extractedSize_nonneg (sourceFiles_nonneg hrest)
    have hbind : (e :: rest).foldlM Unpacking.visit u = .ok u' ↔
        ∃ t, u.visit e = .ok t ∧ rest.foldlM Unpacking.visit t = .ok u' := by
      rw [List.foldlM_cons]
      cases u.visit e with
      | error code => exact ⟨fun h => (by cases h), fun ⟨t, ht, _⟩ => (by cases ht)⟩
      | ok t => exact ⟨fun h => ⟨t, rfl, h⟩, fun ⟨t', ht', h⟩ => (by cases ht'; exact h)⟩
    rw [hbind, ← admitted_cons, relativePaths_cons, sourceFiles_cons, extractedSize_append, ← List.append_assoc,
      ← Int.add_assoc, ← Unpacking.afterAll_cons]
    constructor
    · rintro ⟨t, hvisit, hvisits⟩
      obtain ⟨hadmitted, hdistinct, hwithin, rfl⟩ := (visit_ok_iff hu hsize).mp hvisit
      obtain ⟨hroot, hpaths, hbytes, hafter⟩ := (ih hrest (hu.after hsize hdistinct hwithin)).mp hvisits
      exact ⟨⟨hadmitted, hroot⟩, hpaths, hbytes, hafter⟩
    · rintro ⟨⟨hadmitted, hroot⟩, hpaths, hbytes, hafter⟩
      have hdistinct : (u.seen ++ e.relativePath.toList).Nodup := (List.nodup_append.mp hpaths).1
      have hwithin : u.extractedBytes + extractedSize e.file.toList ≤ maxExtractedBytes := by omega
      exact ⟨u.after e, (visit_ok_iff hu hsize).mpr ⟨hadmitted, hdistinct, hwithin, rfl⟩,
        (ih hrest (hu.after hsize hdistinct hwithin)).mpr ⟨hroot, hpaths, hbytes, hafter⟩⟩

/-! ## The manifest -/

variable [LocaleCompare]

/-- The manifest of an acceptable archive. -/
def ArchiveInput.summary (root : String) (input : ArchiveInput) : ArchiveManifest where
  archiveBytes := input.archiveBytes
  archiveSha256 := input.archiveSha256
  extractedBytes := extractedSize (sourceFiles input.entries)
  fileCount := (sourceFiles input.entries).length
  files := (sourceFiles input.entries).insertionSort SourceFile.before
  rootDirectory := root

omit [LocaleCompare] in
theorem Acceptable.entries {root : String} {input : ArchiveInput} (h : Acceptable root input) :
    ∃ e rest, input.entries = e :: rest ∧ e.root = root ∧ root ≠ "" := by
  cases hentries : input.entries with
  | nil =>
    have hnonempty := h.nonempty
    rw [hentries] at hnonempty
    exact absurd rfl hnonempty
  | cons e rest =>
    have hadmitted := h.admitted e (hentries ▸ List.mem_cons_self)
    refine ⟨e, rest, rfl, hadmitted.root, ?_⟩
    rintro rfl
    exact root_proper hadmitted.path (.inl hadmitted.root)

omit [Normalization] [LocaleCompare] in
theorem unpacking_sound : (⟨0, [], none, []⟩ : Unpacking).Sound where
  nonneg := le_refl _
  bounded := by decide
  distinct := List.nodup_nil

/-- A manifest is made of an acceptable archive, and says what the archive holds. -/
theorem manifest_ok_iff {input : ArchiveInput} (hsizes : ∀ e ∈ input.entries, 0 ≤ e.size) {manifest : ArchiveManifest} :
    input.manifest = .ok manifest ↔ ∃ root, Acceptable root input ∧ manifest = input.summary root := by
  have hafter : (⟨0, [], none, []⟩ : Unpacking).afterAll input.entries =
      ⟨extractedSize (sourceFiles input.entries), sourceFiles input.entries,
        input.entries.head?.map ArchiveEntry.root, relativePaths input.entries⟩ := by
    rw [Unpacking.afterAll]
    simp only [Int.zero_add, List.nil_append, Option.none_or]
  have hloop : ∀ u : Unpacking, input.entries.foldlM Unpacking.visit ⟨0, [], none, []⟩ = .ok u ↔ _ :=
    fun u => visits_ok_iff hsizes unpacking_sound
  rw [hafter] at hloop
  simp only [List.nil_append, Int.zero_add] at hloop
  rw [ArchiveInput.manifest]
  constructor
  · intro h
    split at h
    · cases h
    · rename_i hlimits
      simp only [Bool.or_eq_true, decide_eq_true_eq, not_or, not_lt] at hlimits
      split at h
      · cases h
      · rename_i u hvisits
        obtain ⟨⟨root, -, hadmitted⟩, hdistinct, hsize, rfl⟩ := (hloop u).mp hvisits
        dsimp only at h
        cases hentries : input.entries with
        | nil =>
          rw [hentries] at h
          cases h
        | cons e rest =>
          have hroot : e.root = root := (hadmitted e (hentries ▸ List.mem_cons_self)).root
          have hhead : input.entries.head?.map ArchiveEntry.root = some root := by
            rw [hentries, List.head?_cons, Option.map_some, hroot]
          rw [hhead] at h
          dsimp only at h
          split at h
          · cases h
          · rename_i hempty
            simp only [Bool.or_eq_true, decide_eq_true_eq, not_or] at hempty
            refine ⟨root, ⟨hlimits.1, hlimits.2, hadmitted, hdistinct, ?_, hsize⟩, ?_⟩
            · intro hnone
              exact hempty.2 (List.length_eq_zero_iff.mpr hnone)
            · cases h
              rfl
  · rintro ⟨root, hacceptable, rfl⟩
    obtain ⟨e, rest, hentries, hroot, hproper⟩ := hacceptable.entries
    have hvisits := (hloop _).mpr
      ⟨⟨root, fun r hr => (by cases hr), hacceptable.admitted⟩, hacceptable.distinct, hacceptable.size, rfl⟩
    have hhead : input.entries.head?.map ArchiveEntry.root = some root := by
      rw [hentries, List.head?_cons, Option.map_some, hroot]
    have hlength : (sourceFiles input.entries).length ≠ 0 := fun hzero =>
      hacceptable.nonempty (List.length_eq_zero_iff.mp hzero)
    rw [if_neg (by simpa [not_or] using ⟨hacceptable.archiveBytes, hacceptable.entryCount⟩), hvisits, hhead]
    dsimp only
    rw [if_neg (by simp [hproper, hlength])]
    rfl

omit [Normalization] [LocaleCompare] in
theorem archiveInput_valid [IntegerNumber ν] (input : ArchiveInput) :
    (archiveInputSchema (ν := ν)).valid input =
      (safe input.archiveBytes && nonnegative input.archiveBytes && hexDigest 64 input.archiveSha256 &&
        input.entries.all (fun e =>
          1 ≤ utf16Length e.path && utf16Length e.path ≤ 4096 && safe e.size && nonnegative e.size)) := by
  have hentry : (archiveEntrySchema (ν := ν)).valid = fun e =>
      ((1 ≤ utf16Length e.path && utf16Length e.path ≤ 4096) &&
        (safe e.size && nonnegative e.size && (true && true))) := rfl
  have hform : (archiveInputSchema (ν := ν)).valid input =
      (safe input.archiveBytes && nonnegative input.archiveBytes && (hexDigest 64 input.archiveSha256 &&
        ((input.entries.all (archiveEntrySchema (ν := ν)).valid && true) && true))) := rfl
  rw [hform, hentry]
  simp only [Bool.and_true, Bool.and_assoc]

omit [Normalization] [LocaleCompare] in
theorem archiveInput_sizes [IntegerNumber ν] {raw : Json ν} {input : ArchiveInput}
    (h : archiveInputSchema.decode raw = some input) : ∀ e ∈ input.entries, 0 ≤ e.size := by
  have hvalid := archiveInputSchema.valid_decode h
  rw [archiveInput_valid, Bool.and_eq_true, List.all_eq_true] at hvalid
  intro e he
  exact of_decide_eq_true (Bool.and_eq_true_iff.mp (hvalid.2 e he)).2

theorem validateArchiveManifest_ok_iff [IntegerNumber ν] {raw : Json ν} {manifest : ArchiveManifest} :
    validateArchiveManifest raw = .ok manifest ↔
      ∃ input root, archiveInputSchema.decode raw = some input ∧ Acceptable root input ∧
        manifest = input.summary root := by
  rw [validateArchiveManifest]
  cases hdecode : archiveInputSchema.decode raw with
  | none => exact ⟨fun h => (by cases h), fun ⟨_, _, h, _⟩ => (by cases h)⟩
  | some input =>
    dsimp only
    rw [manifest_ok_iff (archiveInput_sizes hdecode)]
    constructor
    · rintro ⟨root, hacceptable, hmanifest⟩
      exact ⟨input, root, rfl, hacceptable, hmanifest⟩
    · rintro ⟨_, root, hinput, hacceptable, hmanifest⟩
      cases hinput
      exact ⟨root, hacceptable, hmanifest⟩

omit [LocaleCompare] in
/-- What is unpacked has one path each. -/
theorem sourceFiles_paths {entries : List ArchiveEntry} (h : (relativePaths entries).Nodup) :
    ((sourceFiles entries).map SourceFile.path).Nodup := by
  refine List.Nodup.sublist ?_ h
  rw [sourceFiles, relativePaths, List.map_filterMap]
  induction entries with
  | nil => exact List.Sublist.refl _
  | cons e rest ih =>
    have hrest := ih (List.Nodup.sublist (by
      rw [relativePaths_cons]
      exact List.sublist_append_right _ _) h)
    rw [List.filterMap_cons, List.filterMap_cons, ArchiveEntry.file]
    cases e.relativePath with
    | none => simpa using hrest
    | some path =>
      by_cases htype : e.type = .file
      · simpa [htype] using hrest
      · simpa [htype] using hrest.cons path

/-- An archive has a manifest exactly if it is acceptable, and the manifest lists its files. -/
theorem archive_manifest_exact [IntegerNumber ν] (raw : Json ν) :
    ((∃ manifest, validateArchiveManifest raw = .ok manifest) ↔
      ∃ input root, archiveInputSchema.decode raw = some input ∧ Acceptable root input) ∧
    ∀ input manifest, archiveInputSchema.decode raw = some input → validateArchiveManifest raw = .ok manifest →
      manifest.files.Perm (sourceFiles input.entries) ∧
      (manifest.files.map SourceFile.path).Nodup ∧
      manifest.extractedBytes = (manifest.files.map SourceFile.size).sum ∧
      0 ≤ manifest.extractedBytes ∧ manifest.extractedBytes ≤ maxExtractedBytes ∧
      manifest.fileCount = manifest.files.length := by
  constructor
  · constructor
    · rintro ⟨manifest, h⟩
      obtain ⟨input, root, hdecode, hacceptable, -⟩ := validateArchiveManifest_ok_iff.mp h
      exact ⟨input, root, hdecode, hacceptable⟩
    · rintro ⟨input, root, hdecode, hacceptable⟩
      exact ⟨_, validateArchiveManifest_ok_iff.mpr ⟨input, root, hdecode, hacceptable, rfl⟩⟩
  · intro input manifest hdecode h
    obtain ⟨input', root, hdecode', hacceptable, rfl⟩ := validateArchiveManifest_ok_iff.mp h
    cases hdecode.symm.trans hdecode'
    have hperm : ((sourceFiles input.entries).insertionSort SourceFile.before).Perm (sourceFiles input.entries) :=
      List.perm_insertionSort _ _
    refine ⟨hperm, ?_, ?_, ?_, hacceptable.size, hperm.length_eq.symm⟩
    · exact (hperm.map SourceFile.path).nodup_iff.mpr (sourceFiles_paths hacceptable.distinct)
    · exact ((hperm.map SourceFile.size).sum_eq).symm
    · exact extractedSize_nonneg (sourceFiles_nonneg (archiveInput_sizes hdecode))

end contents

end ReproForge

/-! ## A sample archive -/

namespace ReproForge.Sample.SourceArchives

open JsonValues JsonValues.Decimal ReproForge.Sample.CanonicalForm

/-- The paths of the samples are in this form already. -/
scoped instance : Normalization := ⟨id⟩

/-- Its root, and two files below it. -/
def archiveOf (file file' : SourceFile) : ArchiveInput where
  archiveBytes := 1024
  archiveSha256 := "aaaaaaaaaaaaaaaaaaaaaaaaaaaaaaaaaaaaaaaaaaaaaaaaaaaaaaaaaaaaaaaa"
  entries := [⟨"web-1/" ++ file.path, file.size, .file⟩, ⟨"web-1", 0, .directory⟩,
    ⟨"web-1/" ++ file'.path, file'.size, .file⟩]

def manifestOf (file file' : SourceFile) : ArchiveManifest where
  archiveBytes := 1024
  archiveSha256 := "aaaaaaaaaaaaaaaaaaaaaaaaaaaaaaaaaaaaaaaaaaaaaaaaaaaaaaaaaaaaaaaa"
  extractedBytes := file.size + file'.size
  fileCount := 2
  files := [file, file']
  rootDirectory := "web-1"

def plainArchive : ArchiveInput := archiveOf ⟨"re.ts", 4⟩ ⟨"index.ts", 3⟩

def rawOf (input : ArchiveInput) : Json Int := archiveInputSchema.encode input

theorem decode_rawOf {input : ArchiveInput} (h : (archiveInputSchema (ν := Int)).valid input = true) :
    archiveInputSchema.decode (rawOf input) = some input := archiveInputSchema.decode_encode h

theorem validate_rawOf {input : ArchiveInput} (h : (archiveInputSchema (ν := Int)).valid input = true) :
    validateArchiveManifest (rawOf input) = input.manifest := by
  rw [validateArchiveManifest, decode_rawOf h]

theorem plainArchive_valid : (archiveInputSchema (ν := Int)).valid plainArchive = true := by decide +kernel

theorem plainArchive_manifest : plainArchive.manifest = .ok (manifestOf ⟨"index.ts", 3⟩ ⟨"re.ts", 4⟩) := by
  decide +kernel

/-- The manifest of the sample lists its two files. -/
theorem archive_manifest_exact_sample :
    (∃ root, Acceptable root plainArchive) ∧
      (manifestOf ⟨"index.ts", 3⟩ ⟨"re.ts", 4⟩).files.Perm (sourceFiles plainArchive.entries) := by
  have hmanifest := (validate_rawOf plainArchive_valid).trans plainArchive_manifest
  obtain ⟨hexists, hfiles⟩ := archive_manifest_exact (rawOf plainArchive)
  refine ⟨?_, (hfiles _ _ (decode_rawOf plainArchive_valid) hmanifest).1⟩
  obtain ⟨input, root, hdecode, hacceptable⟩ := hexists.mp ⟨_, hmanifest⟩
  cases (decode_rawOf plainArchive_valid).symm.trans hdecode
  exact ⟨root, hacceptable⟩

end ReproForge.Sample.SourceArchives
