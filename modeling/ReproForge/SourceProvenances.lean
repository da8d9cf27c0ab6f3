import ReproForge.SourceArchives

/-!
# The provenance of a source

The provenance of a source names its archive by the digest of the manifest. The
manifest lists the files in the order of a comparison that may find different
paths equal, so that the order of the archive can show in the digest.
-/
namespace ReproForge

open JsonValues

variable {ν : Type}

/-! ## Provenance -/

/-- `z.string().datetime({ offset: true })`: a time in UTC, or one with an offset in hours and minutes. -/
def offsetDatetime (s : String) : Bool :=
  isoDatetime s ||
    match s.toList.reverse with
    | m₂ :: m₁ :: ':' :: h₂ :: h₁ :: sign :: rest =>
      (sign == '+' || sign == '-') && twoDigits 0 23 h₁ h₂ && twoDigits 0 59 m₁ m₂ &&
        isoDatetime (String.ofList (rest.reverse ++ ['Z']))
    | _ => false

/-- `sourceProvenanceSchema` -/
def SourceProvenance.valid (p : SourceProvenance) : Bool :=
  offsetDatetime p.acquiredAt && 0 ≤ p.archiveBytes && safe p.archiveBytes && hexDigest 64 p.archiveSha256 &&
    hexDigest 40 p.commitSha && 0 ≤ p.extractedBytes && safe p.extractedBytes && 0 < p.fileCount &&
    p.fileCount ≤ maxEntries && hexDigest 64 p.manifestSha256 && 1 ≤ utf16Length p.repositoryId &&
    utf16Length p.repositoryId ≤ 128

section digest

variable (ν) [IntegerNumber ν] [LocaleCompare]

def SourceFile.json (f : SourceFile) : Json ν :=
  .obj [("path", .str f.path), ("size", .num (IntegerNumber.ofInt f.size))]

def canonicalManifestJson (manifest : ArchiveManifest) : String :=
  Json.stringify (ν := ν) <| .obj [
    ("archiveBytes", .num (IntegerNumber.ofInt manifest.archiveBytes)),
    ("archiveSha256", .str manifest.archiveSha256),
    ("extractedBytes", .num (IntegerNumber.ofInt manifest.extractedBytes)),
    ("fileCount", .num (IntegerNumber.ofInt manifest.fileCount)),
    ("files", .arr ((manifest.files.insertionSort SourceFile.before).map (SourceFile.json ν))),
    ("rootDirectory", .str manifest.rootDirectory)]

/-- `none` where a schema rejects the source or the provenance. -/
def createSourceProvenance [Sha256] (acquiredAt : String) (manifest : ArchiveManifest)
    (source : ImmutableRepositorySource) : Option SourceProvenance :=
  if source.valid then
    let provenance : SourceProvenance := {
      acquiredAt := acquiredAt
      archiveBytes := manifest.archiveBytes
      archiveSha256 := manifest.archiveSha256
      commitSha := source.commitSha
      extractedBytes := manifest.extractedBytes
      fileCount := manifest.fileCount
      manifestSha256 := Sha256.hex (canonicalManifestJson ν manifest)
      repositoryId := source.repositoryId }
    if provenance.valid then some provenance else none
  else none

variable {ν}

/-- The text that is hashed gives away the paths in their order. -/
theorem canonicalManifestJson_paths {manifest manifest' : ArchiveManifest}
    (h : canonicalManifestJson ν manifest = canonicalManifestJson ν manifest') :
    (manifest.files.insertionSort SourceFile.before).map SourceFile.path =
      (manifest'.files.insertionSort SourceFile.before).map SourceFile.path := by
  have hjson := Json.stringify_inj h
  simp only [Json.obj.injEq, List.cons.injEq, Prod.mk.injEq, true_and, and_true, Json.arr.injEq] at hjson
  have hfiles := hjson.2.2.2.2.1
  have hpath : ∀ f : SourceFile, ∃ size, f.json ν = .obj [("path", .str f.path), ("size", .num size)] :=
    fun f => ⟨_, rfl⟩
  revert hfiles
  generalize manifest.files.insertionSort SourceFile.before = files
  generalize manifest'.files.insertionSort SourceFile.before = files'
  induction files generalizing files' with
  | nil =>
    intro hfiles
    rw [List.map_nil, List.nil_eq, List.map_eq_nil_iff] at hfiles
    rw [hfiles]
  | cons f rest ih =>
    intro hfiles
    cases files' with
    | nil => cases hfiles
    | cons f' rest' =>
      rw [List.map_cons, List.map_cons, List.cons.injEq] at hfiles
      obtain ⟨hfirst, hrest⟩ := hfiles
      obtain ⟨size, hsize⟩ := hpath f
      obtain ⟨size', hsize'⟩ := hpath f'
      rw [hsize, hsize', Json.obj.injEq, List.cons.injEq, Prod.mk.injEq, Json.str.injEq] at hfirst
      rw [List.map_cons, List.map_cons, hfirst.1.2, ih rest' hrest]

end digest

/-! ## The order of the entries -/

/-- Two archives with the same entries in another order. -/
def SameArchive [IntegerNumber ν] (raw raw' : Json ν) : Prop :=
  ∃ input entries, archiveInputSchema.decode raw = some input ∧ entries.Perm input.entries ∧
    archiveInputSchema.decode raw' = some { input with entries := entries }

section order

variable [Normalization]

omit [Normalization] in
theorem archiveInput_valid_perm [IntegerNumber ν] {input : ArchiveInput} {entries : List ArchiveEntry}
    (hperm : entries.Perm input.entries) (h : (archiveInputSchema (ν := ν)).valid input = true) :
    (archiveInputSchema (ν := ν)).valid { input with entries := entries } = true := by
  rw [archiveInput_valid, Bool.and_eq_true, List.all_eq_true] at h ⊢
  exact ⟨h.1, fun e he => h.2 e (hperm.mem_iff.mp he)⟩

theorem Acceptable.perm {root : String} {input : ArchiveInput} (h : Acceptable root input) {entries : List ArchiveEntry}
    (hperm : entries.Perm input.entries) : Acceptable root { input with entries := entries } where
  archiveBytes := h.archiveBytes
  entryCount := hperm.length_eq.trans_le h.entryCount
  admitted := fun e he => h.admitted e (hperm.mem_iff.mp he)
  distinct := (hperm.filterMap _).nodup_iff.mpr h.distinct
  nonempty := by
    intro hnone
    exact h.nonempty (List.Perm.eq_nil (hnone ▸ (hperm.filterMap ArchiveEntry.file).symm))
  size := by
    have hsum : extractedSize (sourceFiles entries) = extractedSize (sourceFiles input.entries) :=
      ((hperm.filterMap ArchiveEntry.file).map SourceFile.size).sum_eq
    exact hsum.trans_le h.size

/-- An archive has one root directory. -/
theorem Acceptable.root_unique {root root' : String} {input : ArchiveInput} (h : Acceptable root input)
    (h' : Acceptable root' input) : root = root' := by
  obtain ⟨e, rest, hentries, hroot, -⟩ := h.entries
  have hmem : e ∈ input.entries := hentries ▸ List.mem_cons_self
  exact hroot.symm.trans (h'.admitted e hmem).root

variable [LocaleCompare]

omit [Normalization] in
theorem before_total : Std.Total (SourceFile.before) :=
  ⟨fun f g => Bool.or_eq_true_iff.mp (LocaleCompare.total f.path g.path)⟩

omit [Normalization] in
theorem before_trans : IsTrans SourceFile SourceFile.before :=
  ⟨fun f g h => LocaleCompare.trans f.path g.path h.path⟩

/-- The comparison tells the paths of the files apart. -/
def Separated (files : List SourceFile) : Prop :=
  ∀ f ∈ files, ∀ g ∈ files, f.before g → g.before f → f.path = g.path

/-- Files that are told apart are listed in one order. -/
theorem sorted_eq {entries entries' : List ArchiveEntry} (hperm : entries'.Perm entries)
    (hdistinct : (relativePaths entries).Nodup) (hseparated : Separated (sourceFiles entries)) :
    (sourceFiles entries').insertionSort SourceFile.before = (sourceFiles entries).insertionSort SourceFile.before := by
  have := before_total
  have := before_trans
  have hfiles : (sourceFiles entries').Perm (sourceFiles entries) := hperm.filterMap _
  have hsorted := (List.perm_insertionSort SourceFile.before (sourceFiles entries')).trans
    (hfiles.trans (List.perm_insertionSort SourceFile.before (sourceFiles entries)).symm)
  refine List.Perm.eq_of_pairwise ?_ (List.pairwise_insertionSort _ _) (List.pairwise_insertionSort _ _) hsorted
  intro f g hf hg hfg hgf
  have hf' := hfiles.mem_iff.mp ((List.mem_insertionSort _).mp hf)
  have hg' := (List.mem_insertionSort _).mp hg
  exact List.inj_on_of_nodup_map (sourceFiles_paths hdistinct) hf' hg' (hseparated f hf' g hg' hfg hgf)

/-- Files that are not told apart stay in the order of the archive. -/
theorem separated_of_sorted_eq {entries : List ArchiveEntry} (hdistinct : (relativePaths entries).Nodup)
    (h : ∀ entries' : List ArchiveEntry, entries'.Perm entries →
      (sourceFiles entries').insertionSort SourceFile.before = (sourceFiles entries).insertionSort SourceFile.before) :
    Separated (sourceFiles entries) := by
  have := before_total
  have := before_trans
  intro f hf g hg hfg hgf
  by_contra hne
  obtain ⟨e, he, hfile⟩ := List.mem_filterMap.mp hf
  obtain ⟨e', he', hfile'⟩ := List.mem_filterMap.mp hg
  have hentries : e ≠ e' := by
    rintro rfl
    rw [hfile, Option.some.injEq] at hfile'
    exact hne (congrArg SourceFile.path hfile')
  -- the two entries come first, once in this order and once in the other
  obtain ⟨rest, hfirst⟩ : ∃ rest, (e :: e' :: rest).Perm entries := by
    have hmem : e' ∈ entries.erase e := (List.mem_erase_of_ne hentries.symm).mpr he'
    exact ⟨(entries.erase e).erase e',
      ((List.perm_cons_erase hmem).symm.cons e).trans (List.perm_cons_erase he).symm⟩
  have hsecond : (e' :: e :: rest).Perm entries := (List.Perm.swap e e' rest).trans hfirst
  have hpair : ∀ {x y : ArchiveEntry} {a b : SourceFile}, x.file = some a → y.file = some b → a.before b →
      [a, b].Sublist ((sourceFiles (x :: y :: rest)).insertionSort SourceFile.before) := by
    intro x y a b hx hy hab
    refine List.pair_sublist_insertionSort hab ?_
    rw [sourceFiles_cons, sourceFiles_cons, hx, hy]
    exact ((List.nil_sublist _).cons_cons b).cons_cons a
  have hfg' := hpair hfile hfile' hfg
  have hgf' := hpair hfile' hfile hgf
  rw [h _ hfirst] at hfg'
  rw [h _ hsecond] at hgf'
  have hnodup : ((sourceFiles entries).insertionSort SourceFile.before).Nodup :=
    (List.perm_insertionSort _ _).nodup_iff.mpr (List.Nodup.of_map _ (sourceFiles_paths hdistinct))
  exact not_both_orders hnodup hfg' hgf'

/-- The manifest of an accepted archive, and the digest in its provenance, do not depend on the order of the
entries, exactly if the comparison tells the paths of its files apart. -/
theorem manifest_order_exact [IntegerNumber ν] [Sha256] {raw : Json ν} {input : ArchiveInput}
    {manifest : ArchiveManifest} (hdecode : archiveInputSchema.decode raw = some input)
    (h : validateArchiveManifest raw = .ok manifest) :
    (∀ raw', SameArchive raw raw' → ∃ manifest', validateArchiveManifest raw' = .ok manifest' ∧ manifest' = manifest ∧
      ∀ acquiredAt source, (createSourceProvenance ν acquiredAt manifest' source).map SourceProvenance.manifestSha256 =
        (createSourceProvenance ν acquiredAt manifest source).map SourceProvenance.manifestSha256) ↔
      Separated (sourceFiles input.entries) := by
  obtain ⟨input', root, hdecode', hacceptable, rfl⟩ := validateArchiveManifest_ok_iff.mp h
  cases hdecode.symm.trans hdecode'
  have hsummary : ∀ {entries : List ArchiveEntry}, entries.Perm input.entries →
      (({ input with entries := entries } : ArchiveInput).summary root = input.summary root ↔
        (sourceFiles entries).insertionSort SourceFile.before =
          (sourceFiles input.entries).insertionSort SourceFile.before) := by
    intro entries hperm
    have hfiles : (sourceFiles entries).Perm (sourceFiles input.entries) := hperm.filterMap _
    have hsize : extractedSize (sourceFiles entries) = extractedSize (sourceFiles input.entries) :=
      (hfiles.map SourceFile.size).sum_eq
    rw [ArchiveInput.summary, ArchiveInput.summary, hsize, hfiles.length_eq]
    simp only [ArchiveManifest.mk.injEq, true_and, and_true]
  constructor
  · intro hall
    refine separated_of_sorted_eq hacceptable.distinct ?_
    intro entries hperm
    have hvalid : (archiveInputSchema (ν := ν)).valid { input with entries := entries } = true :=
      archiveInput_valid_perm hperm (archiveInputSchema.valid_decode hdecode)
    obtain ⟨manifest', hmanifest, hsame, -⟩ :=
      hall _ ⟨input, entries, hdecode, hperm, archiveInputSchema.decode_encode hvalid⟩
    obtain ⟨input'', root', hdecode'', hacceptable', rfl⟩ := validateArchiveManifest_ok_iff.mp hmanifest
    rw [archiveInputSchema.decode_encode hvalid] at hdecode''
    cases hdecode''
    obtain rfl := hacceptable'.root_unique (hacceptable.perm hperm)
    exact (hsummary hperm).mp hsame
  · rintro hseparated raw' ⟨input'', entries, hinput, hperm, hraw⟩
    cases hdecode.symm.trans hinput
    have hsame := (hsummary hperm).mpr (sorted_eq hperm hacceptable.distinct hseparated)
    exact ⟨_, validateArchiveManifest_ok_iff.mpr ⟨_, root, hraw, hacceptable.perm hperm, rfl⟩, hsame,
      fun _ _ => by rw [hsame]⟩

end order

end ReproForge

/-! ## Two orders of one archive -/

namespace ReproForge.Sample.SourceArchives

open JsonValues JsonValues.Decimal ReproForge.Sample.CanonicalForm

def plainManifest : ArchiveManifest := manifestOf ⟨"index.ts", 3⟩ ⟨"re.ts", 4⟩

def hyphenLastManifest : ArchiveManifest := manifestOf ⟨"re.ts", 3⟩ ⟨"r\u00ade.ts", 4⟩

def hyphenFirstManifest : ArchiveManifest := manifestOf ⟨"r\u00ade.ts", 4⟩ ⟨"re.ts", 3⟩

/-- The digests of the texts of these manifests. -/
scoped instance manifestDigests : Sha256 where
  hex text :=
    if text = canonicalManifestJson Int plainManifest then
      "9289848748d838aa9b8ea2eadc3085a2c2da0013b6c3bc28fb0907ebb4dafc1a"
    else if text = canonicalManifestJson Int hyphenLastManifest then
      "118c2092cc128eda40f74e7bc51a74b54b7d0b2ffb3e819bd979560491343e6f"
    else if text = canonicalManifestJson Int hyphenFirstManifest then
      "94b9bba3a6e403e9dff91a0626660d8d2e7aa0bdf87f3d70abf198d613b2da5a"
    else ""

/-- Two manifests with paths in different orders have different texts. -/
theorem texts_differ {manifest manifest' : ArchiveManifest}
    (h : (manifest.files.insertionSort SourceFile.before).map SourceFile.path ≠
      (manifest'.files.insertionSort SourceFile.before).map SourceFile.path) :
    canonicalManifestJson Int manifest ≠ canonicalManifestJson Int manifest' :=
  fun htext => h (canonicalManifestJson_paths htext)

theorem hyphenLast_digest : Sha256.hex (canonicalManifestJson Int hyphenLastManifest) =
    "118c2092cc128eda40f74e7bc51a74b54b7d0b2ffb3e819bd979560491343e6f" :=
  (if_neg (texts_differ (by decide +kernel))).trans (if_pos rfl)

theorem hyphenFirst_digest : Sha256.hex (canonicalManifestJson Int hyphenFirstManifest) =
    "94b9bba3a6e403e9dff91a0626660d8d2e7aa0bdf87f3d70abf198d613b2da5a" :=
  (if_neg (texts_differ (by decide +kernel))).trans
    ((if_neg (texts_differ (by decide +kernel))).trans (if_pos rfl))

def plainReversed : ArchiveInput := { plainArchive with entries := plainArchive.entries.reverse }

/-- The files of the sample are listed in one order. -/
theorem manifest_order_exact_sample :
    ∃ manifest', validateArchiveManifest (rawOf plainReversed) = .ok manifest' ∧ manifest' = plainManifest ∧
      ∀ acquiredAt source,
        (createSourceProvenance Int acquiredAt manifest' source).map SourceProvenance.manifestSha256 =
          (createSourceProvenance Int acquiredAt plainManifest source).map SourceProvenance.manifestSha256 := by
  have hvalid : (archiveInputSchema (ν := Int)).valid plainReversed = true := by decide +kernel
  have hsame : SameArchive (rawOf plainArchive) (rawOf plainReversed) :=
    ⟨plainArchive, _, decode_rawOf plainArchive_valid, List.reverse_perm _, decode_rawOf hvalid⟩
  have hseparated : Separated (sourceFiles plainArchive.entries) := by
    have hfiles : sourceFiles plainArchive.entries = [⟨"re.ts", 4⟩, ⟨"index.ts", 3⟩] := by decide +kernel
    rw [Separated, hfiles]
    unfold SourceFile.before
    decide +kernel
  exact (manifest_order_exact (decode_rawOf plainArchive_valid)
    ((validate_rawOf plainArchive_valid).trans plainArchive_manifest)).mpr hseparated _ hsame

/-- Two paths that differ in a soft hyphen alone. -/
def hyphenLast : ArchiveInput := archiveOf ⟨"re.ts", 3⟩ ⟨"r\u00ade.ts", 4⟩

def hyphenFirst : ArchiveInput := { hyphenLast with entries := hyphenLast.entries.reverse }

def sampleSource : ImmutableRepositorySource where
  commitSha := "0123456789abcdef0123456789abcdef01234567"
  fullName := "acme/web"
  private' := false
  repositoryId := "repo-1"

/-- The order of the archive shows in the digest of its manifest. -/
theorem archive_order_shows :
    ∃ raw raw' : Json Int, ∃ manifest manifest', SameArchive raw raw' ∧
      validateArchiveManifest raw = .ok manifest ∧ validateArchiveManifest raw' = .ok manifest' ∧
      manifest ≠ manifest' ∧
      (createSourceProvenance Int "2026-07-20T00:00:00Z" manifest sampleSource).map SourceProvenance.manifestSha256 ≠
        (createSourceProvenance Int "2026-07-20T00:00:00Z" manifest' sampleSource).map
          SourceProvenance.manifestSha256 := by
  have hvalid : (archiveInputSchema (ν := Int)).valid hyphenLast = true := by decide +kernel
  have hvalid' : (archiveInputSchema (ν := Int)).valid hyphenFirst = true := by decide +kernel
  have hlast : hyphenLast.manifest = .ok hyphenLastManifest := by decide +kernel
  have hfirst : hyphenFirst.manifest = .ok hyphenFirstManifest := by decide +kernel
  refine ⟨rawOf hyphenLast, rawOf hyphenFirst, _, _, ?_, (validate_rawOf hvalid).trans hlast,
    (validate_rawOf hvalid').trans hfirst, by decide, ?_⟩
  · exact ⟨hyphenLast, _, decode_rawOf hvalid, List.reverse_perm _, decode_rawOf hvalid'⟩
  · have hsource : sampleSource.valid = true := by decide +kernel
    rw [createSourceProvenance, createSourceProvenance, if_pos hsource, if_pos hsource, hyphenLast_digest,
      hyphenFirst_digest]
    decide +kernel

end ReproForge.Sample.SourceArchives
