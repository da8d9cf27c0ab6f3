import ReproForge.DependencyMetadata

/-!
# What the dependency policy admits

The two files of an accepted repository against the rule that they should obey:
every dependency comes from the registry or from the declared workspace. The
forms that the refused openings leave out are named here, and with them the exact
inputs that break the rule.
-/
namespace ReproForge

open JsonValues Words Npm

variable {ν : Type}

/-! ## The rule -/

/-- The specifier names the registry, the declared workspace, or nothing that npm accepts. -/
structure TrustedSpecifier (profile : NodeRepositoryProfile) (specifier : String) : Prop where
  source : (Npm.source specifier.toList).foreign = false
  workspace : Npm.source specifier.toList = .workspace → profile.workspace.isSome

def TrustedSpecifiers (profile : NodeRepositoryProfile) (packageJson : List (String × Json ν)) : Prop :=
  ∀ field ∈ dependencyFields, ∀ value, packageJson.lookup field = some value →
    ∃ dependencies, value = .obj dependencies ∧
      ∀ d ∈ dependencies, ∃ specifier, d.2 = .str specifier ∧ TrustedSpecifier profile specifier

/-- A safe relative path with a segment after `node_modules`. -/
def BelowModules (path : String) : Prop :=
  isSafeRelativePath path = true ∧ "node_modules".toList ∈ (pathSegments path).dropLast

def LinksToWorkspace (profile : NodeRepositoryProfile) (entry : List (String × Json ν)) : Prop :=
  entry.lookup "link" = some (.bool true) ∧
    ∃ workspace, profile.workspace = some workspace ∧ entry.lookup "resolved" = some (.str workspace)

/-- A URL of the registry: no other port, no credentials, no query, no fragment. -/
structure AtRegistry (url : Url) : Prop where
  protocol : url.protocol = "https:"
  hostname : url.hostname = "registry.npmjs.org"
  port : url.port = ""
  username : url.username = ""
  password : url.password = ""
  search : url.search = ""
  hash : url.hash = ""

def ResolvedByRegistry [UrlReader] (entry : List (String × Json ν)) : Prop :=
  (∃ value url, entry.lookup "resolved" = some (.str value) ∧ UrlReader.parse value = some url ∧ AtRegistry url) ∧
    ∃ value bytes, entry.lookup "integrity" = some (.str value) ∧ integrityBytes value = some bytes ∧ bytes.length = 64

def TrustedEntries [UrlReader] (profile : NodeRepositoryProfile) (entries : List (String × Json ν)) : Prop :=
  ∀ e ∈ entries, e.1 ≠ "" → profile.workspace ≠ some e.1 →
    ∃ entry, e.2 = .obj entry ∧ BelowModules e.1 ∧ (LinksToWorkspace profile entry ∨ ResolvedByRegistry entry)

/-! ## What the checks leave out -/

/-- A path, a git address, a shorthand or an archive that begins with none of the refused openings. -/
def unfiltered (specifier : List Char) : Bool :=
  (opens "." specifier && !opens "./" specifier && !opens "../" specifier) || opens "~/" specifier ||
    (!opens "npm:" (lower specifier) && !opens "workspace:" specifier &&
      (isScpAddress specifier || (scheme specifier).any (fun name => name.length == 1) ||
        ["ssh:", "gitlab:", "bitbucket:", "gist:", "sourcehut:"].any (fun word => opens word (lower specifier)) ||
        ((scheme specifier).isNone && (specifier.contains '/' || isTarballName specifier))))

def FilteredSpecifiers (packageJson : List (String × Json ν)) : Prop :=
  ∀ field ∈ dependencyFields, ∀ dependencies, packageJson.lookup field = some (.obj dependencies) →
    ∀ d ∈ dependencies, ∀ specifier, d.2 = .str specifier → unfiltered specifier.toList = false

/-- A segment follows `node_modules`, and the URL of an entry that is no link names no port. -/
def FilteredEntries [UrlReader] (profile : NodeRepositoryProfile) (entries : List (String × Json ν)) : Prop :=
  ∀ e ∈ entries, e.1 ≠ "" → profile.workspace ≠ some e.1 → "node_modules".toList ∈ (pathSegments e.1).dropLast ∧
    ∀ entry, e.2 = .obj entry → isLink entry = false → ∀ value url, entry.lookup "resolved" = some (.str value) →
      UrlReader.parse value = some url → url.port = ""

/-! ## Specifiers -/

section unfiltered

variable {specifier : List Char}

theorem scheme_word (specifier : List Char) (word opening : String) (h : opening.toList = word.toList ++ [':'] ∧ word.toList ≠ [] ∧
    word.toList.all Char.isAlpha = true) :
    scheme specifier = some word.toList ↔ opens opening (lower specifier) = true :=
  scheme_opens word opening h.1 h.2.1 h.2.2 specifier

theorem scheme_refused (word opening : String) (h : opening.toList = word.toList ++ [':'] ∧ word.toList ≠ [] ∧
    word.toList.all Char.isAlpha = true) (hclosed : opens opening (lower specifier) = false) :
    scheme specifier ≠ some word.toList := by
  rw [Ne, scheme_word specifier word opening h, hclosed]
  exact Bool.false_ne_true

/-- The foreign schemes that are not refused. -/
theorem foreign_scheme (h : disallowedSpecifier specifier = false) :
    (∃ name, scheme specifier = some name ∧ (schemeSource name).foreign = true) ↔
      ((scheme specifier).any (fun name => name.length == 1) ||
        ["ssh:", "gitlab:", "bitbucket:", "gist:", "sourcehut:"].any (fun word => opens word (lower specifier))) =
          true := by
  simp only [disallowedSpecifier, List.any_cons, List.any_nil, Bool.or_false, Bool.or_eq_false_iff] at h
  obtain ⟨hhttp, hhttps, -, hgit, hgithub, hfile, hlink, -⟩ := h
  have hhttp' := scheme_refused "http" "http:" (by decide +kernel) hhttp
  have hhttps' := scheme_refused "https" "https:" (by decide +kernel) hhttps
  have hgit' := scheme_refused "git" "git:" (by decide +kernel) hgit
  have hgithub' := scheme_refused "github" "github:" (by decide +kernel) hgithub
  have hfile' := scheme_refused "file" "file:" (by decide +kernel) hfile
  have hlink' := scheme_refused "link" "link:" (by decide +kernel) hlink
  simp only [List.any_cons, List.any_nil, Bool.or_false, Bool.or_eq_true,
    ← scheme_word specifier "ssh" "ssh:" (by decide +kernel),
    ← scheme_word specifier "gitlab" "gitlab:" (by decide +kernel),
    ← scheme_word specifier "bitbucket" "bitbucket:" (by decide +kernel),
    ← scheme_word specifier "gist" "gist:" (by decide +kernel),
    ← scheme_word specifier "sourcehut" "sourcehut:" (by decide +kernel)]
  cases hscheme : scheme specifier with
  | none => simp
  | some name =>
    rw [hscheme] at hhttp' hhttps' hgit' hgithub' hfile' hlink'
    simp only [Option.some.injEq, exists_eq_left', schemeSource_foreign, hostedSchemes, List.mem_cons,
      List.not_mem_nil, or_false, exists_eq_or_imp, exists_eq_left, Option.any_some, beq_iff_eq, ne_eq] at *
    grind

/-- Of what the refused openings let through, exactly the forms above are foreign. -/
theorem foreign_iff_unfiltered (h : disallowedSpecifier specifier = false) :
    (Npm.source specifier).foreign = true ↔ unfiltered specifier = true := by
  have halias := scheme_word specifier "npm" "npm:" (by decide +kernel)
  have hforeign := foreign_scheme h
  simp only [disallowedSpecifier, List.any_cons, List.any_nil, Bool.or_false, Bool.or_eq_false_iff] at h
  obtain ⟨-, -, hgit, -, -, -, -, hroot, hhere, hup⟩ := h
  rw [opens_lower "/" (by decide +kernel)] at hroot
  rw [opens_lower "./" (by decide +kernel)] at hhere
  rw [opens_lower "../" (by decide +kernel)] at hup
  rw [source_foreign, hforeign, Ne, halias, hgit, isPath, hroot, unfiltered, hhere, hup]
  generalize (scheme specifier).any (fun name => name.length == 1) = letter
  generalize ["ssh:", "gitlab:", "bitbucket:", "gist:", "sourcehut:"].any (fun word => opens word (lower specifier)) =
    scheme'
  generalize opens "npm:" (lower specifier) = renamed
  generalize opens "workspace:" specifier = workspace
  generalize isScpAddress specifier = scp
  have hnone : scheme specifier = none ↔ (scheme specifier).isNone = true := Option.isNone_iff_eq_none.symm
  rw [hnone]
  generalize (scheme specifier).isNone = none'
  cases renamed <;> cases workspace <;> simp [or_assoc]

theorem trusted_iff {profile : NodeRepositoryProfile} {name : String} {value : Json ν}
    (h : allowedSpecifier profile name value = true) :
    ∃ specifier, value = .str specifier ∧
      (TrustedSpecifier profile specifier ↔ unfiltered specifier.toList = false) := by
  unfold allowedSpecifier at h
  split at h
  · rename_i specifier
    simp only [Bool.and_eq_true, Bool.or_eq_true, Bool.not_eq_true'] at h
    obtain ⟨⟨-, hallowed⟩, hworkspace⟩ := h
    refine ⟨specifier, rfl, ?_⟩
    have hiff := foreign_iff_unfiltered hallowed
    constructor
    · intro ht
      rw [Bool.eq_false_iff, Ne, ← hiff, ht.source]
      exact Bool.false_ne_true
    · intro hu
      refine ⟨?_, ?_⟩
      · rw [Bool.eq_false_iff, Ne, hiff, hu]
        exact Bool.false_ne_true
      · intro hsource
        have hopens := source_workspace hsource
        exact hworkspace.resolve_left (by rw [hopens]; exact Bool.true_eq_false.mp)
  · cases h

theorem trustedSpecifiers_iff {profile : NodeRepositoryProfile} {packageJson : List (String × Json ν)}
    (h : validateDependencySpecifiers packageJson profile = true) :
    TrustedSpecifiers profile packageJson ↔ FilteredSpecifiers packageJson := by
  have hfields : ∀ field ∈ dependencyFields, ∀ value, packageJson.lookup field = some value →
      ∃ dependencies, value = .obj dependencies ∧ ∀ d ∈ dependencies, allowedSpecifier profile d.1 d.2 = true := by
    intro field hfield value hvalue
    have hone := List.all_eq_true.mp h field hfield
    rw [hvalue] at hone
    cases value with
    | obj dependencies => exact ⟨dependencies, rfl, List.all_eq_true.mp hone⟩
    | _ => cases hone
  constructor
  · intro ht field hfield dependencies hvalue d hd specifier hspecifier
    obtain ⟨_, hobj, htrusted⟩ := ht field hfield _ hvalue
    cases hobj
    obtain ⟨_, hobj, hallowed⟩ := hfields field hfield _ hvalue
    cases hobj
    obtain ⟨_, hstr, hone⟩ := htrusted d hd
    obtain ⟨_, hstr', hiff⟩ := trusted_iff (hallowed d hd)
    cases hspecifier.symm.trans hstr
    cases hspecifier.symm.trans hstr'
    exact hiff.mp hone
  · intro hf field hfield value hvalue
    obtain ⟨dependencies, rfl, hallowed⟩ := hfields field hfield _ hvalue
    refine ⟨dependencies, rfl, ?_⟩
    intro d hd
    obtain ⟨specifier, hstr, hiff⟩ := trusted_iff (hallowed d hd)
    exact ⟨specifier, hstr, hiff.mpr (hf field hfield dependencies hvalue d hd specifier hstr)⟩

end unfiltered

/-! ## Entries -/

section entries

variable [UrlReader] {profile : NodeRepositoryProfile} {path : String} {rawEntry : Json ν}

/-- What the loop demands of an entry that is neither the root nor the workspace. -/
structure CheckedEntry (profile : NodeRepositoryProfile) (path : String) (entry : List (String × Json ν)) : Prop where
  safe : isSafeRelativePath path = true
  modules : (pathSegments path).contains "node_modules".toList = true
  link : isLink entry = true → linksTo profile.workspace (entry.lookup "resolved") = true
  resolution : isLink entry = false → validRegistryResolution (entry.lookup "resolved") = true
  integrity : isLink entry = false → validIntegrity (entry.lookup "integrity") = true

theorem checkEntry_ok {counts : Bool} (h : checkEntry profile path rawEntry = .ok counts) (hpath : path ≠ "")
    (hworkspace : profile.workspace ≠ some path) :
    ∃ entry, rawEntry = .obj entry ∧ CheckedEntry profile path entry := by
  rw [checkEntry, checks_ok] at h
  obtain ⟨entry, hentry, h⟩ := h
  rw [supported_ok, record_some] at hentry
  rw [if_neg (by simp [hpath, hworkspace])] at h
  simp only [checks_ok, supports_ok] at h
  obtain ⟨_, hsafe, _, hmodules, h⟩ := h
  refine ⟨entry, hentry, ?_⟩
  cases hlink : isLink entry with
  | true =>
    rw [hlink] at h
    simp only [if_true, checks_ok, supports_ok] at h
    obtain ⟨_, hlinks, -⟩ := h
    exact ⟨hsafe, hmodules, fun _ => hlinks, fun hl => (nomatch hlink.symm.trans hl),
      fun hl => (nomatch hlink.symm.trans hl)⟩
  | false =>
    rw [hlink] at h
    simp only [Bool.false_eq_true, if_false, checks_ok, supports_ok, Bool.and_eq_true] at h
    obtain ⟨_, ⟨hresolution, hintegrity⟩, -⟩ := h
    exact ⟨hsafe, hmodules, fun hl => (nomatch hlink.symm.trans hl), fun _ => hresolution, fun _ => hintegrity⟩

omit [UrlReader] in
theorem isLink_iff {entry : List (String × Json ν)} :
    isLink entry = true ↔ entry.lookup "link" = some (.bool true) := by
  unfold isLink
  split
  · rename_i b hb
    rw [hb]
    simp
  · rename_i hb
    constructor
    · exact fun h => nomatch h
    · intro h
      exact absurd h (hb true)

/-- A checked link is one to the workspace. -/
theorem CheckedEntry.links {entry : List (String × Json ν)} (h : CheckedEntry profile path entry)
    (hlink : isLink entry = true) : LinksToWorkspace profile entry := by
  have hlinks := h.link hlink
  unfold linksTo at hlinks
  split at hlinks
  · rename_i resolved hresolved
    rw [Bool.and_eq_true, beq_iff_eq] at hlinks
    exact ⟨isLink_iff.mp hlink, resolved, hlinks.1, hresolved⟩
  · cases hlinks

/-- A checked resolution lacks nothing but the port. -/
theorem CheckedEntry.resolved {entry : List (String × Json ν)} (h : CheckedEntry profile path entry)
    (hlink : isLink entry = false) :
    ResolvedByRegistry entry ↔ ∀ value url, entry.lookup "resolved" = some (.str value) →
      UrlReader.parse value = some url → url.port = "" := by
  have hresolution := h.resolution hlink
  have hintegrity := h.integrity hlink
  unfold validRegistryResolution at hresolution
  unfold validIntegrity at hintegrity
  split at hresolution
  · rename_i value hvalue
    split at hintegrity
    · rename_i digest hdigest
      rw [Bool.and_eq_true, Option.any_eq_true] at hresolution
      obtain ⟨-, url, hurl, hregistry⟩ := hresolution
      simp only [Url.registry, Bool.and_eq_true, beq_iff_eq] at hregistry
      obtain ⟨⟨⟨⟨⟨⟨hprotocol, hhostname⟩, husername⟩, hpassword⟩, hsearch⟩, hhash⟩, -⟩ := hregistry
      rw [Option.any_eq_true] at hintegrity
      obtain ⟨bytes, hbytes, hlength⟩ := hintegrity
      constructor
      · rintro ⟨⟨value', url', hvalue', hurl', hat⟩, -⟩ value'' url'' hvalue'' hurl''
        cases hvalue'.symm.trans hvalue''
        cases hurl'.symm.trans hurl''
        exact hat.port
      · intro hport
        refine ⟨⟨value, url, hvalue, hurl, ?_⟩, digest, bytes, hdigest, hbytes, eq_of_beq hlength⟩
        exact ⟨hprotocol, hhostname, hport value url hvalue hurl, husername, hpassword, hsearch, hhash⟩
    · cases hintegrity
  · cases hresolution

/-- An entry that passed the loop obeys the rule exactly when a segment follows `node_modules` and no port is named. -/
theorem CheckedEntry.trusted_iff {entry : List (String × Json ν)} (h : CheckedEntry profile path entry) :
    (BelowModules path ∧ (LinksToWorkspace profile entry ∨ ResolvedByRegistry entry)) ↔
      "node_modules".toList ∈ (pathSegments path).dropLast ∧ (isLink entry = false → ∀ value url,
        entry.lookup "resolved" = some (.str value) → UrlReader.parse value = some url → url.port = "") := by
  constructor
  · rintro ⟨hbelow, hsource⟩
    refine ⟨hbelow.2, ?_⟩
    intro hlink
    refine (h.resolved hlink).mp (hsource.resolve_left ?_)
    intro hlinks
    rw [isLink_iff.mpr hlinks.1] at hlink
    cases hlink
  · rintro ⟨hbelow, hport⟩
    refine ⟨⟨h.safe, hbelow⟩, ?_⟩
    cases hlink : isLink entry with
    | true => exact .inl (h.links hlink)
    | false => exact .inr ((h.resolved hlink).mpr (hport hlink))

theorem trustedEntries_iff {entries : List (String × Json ν)}
    (h : ∀ e ∈ entries, ∃ counts, checkEntry profile e.1 e.2 = .ok counts) :
    TrustedEntries profile entries ↔ FilteredEntries profile entries := by
  constructor
  · intro ht e he hpath hworkspace
    obtain ⟨counts, hcheck⟩ := h e he
    obtain ⟨entry, hobj, hchecked⟩ := checkEntry_ok hcheck hpath hworkspace
    obtain ⟨_, hobj', htrusted⟩ := ht e he hpath hworkspace
    cases hobj.symm.trans hobj'
    obtain ⟨hbelow, hport⟩ := hchecked.trusted_iff.mp htrusted
    refine ⟨hbelow, ?_⟩
    intro _ hobj''
    cases hobj.symm.trans hobj''
    exact hport
  · intro hf e he hpath hworkspace
    obtain ⟨counts, hcheck⟩ := h e he
    obtain ⟨entry, hobj, hchecked⟩ := checkEntry_ok hcheck hpath hworkspace
    obtain ⟨hbelow, hport⟩ := hf e he hpath hworkspace
    exact ⟨entry, hobj, hchecked.trusted_iff.mpr ⟨hbelow, hport entry hobj⟩⟩

end entries

/-! ## Accepted inputs -/

section accepted

variable [PropertyOrder] [IntegerNumber ν] [UrlReader] [ContentHash] {input : DependencyInput}

/-- The two files hold these properties and these entries. -/
structure DependencyInput.Holds (input : DependencyInput) (packageJson entries : List (String × Json ν)) : Prop where
  package : decodeJson input.packageBytes packageJsonLimit = some (.obj packageJson)
  lock : ∃ lockJson, decodeJson input.lockBytes lockfileLimit = some (.obj lockJson) ∧
    lockJson.lookup "packages" = some (.obj entries)

theorem validated {metadata : DependencyMetadata} (h : validateNodeDependencyMetadata ν input = .ok metadata) :
    ∃ packageJson entries : List (String × Json ν), input.Holds packageJson entries ∧
      validateDependencySpecifiers packageJson input.profile = true ∧
      ∀ e ∈ entries, ∃ counts, checkEntry input.profile e.1 e.2 = .ok counts := by
  simp only [validateNodeDependencyMetadata, checks_ok, supported_ok, supports_ok] at h
  obtain ⟨-, -, -, -, packageJson, hpackage, lockJson, hlock, -, -, -, -, -, -, -, -, -, hspecifiers, -, -, entries,
    hentries, -, -, counted, hcounted, -⟩ := h
  obtain ⟨_, hpackage, hobj⟩ := Option.bind_eq_some_iff.mp hpackage
  obtain ⟨_, hlock, hobj'⟩ := Option.bind_eq_some_iff.mp hlock
  obtain ⟨_, hentries, hobj''⟩ := Option.bind_eq_some_iff.mp hentries
  rw [record_some] at hobj hobj' hobj''
  subst hobj hobj' hobj''
  exact ⟨packageJson, entries, ⟨hpackage, lockJson, hlock, hentries⟩, hspecifiers, mapM_ok hcounted⟩

omit [UrlReader] [ContentHash] in
theorem DependencyInput.Holds.unique {packageJson packageJson' entries entries' : List (String × Json ν)}
    (h : input.Holds packageJson entries) (h' : input.Holds packageJson' entries') :
    packageJson' = packageJson ∧ entries' = entries := by
  obtain ⟨lockJson, hlock, hentries⟩ := h.lock
  obtain ⟨lockJson', hlock', hentries'⟩ := h'.lock
  cases h.package.symm.trans h'.package
  cases hlock.symm.trans hlock'
  cases hentries.symm.trans hentries'
  exact ⟨rfl, rfl⟩

end accepted

end ReproForge

/-! ## A repository of the hosting service -/

namespace ReproForge.Sample.Dependencies

open JsonValues JsonValues.Decimal

/-- The text of a value in UTF-8. -/
def bytesOf (v : Json Int) : List UInt8 := v.text.flatMap String.utf8EncodeChar

theorem decodeText_bytesOf {v : Json Int} (h : withoutMark (bytesOf v) = bytesOf v) :
    decodeText (bytesOf v) = some v.stringify := by
  have htext : v.stringify.toList = v.text := String.toList_ofList
  have hbytes : (⟨(bytesOf v).toArray⟩ : ByteArray) = v.stringify.toByteArray := by
    rw [← String.utf8Encode_toList, htext, List.utf8Encode]
    exact ByteArray.ext List.data_toByteArray.symm
  rw [decodeText, h, hbytes]
  exact dif_pos v.stringify.isValidUTF8

theorem decodeJson_bytesOf {v : Json Int} {limit : Nat} (hmark : withoutMark (bytesOf v) = bytesOf v)
    (hempty : (bytesOf v).isEmpty = false) (hlength : (bytesOf v).length ≤ limit) (hv : v.settled = true) :
    decodeJson (bytesOf v) limit = some v := by
  rw [decodeJson, hempty, if_neg (by simp [hlength]), decodeText_bytesOf hmark, Option.bind_some,
    Json.parse_stringify hv]

def packageJson : List (String × Json Int) :=
  [("dependencies", .obj [("left-pad", .str "owner/repo")]),
    ("scripts", .obj [("test:control", .str "node control.mjs"), ("test:reproduce", .str "node reproduce.mjs")])]

def tarball : String := "https://registry.npmjs.org/left-pad/-/left-pad-1.3.0.tgz"

def integrity : String :=
  "sha512-BwcHBwcHBwcHBwcHBwcHBwcHBwcHBwcHBwcHBwcHBwcHBwcHBwcHBwcHBwcHBwcHBwcHBwcHBwcHBwcHBwcHBw=="

def entries : List (String × Json Int) :=
  [("", .obj []), ("node_modules/left-pad", .obj [("resolved", .str tarball), ("integrity", .str integrity)])]

def lockJson : List (String × Json Int) := [("lockfileVersion", .num 3), ("packages", .obj entries)]

def lockBytes : List UInt8 := bytesOf (.obj lockJson)

def packageBytes : List UInt8 := bytesOf (.obj packageJson)

def input : DependencyInput where
  lockBytes := lockBytes
  manifest := ⟨1024, "aaaaaaaaaaaaaaaaaaaaaaaaaaaaaaaaaaaaaaaaaaaaaaaaaaaaaaaaaaaaaaaa", 2048, 2,
    [⟨"package-lock.json", 1024⟩, ⟨"package.json", 1024⟩], "root"⟩
  packageBytes := packageBytes
  profile := ⟨"test:control", .v24, "test:reproduce", none, none⟩

/-- The digests of the two files, by their lengths. -/
scoped instance : ContentHash where
  sha256 bytes :=
    if bytes.length = 246 then "a5ab4b35ff801f494f4bf8a2e9a1063c875be1c1cb654de71e640f4b306d3cae"
    else "9d9facb091763f7e4bda2d074e9237b855b0c20f094eb0890c204e6aabf1e158"

scoped instance : UrlReader where
  parse value :=
    if value = tarball then
      some ⟨"https:", "", "", "registry.npmjs.org", "", "/left-pad/-/left-pad-1.3.0.tgz", "", ""⟩
    else none

theorem decode_lock : decodeJson lockBytes lockfileLimit = some (Json.obj lockJson) := by
  unfold lockBytes
  exact decodeJson_bytesOf (by decide +kernel) (by decide +kernel) (by decide +kernel) (by decide +kernel)

theorem decode_package : decodeJson packageBytes packageJsonLimit = some (Json.obj packageJson) := by
  unfold packageBytes
  exact decodeJson_bytesOf (by decide +kernel) (by decide +kernel) (by decide +kernel) (by decide +kernel)

theorem hash_lock : ContentHash.sha256 lockBytes = "a5ab4b35ff801f494f4bf8a2e9a1063c875be1c1cb654de71e640f4b306d3cae" := by
  decide +kernel

theorem hash_package : ContentHash.sha256 packageBytes =
    "9d9facb091763f7e4bda2d074e9237b855b0c20f094eb0890c204e6aabf1e158" := by
  decide +kernel

def metadata : DependencyMetadata :=
  ⟨1, "a5ab4b35ff801f494f4bf8a2e9a1063c875be1c1cb654de71e640f4b306d3cae", 3,
    "9d9facb091763f7e4bda2d074e9237b855b0c20f094eb0890c204e6aabf1e158"⟩

theorem validate_input : validateNodeDependencyMetadata Int input = .ok metadata := by
  have hpackage : input.packageBytes = packageBytes := by simp only [input]
  have hlock : input.lockBytes = lockBytes := by simp only [input]
  rw [validateNodeDependencyMetadata, hpackage, hlock, decode_package, decode_lock, hash_lock, hash_package]
  decide +kernel

theorem holds_input : input.Holds packageJson entries where
  package := by
    have hpackage : input.packageBytes = packageBytes := by simp only [input]
    rw [hpackage, decode_package]
  lock := by
    have hlock : input.lockBytes = lockBytes := by simp only [input]
    rw [hlock]
    exact ⟨lockJson, decode_lock, rfl⟩

end ReproForge.Sample.Dependencies
