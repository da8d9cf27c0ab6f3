import ReproForge.Artifacts
import ReproForge.NpmSpecifiers
import ReproForge.SourceArchives

/-!
# Dependency metadata

A Node repository is prepared only when its `package.json` and its lockfile take
every dependency from the registry or from the declared workspace. Specifiers are
checked against a list of refused openings, entries of the lockfile one by one.
-/
namespace ReproForge

open JsonValues Words Npm

variable {ν : Type}

/-- What `new URL(value)` reads off a text. -/
structure Url where
  protocol : String
  username : String
  password : String
  hostname : String
  port : String
  pathname : String
  search : String
  hash : String
  deriving DecidableEq, Repr

/-- `new URL`, which throws on a text that is not a URL. -/
class UrlReader where
  parse : String → Option Url

def packageJsonLimit : Nat := 1024 * 1024

def lockfileLimit : Nat := 20 * 1024 * 1024

def dependencyLimit : Nat := 10000

def disallowedConfigNames : List String :=
  [".npmrc", ".yarnrc", ".yarnrc.yml", "bun.lock", "bun.lockb", "npm-shrinkwrap.json", "pnpm-lock.yaml",
    "pnpm-workspace.yaml", "yarn.lock"]

inductive DependencyPreparationCode where
  | dependencyAcquisitionFailed | networkLockdownFailed | offlineInstallFailed | unsupportedSource
  deriving DecidableEq, Repr

inductive PreparationError where
  | preparation : DependencyPreparationCode → PreparationError
  /-- A schema rejected an argument or a result. -/
  | schema
  /-- A call of the session failed. -/
  | session
  deriving DecidableEq, Repr

/-- `dependencyMetadataSchema` -/
def DependencyMetadata.valid (m : DependencyMetadata) : Bool :=
  0 ≤ m.dependencyCount && m.dependencyCount ≤ dependencyLimit && hexDigest 64 m.lockfileSha256 &&
    (m.lockfileVersion == 2 || m.lockfileVersion == 3) && hexDigest 64 m.packageJsonSha256

/-! ## Reading the two files -/

/-- `TextDecoder` leaves the byte order mark out. -/
def withoutMark : List UInt8 → List UInt8
  | 0xEF :: 0xBB :: 0xBF :: rest => rest
  | bytes => bytes

def decodeText (bytes : List UInt8) : Option String := String.fromUTF8? ⟨(withoutMark bytes).toArray⟩

def record : Json ν → Option (List (String × Json ν))
  | .obj fields => some fields
  | _ => none

def supported {α : Type} (o : Option α) : Except PreparationError α :=
  match o with
  | some a => .ok a
  | none => .error (.preparation .unsupportedSource)

def supports (b : Bool) : Except PreparationError Unit := if b then .ok () else .error (.preparation .unsupportedSource)

def schemaAdmits (b : Bool) : Except PreparationError Unit := if b then .ok () else .error .schema

theorem supported_ok {α : Type} {o : Option α} {a : α} : supported o = .ok a ↔ o = some a := by
  cases o <;> simp [supported]

theorem supports_ok {b : Bool} {u : Unit} : supports b = .ok u ↔ b = true := by
  cases b <;> simp [supports]

theorem schemaAdmits_ok {b : Bool} {u : Unit} : schemaAdmits b = .ok u ↔ b = true := by
  cases b <;> simp [schemaAdmits]

/-- Two checks in a row pass when both do. -/
theorem checks_ok {α β : Type} {x : Except PreparationError α} {f : α → Except PreparationError β} {b : β} :
    (x >>= f) = .ok b ↔ ∃ a, x = .ok a ∧ f a = .ok b := by
  cases x with
  | ok a => exact ⟨fun h => ⟨a, rfl, h⟩, fun ⟨_, ha, h⟩ => Except.ok.inj ha ▸ h⟩
  | error e => exact ⟨fun h => (nomatch h), fun ⟨_, ha, _⟩ => (nomatch ha)⟩

theorem mapM_ok {α β : Type} {f : α → Except PreparationError β} {items : List α} {bs : List β}
    (h : items.mapM f = .ok bs) : ∀ a ∈ items, ∃ b, f a = .ok b := by
  induction items generalizing bs with
  | nil => exact fun a ha => absurd ha List.not_mem_nil
  | cons a rest ih =>
    rw [List.mapM_cons, checks_ok] at h
    obtain ⟨b, hb, h⟩ := h
    rw [checks_ok] at h
    obtain ⟨_, hrest, -⟩ := h
    intro c hc
    rcases List.mem_cons.mp hc with rfl | hc
    · exact ⟨b, hb⟩
    · exact ih hrest c hc

theorem record_some {v : Json ν} {fields : List (String × Json ν)} : record v = some fields ↔ v = .obj fields := by
  cases v <;> simp [record]

section json

variable [PropertyOrder] [NumberReader ν]

def decodeJson (bytes : List UInt8) (limit : Nat) : Option (Json ν) :=
  if bytes.isEmpty || limit < bytes.length then none else (decodeText bytes).bind Json.parse

end json

/-! ## Specifiers -/

def dependencyFields : List String := ["dependencies", "devDependencies", "optionalDependencies", "peerDependencies"]

/-- `/^(?:https?:|git(?:\+|:)|github:|file:|link:|\/|\.{1,2}\/)/i` -/
def disallowedSpecifier (specifier : List Char) : Bool :=
  ["http:", "https:", "git+", "git:", "github:", "file:", "link:", "/", "./", "../"].any
    (fun word => opens word (lower specifier))

def allowedSpecifier (profile : NodeRepositoryProfile) (name : String) : Json ν → Bool
  | .str specifier =>
    1 ≤ utf16Length name && utf16Length name ≤ 214 && 1 ≤ utf16Length specifier && utf16Length specifier ≤ 512 &&
      noControlCharacters specifier && !disallowedSpecifier specifier.toList &&
      (!opens "workspace:" specifier.toList || profile.workspace.isSome)
  | _ => false

def validateDependencySpecifiers (packageJson : List (String × Json ν)) (profile : NodeRepositoryProfile) : Bool :=
  dependencyFields.all fun field =>
    match packageJson.lookup field with
    | none => true
    | some value =>
      match record value with
      | none => false
      | some dependencies => dependencies.all (fun d => allowedSpecifier profile d.1 d.2)

/-! ## Entries of the lockfile -/

def base64Char (c : Char) : Bool := c.isAlphanum || c == '+' || c == '/'

def sextet (c : Char) : Nat :=
  if c.isUpper then c.toNat - 65
  else if c.isLower then c.toNat - 71
  else if c.isDigit then c.toNat + 4
  else if c == '+' then 62
  else 63

/-- `Buffer.from(text, "base64")` on letters without padding. -/
def base64Bytes : List Char → List UInt8
  | a :: b :: c :: d :: rest =>
    .ofNat (sextet a * 4 + sextet b / 16) :: .ofNat (sextet b % 16 * 16 + sextet c / 4) ::
      .ofNat (sextet c % 4 * 64 + sextet d) :: base64Bytes rest
  | [a, b, c] => [.ofNat (sextet a * 4 + sextet b / 16), .ofNat (sextet b % 16 * 16 + sextet c / 4)]
  | [a, b] => [.ofNat (sextet a * 4 + sextet b / 16)]
  | _ => []

/-- The bytes after `sha512-`, by `/^sha512-([A-Za-z0-9+/]+={0,2})$/`. -/
def integrityBytes (value : String) : Option (List UInt8) :=
  let encoded := value.toList.drop "sha512-".toList.length
  let letters := encoded.takeWhile base64Char
  let padding := encoded.dropWhile base64Char
  if opens "sha512-" value.toList && !letters.isEmpty && padding.all (· == '=') && padding.length ≤ 2 then
    some (base64Bytes letters)
  else none

def validIntegrity : Option (Json ν) → Bool
  | some (.str value) => (integrityBytes value).any (fun bytes => bytes.length == 64)
  | _ => false

def Url.registry (url : Url) : Bool :=
  url.protocol == "https:" && url.hostname == "registry.npmjs.org" && url.username == "" && url.password == "" &&
    url.search == "" && url.hash == "" && opens "/" url.pathname.toList

def validRegistryResolution [UrlReader] : Option (Json ν) → Bool
  | some (.str value) => utf16Length value ≤ 2048 && (UrlReader.parse value).any Url.registry
  | _ => false

def isLink (entry : List (String × Json ν)) : Bool :=
  match entry.lookup "link" with
  | some (.bool b) => b
  | _ => false

def linksTo (workspace : Option String) : Option (Json ν) → Bool
  | some (.str resolved) => workspace == some resolved && isSafeRelativePath resolved
  | _ => false

/-- One turn of the loop over the entries: whether the entry counts as a dependency. -/
def checkEntry [UrlReader] (profile : NodeRepositoryProfile) (path : String) (rawEntry : Json ν) :
    Except PreparationError Bool := do
  let entry ← supported (record rawEntry)
  if path == "" || profile.workspace == some path then pure false
  else
    supports (isSafeRelativePath path)
    supports ((pathSegments path).contains "node_modules".toList)
    if isLink entry then
      supports (linksTo profile.workspace (entry.lookup "resolved"))
      pure false
    else
      supports (validRegistryResolution (entry.lookup "resolved") && validIntegrity (entry.lookup "integrity"))
      pure true

/-! ## The validation -/

/-- `toLowerCase` as far as it yields letters of ASCII: besides the capitals, the Kelvin sign does. -/
def asciiLower (c : Char) : Char := if c = '\u212a' then 'k' else c.toLower

def manifestAllowed (manifest : ArchiveManifest) (profile : NodeRepositoryProfile) : Bool :=
  let paths := manifest.files.map SourceFile.path
  paths.all (fun path =>
      !disallowedConfigNames.contains (String.ofList (((pathSegments path).getLastD []).map asciiLower))) &&
    paths.contains "package-lock.json" &&
    paths.contains (match profile.workspace with | some w => w ++ "/package.json" | none => "package.json")

def allowedScript : Option (Json ν) → Bool
  | some (.str script) => 1 ≤ utf16Length script && utf16Length script ≤ 10000 && !script.toList.contains '\x00'
  | _ => false

/-- A number of digits and what follows them. -/
def afterDigits (text : List Char) : Option (List Char) :=
  if (text.takeWhile Char.isDigit).isEmpty then none else some (text.dropWhile Char.isDigit)

/-- `/^npm@[0-9]+\.[0-9]+\.[0-9]+(?:-[A-Za-z0-9.-]+)?$/` -/
def npmVersion (value : String) : Bool :=
  let after (word : String) (text : List Char) := if opens word text then afterDigits (text.drop word.toList.length) else none
  match ((after "npm@" value.toList).bind (after ".")).bind (after ".") with
  | some [] => true
  | some ('-' :: tag) => !tag.isEmpty && tag.all (fun c => c.isAlphanum || c == '.' || c == '-')
  | _ => false

def allowedPackageManager : Option (Json ν) → Bool
  | none => true
  | some (.str value) => npmVersion value
  | some _ => false

structure DependencyInput where
  lockBytes : List UInt8
  manifest : ArchiveManifest
  packageBytes : List UInt8
  profile : NodeRepositoryProfile

section validation

variable [PropertyOrder] [IntegerNumber ν]

def lockfileVersion (value : Option (Json ν)) : Option Int :=
  match value with
  | some (.num n) => (IntegerNumber.toInt n).filter (fun i => i == 2 || i == 3)
  | _ => none

def validateNodeDependencyMetadata (ν : Type) [IntegerNumber ν] [UrlReader] [ContentHash] (input : DependencyInput) :
    Except PreparationError DependencyMetadata := do
  schemaAdmits input.profile.valid
  supports (manifestAllowed input.manifest input.profile)
  let packageJson ← supported ((decodeJson (ν := ν) input.packageBytes packageJsonLimit).bind record)
  let lockJson ← supported ((decodeJson (ν := ν) input.lockBytes lockfileLimit).bind record)
  let scripts ← supported ((packageJson.lookup "scripts").bind record)
  supports (allowedScript (scripts.lookup input.profile.controlScript))
  supports (allowedScript (scripts.lookup input.profile.reproductionScript))
  supports (allowedPackageManager (packageJson.lookup "packageManager"))
  supports (validateDependencySpecifiers packageJson input.profile)
  let version ← supported (lockfileVersion (lockJson.lookup "lockfileVersion"))
  let entries ← supported ((lockJson.lookup "packages").bind record)
  supports (!entries.isEmpty && entries.length ≤ dependencyLimit + 1)
  let counted ← entries.mapM (fun e => checkEntry input.profile e.1 e.2)
  supports (counted.count true ≤ dependencyLimit)
  let metadata : DependencyMetadata :=
    ⟨counted.count true, ContentHash.sha256 input.lockBytes, version, ContentHash.sha256 input.packageBytes⟩
  schemaAdmits metadata.valid
  pure metadata

end validation

end ReproForge
