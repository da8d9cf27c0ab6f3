import Mathlib

/-!
# Specifiers of npm dependencies

Where a dependency comes from, by the text that a `package.json` writes after its
name. The forms are tried in the order in which npm tries them.
-/
namespace Npm

inductive Source where
  /-- A version, a range, a tag, or an alias of another package. -/
  | registry
  | workspace
  /-- A repository of a hosting service, by its shorthand. -/
  | hosted
  | git
  | tarball
  | localPath
  /-- A scheme that npm turns down. -/
  | unsupported
  deriving DecidableEq, Repr

/-- Code that neither the registry nor the workspace vouches for. -/
def Source.foreign : Source → Bool
  | .registry | .workspace | .unsupported => false
  | .hosted | .git | .tarball | .localPath => true

/-! ## The forms -/

def opens (word : String) (text : List Char) : Bool := word.toList.isPrefixOf text

def lower (text : List Char) : List Char := text.map Char.toLower

def closes (word : String) (text : List Char) : Bool := word.toList.isSuffixOf text

/-- The letters before a colon, in lower case. -/
def scheme (text : List Char) : Option (List Char) :=
  if (text.takeWhile Char.isAlpha).isEmpty || !opens ":" (text.dropWhile Char.isAlpha) then none
  else some (lower (text.takeWhile Char.isAlpha))

def isPath (text : List Char) : Bool := opens "." text || opens "/" text || opens "~/" text

/-- `user@host:path`, where the host has a dot. -/
def isScpAddress (text : List Char) : Bool :=
  let user := text.takeWhile (· != '@')
  let rest := (text.dropWhile (· != '@')).drop 1
  let host := rest.takeWhile (· != ':')
  let path := (rest.dropWhile (· != ':')).drop 1
  !user.isEmpty && !(host.takeWhile (· != '.')).isEmpty && !((host.dropWhile (· != '.')).drop 1).isEmpty &&
    !path.isEmpty

def hostedSchemes : List String := ["github", "gitlab", "bitbucket", "gist", "sourcehut"]

def schemeSource (name : List Char) : Source :=
  if name.length = 1 then .localPath
  else if hostedSchemes.any (fun s => s.toList == name) then .hosted
  else if name = "git".toList ∨ name = "ssh".toList then .git
  else if name = "http".toList ∨ name = "https".toList then .tarball
  else if name = "file".toList ∨ name = "link".toList then .localPath
  else if name = "npm".toList then .registry
  else .unsupported

/-- `owner/repository`, and what may follow a `#`. -/
def isOwnerAndRepository (text : List Char) : Bool :=
  let name := text.takeWhile (· != '#')
  name.count '/' == 1 && !opens "/" name && !closes "/" name && !name.any (fun c => c == '@' || c.isWhitespace)

def isTarballName (text : List Char) : Bool :=
  closes ".tgz" (lower text) || closes ".tar" (lower text) || closes ".tar.gz" (lower text)

def source (text : List Char) : Source :=
  if isPath text then .localPath
  else if scheme text = some "npm".toList then .registry
  else if opens "workspace:" text then .workspace
  else if opens "git+" (lower text) || isScpAddress text then .git
  else
    match scheme text with
    | some name => schemeSource name
    | none =>
      if text.contains '/' then if isOwnerAndRepository text then .hosted else .localPath
      else if isTarballName text then .localPath
      else .registry

/-! ## Schemes as openings -/

theorem opens_iff {word : String} {text : List Char} : opens word text = true ↔ word.toList <+: text :=
  List.isPrefixOf_iff_prefix

/-- Lower case changes letters into letters. -/
theorem toLower_eq_iff {c d : Char} (hc : c.isAlpha = false) : d.toLower = c ↔ d = c := by
  have hfixed : ∀ e : Char, e.isAlpha = false → e.toLower = e := by
    intro e he
    refine Char.toLower_eq_of_not_isUpper ?_
    intro hu
    rw [Char.isAlpha, hu, Bool.true_or] at he
    cases he
  constructor
  · intro h
    have hd : d.isAlpha = false := by rw [← Char.isAlpha_toLower_eq_isAlpha, h, hc]
    rw [← hfixed d hd, h]
  · rintro rfl
    exact hfixed d hc

/-- The scheme of a text is the word that it opens with before a colon, whatever the case of its letters. -/
theorem scheme_iff {w text : List Char} (hne : w ≠ []) (hw : ∀ c ∈ w, c.isAlpha = true) :
    scheme text = some w ↔ w ++ [':'] <+: lower text := by
  constructor
  · intro h
    unfold scheme at h
    split at h
    · cases h
    · rename_i hopen
      simp only [Bool.or_eq_true, Bool.not_eq_true', not_or, Bool.not_eq_false] at hopen
      obtain ⟨rest, hrest⟩ := opens_iff.mp hopen.2
      have htext : text = text.takeWhile Char.isAlpha ++ ':' :: rest :=
        (List.takeWhile_append_dropWhile (p := Char.isAlpha) (l := text)).symm.trans (by rw [← hrest]; rfl)
      refine ⟨lower rest, ?_⟩
      have hlower : lower text = lower (text.takeWhile Char.isAlpha) ++ ':' :: lower rest :=
        (congrArg lower htext).trans List.map_append
      rw [hlower, Option.some.inj h, List.append_assoc]
      rfl
  · rintro ⟨rest, hrest⟩
    obtain ⟨before, after, rfl, hbefore, hafter⟩ := List.map_eq_append_iff.mp hrest.symm
    obtain ⟨letters, colon, rfl, hletters, hcolon⟩ := List.map_eq_append_iff.mp hbefore
    obtain ⟨c, rfl, hc⟩ := List.map_eq_singleton_iff.mp hcolon
    obtain rfl := (toLower_eq_iff (by decide)).mp hc
    have halpha : ∀ d ∈ letters, d.isAlpha = true := by
      intro d hd
      rw [← Char.isAlpha_toLower_eq_isAlpha]
      exact hw _ (hletters ▸ List.mem_map_of_mem hd)
    have htake : (letters ++ [':'] ++ after).takeWhile Char.isAlpha = letters := by
      rw [List.append_assoc, List.takeWhile_append_of_pos halpha]
      simp
    have hdrop : (letters ++ [':'] ++ after).dropWhile Char.isAlpha = ':' :: after := by
      rw [List.append_assoc, List.dropWhile_append_of_pos halpha]
      simp
    have hletters' : letters.isEmpty = false := by
      cases letters with
      | nil => exact absurd hletters.symm hne
      | cons d rest => rfl
    unfold scheme
    rw [htake, hdrop, hletters', if_neg (by simp [opens])]
    exact congrArg some hletters

theorem scheme_opens (word opening : String) (h : opening.toList = word.toList ++ [':']) (hne : word.toList ≠ [])
    (hw : word.toList.all Char.isAlpha = true) (text : List Char) :
    scheme text = some word.toList ↔ opens opening (lower text) = true := by
  rw [scheme_iff hne (List.all_eq_true.mp hw), opens_iff, h]

/-- An opening without letters is the same in either case. -/
theorem opens_lower (word : String) (h : word.toList.all (fun c => !c.isAlpha) = true) (text : List Char) :
    opens word (lower text) = opens word text := by
  unfold opens
  simp only [List.all_eq_true, Bool.not_eq_true'] at h
  generalize word.toList = letters at h
  induction letters generalizing text with
  | nil => simp
  | cons c rest ih =>
    cases text with
    | nil => rfl
    | cons d text =>
      have hsame : (c == d.toLower) = (c == d) := by
        rw [Bool.eq_iff_iff, beq_iff_eq, beq_iff_eq, eq_comm, toLower_eq_iff (h c List.mem_cons_self), eq_comm]
      change (c == d.toLower && rest.isPrefixOf (lower text)) = (c == d && rest.isPrefixOf text)
      rw [hsame, ih text (fun e he => h e (List.mem_cons_of_mem c he))]

/-! ## Which texts are foreign -/

theorem schemeSource_foreign (name : List Char) :
    (schemeSource name).foreign = true ↔ name.length = 1 ∨ (∃ s ∈ hostedSchemes, s.toList = name) ∨
      name = "git".toList ∨ name = "ssh".toList ∨ name = "http".toList ∨ name = "https".toList ∨
      name = "file".toList ∨ name = "link".toList := by
  have hhosted : hostedSchemes.any (fun s => s.toList == name) = true ↔ ∃ s ∈ hostedSchemes, s.toList = name := by
    rw [List.any_eq_true]
    simp only [beq_iff_eq]
  unfold schemeSource
  split
  · simp [Source.foreign, *]
  · split
    · rename_i h
      simp [Source.foreign, hhosted.mp h]
    · rename_i h
      rw [hhosted] at h
      split
      · rename_i hgit
        rcases hgit with hgit | hgit <;> simp [Source.foreign, hgit]
      · split
        · rename_i hweb
          rcases hweb with hweb | hweb <;> simp [Source.foreign, hweb]
        · split
          · rename_i hfile
            rcases hfile with hfile | hfile <;> simp [Source.foreign, hfile]
          · split <;> simp_all [Source.foreign]

theorem source_foreign (text : List Char) :
    (source text).foreign = true ↔ isPath text = true ∨
      (scheme text ≠ some "npm".toList ∧ opens "workspace:" text = false ∧
        (opens "git+" (lower text) = true ∨ isScpAddress text = true ∨
          (∃ name, scheme text = some name ∧ (schemeSource name).foreign = true) ∨
          (scheme text = none ∧ (text.contains '/' = true ∨ isTarballName text = true)))) := by
  unfold source
  generalize isPath text = path
  generalize opens "workspace:" text = workspace
  generalize opens "git+" (lower text) = git
  generalize isScpAddress text = scp
  generalize text.contains '/' = slash
  generalize isTarballName text = tar
  cases path with
  | true => simp [Source.foreign]
  | false =>
    by_cases halias : scheme text = some "npm".toList
    · rw [if_neg (by decide), if_pos halias]
      exact ⟨fun h => (nomatch h), fun h => absurd halias (h.resolve_left (by decide)).1⟩
    · rw [if_neg (by decide), if_neg halias]
      cases hscheme : scheme text with
      | none => cases workspace <;> cases git <;> cases scp <;> cases slash <;> cases tar <;>
          cases isOwnerAndRepository text <;> simp [Source.foreign]
      | some name =>
        rw [hscheme] at halias
        cases workspace <;> cases git <;> cases scp <;> simp [Source.foreign, -String.reduceToList, halias]

theorem schemeSource_ne_workspace (name : List Char) : schemeSource name ≠ .workspace := by
  unfold schemeSource
  repeat' split
  all_goals exact fun h => nomatch h

theorem source_workspace {text : List Char} (h : source text = .workspace) : opens "workspace:" text = true := by
  unfold source at h
  split at h
  · cases h
  split at h
  · cases h
  split at h
  · assumption
  split at h
  · cases h
  split at h
  · exact absurd h (schemeSource_ne_workspace _)
  split at h
  · split at h <;> cases h
  · split at h <;> cases h

end Npm
