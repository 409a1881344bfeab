import Redskilled.Foundation.UrlPath

/-!
# The REST reads of a project

A reader is bound to one project and one credential profile. Its reads of the REST
interface are given a path below the repository of the project. The path is checked part by
part as it is written, and then read by the URL parser, which knows more spellings of the
dots that lead out of a directory.
-/
namespace Redskilled.Github.Gateway
open Foundation Foundation.UrlPath List

structure ProjectAuthority where
  projectId : Text
  projectLabel : Text
  workspacePath : Text
  credentialProfile : Text
  deriving DecidableEq

inductive GatewayError where
  | authority (message : Text)
  deriving DecidableEq

def refuse {α : Type*} (message : String) : Except GatewayError α :=
  .error (.authority message.toList)

/-- `/^[^/\s]+\/[^/\s]+$/`. -/
def isRepositoryLabel (label : Text) : Bool :=
  match label.splitOn '/' with
  | [owner, name] =>
    !owner.isEmpty && !name.isEmpty && (owner ++ name).all fun c => !Text.isWhitespace c
  | _ => false

def isProfileChar (c : Char) : Bool := c.isAlphanum || c == '.' || c == '_' || c == '-'

/-- `/^[a-zA-Z0-9][a-zA-Z0-9._-]{0,63}$/`. -/
def isPublishableProfile : Text → Bool
  | [] => false
  | c :: rest => c.isAlphanum && rest.length ≤ 63 && rest.all isProfileChar

def validateAuthority (authority : ProjectAuthority) : Except GatewayError ProjectAuthority :=
  if [authority.projectId, authority.projectLabel, authority.workspacePath,
      authority.credentialProfile].any fun value => Text.trim value = [] then
    refuse "a GitHub reader needs one resolved Project and credential profile"
  else if !isRepositoryLabel authority.projectLabel then
    refuse "the resolved Project has no canonical GitHub repository identity"
  else if !isPublishableProfile authority.credentialProfile then
    refuse "the daemon-owned credential profile name is not publishable"
  else .ok authority

def utf16Length (t : Text) : ℕ := (t.flatMap Text.utf16).length

/-- `t.slice(n)`. Half a pair of code units that is left over is read as a replacement
character. -/
def sliceUnits : ℕ → Text → Text
  | 0, t => t
  | _ + 1, [] => []
  | n + 1, c :: t =>
    if (Text.utf16 c).length ≤ n + 1 then sliceUnits (n + 1 - (Text.utf16 c).length) t
    else Utf8.replacement :: t

def adminRoots : List Text :=
  ["admin", "applications", "enterprises", "installation", "installations", "orgs",
    "rate_limit", "user", "users"].map String.toList

section
variable (toLowerCase : Text → Text) (project : ProjectAuthority)

def relativePath (path : Text) : Text := (Text.trim path).dropWhile (· == '/')

def repositoryPrefix : Text := "repos/".toList ++ project.projectLabel ++ "/".toList

def stripRepository (path : Text) : Except GatewayError Text :=
  if "repos/".toList.isPrefixOf path then
    if (toLowerCase (repositoryPrefix project)).isPrefixOf (toLowerCase path) then
      .ok (sliceUnits (utf16Length (repositoryPrefix project)) path)
    else refuse "a Project GitHub reader cannot address another repository"
  else .ok path

def checkRestPath (path : Text) : Except GatewayError Text :=
  if path = [] ∨ '\\' ∈ path ∨
      ((path.splitOn '/').any fun part => part == "..".toList || part == ".".toList) then
    refuse "a Project GitHub REST read needs one repository-relative path"
  else if toLowerCase (path.takeWhile fun c => c != '/' && c != '?' && c != '#') ∈ adminRoots then
    refuse "Project authority cannot use the GitHub gateway for host or account administration"
  else .ok path

def validateRestRead (path : Text) : Except GatewayError Text :=
  (stripRepository toLowerCase project (relativePath path)).bind (checkRestPath toLowerCase)

/-- The request written relative to the repository. -/
def repositoryRelative (request : Text) : Text :=
  let path := relativePath request
  if "repos/".toList.isPrefixOf path then sliceUnits (utf16Length (repositoryPrefix project)) path
  else path

/-- What the URL parser makes of a part of the request whose dots are not plain to see. A part
that is one dot or two is a name here. -/
def hiddenStep (part read : Text) : Segment :=
  if part = ".".toList ∨ part = "..".toList then .name part else readSegment read

def hiddenSteps (path : Text) : List Segment :=
  zipWith hiddenStep (path.splitOn '/') ((trimmed path).splitOn '/')

def repositoryRoot : List Text :=
  "repos".toList :: (project.projectLabel.splitOn '/').map encodeURIComponent

def restTarget (path : Text) : Text :=
  "repos/".toList ++ List.intercalate ['/'] ((project.projectLabel.splitOn '/').map encodeURIComponent) ++
    '/' :: path

def fetchedPath (path : Text) : List Text := resolve [] (segments (restTarget project path))

/-- Neither owner nor name of the repository is a dot segment. -/
def NoDots : Prop :=
  ∀ part ∈ project.projectLabel.splitOn '/', part ≠ ".".toList ∧ part ≠ "..".toList

instance : Decidable (NoDots project) :=
  inferInstanceAs (Decidable (∀ part ∈ project.projectLabel.splitOn '/', _))

variable {toLowerCase project}

lemma label_of_validateAuthority {authority : ProjectAuthority}
    (h : validateAuthority authority = .ok project) :
    ∃ owner name, project.projectLabel.splitOn '/' = [owner, name] := by
  unfold validateAuthority at h
  split_ifs at h with hblank hlab hprof
  · cases h
  · cases h
  · cases h
  obtain rfl := Except.ok.inj h
  simp only [Bool.not_eq_true', Bool.not_eq_false] at hlab
  unfold isRepositoryLabel at hlab
  split at hlab
  · next owner name hspl => exact ⟨owner, name, hspl⟩
  · cases hlab

/-- What the check knows of a path that it accepts. -/
structure Plain (path : Text) : Prop where
  slashes : '\\' ∉ path
  parts : ∀ part ∈ path.splitOn '/', part ≠ ".".toList ∧ part ≠ "..".toList

lemma plain_of_check {path : Text} (h : checkRestPath toLowerCase path = .ok path) :
    Plain path := by
  unfold checkRestPath at h
  split_ifs at h with href
  · cases h
  · cases h
  · push Not at href
    obtain ⟨-, hslashes, hparts⟩ := href
    refine ⟨hslashes, fun part hpart => ?_⟩
    constructor
    · rintro rfl
      exact hparts (any_eq_true.mpr ⟨_, hpart, rfl⟩)
    · rintro rfl
      exact hparts (any_eq_true.mpr ⟨_, hpart, rfl⟩)

lemma accepted_of_read {request path : Text}
    (h : validateRestRead toLowerCase project request = .ok path) :
    path = repositoryRelative project request ∧ Plain path := by
  unfold validateRestRead at h
  cases hstr : stripRepository toLowerCase project (relativePath request) with
  | error refused =>
    rw [hstr] at h
    cases h
  | ok stripped =>
    rw [hstr] at h
    have hcheck : checkRestPath toLowerCase stripped = .ok path := h
    have hsame : stripped = path := by
      unfold checkRestPath at hcheck
      split_ifs at hcheck <;> cases hcheck
      rfl
    subst hsame
    refine ⟨?_, plain_of_check hcheck⟩
    unfold stripRepository at hstr
    split_ifs at hstr with hrep hown <;> cases hstr
    · exact (if_pos hrep).symm
    · exact (if_neg hrep).symm

lemma zipWith_hiddenStep {parts words : List Text}
    (hparts : ∀ part ∈ parts, part ≠ ".".toList ∧ part ≠ "..".toList)
    (hlength : words.length ≤ parts.length) :
    zipWith hiddenStep parts words = words.map readSegment := by
  induction words generalizing parts with
  | nil => simp
  | cons word words ih =>
    cases parts with
    | nil => simp at hlength
    | cons part parts =>
      obtain ⟨hsingle, hdouble⟩ := hparts part mem_cons_self
      have hrest : zipWith hiddenStep parts words = words.map readSegment :=
        ih (fun other hmem => hparts other (mem_cons_of_mem _ hmem))
          (Nat.le_of_succ_le_succ hlength)
      rw [zipWith_cons_cons, map_cons, hiddenStep, if_neg (not_or.mpr ⟨hsingle, hdouble⟩), hrest]

/-- Of an accepted path the parser makes the steps that the check does not see, and no others. -/
lemma hiddenSteps_of_plain {path : Text} (h : Plain path) : hiddenSteps path = segments path := by
  obtain ⟨hwords, hlength⟩ := segments_eq_map h.slashes
  rw [hiddenSteps, hwords]
  exact zipWith_hiddenStep h.parts hlength

/-- The target is read as the repository's directory, followed by the segments of the path. -/
lemma segments_restTarget {owner name : Text}
    (hlab : project.projectLabel.splitOn '/' = [owner, name]) (path : Text) :
    segments (restTarget project path) =
      .name "repos".toList :: readSegment (encodeURIComponent owner) ::
        readSegment (encodeURIComponent name) :: segments path := by
  have hplain : ∀ t, ∀ c ∈ encodeURIComponent t, isPlain c = true :=
    fun t c hc => (plain_encodeURIComponent hc).1
  have htarg : restTarget project path = "repos".toList ++ '/' ::
      (encodeURIComponent owner ++ '/' :: (encodeURIComponent name ++ '/' :: path)) := by
    have hjoin : intercalate ['/'] [encodeURIComponent owner, encodeURIComponent name] =
        encodeURIComponent owner ++ ['/'] ++ encodeURIComponent name := by
      simp [intercalate]
    have hslash : "repos/".toList = "repos".toList ++ ['/'] := by decide
    unfold restTarget
    rw [hlab, map_cons, map_cons, map_nil, hjoin, hslash]
    simp only [append_assoc, cons_append, nil_append]
  have hrepos : readSegment "repos".toList = .name "repos".toList := by decide
  have hroot : "repos".toList.all isPlain = true := by decide
  rw [htarg, segments_append (all_eq_true.mp hroot), segments_append (hplain owner),
    segments_append (hplain name), hrepos]

lemma fetchedPath_eq {owner name : Text}
    (hlab : project.projectLabel.splitOn '/' = [owner, name])
    (hdots : NoDots project) (path : Text) :
    fetchedPath project path = resolve (repositoryRoot project) (segments path) := by
  have howner := hdots owner (by simp [hlab])
  have hname := hdots name (by simp [hlab])
  unfold fetchedPath
  rw [segments_restTarget hlab, readSegment_encodeURIComponent howner.1 howner.2,
    readSegment_encodeURIComponent hname.1 hname.2]
  cases hpath : segments path with
  | nil => exact absurd hpath (segments_ne_nil path)
  | cons segment rest => simp [resolve, repositoryRoot, hlab]

lemma not_confined_of_dots (hdots : ¬ NoDots project) (path : Text) :
    ¬ Confined (repositoryRoot project) (fetchedPath project path) := by
  rintro ⟨rest, _, hspl⟩
  unfold NoDots at hdots
  push Not at hdots
  obtain ⟨part, hpart, hdot⟩ := hdots
  have hmem : encodeURIComponent part ∈ fetchedPath project path := by
    rw [hspl]
    apply mem_append_left
    exact mem_cons_of_mem _ (mem_map_of_mem hpart)
  have hdott : isSingleDot (encodeURIComponent part) = true ∨
      isDoubleDot (encodeURIComponent part) = true := by
    by_cases hsingle : part = ".".toList
    · exact Or.inl (isSingleDot_encodeURIComponent.mpr hsingle)
    · exact Or.inr (isDoubleDot_encodeURIComponent.mpr (hdot hsingle))
  rcases mem_resolve hmem with hnil | hnil | hname
  · cases hnil
  · rw [hnil] at hdott
    revert hdott
    decide
  · have hnot := not_dots_of_mem_segments hname
    rw [hnot.1, hnot.2] at hdott
    simp at hdott

/-- An accepted read stays below its repository just where neither owner nor name of the
repository is a dot segment, and where the steps of the request that the check does not see
go back only over names that the request opened, or over names of the repository's own that
it names again. -/
theorem read_confined_iff {authority : ProjectAuthority} {request path : Text}
    (hauthority : validateAuthority authority = .ok project)
    (hread : validateRestRead toLowerCase project request = .ok path) :
    Confined (repositoryRoot project) (fetchedPath project path) ↔ NoDots project ∧
        Inside (repositoryRoot project) (hiddenSteps (repositoryRelative project request)) := by
  obtain ⟨owner, name, hlab⟩ := label_of_validateAuthority hauthority
  obtain ⟨rfl, hplain⟩ := accepted_of_read hread
  rw [hiddenSteps_of_plain hplain]
  by_cases hdots : NoDots project
  · rw [fetchedPath_eq hlab hdots, confined_resolve_iff (segments_ne_nil _)]
    exact (and_iff_right hdots).symm
  · constructor
    · exact fun hconf => absurd hconf (not_confined_of_dots hdots _)
    · exact fun hboth => absurd hboth.1 hdots

end

section

def octo : ProjectAuthority :=
  ⟨"p1".toList, "octo/repo".toList, "/w".toList, "default".toList⟩

def asciiLower (t : Text) : Text := t.map Char.toLower

/-- The repository's own prefix, and a step back over a name of the request. -/
def roundabout : Text := " /repos/Octo/repo/contents/%2E%2e/issues?page=2".toList

lemma octo_valid : validateAuthority octo = .ok octo := by
  decide +kernel

theorem roundabout_stays_inside : Confined (repositoryRoot octo)
      (fetchedPath octo "contents/%2E%2e/issues?page=2".toList) := by
  have hread : validateRestRead asciiLower octo roundabout =
      .ok "contents/%2E%2e/issues?page=2".toList := by
    decide +kernel
  apply (read_confined_iff octo_valid hread).mpr
  constructor
  · decide +kernel
  · decide +kernel

def escape : Text := "%2e%2e/%2e%2e/octo/secret".toList

/-- Encoded dots lead to the secrets of another repository. -/
theorem encoded_dots_leave :
    ¬ ∀ (toLowerCase : Text → Text) (authority project : ProjectAuthority) (request path : Text),
      validateAuthority authority = .ok project →
      validateRestRead toLowerCase project request = .ok path →
      Confined (repositoryRoot project) (fetchedPath project path) := by
  intro hall
  have hread : validateRestRead asciiLower octo escape = .ok escape := by
    decide +kernel
  have hpath : fetchedPath octo escape = ["repos".toList, "octo".toList, "secret".toList] := by
    decide +kernel
  have hroot : repositoryRoot octo = ["repos".toList, "octo".toList, "repo".toList] := by
    decide +kernel
  obtain ⟨rest, _, hrest⟩ := hall asciiLower octo octo escape escape octo_valid hread
  rw [hpath, hroot] at hrest
  have hthird := congrArg (fun l => l[2]?) hrest
  change some "secret".toList = some "repo".toList at hthird
  exact absurd hthird (by decide)

end

end Redskilled.Github.Gateway
