import Redskilled.Foundation.Json
import Redskilled.Github.RestRead

/-!
# Reads and their keys

A read of the gateway is a path of the REST interface, a selection of fields of the
repository, or a fetch of the repository. Each is checked and brought to its normal form.
The key of a read names the project, the credential profile and the normal form, and two
reads of one key agree in all of them.
-/
namespace Redskilled.Github.Gateway
open Foundation

inductive Read where
  | rest (path : Text)
  | graphql (selection : Text)
  | repositoryFetch (ref : Option Text)

def isWordChar (c : Char) : Bool := c.isAlphanum || c == '_'

/-- `t.replace(/\s+/g, " ")`. -/
def collapseWhitespace : Text → Text
  | [] => []
  | c :: t =>
    if Text.isWhitespace c then
      if t.head?.any Text.isWhitespace then collapseWhitespace t else ' ' :: collapseWhitespace t
    else c :: collapseWhitespace t

def rootWords : List Text :=
  ["query", "mutation", "subscription", "repository", "viewer", "user", "organization",
    "enterprise", "node", "nodes", "search", "ratelimit"].map String.toList

/-- `\s*(?:\(|\{)`, from the start. -/
def opensGroup (t : Text) : Bool :=
  match t.dropWhile Text.isWhitespace with
  | [] => false
  | c :: _ => c == '(' || c == '\x7b'

def startsRootWord (t : Text) : Bool :=
  rootWords.contains ((t.takeWhile isWordChar).map Char.toLower) &&
    opensGroup (t.dropWhile isWordChar)

/-- The test for root words, with whether the character before is one of a word. -/
def mentionsRoot : Bool → Text → Bool
  | _, [] => false
  | inWord, c :: t =>
    (!inWord && startsRootWord (c :: t)) || mentionsRoot (isWordChar c) t

def validateGraphqlRead (request : Text) : Except GatewayError Text :=
  let selection := collapseWhitespace (Text.trim request)
  if selection = [] then refuse "a Project GraphQL read needs a repository field selection"
  else if mentionsRoot false selection || selection.contains '$' then
    refuse "a Project GraphQL read may select fields only from its bound repository"
  else .ok selection

def isRefChar (c : Char) : Bool :=
  c.isAlphanum || c == '.' || c == '_' || c == '/' || c == '-'

def isRefName : Text → Bool
  | [] => false
  | c :: t => c.isAlphanum && t.all isRefChar

/-- `t.includes(part)`. -/
def includes (part t : Text) : Bool := t.tails.any part.isPrefixOf

def isOrdinaryRef (ref : Text) : Bool :=
  ["refs/heads/".toList, "refs/tags/".toList].any fun front =>
    front.isPrefixOf ref && isRefName (ref.drop front.length)

def validateRepositoryFetch (request : Option Text) : Except GatewayError (Option Text) :=
  match request with
  | none => .ok none
  | some request =>
    let ref := Text.trim request
    if ref = [] then .ok none
    else if !isOrdinaryRef ref || includes "..".toList ref || includes "//".toList ref ||
        ".".toList.isSuffixOf ref || "/".toList.isSuffixOf ref || includes "@\x7b".toList ref then
      refuse "a Project repository fetch may name only one ordinary branch or tag ref"
    else .ok (some ref)

def validateRead (toLowerCase : Text → Text) (project : ProjectAuthority) :
    Read → Except GatewayError Read
  | .rest path => (validateRestRead toLowerCase project path).map .rest
  | .graphql selection => (validateGraphqlRead selection).map .graphql
  | .repositoryFetch ref => (validateRepositoryFetch ref).map .repositoryFetch

def Read.kind : Read → Text
  | .rest _ => "rest".toList
  | .graphql _ => "graphql".toList
  | .repositoryFetch _ => "repository-fetch".toList

def Read.request : Read → Text
  | .rest path => path
  | .graphql selection => selection
  | .repositoryFetch ref => ref.getD "*".toList

def jsonTexts (texts : List Text) : Text := Json.stringify (.array (texts.map Json.string))

def cacheKey (project : ProjectAuthority) (read : Read) : Text :=
  jsonTexts [project.projectId, project.credentialProfile, read.kind, read.request]

def scopeKey (project : ProjectAuthority) : Text :=
  jsonTexts [project.projectId, project.credentialProfile]

lemma jsonTexts_injective {a b : List Text} (h : jsonTexts a = jsonTexts b) : a = b := by
  have hprop : ∀ texts : List Text, Json.Proper (.array (texts.map Json.string)) := by
    intro texts
    apply Json.Proper.array
    intro v hv
    obtain ⟨t, _, rfl⟩ := List.mem_map.mp hv
    exact .string t
  have hpars := Json.parse_stringify (hprop a)
  rw [show Json.stringify _ = Json.stringify _ from h, Json.parse_stringify (hprop b)] at hpars
  have hmap := Json.array.inj (Option.some.inj hpars)
  exact (List.map_injective_iff.mpr fun _ _ heq => Json.string.inj heq) hmap.symm

/-- The normal forms: a ref is never the text that stands for none. -/
def Read.Normal (read : Read) : Prop := read ≠ .repositoryFetch (some "*".toList)

lemma not_star_of_validateRepositoryFetch {request : Option Text} :
    validateRepositoryFetch request ≠ .ok (some "*".toList) := by
  intro h
  have hstar : isOrdinaryRef "*".toList = false := by decide
  cases request with
  | none => simp [validateRepositoryFetch] at h
  | some request =>
    simp only [validateRepositoryFetch] at h
    split_ifs at h with hempty hbad
    · cases h
    · cases h
    · have hname := Option.some.inj (Except.ok.inj h)
      rw [hname, hstar] at hbad
      simp at hbad

lemma normal_of_validateRead {toLowerCase : Text → Text} {project : ProjectAuthority}
    {request read : Read} (h : validateRead toLowerCase project request = .ok read) :
    read.Normal := by
  cases request with
  | rest path =>
    simp only [validateRead] at h
    cases hpath : validateRestRead toLowerCase project path with
    | error error => simp [hpath, Except.map] at h
    | ok path =>
      rw [hpath] at h
      obtain rfl := Except.ok.inj h
      simp [Read.Normal]
  | graphql selection =>
    simp only [validateRead] at h
    cases hsel : validateGraphqlRead selection with
    | error error => simp [hsel, Except.map] at h
    | ok selection =>
      rw [hsel] at h
      obtain rfl := Except.ok.inj h
      simp [Read.Normal]
  | repositoryFetch ref =>
    simp only [validateRead] at h
    cases href : validateRepositoryFetch ref with
    | error error => simp [href, Except.map] at h
    | ok checked =>
      rw [href] at h
      obtain rfl := Except.ok.inj h
      rintro hstar
      obtain rfl := Read.repositoryFetch.inj hstar
      exact not_star_of_validateRepositoryFetch href

lemma eq_of_cacheKey {project project' : ProjectAuthority} {read read' : Read}
    (h : cacheKey project read = cacheKey project' read') (hread : read.Normal)
    (hread' : read'.Normal) :
    project.projectId = project'.projectId ∧
      project.credentialProfile = project'.credentialProfile ∧ read = read' := by
  have hall := jsonTexts_injective h
  simp only [List.cons.injEq, and_true] at hall
  obtain ⟨hid, hprof, hkind, hreq⟩ := hall
  refine ⟨hid, hprof, ?_⟩
  have hrest : "rest".toList ≠ "graphql".toList := by decide
  have hfetch : "rest".toList ≠ "repository-fetch".toList := by decide
  have hgraph : "graphql".toList ≠ "repository-fetch".toList := by decide
  cases read with
  | rest path =>
    cases read' with
    | rest path' => exact congrArg Read.rest hreq
    | graphql selection => exact absurd hkind hrest
    | repositoryFetch ref => exact absurd hkind hfetch
  | graphql selection =>
    cases read' with
    | rest path' => exact absurd hkind hrest.symm
    | graphql selection' => exact congrArg Read.graphql hreq
    | repositoryFetch ref => exact absurd hkind hgraph
  | repositoryFetch ref =>
    cases read' with
    | rest path' => exact absurd hkind hfetch.symm
    | graphql selection => exact absurd hkind hgraph.symm
    | repositoryFetch ref' =>
      cases ref with
      | none =>
        cases ref' with
        | none => rfl
        | some ref' => exact absurd (congrArg (fun r => Read.repositoryFetch (some r)) hreq.symm) hread'
      | some ref =>
        cases ref' with
        | none => exact absurd (congrArg (fun r => Read.repositoryFetch (some r)) hreq) hread
        | some ref' => exact congrArg (fun r => Read.repositoryFetch (some r)) hreq

lemma eq_of_scopeKey {project project' : ProjectAuthority}
    (h : scopeKey project = scopeKey project') :
    project.projectId = project'.projectId ∧
      project.credentialProfile = project'.credentialProfile := by
  have hall := jsonTexts_injective h
  simpa only [List.cons.injEq, and_true] using hall

end Redskilled.Github.Gateway
