import Redskilled.Foundation.Flags
import Redskilled.Github.AliasedQuery

/-!
# Plans of REST reads

A read of one object, of a REST path or of a GraphQL document is planned as a command line of
`gh api`. A field that no projection is declared for makes the read unavailable, and so does a
flag that states a mutation.

The fields of an object are looked up in a record of projections, which inherits the names of
every object. What a projection makes of an answer is left out: a plan keeps the fields that it
projects. How a number is printed that is no positive integer is a parameter.
-/
namespace Redskilled.Github.RestPlan
open Foundation

inductive GithubRestReadRequest where
  /-- A number is none where it is no finite number. -/
  | single (kind : GithubSingleObjectKind) (number : Option ℚ) (fields : List Text)
      (repo : Option Text)
  | rest (path : Text) (args : List Text)
  /-- The variables are given by their texts. -/
  | graphql (query : Text) (bindings : List (Text × Text))

inductive GithubRestRead where
  | plan (args : List Text) (path : Text) (decodes : List Text)
  | unavailable (fields : List Text) (reason : Text)
  deriving DecidableEq

def ISSUE_PROJECTIONS : List Text :=
  ["databaseId", "number", "title", "body", "state", "stateReason", "url", "createdAt",
    "updatedAt", "closedAt", "labels"].map String.toList

def PR_PROJECTIONS : List Text :=
  ["number", "title", "body", "state", "url", "createdAt", "updatedAt", "closedAt", "mergedAt",
    "isDraft", "headRefName", "baseRefName", "headRefOid", "baseRefOid", "mergeable",
    "mergeStateStatus", "mergeCommit", "autoMergeRequest", "labels"].map String.toList

def projectionsFor : GithubSingleObjectKind → List Text
  | .issue => ISSUE_PROJECTIONS
  | .pr => PR_PROJECTIONS

/-- The names that every object inherits. -/
def inheritedNames : List Text :=
  ["constructor", "__defineGetter__", "__defineSetter__", "hasOwnProperty", "__lookupGetter__",
    "__lookupSetter__", "isPrototypeOf", "propertyIsEnumerable", "toString", "valueOf",
    "__proto__", "toLocaleString"].map String.toList

/-- `field in projections`. -/
def isIn (kind : GithubSingleObjectKind) (field : Text) : Bool :=
  (projectionsFor kind).contains field || inheritedNames.contains field

def NO_REST_EQUIVALENT : List (Text × Text) :=
  [("comments", "REST's object carries a comment count, not the comment list"),
    ("author", "gh normalizes a bot author to `app/<name>` where REST reports `<name>[bot]`"),
    ("authorAssociation",
      "gh derives it alongside the normalized author, which REST does not match"),
    ("statusCheckRollup",
      "the rollup is a second and third request against check-runs and statuses"),
    ("reviews", "reviews are their own REST listing, not a field of the pull request"),
    ("reviewDecision",
      "the decision is computed from the reviews listing, not carried by the object"),
    ("commits", "commits are their own REST listing"),
    ("files", "files are their own REST listing"),
    ("projectItems", "project items have no REST projection on the object")].map
    fun entry => (entry.1.toList, entry.2.toList)

def missingReason (field : Text) : Text :=
  field ++ " (".toList ++
    (NO_REST_EQUIVALENT.lookup field).getD "no declared REST projection".toList ++ ")".toList

/-- The fields that are asked for, each once. -/
def requestedFields (fields : List Text) : List Text :=
  ((fields.map Text.trim).filter (· ≠ [])).eraseDups

def objectNumber (number : Option ℚ) : Option ℕ :=
  number.bind fun q =>
    if q.den = 1 ∧ 0 < q.num ∧ q.num < 2 ^ 53 then some q.num.toNat else none

def restPath (kind : GithubSingleObjectKind) (number : ℕ) (repo : Option Text) : Text :=
  let base := (repo.map Text.trim).getD []
  "repos/".toList ++ (if base = [] then "\x7bowner\x7d/\x7brepo\x7d".toList else base) ++
    (match kind with
      | .issue => "/issues/".toList
      | .pr => "/pulls/".toList) ++ Text.number number

def upper (t : Text) : Text := t.map Char.toUpper

def getMethod : Text := "GET".toList

def headMethod : Text := "HEAD".toList

def postMethod : Text := "POST".toList

/-- The word behind the first method flag that is a word of its own. -/
def methodFlag : List Text → Option Text
  | [] => none
  | arg :: args =>
    if arg = "-X".toList ∨ arg = "--method".toList then some (args.headD []) else methodFlag args

def isMutation (args : List Text) : Bool :=
  match methodFlag args with
  | none => false
  | some method =>
    upper method ≠ [] && upper method ≠ getMethod && upper method ≠ headMethod

def inputFlag : Text := "--input".toList

def fieldFlags : List Text := ["-f", "--raw-field", "-F", "--field"].map String.toList

def needsExplicitGet (args : List Text) : Bool :=
  (methodFlag args).isNone && args.any fieldFlags.contains

def explicitGet (args : List Text) : List Text :=
  if needsExplicitGet args then ["--method".toList, getMethod] else []

def isWordChar (c : Char) : Bool := c.isAlphanum || c == '_'

/-- `/\bmutation\b/i`, with whether the character before is one of a word. -/
def namesMutation : Bool → Text → Bool
  | _, [] => false
  | inWord, c :: t =>
    (!inWord && ((c :: t).takeWhile isWordChar).map Char.toLower == "mutation".toList) ||
      namesMutation (isWordChar c) t

section
variable (print : Option ℚ → Text)

def planGithubRestRead : GithubRestReadRequest → GithubRestRead
  | .graphql query bindings =>
    if Text.trim query = [] ∨ namesMutation false (Text.trim query) = true then
      .unavailable [] "the GraphQL read planner refuses empty or mutating documents".toList
    else
      .plan
        ("api".toList :: "graphql".toList ::
          bindings.flatMap (fun entry => ["-F".toList, entry.1 ++ '=' :: entry.2]) ++
            ["-f".toList, "query=".toList ++ Text.trim query])
        "graphql".toList []
  | .rest path args =>
    if Text.trim path = [] then
      .unavailable [] "a REST read needs a non-empty path".toList
    else if isMutation args = true ∨ inputFlag ∈ args then
      .unavailable [] "the REST read planner refuses mutation arguments".toList
    else .plan ("api".toList :: Text.trim path :: explicitGet args ++ args) (Text.trim path) []
  | .single kind number fields repo =>
    let fields := requestedFields fields
    if fields = [] then .unavailable [] "the read names no fields".toList
    else
      match objectNumber number with
      | none =>
        .unavailable fields
          ("a single-object read needs a positive number, got ".toList ++ print number)
      | some number =>
        let missing := fields.filter fun field => !isIn kind field
        if missing ≠ [] then
          .unavailable missing
            ("no single-request REST projection for ".toList ++
              List.intercalate "; ".toList (missing.map missingReason))
        else
          .plan ["api".toList, restPath kind number repo] (restPath kind number repo) fields

end

section
open Flags

def methodName : Text := "method".toList

def fieldName : Text := "field".toList

def rawFieldName : Text := "raw-field".toList

def inputName : Text := "input".toList

def ghApiFlags : List FlagSpec :=
  [⟨methodName, some 'X', true⟩, ⟨fieldName, some 'F', true⟩,
    ⟨rawFieldName, some 'f', true⟩, ⟨"header".toList, some 'H', true⟩,
    ⟨"preview".toList, some 'p', true⟩, ⟨"include".toList, some 'i', false⟩,
    ⟨"slurp".toList, none, false⟩, ⟨"paginate".toList, none, false⟩,
    ⟨inputName, none, true⟩, ⟨"silent".toList, none, false⟩,
    ⟨"template".toList, some 't', true⟩, ⟨"jq".toList, some 'q', true⟩,
    ⟨"cache".toList, none, true⟩, ⟨"verbose".toList, none, false⟩,
    ⟨"hostname".toList, none, true⟩]

def lastValue (name : Text) (r : Reading) : Option Text :=
  ((r.flags.filter (·.name = name)).getLast?).map Flag.value

def hasBody (r : Reading) : Bool :=
  (r.flags.any fun flag => flag.name = fieldName || flag.name = rawFieldName) ||
    (lastValue inputName r).any (· ≠ [])

/-- The method of the request. An empty one is that of a plain read. -/
def issuedMethod (r : Reading) : Text :=
  match lastValue methodName r with
  | none => if hasBody r then postMethod else getMethod
  | some method => if method = [] then getMethod else upper method

/-- The request that a command line makes. What else it may be refused for is a parameter. -/
def ghApi (refuses : Reading → Bool) (words : List Text) : Option Text :=
  (read ghApiFlags none words).bind fun r =>
    if r.operands.length = 1 ∧ refuses r = false then some (issuedMethod r) else none

end

end Redskilled.Github.RestPlan
