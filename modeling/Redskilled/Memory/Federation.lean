import Redskilled.Foundation.JsMap
import Redskilled.Foundation.JsText
import Mathlib.Data.List.Infix

/-!
# Federated reads

Notes of several roots are recalled and merged under a redaction policy. The roots, the
policy and the trust in each root are read from a small YAML file by its lines: a header
without an indent opens a block, and the lines up to the next header are its body. A redact
block that cannot be read stands for the policy that denies everything.

Scores and confidences are the numbers of `ν`, with the operations of the language on them.
No decision about redaction depends on a number.
-/
namespace Redskilled.Memory.Federation
open Foundation

/-- What the `.` of a regular expression does not match. -/
def isTerminator (c : Char) : Bool :=
  c == '\n' || c == '\r' || c.toNat == 0x2028 || c.toNat == 0x2029

/-- `raw.split(/\r?\n/)`. -/
def splitLines (raw : Text) : List Text :=
  let pieces := raw.splitOn '\n'
  pieces.dropLast.map (fun piece => if piece.getLast? = some '\r' then piece.dropLast else piece) ++
    pieces.getLast?.toList

/-- `line.replace(/#.*$/, "")`. -/
def stripComment : Text → Text
  | [] => []
  | c :: rest => if c = '#' ∧ rest.all (!isTerminator ·) then [] else c :: stripComment rest

def trimEnd (t : Text) : Text := t.rdropWhile Text.isWhitespace

def contentLines (raw : Text) : List Text :=
  ((splitLines raw).map fun line => trimEnd (stripComment line)).filter (Text.trim · ≠ [])

def isNameChar (c : Char) : Bool := c.isAlphanum || c == '_'

/-- `/^([A-Za-z_][A-Za-z0-9_]*)\s*:/`: the name and the text behind the colon. -/
def nameAndRest (t : Text) : Option (Text × Text) :=
  let name := t.takeWhile isNameChar
  match name, (t.dropWhile isNameChar).dropWhile Text.isWhitespace with
  | c :: _, ':' :: rest => if c.isDigit then none else some (name, rest)
  | _, _ => none

/-- `/^[A-Za-z_][A-Za-z0-9_]*\s*:\s*$/`: the name of a header. -/
def headerName (line : Text) : Option Text :=
  (nameAndRest line).bind fun (name, rest) =>
    if rest.all Text.isWhitespace then some name else none

/-- `/^\s*-\s*(.*)$/`, trimmed. -/
def itemText (line : Text) : Option Text :=
  match line.dropWhile Text.isWhitespace with
  | '-' :: rest =>
    let text := rest.dropWhile Text.isWhitespace
    if text.all (!isTerminator ·) then some (Text.trim text) else none
  | _ => none

def unquote (value : Text) : Text :=
  if (value.head? = some '"' ∧ value.getLast? = some '"') ∨
      (value.head? = some '\'' ∧ value.getLast? = some '\'') then value.tail.dropLast
  else value

structure FederationRoot where
  repo : Text
  path : Text

structure FederationRedactPolicy where
  fields : List Text
  scopes : List Text
  defaultDeny : Bool
  deriving DecidableEq

def redactableFields : List Text := ["excerpt".toList, "path".toList, "id".toList]

def emptyRedact : FederationRedactPolicy := { fields := [], scopes := [], defaultDeny := false }

def denyAllRedactPolicy (roots : List FederationRoot) : FederationRedactPolicy :=
  { fields := redactableFields, scopes := roots.map (·.repo), defaultDeny := true }

inductive RedactKey where
  | fields | scopes
  deriving DecidableEq

def RedactKey.text : RedactKey → Text
  | .fields => "fields".toList
  | .scopes => "scopes".toList

/-- `/^\s*(fields|scopes)\s*:/`: the key and the text behind the colon. -/
def keyAndRest (line : Text) : Option (RedactKey × Text) :=
  let text := line.dropWhile Text.isWhitespace
  [RedactKey.fields, RedactKey.scopes].findSome? fun key =>
    if key.text <+: text then
      match (text.drop key.text.length).dropWhile Text.isWhitespace with
      | ':' :: rest => some (key, rest)
      | _ => none
    else none

/-- `/^\s*\[(.*)\]\s*$/` on the text behind the colon. -/
def bracketed (rest : Text) : Option Text :=
  match rest.dropWhile Text.isWhitespace with
  | '[' :: tail =>
    let text := trimEnd tail
    if text.getLast? = some ']' ∧ text.dropLast.all (!isTerminator ·) then some text.dropLast
    else none
  | _ => none

def entries (list : Text) : List Text :=
  ((list.splitOn ',').map fun entry => unquote (Text.trim entry)).filter (· ≠ [])

inductive RedactLine where
  | inlineList (key : RedactKey) (values : List Text)
  | keyHeader (key : RedactKey)
  | item (value : Text)
  | other

def redactLine (line : Text) : RedactLine :=
  match keyAndRest line with
  | some (key, rest) =>
    match bracketed rest with
    | some list => .inlineList key (entries list)
    | none =>
      if rest.all Text.isWhitespace then .keyHeader key
      else (itemText line).elim .other fun text => .item (unquote text)
  | none => (itemText line).elim .other fun text => .item (unquote text)

structure RedactState where
  fields : Option (List Text)
  scopes : Option (List Text)
  current : Option RedactKey
  inlineHandled : Bool

def RedactState.list (s : RedactState) : RedactKey → Option (List Text)
  | .fields => s.fields
  | .scopes => s.scopes

def RedactState.setList (s : RedactState) (values : List Text) : RedactKey → RedactState
  | .fields => { s with fields := some values }
  | .scopes => { s with scopes := some values }

def redactStep (s : RedactState) (line : Text) : Option RedactState :=
  let leftover := if Text.trim line ≠ [] ∧ s.inlineHandled = false then none else some s
  match redactLine line with
  | .inlineList key values =>
    some { s.setList values key with current := none, inlineHandled := true }
  | .keyHeader key => some { s.setList ((s.list key).getD []) key with current := some key }
  | .item value =>
    match s.current with
    | some key =>
      if value = [] then some s else some (s.setList ((s.list key).getD [] ++ [value]) key)
    | none => leftover
  | .other => leftover

def redactStart : RedactState :=
  { fields := none, scopes := none, current := none, inlineHandled := false }

def readRedactBlock (blockLines : List Text) : Option FederationRedactPolicy :=
  (blockLines.foldlM redactStep redactStart).bind fun s =>
    if s.fields = none ∧ s.scopes = none ∧ blockLines ≠ [] then none
    else
      some
        { fields := (s.fields.getD []).filter fun field => redactableFields.contains field
          scopes := s.scopes.getD []
          defaultDeny := false }

def parseRedactBlock (blockLines : List Text) (roots : List FederationRoot) :
    FederationRedactPolicy :=
  (readRedactBlock blockLines).getD (denyAllRedactPolicy roots)

/-- The numbers of the language, as far as a report is made of them. -/
structure JsNumbers (ν : Type*) where
  /-- `Number(text)`, where that is finite. -/
  read : Text → Option ν
  isFinite : ν → Bool
  lt : ν → ν → Bool
  /-- `a === b`. -/
  same : ν → ν → Bool
  max : ν → ν → ν
  mul : ν → ν → ν
  div : ν → ν → ν
  round : ν → ν
  zero : ν
  half : ν
  one : ν
  thousand : ν

structure FederationConfig (ν : Type*) where
  roots : List FederationRoot
  redact : FederationRedactPolicy
  trust : JsMap Text ν

section
variable {ν : Type*} (num : JsNumbers ν)

def isRepoChar (c : Char) : Bool := c.isAlphanum || c == '_' || c == '.' || c == '/' || c == '-'

def trustEntry (line : Text) : Option (Text × Text) :=
  let text := line.dropWhile Text.isWhitespace
  let repo := text.takeWhile isRepoChar
  match (text.dropWhile isRepoChar).dropWhile Text.isWhitespace with
  | ':' :: rest =>
    let value := trimEnd (rest.dropWhile Text.isWhitespace)
    if repo ≠ [] ∧ value ≠ [] ∧ value.all (fun c => c.isDigit || c == '.') then some (repo, value)
    else none
  | _ => none

def clamp01 (value : ν) : ν :=
  if num.isFinite value = false then num.zero
  else if num.lt value num.zero then num.zero
  else if num.lt num.one value then num.one
  else value

def round3 (value : ν) : ν := num.div (num.round (num.mul value num.thousand)) num.thousand

def parseTrustBlock (blockLines : List Text) : JsMap Text ν :=
  blockLines.foldl (fun out line =>
    match trustEntry line with
    | none => out
    | some (repo, text) =>
      match num.read text with
      | some value => out.set repo (clamp01 num value)
      | none => out) ∅

structure PartialRoot where
  repo : Option Text
  path : Option Text

def noRoot : PartialRoot := { repo := none, path := none }

/-- `/^([A-Za-z_][A-Za-z0-9_]*)\s*:\s*(.*)$/` and what it sets. -/
def applyRootKv (target : PartialRoot) (fragment : Text) : PartialRoot :=
  match nameAndRest fragment with
  | none => target
  | some (key, rest) =>
    let text := rest.dropWhile Text.isWhitespace
    let value := unquote (Text.trim text)
    if text.any isTerminator then target
    else if key = "repo".toList then { target with repo := some value }
    else if key = "path".toList then { target with path := some value }
    else target

inductive Section where
  | none | roots | redact | trust
  deriving DecidableEq

structure ParseState where
  roots : List FederationRoot
  currentRoot : Option PartialRoot
  redactBlock : Option (List Text)
  trustBlock : Option (List Text)
  place : Section

def parseStart : ParseState :=
  { roots := [], currentRoot := none, redactBlock := none, trustBlock := none, place := .none }

def rootError (root : PartialRoot) : Text :=
  match root.repo with
  | none => "federation.yaml: root entry missing \"repo\"".toList
  | some repo =>
    if repo = [] then "federation.yaml: root entry missing \"repo\"".toList
    else "federation.yaml: root entry \"".toList ++ repo ++ "\" missing \"path\"".toList

def flushRoot (s : ParseState) : Except Text ParseState :=
  match s.currentRoot with
  | none => .ok s
  | some root =>
    match root.repo, root.path with
    | some repo, some path =>
      if repo = [] ∨ path = [] then .error (rootError root)
      else .ok { s with roots := s.roots ++ [⟨repo, path⟩], currentRoot := none }
    | _, _ => .error (rootError root)

def openBlock (s : ParseState) (name : Text) : ParseState :=
  if name = "roots".toList then { s with place := .roots }
  else if name = "redact".toList then { s with place := .redact, redactBlock := some [] }
  else if name = "trust".toList then { s with place := .trust, trustBlock := some [] }
  else { s with place := .none }

/-- One line of `parseFederationYaml`, without its comment and not blank. -/
def parseLine (s : ParseState) (line : Text) : Except Text ParseState :=
  match headerName line with
  | some name => (flushRoot s).map (openBlock · name)
  | none =>
    match s.place with
    | .roots =>
      match itemText line with
      | some after => (flushRoot s).map fun s =>
        { s with currentRoot := some (if after = [] then noRoot else applyRootKv noRoot after) }
      | none => .ok { s with currentRoot := s.currentRoot.map (applyRootKv · (Text.trim line)) }
    | .redact => .ok { s with redactBlock := s.redactBlock.map (· ++ [line]) }
    | .trust => .ok { s with trustBlock := s.trustBlock.map (· ++ [line]) }
    | .none => .ok s

def finish (s : ParseState) : FederationConfig ν :=
  { roots := s.roots
    redact := (s.redactBlock.map (parseRedactBlock · s.roots)).getD emptyRedact
    trust := (s.trustBlock.map (parseTrustBlock num)).getD ∅ }

def parseFederationYaml (raw : Text) : Except Text (FederationConfig ν) :=
  ((contentLines raw).foldlM parseLine parseStart >>= flushRoot).map (finish num)

end

structure RecallHit (ν : Type*) where
  id : Text
  path : Text
  score : ν
  excerpt : Text

structure FederationResult (ν : Type*) where
  originRepo : Text
  id : Option Text
  score : ν
  excerpt : Option Text
  path : Option Text
  confidenceLocal : ν
  confidenceRemote : ν
  redactedFields : List Text

inductive RootStatusKind where
  | ok | missingConfig | error | droppedByPolicy

structure FederationRootStatus where
  originRepo : Text
  path : Text
  status : RootStatusKind
  hits : ℕ
  error : Option Text

structure FederationReport (ν : Type*) where
  query : Text
  generatedAt : Text
  limit : ℕ
  rootsQueried : ℕ
  roots : List FederationRootStatus
  results : List (FederationResult ν)
  policy : FederationRedactPolicy

inductive RootRead (ν : Type*) where
  | missingConfig
  | hits (hits : List (RecallHit ν))
  | failed (message : Text)

inductive Limit where
  | absent
  | notFinite
  | number (truncated : ℤ)

structure FederationOptions where
  limit : Limit
  perRootLimit : Limit
  generatedAt : Text

/-- What a report is made in: the notes of the `i`-th root by the time it is read, the
resolution of paths, and the order of the language's strings. -/
structure World (ν : Type*) where
  absolute : Text → Text → Text
  readRoot : ℕ → Text → Text → ℕ → RootRead ν
  localeCompare : Text → Text → Ordering

def maxLimit : ℕ := 100
def defaultLimit : ℕ := 20
def defaultPerRootLimit : ℕ := 10

def clampLimit (value : Limit) (fallback max : ℕ) : ℕ :=
  match value with
  | .absent | .notFinite => fallback
  | .number n => min max (Int.toNat (Max.max 1 n))

section
variable {ν : Type*} (num : JsNumbers ν) (world : World ν)

def maskField (masked : FederationResult ν) (field : Text) : FederationResult ν :=
  if field = "excerpt".toList ∧ masked.excerpt ≠ none then
    { masked with
      excerpt := none
      redactedFields := masked.redactedFields ++ ["excerpt".toList] }
  else if field = "path".toList ∧ masked.path ≠ none then
    { masked with path := none, redactedFields := masked.redactedFields ++ ["path".toList] }
  else if field = "id".toList ∧ masked.id ≠ none then
    { masked with id := none, redactedFields := masked.redactedFields ++ ["id".toList] }
  else masked

def applyRedaction (result : FederationResult ν) (fields : List Text) : FederationResult ν :=
  if fields = [] then result
  else fields.foldl maskField { result with redactedFields := [] }

def queryRoot (rootDir query : Text) (limit : ℕ) (scopes : List Text) (i : ℕ)
    (root : FederationRoot) : FederationRootStatus × Option (List (RecallHit ν)) :=
  let path := world.absolute rootDir root.path
  let status (status : RootStatusKind) (hits : ℕ) (error : Option Text) : FederationRootStatus :=
    { originRepo := root.repo, path, status, hits, error }
  if scopes.contains root.repo then (status .droppedByPolicy 0 none, none)
  else
    match world.readRoot i path query limit with
    | .missingConfig => (status .missingConfig 0 none, none)
    | .hits hits => (status .ok hits.length none, some hits)
    | .failed message => (status .error 0 (some message), none)

def mergedResult (config : FederationConfig ν) (maxScore : ν) (root : FederationRoot)
    (hit : RecallHit ν) : FederationResult ν :=
  let confidenceLocal :=
    if num.lt num.zero maxScore then clamp01 num (num.div hit.score maxScore) else num.zero
  applyRedaction
    { originRepo := root.repo
      id := some hit.id
      score := hit.score
      excerpt := some hit.excerpt
      path := some hit.path
      confidenceLocal := round3 num confidenceLocal
      confidenceRemote := round3 num (clamp01 num ((config.trust.lookup root.repo).getD num.half))
      redactedFields := [] }
    config.redact.fields

/-- The comparator of the merge. -/
def compareResults (a b : FederationResult ν) : Ordering :=
  if num.same b.score a.score = false then
    if num.lt b.score a.score then .lt else if num.lt a.score b.score then .gt else .eq
  else
    match world.localeCompare a.originRepo b.originRepo with
    | .eq => world.localeCompare (a.id.getD []) (b.id.getD [])
    | order => order

def buildFederationReport (rootDir query : Text) (opts : FederationOptions)
    (config : Option (FederationConfig ν)) : FederationReport ν :=
  let trimmedQuery := Text.trim query
  let limit := clampLimit opts.limit defaultLimit maxLimit
  let perRootLimit := clampLimit opts.perRootLimit defaultPerRootLimit maxLimit
  let empty : FederationReport ν :=
    { query := trimmedQuery, generatedAt := opts.generatedAt, limit, rootsQueried := 0, roots := []
      results := [], policy := (config.map (·.redact)).getD emptyRedact }
  match config with
  | none => empty
  | some config =>
    if config.roots = [] ∨ trimmedQuery = [] then empty
    else
      let queried := config.roots.zipIdx.map fun (root, i) =>
        (root, queryRoot world rootDir trimmedQuery perRootLimit config.redact.scopes i root)
      let rawHits := queried.filterMap fun (root, _, hits) => hits.map fun hits => (root, hits)
      let maxScore := rawHits.foldl
        (fun m entry => entry.2.foldl (fun m hit => num.max m hit.score) m) num.zero
      let merged := rawHits.flatMap fun (root, hits) =>
        hits.map (mergedResult num config maxScore root)
      { empty with
        rootsQueried := config.roots.length
        roots := queried.map fun (_, status, _) => status
        results := (merged.mergeSort fun a b => compareResults num world a b != .gt).take limit }

end

end Redskilled.Memory.Federation
