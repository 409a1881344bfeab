import Redskilled.Foundation.Machine
import Redskilled.Github.AliasedQuery

/-!
# Coalesced reads of single objects

A call of `singleObject` waits in the group of its kind and its rail until the next flush.
The flush reads the balance and takes all groups: a group is refused, sent as one query,
or read object by object.

A promise settles once, and what comes to settle it later is ignored. So a query that
fails rejects what it has not settled before. The reads of a group share its query: where
it cannot be built, or a projection throws on the way through its rows, the reads that are
behind are rejected with it.

Each settled read is noted down with what its request met, to be compared with how it
would have settled had the others of its query been well.
-/
namespace Redskilled.Github
open Foundation Foundation.Text

structure GithubBalance where
  asked : Bool
  pools : GithubRateBudget → Option GithubPoolBalance

def GithubApiSurface.pool : GithubApiSurface → GithubRateBudget
  | .rest => .rest
  | .graphql => .graphql

def GithubPoolBalance.spent (pool : GithubPoolBalance) : Bool :=
  pool.remaining = 0 || pool.fraction.any (· ≤ 0)

def fractionThreshold (rest graphql : Option ℚ) : WithTop ℕ :=
  match rest, graphql with
  | some rest, some graphql => ((max 1 ⌈rest / graphql⌉₊ : ℕ) : WithTop ℕ)
  | _, _ => ⊤

/-- The largest group that is read object by object, `⊤` where no group is too large. -/
def githubSingleObjectCoalescingThreshold (balance : Option GithubBalance) : WithTop ℕ :=
  match balance with
  | none => ⊤
  | some balance =>
    if balance.asked = false then ⊤
    else
      match balance.pools .rest, balance.pools .graphql with
      | some rest, some graphql =>
        if graphql.spent then ⊤
        else if rest.spent then ((1 : ℕ) : WithTop ℕ)
        else fractionThreshold rest.fraction graphql.fraction
      | _, _ => ⊤

structure PendingSingleObjectRead where
  id : ℕ
  input : GithubSingleObjectRequest

structure GithubRailRouting where
  requestedRail : GithubApiSurface
  selectedRail : GithubApiSurface
  rerouted : Bool
  pool : GithubRateBudget
  resetAt : Option Text
  reason : Text

structure GithubSingleObjectAnswer where
  data : Json
  surface : GithubApiSurface
  quotaFree : Bool
  routing : Option GithubRailRouting

inductive Rejection where
  | unbuilt (error : QueryError)
  | unanswered (kind : GithubSingleObjectKind) (number : Option ℚ)
  | projection
  | cost
  | ledger
  | github (error : GithubError)

inductive Routed where
  | refuse (pool : GithubRateBudget) (resetAt : Text)
  | batch (routing : Option GithubRailRouting)
  | rest (routing : Option GithubRailRouting)

section
variable (gated : Bool) (balance : Option GithubBalance) (holds : Text → Bool)

def otherRail : GithubApiSurface → GithubApiSurface
  | .rest => .graphql
  | .graphql => .rest

def poolOf (rail : GithubApiSurface) : Option GithubPoolBalance :=
  balance.bind fun balance => balance.pools rail.pool

def selectRail (group : List PendingSingleObjectRead) (explicit : Option GithubApiSurface) :
    Except (GithubRateBudget × Text) (GithubApiSurface × Option GithubRailRouting) :=
  let requested := explicit.getD .rest
  let fallback := otherRail requested
  let held := group.all fun read => holds read.input.cacheKey
  match poolOf balance requested with
  | some source =>
    if source.remaining = 0 then
      if (poolOf balance fallback).any (0 < ·.remaining) ∨ fallback = .rest ∧ held then
        .ok (fallback, some {
          requestedRail := requested
          selectedRail := fallback
          rerouted := true
          pool := requested.pool
          resetAt := some source.resetAt
          reason := requested.text ++ " pool is exhausted until ".toList ++ source.resetAt ++
            "; used the equivalent ".toList ++ fallback.text ++ " rail".toList })
      else if ¬ (requested = .rest ∧ held) ∧ gated then .error (requested.pool, source.resetAt)
      else .ok (requested, none)
    else
      .ok (requested, explicit.map fun _ => {
        requestedRail := requested
        selectedRail := requested
        rerouted := false
        pool := requested.pool
        resetAt := some source.resetAt
        reason := requested.text ++ " pool has ".toList ++ number source.remaining ++
          " remaining, so the explicit rail is honored".toList })
  | none =>
    .ok (requested, explicit.map fun _ => {
      requestedRail := requested
      selectedRail := requested
      rerouted := false
      pool := requested.pool
      resetAt := none
      reason := requested.text ++
        " pool balance is unknown, so the explicit rail is honored reactively".toList })

def routeGroup (group : List PendingSingleObjectRead) : Routed :=
  let explicit := group.head?.bind (·.input.rail)
  match selectRail gated balance holds group explicit with
  | .error (pool, resetAt) => .refuse pool resetAt
  | .ok (selected, routing) =>
    let warm := group.any fun read => holds read.input.cacheKey
    if selected = .graphql ∨ explicit = none ∧ warm = false ∧
        githubSingleObjectCoalescingThreshold balance < (group.length : WithTop ℕ) then
      .batch routing
    else .rest routing

end

/-- What the request for a group brings. `octokit` throws also where GitHub does not answer
a part of the query: what it does answer stands beside the error. -/
inductive BatchAnswer where
  | thrown (error : RequestError) (beside : Option Json)
  | answered (data : Json) (recorded : Bool)

inductive Met where
  | refused
  | unsent
  | batch (alias_ : Text) (answer : BatchAnswer)
  | rest

structure Settled where
  read : PendingSingleObjectRead
  result : Except Rejection GithubSingleObjectAnswer
  met : Met

def translated (error : RequestError) : Rejection :=
  .github (if error.status = some 401 then .credential else .thrown error)

abbrev Row := PendingSingleObjectRead × Text × Option Json

/-- The rows in their order, up to a projection that throws. -/
def settleRows (routing : Option GithubRailRouting) (answer : BatchAnswer) : List Row → List Settled
  | [] => []
  | (read, alias_, none) :: rows =>
    ⟨read, .error (.unanswered read.input.kind read.input.number), .batch alias_ answer⟩ ::
      settleRows routing answer rows
  | (read, alias_, some value) :: rows =>
    match read.input.project value .graphql with
    | some data =>
      ⟨read, .ok ⟨data, .graphql, false, routing⟩, .batch alias_ answer⟩ ::
        settleRows routing answer rows
    | none =>
      ⟨read, .error .projection, .batch alias_ answer⟩ ::
        rows.map fun row => ⟨row.1, .error .projection, .batch row.2.1 answer⟩

structure Batch where
  group : List PendingSingleObjectRead
  query : GithubAliasedSingleObjectQuery
  routing : Option GithubRailRouting

def Batch.aliased (batch : Batch) : List (PendingSingleObjectRead × Text) :=
  batch.group.zip (batch.query.aliases.map Prod.fst)

def Batch.rows (batch : Batch) (data : Json) : List Row :=
  batch.aliased.map fun row => (row.1, row.2, valueUnder data row.2)

def Batch.reject (batch : Batch) (answer : BatchAnswer) (rejection : Rejection) : List Settled :=
  batch.aliased.map fun row => ⟨row.1, .error rejection, .batch row.2 answer⟩

def settleBatch (batch : Batch) (answer : BatchAnswer) : List Settled :=
  match answer with
  | .thrown error _ => batch.reject answer (translated error)
  | .answered data recorded =>
    if graphqlPointCost data = none then batch.reject answer .cost
    else if recorded = false then batch.reject answer .ledger
    else settleRows batch.routing answer (batch.rows data)

structure RestFlight where
  read : PendingSingleObjectRead
  held : Option (GithubEtagEntry Json)
  routing : Option GithubRailRouting

def restRequest (input : GithubSingleObjectRequest) : GithubConditionalRestRequest :=
  { cacheKey := input.cacheKey, budget := input.budget }

def settleRest (flight : RestFlight) (result : Except GithubError (GithubRestAnswer Json)) :
    Except Rejection GithubSingleObjectAnswer :=
  match result with
  | .error error => .error (.github error)
  | .ok answer =>
    match flight.read.input.project answer.data .rest with
    | none => .error .projection
    | some data => .ok ⟨data, .rest, answer.quotaFree, flight.routing⟩

inductive Flush where
  | idle | scheduled | reading
  deriving DecidableEq

structure Client where
  etags : GithubEtagStore Json
  pending : JsMap Text (List PendingSingleObjectRead)
  flush : Flush
  batches : List Batch
  rests : List RestFlight
  settled : List Settled
  calls : ℕ

def railKey : Option GithubApiSurface → Text
  | none => "default".toList
  | some rail => rail.text

def singleObjectGroupKey (input : GithubSingleObjectRequest) : Text :=
  input.kind.text ++ ":".toList ++ railKey input.rail

inductive ClientStep where
  | singleObject (input : GithubSingleObjectRequest)
  | flush
  | balance (balance : Option GithubBalance)
  | batchAnswer (i : ℕ) (answer : BatchAnswer)
  | restAnswer (i : ℕ) (turn : Turn Json)

structure Drained where
  settled : List Settled := []
  batches : List Batch := []
  rests : List RestFlight := []

section
variable (gated : Bool) (balance : Option GithubBalance) (etags : GithubEtagStore Json)

def holds (key : Text) : Bool := (etags.lookup key).isSome

def drained (group : List PendingSingleObjectRead) : Drained :=
  match routeGroup gated balance (holds etags) group with
  | .refuse pool resetAt =>
    { settled := group.map fun read =>
        ⟨read, .error (.github (.poolUnavailable pool resetAt)), .refused⟩ }
  | .batch routing =>
    match buildSingleObjectReadsQuery (group.map (·.input)) with
    | .error error => { settled := group.map fun read => ⟨read, .error (.unbuilt error), .unsent⟩ }
    | .ok query => { batches := [⟨group, query, routing⟩] }
  | .rest routing =>
    { rests := group.map fun read => ⟨read, etags.lookup read.input.cacheKey, routing⟩ }

def touchAll (reads : List PendingSingleObjectRead) (etags : GithubEtagStore Json) :
    GithubEtagStore Json :=
  reads.foldl (fun etags read => etags.touch read.input.cacheKey) etags

/-- What the store is asked for: `every` up to a key that it does not hold, `some` up to one
that it holds, and then the read itself. -/
def askedEtags (group : List PendingSingleObjectRead) : GithubEtagStore Json :=
  let held := fun read : PendingSingleObjectRead => holds etags read.input.cacheKey
  let every := touchAll (group.takeWhile held) etags
  let warm := touchAll (group.find? held).toList every
  match routeGroup gated balance (holds etags) group with
  | .refuse _ _ => every
  | .batch _ => warm
  | .rest _ => touchAll group warm

def drainGroup (s : Client) (group : List PendingSingleObjectRead) : Client :=
  let d := drained gated balance s.etags group
  { s with
    etags := askedEtags gated balance s.etags group
    settled := s.settled ++ d.settled
    batches := s.batches ++ d.batches
    rests := s.rests ++ d.rests }

def ungated (turn : Turn Json) : Turn Json :=
  if gated then turn else { turn with observed := none }

variable (reading : LimitReading)

def nextClient (s : Client) : ClientStep → Option Client
  | .singleObject input =>
    let key := singleObjectGroupKey input
    some { s with
      pending := JsMap.set s.pending key ((s.pending.lookup key).getD [] ++ [⟨s.calls, input⟩])
      flush := if s.flush = .idle then .scheduled else s.flush
      calls := s.calls + 1 }
  | .flush => if s.flush = .scheduled then some { s with flush := .reading } else none
  | .balance balance =>
    if s.flush = .reading then
      some (s.pending.values.foldl (drainGroup gated balance)
        { s with pending := ∅, flush := .idle })
    else none
  | .batchAnswer i answer =>
    s.batches[i]?.map fun batch =>
      { s with
        batches := s.batches.eraseIdx i
        settled := s.settled ++ settleBatch batch answer }
  | .restAnswer i turn =>
    s.rests[i]?.map fun flight =>
      let result := answered reading (restRequest flight.read.input) (ungated gated turn) s.etags
        flight.held
      { s with
        etags := result.1
        rests := s.rests.eraseIdx i
        settled := s.settled ++ [⟨flight.read, settleRest flight result.2, .rest⟩] }

def opened : Client := ⟨etags, ∅, .idle, [], [], [], 0⟩

end

def clientMachine (gated : Bool) (reading : LimitReading) : Machine Client ClientStep where
  start s := ∃ etags, s = opened etags
  next := nextClient gated reading

end Redskilled.Github
