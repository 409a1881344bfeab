import Mathlib.Data.Rat.Init
import Redskilled.Foundation.JsText
import Redskilled.Foundation.Recency

/-!
# The conditional reads of the GitHub client

A read sends the entity tag of the answer it holds. The answer and its tag are one
entry of the store, so that a 304 finds the body it speaks of. A spent pool and a
refusal for the rate limit are answered from the entry too.

What a turn meets outside is its input: the balance that is observed, the response, the
time, and whether the ledger takes the record. How a refusal is read is a parameter.
-/
namespace Redskilled.Github
open Foundation Foundation.Text

inductive GithubRateBudget where
  | rest | graphql | search
  deriving DecidableEq

def GithubRateBudget.text : GithubRateBudget → Text
  | .rest => "rest".toList
  | .graphql => "graphql".toList
  | .search => "search".toList

abbrev GithubResponseHeaders := JsMap Text Text

def header (headers : GithubResponseHeaders) (name : Text) : Option Text :=
  (headers.lookup name).or (headers.lookup (name.map Char.toLower))

/-- `{ ...held, ...response }`. -/
def mergeHeaders (held response : GithubResponseHeaders) : GithubResponseHeaders :=
  response.entries.foldl (fun headers e => JsMap.set headers e.1 e.2) held

def behindPrefix : Text → Text → Option Text
  | [], t => some t
  | p :: ps, c :: t => if c.toLower = p then behindPrefix ps t else none
  | _ :: _, [] => none

/-- One link of the header: `\s*<[^>]+>;\s*rel="next"`, and then a semicolon, a comma or
the end. -/
def isNextLink (t : Text) : Bool :=
  match t.dropWhile isWhitespace with
  | '<' :: rest =>
    match rest.span (· ≠ '>') with
    | (_ :: _, '>' :: ';' :: rest) =>
      match behindPrefix "rel=\"next\"".toList (rest.dropWhile isWhitespace) with
      | some rest => ((rest.dropWhile isWhitespace).head?).all fun c => c = ';' || c = ','
      | none => false
    | _ => false
  | _ => false

/-- A link behind one of the commas. -/
def isNextLinkBehindComma : Text → Bool
  | [] => false
  | c :: rest => (c = ',' && isNextLink rest) || isNextLinkBehindComma rest

def hasNextPage (headers : GithubResponseHeaders) : Bool :=
  match header headers "link".toList with
  | some link => isNextLink link || isNextLinkBehindComma link
  | none => false

section
variable {β : Type*}

structure GithubEtagEntry (β : Type*) where
  etag : Text
  data : β
  headers : GithubResponseHeaders
  storedAt : Option Text

abbrev GithubEtagStore (β : Type*) := Recency Text (GithubEtagEntry β)

def githubEtagStoreCapacity : ℕ := 256

structure GithubCachedFallback where
  pool : GithubRateBudget
  resetAt : Text
  ageMs : Option Int
  reason : Text

structure GithubRestAnswer (β : Type*) where
  data : β
  headers : GithubResponseHeaders
  quotaFree : Bool
  degraded : Option GithubCachedFallback := none

structure GithubConditionalRestRequest where
  cacheKey : Text
  budget : GithubRateBudget
  perPage : Option ℕ := none
  page : Option ℕ := none

/-- What the transport throws, a 304 among it. -/
structure RequestError where
  status : Option ℕ
  headers : GithubResponseHeaders
  message : Text

inductive Response (β : Type*) where
  | ok (data : β) (headers : GithubResponseHeaders)
  | thrown (error : RequestError)

/-- `fraction` is none where it is no finite number. -/
structure GithubPoolBalance where
  remaining : ℕ
  resetAt : Text
  fraction : Option ℚ

/-- `observed` is the balance that a gated client reads, `unrecorded` the message of a
ledger that does not take the record. -/
structure Turn (β : Type*) where
  observed : Option GithubPoolBalance := none
  response : Response β
  unrecorded : Option Text := none
  now : Text

inductive GithubLimitFact where
  | secondaryThrottled (retryAt : Text)
  | primaryExhausted (pool : GithubRateBudget) (retryAt : Text)

def GithubLimitFact.retryAt : GithubLimitFact → Text
  | .secondaryThrottled retryAt => retryAt
  | .primaryExhausted _ retryAt => retryAt

inductive GithubError where
  | poolUnavailable (pool : GithubRateBudget) (resetAt : Text)
  | backpressure (fact : GithubLimitFact)
  | credential
  | thrown (error : RequestError)
  | error (message : Text)

/-- How an error is read: whether it is a refusal for the rate limit, and what it says
about the limit by the clock. `dateParse` reads a time in milliseconds. -/
structure LimitReading where
  isGithubRateLimitError : RequestError → Bool
  classifyGithubLimit : RequestError → GithubRateBudget → Text → Option GithubLimitFact
  dateParse : Text → Option Int

variable (reading : LimitReading)

def cachedAnswer (held : GithubEtagEntry β) (pool : GithubRateBudget) (resetAt now : Text) :
    GithubRestAnswer β where
  data := held.data
  headers := held.headers
  quotaFree := true
  degraded := some {
    pool
    resetAt
    ageMs := match reading.dateParse now, held.storedAt.bind reading.dateParse with
      | some current, some stored => some (max 0 (current - stored))
      | _, _ => none
    reason := pool.text ++ " pool is exhausted until ".toList ++ resetAt ++
      "; serving the last-known answer instead of going dark".toList }

def unavailableFromError (pool : GithubRateBudget) (error : RequestError) (now : Text) :
    GithubError :=
  match reading.classifyGithubLimit error pool now with
  | some (.secondaryThrottled retryAt) => .backpressure (.secondaryThrottled retryAt)
  | some (.primaryExhausted pool retryAt) => .poolUnavailable pool retryAt
  | none => .thrown error

abbrev RestResult (β : Type*) := GithubEtagStore β × Except GithubError (GithubRestAnswer β)

/-- What the ledger throws has no status. -/
def ledgerError (message : Text) : RequestError := ⟨none, ∅, message⟩

/-- The `catch` of `conditionalRest`. -/
def caught (input : GithubConditionalRestRequest) (turn : Turn β) (etags : GithubEtagStore β)
    (held : Option (GithubEtagEntry β)) (error : RequestError) : RestResult β :=
  if error.status = some 304 then
    match held with
    | none =>
      (etags, .error (.error ("GitHub returned 304 for ".toList ++ jsonString input.cacheKey ++
        " without a held answer to reuse".toList)))
    | some held =>
      let headers := mergeHeaders held.headers error.headers
      let etag := (header headers "etag".toList).getD held.etag
      let etags := etags.put input.cacheKey ⟨etag, held.data, headers, held.storedAt⟩
      match turn.unrecorded with
      | none => (etags, .ok { data := held.data, headers, quotaFree := true })
      | some message => (etags, .error (.thrown (ledgerError message)))
  else if error.status = some 401 then (etags, .error .credential)
  else if reading.isGithubRateLimitError error then
    match held with
    | some held =>
      match reading.classifyGithubLimit error input.budget turn.now with
      | none => (etags, .error (.thrown error))
      | some fact => (etags, .ok (cachedAnswer reading held input.budget fact.retryAt turn.now))
    | none => (etags, .error (unavailableFromError reading input.budget error turn.now))
  else (etags, .error (.thrown error))

/-- The entity tag that a request sends. -/
def ifNoneMatch (etags : GithubEtagStore β) (key : Text) : Option Text :=
  (etags.lookup key).map (·.etag)

def request (input : GithubConditionalRestRequest) (turn : Turn β) (etags : GithubEtagStore β)
    (held : Option (GithubEtagEntry β)) : RestResult β :=
  match turn.response with
  | .ok data headers =>
    let etags := match header headers "etag".toList with
      | some etag => etags.put input.cacheKey ⟨etag, data, headers, some turn.now⟩
      | none => etags
    match turn.unrecorded with
    | none => (etags, .ok { data, headers, quotaFree := false })
    | some message => caught reading input turn etags held (ledgerError message)
  | .thrown error => caught reading input turn etags held error

def answered (input : GithubConditionalRestRequest) (turn : Turn β) (etags : GithubEtagStore β)
    (held : Option (GithubEtagEntry β)) : RestResult β :=
  match turn.observed with
  | some observed =>
    if observed.remaining = 0 then
      match held with
      | some held => (etags, .ok (cachedAnswer reading held input.budget observed.resetAt turn.now))
      | none => (etags, .error (.poolUnavailable input.budget observed.resetAt))
    else request reading input turn etags held
  | none => request reading input turn etags held

def conditionalRest (input : GithubConditionalRestRequest) (turn : Turn β)
    (etags : GithubEtagStore β) : RestResult β :=
  answered reading input turn (etags.touch input.cacheKey) (etags.lookup input.cacheKey)

section
variable {reading} {input : GithubConditionalRestRequest} {turn : Turn β}
  {etags : GithubEtagStore β} {held : Option (GithubEtagEntry β)} {error : RequestError}
  {answer : GithubRestAnswer β}

@[simp] lemma mergeHeaders_empty (headers : GithubResponseHeaders) :
    mergeHeaders headers ∅ = headers := rfl

lemma caught_etags (h : error.status ≠ some 304) :
    (caught reading input turn etags held error).1 = etags := by
  unfold caught
  rw [if_neg h]
  split_ifs
  · rfl
  · cases held with
    | none => rfl
    | some held =>
      dsimp only
      split
      · rfl
      · rfl
  · rfl

lemma caught_quotaFree (h : (caught reading input turn etags held error).2 = .ok answer) :
    ∃ entry, held = some entry ∧ answer.data = entry.data := by
  unfold caught at h
  split_ifs at h
  · cases held with
    | none => cases h
    | some held =>
      dsimp only at h
      split at h
      · cases h
        exact ⟨held, rfl, rfl⟩
      · cases h
  · cases held with
    | none => cases h
    | some held =>
      dsimp only at h
      split at h
      · cases h
      · cases h
        exact ⟨held, rfl, rfl⟩

def Written (turn : Turn β) (held : Option (GithubEtagEntry β)) (entry : GithubEtagEntry β) :
    Prop :=
  match turn.response with
  | .ok data headers => ∃ etag, header headers "etag".toList = some etag ∧
      entry = ⟨etag, data, headers, some turn.now⟩
  | .thrown error => error.status = some 304 ∧ ∃ old, held = some old ∧
      entry = ⟨(header (mergeHeaders old.headers error.headers) "etag".toList).getD old.etag,
        old.data, mergeHeaders old.headers error.headers, old.storedAt⟩

variable (reading input turn etags held) in
lemma answered_cases :
    answered reading input turn etags held = request reading input turn etags held ∨
      (∃ entry resetAt, held = some entry ∧ answered reading input turn etags held =
        (etags, .ok (cachedAnswer reading entry input.budget resetAt turn.now))) ∨
      ∃ error, answered reading input turn etags held = (etags, .error error) := by
  unfold answered
  cases turn.observed with
  | none => exact .inl rfl
  | some observed =>
    by_cases hspent : observed.remaining = 0
    · simp only [if_pos hspent]
      cases held with
      | none => exact .inr (.inr ⟨_, rfl⟩)
      | some held => exact .inr (.inl ⟨held, observed.resetAt, rfl, rfl⟩)
    · simp only [if_neg hspent]
      exact .inl trivial

variable {entry : GithubEtagEntry β} {key : Text}

lemma lookup_request
    (h : (request reading input turn etags held).1.lookup key = some entry) :
    etags.lookup key = some entry ∨ key = input.cacheKey ∧ Written turn held entry := by
  unfold request at h
  unfold Written
  cases hresp : turn.response with
  | ok data headers =>
    rw [hresp] at h
    dsimp only at h
    have hput : (match header headers "etag".toList with
        | some etag => etags.put input.cacheKey ⟨etag, data, headers, some turn.now⟩
        | none => etags).lookup key = some entry := by
      split at h
      · exact h
      · rwa [caught_etags (by intro hstat; cases hstat)] at h
    split at hput
    · next etag hetag =>
        rcases Recency.lookup_put hput with ⟨rfl, rfl⟩ | ⟨-, hold⟩
        · exact .inr ⟨rfl, etag, hetag, rfl⟩
        · exact .inl hold
    · exact .inl hput
  | thrown error =>
    rw [hresp] at h
    dsimp only at h ⊢
    by_cases hstat : error.status = some 304
    · unfold caught at h
      rw [if_pos hstat] at h
      cases held with
      | none => exact .inl h
      | some old =>
        dsimp only at h
        have hput : (etags.put input.cacheKey
            ⟨(header (mergeHeaders old.headers error.headers) "etag".toList).getD old.etag,
              old.data, mergeHeaders old.headers error.headers, old.storedAt⟩).lookup key =
            some entry := by
          split at h
          · exact h
          · exact h
        rcases Recency.lookup_put hput with ⟨rfl, rfl⟩ | ⟨-, hold⟩
        · exact .inr ⟨rfl, hstat, old, rfl, rfl⟩
        · exact .inl hold
    · rw [caught_etags hstat] at h
      exact .inl h

lemma lookup_answered
    (h : (answered reading input turn etags held).1.lookup key = some entry) :
    etags.lookup key = some entry ∨ key = input.cacheKey ∧ Written turn held entry := by
  rcases answered_cases reading input turn etags held with heq | ⟨old, resetAt, -, heq⟩ | ⟨error, heq⟩
  · rw [heq] at h
    exact lookup_request h
  · rw [heq] at h
    exact .inl h
  · rw [heq] at h
    exact .inl h

lemma lookup_conditionalRest
    (h : (conditionalRest reading input turn etags).1.lookup key = some entry) :
    etags.lookup key = some entry ∨
      key = input.cacheKey ∧ Written turn (etags.lookup input.cacheKey) entry := by
  have htouch := lookup_answered h
  rwa [Recency.lookup_touch] at htouch

lemma answered_data (h : (answered reading input turn etags held).2 = .ok answer) :
    (answer.quotaFree = false ∧ ∃ headers, turn.response = .ok answer.data headers) ∨
      ∃ entry, held = some entry ∧ answer.data = entry.data := by
  rcases answered_cases reading input turn etags held with heq | ⟨old, resetAt, hold, heq⟩ | ⟨error, heq⟩
  · rw [heq] at h
    unfold request at h
    split at h
    · next data headers hresp =>
        dsimp only at h
        split at h
        · cases h
          exact .inl ⟨rfl, headers, hresp⟩
        · exact .inr (caught_quotaFree h)
    · exact .inr (caught_quotaFree h)
  · rw [heq] at h
    cases h
    exact .inr ⟨old, hold, rfl⟩
  · rw [heq] at h
    cases h

end

end
end Redskilled.Github
