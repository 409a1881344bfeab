import Redskilled.Foundation.Fallible
import Redskilled.Github.Balance

/-!
# The store of the balance

One file holds the current balance. It is written as it is, within a ceiling of bytes, and read
behind a check of every field; what fails the check is an unknown balance. The text of the file
is left to its codec.

The writer's idea of a count is any whole number, and of an instant any text. The reader's is a
safe count that is not negative, and an instant that can be read.
-/
namespace Redskilled.Github.BalanceStore
open Foundation Balance Option

inductive FieldName where
  | version | origin | outcome | source | askedAt | requestCount | pools | unreportedPools | detail
  | pool | resource | limit | remaining | used | resetAt | fraction
  deriving DecidableEq

namespace FieldName

def text : FieldName → Text
  | version => "version".toList
  | origin => "origin".toList
  | outcome => "outcome".toList
  | source => "source".toList
  | askedAt => "asked_at".toList
  | requestCount => "request_count".toList
  | pools => "pools".toList
  | unreportedPools => "unreported_pools".toList
  | detail => "detail".toList
  | pool => "pool".toList
  | resource => "resource".toList
  | limit => "limit".toList
  | remaining => "remaining".toList
  | used => "used".toList
  | resetAt => "reset_at".toList
  | fraction => "fraction".toList

def all : List FieldName :=
  [version, origin, outcome, source, askedAt, requestCount, pools, unreportedPools, detail, pool,
    resource, limit, remaining, used, resetAt, fraction]

lemma text_injective {a b : FieldName} (h : a.text = b.text) : a = b := by
  have hall : ∀ a ∈ all, ∀ b ∈ all, text a = text b → a = b := by decide +kernel
  exact hall a (by cases a <;> decide) b (by cases b <;> decide) h

end FieldName

def outcomeText : GithubBalanceOutcome → Text
  | .asked => "asked".toList
  | .unanswered => "unanswered".toList

def readOutcome (value : JsValue) : Option GithubBalanceOutcome :=
  value.asString.bind fun t =>
    [GithubBalanceOutcome.asked, .unanswered].find? (outcomeText · = t)

def readBudget (value : JsValue) : Option GithubRateBudget :=
  value.asString.bind fun t => githubPools.find? (·.text = t)

def origin : Text := "asked".toList

def source : Text := "GET /rate_limit".toList

def encodePool (row : GithubPoolBalance) : JsValue :=
  .object (JsValue.named FieldName.text
    [(.pool, .string row.pool.text), (.resource, .string row.resource), (.limit, .number row.limit),
      (.remaining, .number row.remaining), (.used, .number row.used),
      (.resetAt, .string row.resetAt), (.fraction, .number row.fraction)])

def encodePools (pools : GithubRateBudget → Option GithubPoolBalance) : JsValue :=
  .object (JsValue.named GithubRateBudget.text
    (githubPools.map fun pool => (pool, ((pools pool).map encodePool).getD .null)))

def encodeBalance (balance : GithubBalance) : JsValue :=
  .object (JsValue.named FieldName.text
    [(.version, .number 1), (.origin, .string origin),
      (.outcome, .string (outcomeText balance.outcome)), (.source, .string source),
      (.askedAt, .string balance.askedAt), (.requestCount, .number balance.requestCount),
      (.pools, encodePools balance.pools),
      (.unreportedPools, .array (balance.unreportedPools.map fun pool => .string pool.text)),
      (.detail, .string balance.detail)])

section
variable (dateParse : Text → Option ℤ)

def get (fields : List (Text × JsValue)) (name : FieldName) : JsValue :=
  JsValue.field fields name.text

/-- A count, where `Number.isSafeInteger` holds and it is not negative. -/
def asCount (value : JsValue) : Option ℤ := value.asSafeInteger.filter (0 ≤ ·)

def asInstant (value : JsValue) : Option Text :=
  value.asString.filter fun t => (dateParse t).isSome

def asFinite : JsValue → Option ℚ
  | .number q => some q
  | _ => none

/-- `isPool`, with the row that it finds. -/
def readRow (value : JsValue) (pool : GithubRateBudget) : Option GithubPoolBalance := do
  let row ← value.asObject
  let named ← readBudget (get row .pool)
  if named = pool then do
    let resource ← (get row .resource).asString
    let resetAt ← asInstant dateParse (get row .resetAt)
    let limit ← asCount (get row .limit)
    let remaining ← asCount (get row .remaining)
    let used ← asCount (get row .used)
    let fraction ← asFinite (get row .fraction)
    some ⟨pool, resource, limit, remaining, used, resetAt, fraction⟩
  else none

def isNull : JsValue → Bool
  | .null => true
  | _ => false

def readCandidate (pools : List (Text × JsValue)) (pool : GithubRateBudget) :
    Option (Option GithubPoolBalance) :=
  let candidate := JsValue.field pools pool.text
  if isNull candidate then some none else (readRow dateParse candidate pool).map some

def isOne : JsValue → Bool
  | .number q => q = 1
  | _ => false

/-- `isGithubBalance`, with the document that it finds. -/
def readGithubBalance (value : JsValue) : Option GithubBalance := do
  let document ← value.asObject
  if isOne (get document .version) ∧ (get document .origin).asString = some origin ∧
      (get document .source).asString = some source then do
    let outcome ← readOutcome (get document .outcome)
    let askedAt ← asInstant dateParse (get document .askedAt)
    let requestCount ← asCount (get document .requestCount)
    let pools ← (get document .pools).asObject
    let names ← (get document .unreportedPools).asArray
    let detail ← (get document .detail).asString
    let core ← readCandidate dateParse pools .rest
    let graph ← readCandidate dateParse pools .graphql
    let find ← readCandidate dateParse pools .search
    let unreportedPools ← names.mapM readBudget
    some
      { outcome := outcome
        askedAt := askedAt
        requestCount := requestCount
        pools := fun
          | .rest => core
          | .graphql => graph
          | .search => find
        unreportedPools := unreportedPools
        detail := detail }
  else none

end

section
variable {dateParse : Text → Option ℤ} {row : GithubPoolBalance} {balance : GithubBalance}

lemma get_named (fields : List (FieldName × JsValue)) (name : FieldName) :
    get (JsValue.named FieldName.text fields) name = (fields.lookup name).getD .undefined :=
  JsValue.field_named (fun _ _ => FieldName.text_injective) name

lemma readBudget_text (pool : GithubRateBudget) : readBudget (.string pool.text) = some pool := by
  cases pool <;> decide +kernel

lemma readOutcome_text (outcome : GithubBalanceOutcome) :
    readOutcome (.string (outcomeText outcome)) = some outcome := by
  cases outcome <;> decide +kernel

/-- A count that the reader accepts. -/
def Countable (n : ℤ) : Prop := 0 ≤ n ∧ n ≤ JsValue.maxSafeInteger

instance (n : ℤ) : Decidable (Countable n) := inferInstanceAs (Decidable (_ ∧ _))

lemma asCount_number (n : ℤ) : asCount (.number n) = if Countable n then some n else none := by
  have hint : (n : ℚ).isInt = true := by simp [Rat.isInt]
  unfold asCount
  by_cases hsafe : n.natAbs ≤ JsValue.maxSafeInteger
  · rw [JsValue.asSafeInteger_intCast hsafe]
    by_cases hpos : 0 ≤ n
    · rw [if_pos ⟨hpos, by omega⟩]
      simp [hpos]
    · rw [if_neg fun h => hpos h.1]
      simpa using hpos
  · have hnone : JsValue.asSafeInteger (.number n) = none := by
      simp [JsValue.asSafeInteger, hint, hsafe]
    rw [hnone, if_neg fun h => hsafe (by have := h.1; have := h.2; omega)]
    rfl

/-- A row that the reader accepts. -/
def Legal (dateParse : Text → Option ℤ) (row : GithubPoolBalance) : Prop :=
  (dateParse row.resetAt).isSome = true ∧ Countable row.limit ∧ Countable row.remaining ∧
    Countable row.used

instance : Decidable (Legal dateParse row) := inferInstanceAs (Decidable (_ ∧ _))

lemma asInstant_string (t : Text) :
    asInstant dateParse (.string t) = if (dateParse t).isSome then some t else none := by
  unfold asInstant
  simp only [JsValue.asString, filter_some]

lemma readRow_encode (row : GithubPoolBalance) : readRow dateParse (encodePool row) row.pool =
      if Legal dateParse row then some row else none := by
  obtain ⟨fields, hfields, hpool, hresource, hlim, hrem, hused, hres, hfract⟩ :
      ∃ fields, encodePool row = .object fields ∧ get fields .pool = .string row.pool.text ∧
        get fields .resource = .string row.resource ∧ get fields .limit = .number row.limit ∧
        get fields .remaining = .number row.remaining ∧ get fields .used = .number row.used ∧
        get fields .resetAt = .string row.resetAt ∧ get fields .fraction = .number row.fraction := by
    refine ⟨_, rfl, ?_⟩
    simp only [get_named]
    exact ⟨rfl, rfl, rfl, rfl, rfl, rfl, rfl⟩
  rw [hfields]
  simp only [readRow, JsValue.asObject, hpool, readBudget_text, hresource, JsValue.asString, hlim,
    hrem, hused, hres, hfract, asCount_number, asInstant_string, asFinite,
    bind_eq_bind, bind_some, if_true]
  by_cases hleg : Legal dateParse row
  · rw [if_pos hleg]
    obtain ⟨hdate, hlim, hrem, hused⟩ := hleg
    rw [if_pos hdate, if_pos hlim, if_pos hrem, if_pos hused]
    rfl
  · rw [if_neg hleg]
    by_cases hdate : (dateParse row.resetAt).isSome = true
    · by_cases hlim : Countable row.limit
      · by_cases hrem : Countable row.remaining
        · have hused : ¬Countable row.used := fun hused =>
            hleg ⟨hdate, hlim, hrem, hused⟩
          simp [hused]
        · simp [hrem]
      · simp [hlim]
    · rw [if_neg hdate]
      rfl

/-- A document whose rows are those of their pools. -/
def Keyed (balance : GithubBalance) : Prop :=
  ∀ pool row, balance.pools pool = some row → row.pool = pool

def LegalAt (dateParse : Text → Option ℤ) (balance : GithubBalance) (pool : GithubRateBudget) :
    Prop :=
  ∀ row ∈ balance.pools pool, Legal dateParse row

instance (pool : GithubRateBudget) : Decidable (LegalAt dateParse balance pool) :=
  inferInstanceAs (Decidable (∀ row ∈ balance.pools pool, Legal dateParse row))

lemma readCandidate_encode (hkeyed : Keyed balance) {pools : List (Text × JsValue)}
    (hpools : encodePools balance.pools = .object pools) (pool : GithubRateBudget) :
    readCandidate dateParse pools pool =
      if LegalAt dateParse balance pool then some (balance.pools pool) else none := by
  have hfield : JsValue.field pools pool.text =
      ((balance.pools pool).map encodePool).getD .null := by
    obtain rfl : JsValue.named GithubRateBudget.text
        (githubPools.map fun p => (p, ((balance.pools p).map encodePool).getD .null)) = pools :=
      JsValue.object.inj hpools
    rw [JsValue.field_named fun _ _ => GithubRateBudget.text_injective]
    cases pool <;> rfl
  unfold readCandidate
  rw [hfield]
  cases hrow : balance.pools pool with
  | none =>
    have hleg : LegalAt dateParse balance pool := by
      rw [LegalAt, hrow]
      rintro row ⟨⟩
    rw [if_pos hleg]
    rfl
  | some row =>
    have hobj : isNull (encodePool row) = false := rfl
    have hleg : LegalAt dateParse balance pool ↔ Legal dateParse row := by
      simp [LegalAt, hrow]
    obtain rfl := hkeyed pool row hrow
    simp only [map_some, getD_some, hobj, readRow_encode, hleg, Bool.false_eq_true, if_false]
    split_ifs
    · rfl
    · rfl

lemma mapM_readBudget (pools : List GithubRateBudget) :
    (pools.map fun pool => JsValue.string pool.text).mapM readBudget = some pools := by
  induction pools with
  | nil => rfl
  | cons pool pools ih => simp [readBudget_text, ih]

lemma readGithubBalance_encode (hkeyed : Keyed balance)
    (hdate : (dateParse balance.askedAt).isSome = true) (hcount : Countable balance.requestCount) :
    readGithubBalance dateParse (encodeBalance balance) =
      if ∀ pool ∈ githubPools, LegalAt dateParse balance pool then some balance else none := by
  obtain ⟨pools, hpools⟩ : ∃ pools, encodePools balance.pools = .object pools := ⟨_, rfl⟩
  obtain ⟨fields, hfields, hvers, horig, hsource, houtc, hask, hreq, hpools', hnam, hdet⟩ :
      ∃ fields, encodeBalance balance = .object fields ∧ get fields .version = .number 1 ∧
        get fields .origin = .string origin ∧ get fields .source = .string source ∧
        get fields .outcome = .string (outcomeText balance.outcome) ∧
        get fields .askedAt = .string balance.askedAt ∧
        get fields .requestCount = .number balance.requestCount ∧
        get fields .pools = .object pools ∧
        get fields .unreportedPools =
          .array (balance.unreportedPools.map fun pool => .string pool.text) ∧
        get fields .detail = .string balance.detail := by
    refine ⟨_, rfl, ?_⟩
    simp only [get_named, ← hpools]
    exact ⟨rfl, rfl, rfl, rfl, rfl, rfl, rfl, rfl, rfl⟩
  have hone : isOne (.number 1) = true := by decide
  rw [hfields]
  simp only [readGithubBalance, JsValue.asObject, hvers, hone, horig, hsource,
    JsValue.asString, houtc, readOutcome_text, hask, asInstant_string, hdate, hreq,
    asCount_number, hcount, hpools', hnam, JsValue.asArray, hdet, mapM_readBudget,
    readCandidate_encode hkeyed hpools, bind_eq_bind, bind_some, if_true, and_self]
  by_cases hleg : ∀ pool ∈ githubPools, LegalAt dateParse balance pool
  · rw [if_pos hleg, if_pos (hleg _ (mem_githubPools _)), if_pos (hleg _ (mem_githubPools _)),
      if_pos (hleg _ (mem_githubPools _))]
    simp only [bind_some, some.injEq]
    obtain ⟨outcome, askedAt, requestCount, rows, unreportedPools, detail⟩ := balance
    simp only [GithubBalance.mk.injEq, true_and, and_true]
    funext pool
    cases pool <;> rfl
  · rw [if_neg hleg]
    by_cases hrest : LegalAt dateParse balance .rest
    · by_cases hgraphql : LegalAt dateParse balance .graphql
      · have hsearch : ¬LegalAt dateParse balance .search := by
          intro hsearch
          apply hleg
          intro pool _
          cases pool with
          | rest => exact hrest
          | graphql => exact hgraphql
          | search => exact hsearch
        rw [if_pos hrest, if_pos hgraphql, if_neg hsearch]
        rfl
      · rw [if_pos hrest, if_neg hgraphql]
        rfl
    · rw [if_neg hrest]
      rfl

end

def ceilingMessage (maxBytes : ℕ) : Text :=
  "GitHub balance snapshot exceeds its ".toList ++ Text.number maxBytes ++
    "-byte lane ceiling".toList

section
variable (dateParse : Text → Option ℤ) (renderedBytes : JsValue → ℕ) (toon : JsValue → JsValue)

/-- `write(balance)`, with the document that it leaves in the file. `renderedBytes` is how long
the text of a document is. -/
def write (maxBytes : ℕ) (balance : GithubBalance) : Except Text JsValue :=
  if maxBytes < renderedBytes (encodeBalance balance) then .error (ceilingMessage maxBytes)
  else .ok (encodeBalance balance)

/-- `read()` of the file. `toon` is what its codec makes of a document. -/
def read (file : JsValue) : Option GithubBalance := readGithubBalance dateParse (toon file)

end

/-- The window of a reported pool ends past the calendar. -/
def PastCalendar (value : JsValue) : Prop :=
  (reportedCounts value).isSome = true ∧
    ∃ reset, reportedReset value = some reset ∧ IsoDate.toISOString (reset * 1000) = none

/-- A pool that is reported with a reset, and with counts that are safe and not negative. -/
def Keepable (value : JsValue) : Prop :=
  ∀ counts ∈ reportedCounts value, Countable counts.1 ∧ Countable counts.2 ∧
    Countable (reportedUsed value) ∧ (reportedReset value).isSome = true

def StoreKeeps : Except Text JsValue → Prop
  | .error _ => True
  | .ok payload =>
    (∃ pool ∈ githubPools, PastCalendar (resourceNode payload pool)) ∨
      ∀ pool ∈ githubPools, Keepable (resourceNode payload pool)

section
variable {dateParse : Text → Option ℤ} {pool : GithubRateBudget} {resource now : Text}
  {value payload : JsValue} {row : Option GithubPoolBalance}

lemma readPool_error_iff : (∃ e, readPool pool resource value = .error e) ↔ PastCalendar value := by
  unfold readPool PastCalendar
  cases hcounts : reportedCounts value with
  | none => simp
  | some counts =>
    cases hres : reportedReset value with
    | none => simp
    | some reset =>
      cases hdate : IsoDate.toISOString (reset * 1000) with
      | none => simp [hdate]
      | some t => simp [hdate]

lemma pool_of_readPool (h : readPool pool resource value = .ok row) : ∀ r ∈ row, r.pool = pool := by
  unfold readPool at h
  cases hcounts : reportedCounts value with
  | none =>
    rw [hcounts] at h
    obtain rfl := Except.ok.inj h
    rintro r ⟨⟩
  | some counts =>
    rw [hcounts] at h
    cases hres : reportedReset value with
    | none =>
      rw [hres] at h
      obtain rfl := Except.ok.inj h
      rintro r ⟨⟩
      rfl
    | some reset =>
      rw [hres] at h
      simp only at h
      cases hdate : IsoDate.toISOString (reset * 1000) with
      | none =>
        rw [hdate] at h
        cases h
      | some t =>
        rw [hdate] at h
        obtain rfl := Except.ok.inj h
        rintro r ⟨⟩
        rfl

lemma legal_of_readPool
    (hiso : ∀ ms t, IsoDate.toISOString ms = some t → (dateParse t).isSome = true)
    (hempty : dateParse [] = none) (h : readPool pool resource value = .ok row) :
    (∀ r ∈ row, Legal dateParse r) ↔ Keepable value := by
  unfold readPool at h
  unfold Keepable
  cases hcounts : reportedCounts value with
  | none =>
    rw [hcounts] at h
    obtain rfl := Except.ok.inj h
    simp
  | some counts =>
    rw [hcounts] at h
    cases hres : reportedReset value with
    | none =>
      rw [hres] at h
      obtain rfl := Except.ok.inj h
      simp [Legal, hempty]
    | some reset =>
      rw [hres] at h
      simp only at h
      cases hdate : IsoDate.toISOString (reset * 1000) with
      | none =>
        rw [hdate] at h
        cases h
      | some t =>
        rw [hdate] at h
        obtain rfl := Except.ok.inj h
        simp [Legal, hiso _ t hdate]

lemma parse_ok {balance : GithubBalance} (h : parseGithubBalance payload now = .ok balance) :
    balance.askedAt = now ∧ balance.requestCount = 1 ∧ ∀ pool,
      readPool pool (githubPoolResource pool) (resourceNode payload pool) =
        .ok (balance.pools pool) := by
  obtain ⟨core, hcore, h⟩ := Fallible.do_ok_iff.mp h
  obtain ⟨graph, hgraph, h⟩ := Fallible.do_ok_iff.mp h
  obtain ⟨find, hfind, h⟩ := Fallible.do_ok_iff.mp h
  obtain rfl := Except.ok.inj h
  refine ⟨rfl, rfl, fun pool => ?_⟩
  cases pool with
  | rest => exact hcore
  | graphql => exact hgraph
  | search => exact hfind

lemma parse_error_iff : (∃ e, parseGithubBalance payload now = .error e) ↔
    ∃ pool ∈ githubPools, PastCalendar (resourceNode payload pool) := by
  constructor
  · rintro ⟨e, h⟩
    by_contra hnone
    have hreads : ∀ pool, ∃ row,
        readPool pool (githubPoolResource pool) (resourceNode payload pool) = .ok row := by
      intro pool
      cases hread : readPool pool (githubPoolResource pool) (resourceNode payload pool) with
      | ok row => exact ⟨row, rfl⟩
      | error e =>
        exact absurd ⟨pool, mem_githubPools pool, readPool_error_iff.mp ⟨e, hread⟩⟩ hnone
    obtain ⟨core, hcore⟩ := hreads .rest
    obtain ⟨graph, hgraph⟩ := hreads .graphql
    obtain ⟨find, hfind⟩ := hreads .search
    have hok : ∃ balance, parseGithubBalance payload now = .ok balance := by
      unfold parseGithubBalance
      exact ⟨_, Fallible.do_ok_iff.mpr ⟨core, hcore, Fallible.do_ok_iff.mpr ⟨graph, hgraph,
        Fallible.do_ok_iff.mpr ⟨find, hfind, rfl⟩⟩⟩⟩
    obtain ⟨balance, hbal⟩ := hok
    rw [hbal] at h
    cases h
  · rintro ⟨pool, -, hpast⟩
    cases hparse : parseGithubBalance payload now with
    | error e => exact ⟨e, rfl⟩
    | ok balance =>
      obtain ⟨e, he⟩ := readPool_error_iff.mpr hpast
      have hread := (parse_ok hparse).2.2 pool
      rw [he] at hread
      cases hread

lemma fetch_spec (hiso : ∀ ms t, IsoDate.toISOString ms = some t → (dateParse t).isSome = true)
    (hempty : dateParse [] = none) (transport : Except Text JsValue) (now : Text) :
    (fetchGithubBalance transport now).askedAt = now ∧
      (fetchGithubBalance transport now).requestCount = 1 ∧
      Keyed (fetchGithubBalance transport now) ∧
      ((∀ pool ∈ githubPools, LegalAt dateParse (fetchGithubBalance transport now) pool) ↔
        StoreKeeps transport) := by
  have hunask : ∀ reason, (∀ pool ∈ githubPools, LegalAt dateParse
        { unaskedGithubBalance now reason with requestCount := 1 } pool) := by
    rintro reason pool - row ⟨⟩
  cases transport with
  | error reason => exact ⟨rfl, rfl, by rintro pool row ⟨⟩, fun _ => trivial, fun _ => hunask _⟩
  | ok payload =>
    cases hparse : parseGithubBalance payload now with
    | error reason =>
      have hfetch : fetchGithubBalance (.ok payload) now = { unaskedGithubBalance now
              ("the balance ask failed before the token answered: ".toList ++ reason) with
            requestCount := 1 } := by
        simp only [fetchGithubBalance, Except.bind, hparse]
      rw [hfetch]
      have hpast := parse_error_iff.mp ⟨reason, hparse⟩
      exact ⟨rfl, rfl, by rintro pool row ⟨⟩, fun _ => .inl hpast, fun _ => hunask _⟩
    | ok balance =>
      have hfetch : fetchGithubBalance (.ok payload) now = balance := by
        simp only [fetchGithubBalance, Except.bind, hparse]
      rw [hfetch]
      obtain ⟨hask, hcount, hreads⟩ := parse_ok hparse
      refine ⟨hask, hcount, fun pool row hrow => pool_of_readPool (hreads pool) row hrow, ?_⟩
      have hfine : ¬∃ pool ∈ githubPools, PastCalendar (resourceNode payload pool) := by
        intro hpast
        obtain ⟨e, he⟩ := parse_error_iff.mpr hpast
        rw [hparse] at he
        cases he
      have hleg : ∀ pool, LegalAt dateParse balance pool ↔
          Keepable (resourceNode payload pool) := fun pool =>
        legal_of_readPool hiso hempty (hreads pool)
      simp only [hleg, StoreKeeps, hfine, false_or]

end

section
variable {numberText : WholeDouble → Text} {dateParse : Text → Option ℤ} {balance : GithubBalance}

lemma admit_congr {other : GithubBalance} (h : other.pools = balance.pools)
    (pool : GithubRateBudget) (criticality : GithubCallCriticality) (fraction : Option ℚ) :
    admitGithubCall numberText (some other) pool criticality fraction =
      admitGithubCall numberText (some balance) pool criticality fraction := by
  have hpost : ∀ f, githubBalancePosture other pool f = githubBalancePosture balance pool f := by
    intro f
    rw [githubBalancePosture, githubBalancePosture, h]
  cases hrow : balance.pools pool with
  | none => simp only [admitGithubCall, bind_some, h, hrow]
  | some row => simp only [admitGithubCall, bind_some, h, hrow, hpost]

lemma foldl_update (hkeyed : Keyed balance) (l : List GithubRateBudget)
    (held : GithubRateBudget → Option GithubPoolBalance) (pool : GithubRateBudget) :
    (l.filterMap balance.pools).foldl setPool held pool =
      if pool ∈ l then (balance.pools pool).or (held pool) else held pool := by
  induction l generalizing held with
  | nil => simp
  | cons p l ih =>
    cases hrow : balance.pools p with
    | none =>
      rw [List.filterMap_cons_none hrow, ih]
      by_cases hp : pool = p
      · subst hp
        simp [hrow]
      · simp [hp]
    | some row =>
      rw [List.filterMap_cons_some hrow, List.foldl_cons, ih, setPool, hkeyed p row hrow]
      by_cases hp : pool = p
      · subst hp
        simp [hrow]
      · simp [hp]

lemma pools_balanceFromReport (hkeyed : Keyed balance) (now : Text) (stalenessMs : Option ℤ)
    (fraction : Option ℚ) :
    (balanceFromReport (buildGithubBalanceReport numberText dateParse (some balance) now stalenessMs
      fraction)).pools = balance.pools := by
  have hpools : (balanceFromReport (buildGithubBalanceReport numberText dateParse (some balance) now
      stalenessMs fraction)).pools =
        (githubPools.filterMap balance.pools).foldl setPool fun _ => none := rfl
  rw [hpools]
  funext pool
  rw [foldl_update hkeyed, if_pos (mem_githubPools pool), or_none]

lemma isJson_encodeBalance (balance : GithubBalance) : (encodeBalance balance).IsJson := by
  have hpool : ∀ row, (encodePool row).IsJson := by
    intro row
    apply JsValue.isJson_named
    simp [JsValue.IsJson.string, JsValue.IsJson.number]
  have hpools : (encodePools balance.pools).IsJson := by
    apply JsValue.isJson_named
    intro f hf
    obtain ⟨pool, -, rfl⟩ := List.mem_map.mp hf
    cases balance.pools pool with
    | none => exact .null
    | some row => exact hpool row
  have hnam : (JsValue.array (balance.unreportedPools.map fun pool => .string pool.text)).IsJson := by
    apply JsValue.IsJson.array
    intro v hv
    obtain ⟨pool, -, rfl⟩ := List.mem_map.mp hv
    exact .string pool.text
  apply JsValue.isJson_named
  simp [JsValue.IsJson.string, JsValue.IsJson.number, hpools, hnam]

end

/-- The balance is read back from the store, and from a report, and every admission is the same
behind either trip. -/
structure Survives (numberText : WholeDouble → Text) (dateParse : Text → Option ℤ)
    (renderedBytes : JsValue → ℕ) (toon : JsValue → JsValue) (balance : GithubBalance) : Prop where
  stored : ∀ maxBytes file, write renderedBytes maxBytes balance = .ok file →
    read dateParse toon file = some balance
  reported : ∀ now stalenessMs fraction,
    (balanceFromReport (buildGithubBalanceReport numberText dateParse (some balance) now stalenessMs
      fraction)).pools = balance.pools
  admittedStored : ∀ maxBytes file, write renderedBytes maxBytes balance = .ok file →
    ∀ pool criticality fraction,
      admitGithubCall numberText (read dateParse toon file) pool criticality fraction =
        admitGithubCall numberText (some balance) pool criticality fraction
  admittedReported : ∀ now stalenessMs reserved pool criticality fraction,
    admitGithubCall numberText
        (some (balanceFromReport (buildGithubBalanceReport numberText dateParse (some balance) now
          stalenessMs reserved))) pool criticality fraction =
      admitGithubCall numberText (some balance) pool criticality fraction

/-- A fetched balance survives where the ask fails, or where every reported pool has a reset and
safe counts. -/
theorem survives_iff (numberText : WholeDouble → Text) (dateParse : Text → Option ℤ)
    (hiso : ∀ ms t, IsoDate.toISOString ms = some t → (dateParse t).isSome = true)
    (hempty : dateParse [] = none) (renderedBytes : JsValue → ℕ) (toon : JsValue → JsValue)
    (htoon : ∀ v : JsValue, v.IsJson → toon v = v) (transport : Except Text JsValue) (now : Text)
    (hnow : (dateParse now).isSome = true) :
    Survives numberText dateParse renderedBytes toon (fetchGithubBalance transport now) ↔
      StoreKeeps transport := by
  obtain ⟨hask, hcount, hkeyed, hleg⟩ := fetch_spec hiso hempty transport now
  generalize fetchGithubBalance transport now = balance at hask hcount hkeyed hleg
  have hread : read dateParse toon (encodeBalance balance) =
      if ∀ pool ∈ githubPools, LegalAt dateParse balance pool then some balance else none := by
    rw [read, htoon _ (isJson_encodeBalance balance)]
    exact readGithubBalance_encode hkeyed (hask ▸ hnow) (by rw [hcount]; decide)
  rw [← hleg]
  constructor
  · intro h
    by_contra hbad
    have hwrite : write renderedBytes (renderedBytes (encodeBalance balance)) balance =
        .ok (encodeBalance balance) := if_neg (lt_irrefl _)
    have hback := h.stored _ _ hwrite
    rw [hread, if_neg hbad] at hback
    cases hback
  · intro h
    rw [if_pos h] at hread
    have hfile : ∀ maxBytes file, write renderedBytes maxBytes balance = .ok file →
        read dateParse toon file = some balance := by
      intro maxBytes file hwrite
      unfold write at hwrite
      split_ifs at hwrite
      rw [← Except.ok.inj hwrite]
      exact hread
    constructor
    · exact hfile
    · exact pools_balanceFromReport hkeyed
    · intro maxBytes file hwrite pool criticality fraction
      rw [hfile maxBytes file hwrite]
    · intro later stalenessMs reserved pool criticality fraction
      exact admit_congr (pools_balanceFromReport hkeyed later stalenessMs reserved) pool criticality
        fraction

section

def noon : Text := "2026-06-10T12:00:00.000Z".toList

def windowEnd : Text := "2026-06-10T23:10:24.000Z".toList

/-- The instants of these two texts; the empty text has none. -/
def instantOf (t : Text) : Option ℤ :=
  if t = [] then none else if t = windowEnd then some 1781133024000 else some 1781092800000

lemma instantOf_iso (ms : ℤ) (t : Text) (h : IsoDate.toISOString ms = some t) :
    (instantOf t).isSome = true := by
  unfold instantOf
  rw [if_neg (IsoDate.isoChar_toISOString h).1]
  split_ifs
  · rfl
  · rfl

def core (fields : List (Text × JsValue)) : JsValue :=
  .object [("resources".toList, .object [("core".toList, .object fields)])]

def halfSpent : JsValue :=
  core [("limit".toList, .number 5000), ("used".toList, .number 2500),
    ("remaining".toList, .number 2500), ("reset".toList, .number 1781133024)]

def jsonBytes (v : JsValue) : ℕ :=
  ((JsValue.stringify (fun q => Text.integer q.num) v).getD []).length + 1

def wholeText : WholeDouble → Text
  | some (some n) => Text.integer n
  | some none => "Infinity".toList
  | none => "-Infinity".toList

lemma keeps_halfSpent : StoreKeeps (.ok halfSpent) := by
  right
  intro pool _
  cases pool with
  | rest =>
    have hcounts : reportedCounts (resourceNode halfSpent .rest) = some (5000, 2500) := by
      decide +kernel
    have hused : reportedUsed (resourceNode halfSpent .rest) = 2500 := by decide +kernel
    have hres : (reportedReset (resourceNode halfSpent .rest)).isSome = true := by
      decide +kernel
    unfold Keepable
    rw [hcounts, hused]
    rintro counts ⟨⟩
    exact ⟨by decide, by decide, by decide, hres⟩
  | graphql =>
    have hnone : reportedCounts (resourceNode halfSpent .graphql) = none := by decide +kernel
    unfold Keepable
    rw [hnone]
    rintro counts ⟨⟩
  | search =>
    have hnone : reportedCounts (resourceNode halfSpent .search) = none := by decide +kernel
    unfold Keepable
    rw [hnone]
    rintro counts ⟨⟩

theorem halfSpent_survives :
    Survives wholeText instantOf jsonBytes id (fetchGithubBalance (.ok halfSpent) noon) :=
  (survives_iff wholeText instantOf instantOf_iso (by decide) jsonBytes id (fun _ _ => rfl)
    (.ok halfSpent) noon (by decide +kernel)).mpr keeps_halfSpent

def spentWithoutReset : JsValue :=
  core [("limit".toList, .number 5000), ("used".toList, .number 5000),
    ("remaining".toList, .number 0)]

/-- A spent pool without a reset time is admitted when it is read back. -/
theorem spent_is_admitted : ¬ ∀ (numberText : WholeDouble → Text) (dateParse : Text → Option ℤ)
        (renderedBytes : JsValue → ℕ) (toon : JsValue → JsValue) (transport : Except Text JsValue)
        (now : Text),
      (∀ ms t, IsoDate.toISOString ms = some t → (dateParse t).isSome = true) →
        dateParse [] = none → (∀ v : JsValue, v.IsJson → toon v = v) →
          (dateParse now).isSome = true →
            Survives numberText dateParse renderedBytes toon (fetchGithubBalance transport now) := by
  intro h
  have hsurv := h wholeText instantOf jsonBytes id (.ok spentWithoutReset) noon instantOf_iso
    (by decide) (fun _ _ => rfl) (by decide +kernel)
  have hwrite : write jsonBytes 65536 (fetchGithubBalance (.ok spentWithoutReset) noon) =
      .ok (encodeBalance (fetchGithubBalance (.ok spentWithoutReset) noon)) := by
    have hsmall : jsonBytes (encodeBalance (fetchGithubBalance (.ok spentWithoutReset) noon)) ≤
        65536 := by decide +kernel
    exact if_neg (Nat.not_lt.mpr hsmall)
  have hsame := congrArg GithubAdmission.admitted
    (hsurv.admittedStored _ _ hwrite .rest .essential none)
  have hbef : (admitGithubCall wholeText (some (fetchGithubBalance (.ok spentWithoutReset) noon))
      .rest .essential none).admitted = false := by decide +kernel
  have haft : (admitGithubCall wholeText (read instantOf id
      (encodeBalance (fetchGithubBalance (.ok spentWithoutReset) noon)))
      .rest .essential none).admitted = true := by decide +kernel
  rw [hbef, haft] at hsame
  cases hsame

end

end Redskilled.Github.BalanceStore
