import Redskilled.Foundation.Json
import Redskilled.Foundation.NumericText
import Redskilled.Github.ConditionalClient

/-!
# One query for many objects

Cold reads of one kind share a query. Each read stands in it under an alias, which is its
place in the group, and the answer is read back alias by alias. A read that GitHub does
not answer has no value.
-/
namespace Redskilled.Github
open Foundation Foundation.Text

inductive GithubSingleObjectKind where
  | issue | pr
  deriving DecidableEq

def GithubSingleObjectKind.text : GithubSingleObjectKind → Text
  | .issue => "issue".toList
  | .pr => "pr".toList

inductive GithubApiSurface where
  | rest | graphql
  deriving DecidableEq

def GithubApiSurface.text : GithubApiSurface → Text
  | .rest => "rest".toList
  | .graphql => "graphql".toList

/-- What a read names. A number is none where it is no finite number. -/
structure GithubObject where
  kind : GithubSingleObjectKind
  owner : Text
  repo : Text
  number : Option ℚ

/-- `project` is none where the projection throws. -/
structure GithubSingleObjectRequest extends GithubObject where
  selection : Text
  cacheKey : Text
  operationKey : Text
  budget : GithubRateBudget
  rail : Option GithubApiSurface
  project : Json → GithubApiSurface → Option Json

/-- One aliased selection of the query. -/
structure AliasedSelection where
  alias_ : Text
  kind : GithubSingleObjectKind
  owner : Text
  repo : Text
  number : ℕ
  selection : Text

structure GithubAliasedSingleObjectQuery where
  selections : List AliasedSelection
  aliases : List (Text × GithubSingleObjectRequest)

inductive QueryError where
  | noReads
  | mixedKinds
  | badNumber
  | noSelection

def aliasFor (index : ℕ) : Text := 'r' :: number index

def positiveNumber (n : Option ℚ) : Option ℕ :=
  n.bind fun n =>
    if n.den = 1 ∧ 0 < n ∧ n ≤ (2 ^ 53 - 1 : ℕ) then some n.num.toNat else none

def selectionOf (index : ℕ) (read : GithubSingleObjectRequest) :
    Except QueryError AliasedSelection :=
  match positiveNumber read.number with
  | none => .error .badNumber
  | some number =>
    if trim read.selection = [] then .error .noSelection
    else .ok ⟨aliasFor index, read.kind, read.owner, read.repo, number, trim read.selection⟩

def selectionsFrom (index : ℕ) :
    List GithubSingleObjectRequest → Except QueryError (List AliasedSelection)
  | [] => .ok []
  | read :: reads =>
    match selectionOf index read with
    | .error error => .error error
    | .ok selection =>
      match selectionsFrom (index + 1) reads with
      | .error error => .error error
      | .ok selections => .ok (selection :: selections)

def aliasesFrom (index : ℕ) : List GithubSingleObjectRequest → List (Text × GithubSingleObjectRequest)
  | [] => []
  | read :: reads => (aliasFor index, read) :: aliasesFrom (index + 1) reads

def buildSingleObjectReadsQuery (reads : List GithubSingleObjectRequest) :
    Except QueryError GithubAliasedSingleObjectQuery :=
  match reads with
  | [] => .error .noReads
  | first :: _ =>
    if reads.any fun read => read.kind ≠ first.kind then .error .mixedKinds
    else
      match selectionsFrom 0 reads with
      | .error error => .error error
      | .ok selections => .ok ⟨selections, aliasesFrom 0 reads⟩

def AliasedSelection.text (s : AliasedSelection) : Text :=
  "  ".toList ++ s.alias_ ++ ": repository(owner: ".toList ++ jsonString s.owner ++
    ", name: ".toList ++ jsonString s.repo ++ ") \x7b\n    object: ".toList ++
    (if s.kind = .pr then "pullRequest".toList else "issue".toList) ++ "(number: ".toList ++
    Text.number s.number ++ ") \x7b ".toList ++ s.selection ++ " \x7d\n  \x7d".toList

def GithubAliasedSingleObjectQuery.query (q : GithubAliasedSingleObjectQuery) : Text :=
  ['\n'].intercalate (["query CoalescedSingleObjectReads \x7b".toList] ++
    q.selections.map AliasedSelection.text ++ ["  rateLimit \x7b cost \x7d".toList, "\x7d".toList])

def fieldOf (v : Json) (name : Text) : Option Json :=
  match v with
  | .object fields =>
    match fields.lookup name with
    | some .null => none
    | field => field
  | _ => none

def isRecord : Json → Bool
  | .object _ => true
  | _ => false

/-- `envelope.data ?? envelope`. -/
def rootOf (data : Json) : Json := (fieldOf data "data".toList).getD data

def valueUnder (data : Json) (alias_ : Text) : Option Json :=
  ((fieldOf (rootOf data) alias_).bind fun repository => fieldOf repository "object".toList).filter
    isRecord

def safeCount : Json → Option ℕ
  | .number n =>
    match toNumber n.text with
    | some ⟨negative, (magnitude : ℚ≥0)⟩ =>
      if magnitude.den = 1 ∧ magnitude ≤ (2 ^ 53 - 1 : ℕ) ∧ (negative = false ∨ magnitude = 0)
      then some magnitude.num else none
    | _ => none
  | _ => none

/-- None where the answer does not say what it cost. -/
def graphqlPointCost (answer : Json) : Option ℕ :=
  let root := ((fieldOf answer "data".toList).filter isRecord).getD answer
  ((fieldOf root "rateLimit".toList).bind fun rateLimit => fieldOf rateLimit "cost".toList).bind
    safeCount

section
variable {read : GithubSingleObjectRequest} {reads : List GithubSingleObjectRequest}
  {index : ℕ} {selections : List AliasedSelection}

def Valid (read : GithubSingleObjectRequest) : Prop :=
  (positiveNumber read.number).isSome = true ∧ trim read.selection ≠ []

instance (read : GithubSingleObjectRequest) : Decidable (Valid read) :=
  inferInstanceAs (Decidable (_ ∧ _))

variable (index) in
lemma selectionOf_ok : (∃ s, selectionOf index read = .ok s) ↔ Valid read := by
  unfold selectionOf Valid
  cases positiveNumber read.number with
  | none => simp
  | some n =>
    by_cases hblank : trim read.selection = []
    · simp [hblank]
    · simp [hblank]

variable (index) in
lemma selectionsFrom_ok : (∃ ss, selectionsFrom index reads = .ok ss) ↔ ∀ r ∈ reads, Valid r := by
  induction reads generalizing index with
  | nil =>
    constructor
    · intro _ r hr
      cases hr
    · exact fun _ => ⟨[], rfl⟩
  | cons read reads ih =>
    rw [List.forall_mem_cons, ← ih (index + 1), ← selectionOf_ok index]
    simp only [selectionsFrom]
    cases selectionOf index read with
    | error error => simp
    | ok s =>
      cases selectionsFrom (index + 1) reads with
      | error error => simp
      | ok ss => simp

lemma build_ok (hne : reads ≠ []) {kind : GithubSingleObjectKind}
    (hkind : ∀ r ∈ reads, r.kind = kind) :
    (∃ q, buildSingleObjectReadsQuery reads = .ok q) ↔ ∀ r ∈ reads, Valid r := by
  rw [← selectionsFrom_ok 0]
  cases reads with
  | nil => exact absurd rfl hne
  | cons first rest =>
    have hsame : ((first :: rest).any fun read => read.kind ≠ first.kind) = false := by
      apply List.any_eq_false.mpr
      intro r hr
      rw [hkind r hr, hkind first List.mem_cons_self]
      simp
    unfold buildSingleObjectReadsQuery
    simp only [hsame, Bool.false_eq_true, if_false]
    cases selectionsFrom 0 (first :: rest) with
    | error error => simp
    | ok ss => simp

lemma parts_of_build {q : GithubAliasedSingleObjectQuery}
    (h : buildSingleObjectReadsQuery reads = .ok q) :
    selectionsFrom 0 reads = .ok q.selections ∧ q.aliases = aliasesFrom 0 reads := by
  cases reads with
  | nil => cases h
  | cons first rest =>
    unfold buildSingleObjectReadsQuery at h
    dsimp only at h
    split_ifs at h
    split at h
    · cases h
    · next hselect =>
        cases h
        exact ⟨hselect, rfl⟩

def Asks (s : AliasedSelection) (alias_ : Text) (read : GithubSingleObjectRequest) : Prop :=
  s.alias_ = alias_ ∧ s.kind = read.kind ∧ s.owner = read.owner ∧ s.repo = read.repo ∧
    read.number = some (s.number : ℚ)

lemma positiveNumber_eq {n : Option ℚ} {m : ℕ} (h : positiveNumber n = some m) :
    n = some (m : ℚ) := by
  obtain ⟨q, rfl, hq⟩ := Option.bind_eq_some_iff.mp h
  split_ifs at hq with hsafe
  obtain ⟨hden, hpos, -⟩ := hsafe
  have hnum : (q.num : ℚ) = q := (Rat.den_eq_one_iff q).mp hden
  have hnonn : 0 ≤ q.num := (Rat.num_pos.mpr hpos).le
  have hcast : ((m : ℤ) : ℚ) = q := by
    rw [← Option.some.inj hq, Int.toNat_of_nonneg hnonn, hnum]
  rw [← hcast, Int.cast_natCast]

lemma asks_of_alias (h : selectionsFrom index reads = .ok selections) :
    ∀ e ∈ aliasesFrom index reads, ∃ s ∈ selections, Asks s e.1 e.2 := by
  induction reads generalizing index selections with
  | nil =>
    intro e he
    cases he
  | cons read reads ih =>
    simp only [selectionsFrom] at h
    cases hsel : selectionOf index read with
    | error error =>
      rw [hsel] at h
      cases h
    | ok s =>
      rw [hsel] at h
      cases hrest : selectionsFrom (index + 1) reads with
      | error error =>
        rw [hrest] at h
        cases h
      | ok ss =>
        rw [hrest] at h
        cases h
        intro e he
        rcases List.mem_cons.mp he with rfl | he
        · refine ⟨s, List.mem_cons_self, ?_⟩
          unfold selectionOf at hsel
          cases hnumb : positiveNumber read.number with
          | none =>
            rw [hnumb] at hsel
            cases hsel
          | some n =>
            rw [hnumb] at hsel
            dsimp only at hsel
            split_ifs at hsel
            cases hsel
            exact ⟨rfl, rfl, rfl, rfl, positiveNumber_eq hnumb⟩
        · obtain ⟨s', hs', hasks⟩ := ih hrest e he
          exact ⟨s', List.mem_cons_of_mem s hs', hasks⟩

end
end Redskilled.Github
