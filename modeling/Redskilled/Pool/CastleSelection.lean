import Mathlib.Data.List.Sort
import Redskilled.Foundation.JsText

/-!
# The selection of issues

A worker takes its issues from the candidates of one pool. Candidates of the spec type and those
of a lane that is isolated from the pool are left out, and so is what lies beyond the scope of the
producer. The urgent ones come first, in the order of their numbers, whatever the filter says; the
others follow in the order of the filter.

The lower case of a login is a parameter.
-/
namespace Redskilled.Pool.CastleSelection
open Foundation List

structure CastleIssueCandidate where
  number : ℕ
  body : Text
  labels : List Text
  author : Option Text
  deriving DecidableEq

structure WorkSelector where
  spec : Option ℕ
  lane : Option Text
  label : Option Text
  issues : Option (List ℕ)
  tags : Option (List Text)
  user : Option Text

inductive CastleSelectionFilter where
  | all
  | issues (numbers : List ℕ)
  | spec (spec : ℕ)
  | selector (selector : WorkSelector)

structure CastleSelectionLabels where
  typeSpec : Text
  urgent : Text
  high : Text
  laneIsolated : List Text

structure CastleIssueSelectionError where
  message : Text
  numbers : List ℕ
  deriving DecidableEq

def hasLabel (c : CastleIssueCandidate) (label : Text) : Bool := c.labels.contains label

def isWordChar (c : Char) : Bool := c.isAlphanum || c == '_'

/-- ``/^spec:\s*#?N\b/``. -/
def startsSpec (spec : ℕ) (t : Text) : Bool :=
  (t.dropPrefix? "spec:".toList).any fun rest =>
    let rest : Text := rest.dropWhile Text.isWhitespace
    let rest : Text := if rest.head? = some '#' then rest.tail else rest
    (rest.dropPrefix? (Text.number spec)).any fun rest => !(rest.head?.any isWordChar)

def matchesSpec (c : CastleIssueCandidate) (spec : ℕ) : Bool :=
  hasLabel c ("spec:".toList ++ Text.number spec) || c.body.tails.any (startsSpec spec)

section
variable (toLowerCase : Text → Text)

def matchesWorkSelector (c : CastleIssueCandidate) (selector : WorkSelector) : Bool :=
  selector.spec.all (matchesSpec c) &&
    selector.lane.all (fun lane => hasLabel c ("lane:".toList ++ lane)) &&
    selector.label.all (hasLabel c) &&
    selector.issues.all (fun numbers => numbers.contains c.number) &&
    selector.tags.all (fun tags => tags.all fun tag => hasLabel c ("tag:".toList ++ tag)) &&
    selector.user.all (fun user => c.author.any fun author => toLowerCase author = toLowerCase user)

def carried (c : CastleIssueCandidate) (laneIsolated : List Text) : List Text :=
  laneIsolated.filter (hasLabel c)

def isolatedFromPool (c : CastleIssueCandidate) (poolLabel : Text) (laneIsolated : List Text) :
    Bool :=
  !(carried c laneIsolated).isEmpty && !(carried c laneIsolated).all (· = poolLabel)

def byNumber (a b : CastleIssueCandidate) : Prop := a.number ≤ b.number

instance : DecidableRel byNumber := fun a b => inferInstanceAs (Decidable (a.number ≤ b.number))

def priority (labels : CastleSelectionLabels) (c : CastleIssueCandidate) : ℕ :=
  if hasLabel c labels.high then 0 else 1

def sortByPriority (candidates : List CastleIssueCandidate) (labels : CastleSelectionLabels) :
    List CastleIssueCandidate :=
  candidates.insertionSort fun a b =>
    priority labels a < priority labels b ∨
      priority labels a = priority labels b ∧ a.number ≤ b.number

variable (labels : CastleSelectionLabels) (poolLabel declaredLane : Text)

/-- The candidates that the filter is to choose from. -/
def pool (candidates : List CastleIssueCandidate) (filter : CastleSelectionFilter) :
    List CastleIssueCandidate :=
  let excluded := candidates.filter fun c =>
    !hasLabel c labels.typeSpec && !isolatedFromPool c poolLabel labels.laneIsolated
  match filter with
  | .selector selector => excluded.filter fun c => matchesWorkSelector toLowerCase c selector
  | _ => excluded

/-- The entry of a map by number, in which the last candidate of a number stays. -/
def candidateOf (pool : List CastleIssueCandidate) (number : ℕ) : Option CastleIssueCandidate :=
  pool.reverse.find? fun c => c.number = number

def missingMessage (missing : List ℕ) : Text :=
  "requested issue(s) missing: ".toList ++
    List.intercalate ", ".toList (missing.map fun number => '#' :: Text.number number) ++
    " (declared lane `".toList ++ declaredLane ++ "`; consulted queue `".toList ++ poolLabel ++
    "`)".toList

def filtered (pool : List CastleIssueCandidate) (filter : CastleSelectionFilter) :
    Except CastleIssueSelectionError (List CastleIssueCandidate) :=
  let rest := pool.filter fun c => !hasLabel c labels.urgent
  match filter with
  | .issues numbers =>
    let missing := numbers.filter fun number => (candidateOf pool number).isNone
    if missing = [] then .ok (numbers.filterMap (candidateOf pool))
    else .error ⟨missingMessage poolLabel declaredLane missing, missing⟩
  | .spec spec => .ok (sortByPriority (rest.filter fun c => matchesSpec c spec) labels)
  | _ => .ok (sortByPriority rest labels)

def urgentOf (pool : List CastleIssueCandidate) : List CastleIssueCandidate :=
  (pool.filter fun c => hasLabel c labels.urgent).insertionSort byNumber

def selectCastleIssues (candidates : List CastleIssueCandidate)
    (filter : CastleSelectionFilter) :
    Except CastleIssueSelectionError (List CastleIssueCandidate) :=
  let pool := pool toLowerCase labels poolLabel candidates filter
  let urgent := urgentOf labels pool
  (filtered labels poolLabel declaredLane pool filter).map fun filtered =>
    urgent ++ filtered.filter fun c => !(urgent.map (·.number)).contains c.number

structure Consulted (filter : CastleSelectionFilter) (c : CastleIssueCandidate) : Prop where
  type : labels.typeSpec ∉ c.labels
  lane : ∀ label ∈ labels.laneIsolated, label ∈ c.labels → label = poolLabel
  scope : ∀ selector, filter = .selector selector →
    matchesWorkSelector toLowerCase c selector = true

structure Selects (candidates : List CastleIssueCandidate) (filter : CastleSelectionFilter)
    (selected : List CastleIssueCandidate) : Prop where
  nodup : (selected.map (·.number)).Nodup
  consulted : ∀ c ∈ selected, c ∈ candidates ∧ Consulted toLowerCase labels poolLabel filter c
  urgentFirst : ∃ (urgent others : List CastleIssueCandidate), selected = urgent ++ others ∧
    urgent.Pairwise byNumber ∧
    (∀ c, c ∈ urgent ↔ c ∈ candidates ∧ Consulted toLowerCase labels poolLabel filter c ∧
      labels.urgent ∈ c.labels) ∧
    ∀ c ∈ others, labels.urgent ∉ c.labels

/-- A number of the filter is no candidate of the pool, or each that is not urgent is given
once. -/
def GivenOnce (candidates : List CastleIssueCandidate) : CastleSelectionFilter → Prop
  | .issues numbers =>
    (∃ number ∈ numbers, ∀ c ∈ candidates,
        Consulted toLowerCase labels poolLabel (.issues numbers) c → c.number ≠ number) ∨
      ∀ c ∈ candidates, Consulted toLowerCase labels poolLabel (.issues numbers) c →
        labels.urgent ∉ c.labels → numbers.count c.number ≤ 1
  | _ => True

end

section
variable {toLowerCase : Text → Text} {labels : CastleSelectionLabels}
  {poolLabel declaredLane : Text} {candidates selected : List CastleIssueCandidate}
  {filter : CastleSelectionFilter} {c : CastleIssueCandidate}

lemma hasLabel_iff {label : Text} : hasLabel c label = true ↔ label ∈ c.labels := by
  simp [hasLabel]

lemma not_isolated_iff {laneIsolated : List Text} :
    isolatedFromPool c poolLabel laneIsolated = false ↔
      ∀ label ∈ laneIsolated, label ∈ c.labels → label = poolLabel := by
  unfold isolatedFromPool
  constructor
  · intro h label hlane hlab
    have hmem : label ∈ carried c laneIsolated :=
      mem_filter.mpr ⟨hlane, hasLabel_iff.mpr hlab⟩
    have hne : (carried c laneIsolated).isEmpty = false := by
      simpa using ne_nil_of_mem hmem
    rw [hne, Bool.not_false, Bool.true_and, Bool.not_eq_false'] at h
    simpa using all_eq_true.mp h label hmem
  · intro h
    have hall : (carried c laneIsolated).all (· = poolLabel) = true := by
      rw [all_eq_true]
      intro label hmem
      obtain ⟨hlane, hlab⟩ := mem_filter.mp hmem
      simpa using h label hlane (hasLabel_iff.mp hlab)
    rw [hall, Bool.not_true, Bool.and_false]

lemma mem_pool : c ∈ pool toLowerCase labels poolLabel candidates filter ↔
    c ∈ candidates ∧ Consulted toLowerCase labels poolLabel filter c := by
  have hexcl : (!hasLabel c labels.typeSpec &&
        !isolatedFromPool c poolLabel labels.laneIsolated) = true ↔
      labels.typeSpec ∉ c.labels ∧
        ∀ label ∈ labels.laneIsolated, label ∈ c.labels → label = poolLabel := by
    rw [Bool.and_eq_true, Bool.not_eq_true', Bool.not_eq_true', not_isolated_iff,
      ← hasLabel_iff, Bool.not_eq_true]
  constructor
  · intro h
    cases filter with
    | selector selector =>
      obtain ⟨h, hscope⟩ := mem_filter.mp h
      obtain ⟨hc, h⟩ := mem_filter.mp h
      obtain ⟨htype, hlane⟩ := hexcl.mp h
      exact ⟨hc, htype, hlane, fun selector' heq => by
        obtain rfl := CastleSelectionFilter.selector.inj heq
        exact hscope⟩
    | _ =>
      obtain ⟨hc, h⟩ := mem_filter.mp h
      obtain ⟨htype, hlane⟩ := hexcl.mp h
      exact ⟨hc, htype, hlane, by simp⟩
  · rintro ⟨hc, htype, hlane, hscope⟩
    have hmem : c ∈ candidates.filter fun c => !hasLabel c labels.typeSpec &&
        !isolatedFromPool c poolLabel labels.laneIsolated :=
      mem_filter.mpr ⟨hc, hexcl.mpr ⟨htype, hlane⟩⟩
    cases filter with
    | selector selector => exact mem_filter.mpr ⟨hmem, hscope selector rfl⟩
    | all => exact hmem
    | issues numbers => exact hmem
    | spec spec => exact hmem

lemma pool_sublist : (pool toLowerCase labels poolLabel candidates filter).Sublist candidates := by
  cases filter with
  | selector selector => exact filter_sublist.trans filter_sublist
  | _ => exact filter_sublist

lemma mem_urgentOf : c ∈ urgentOf labels (pool toLowerCase labels poolLabel candidates filter) ↔
      c ∈ candidates ∧ Consulted toLowerCase labels poolLabel filter c ∧
        labels.urgent ∈ c.labels := by
  rw [urgentOf, mem_insertionSort, mem_filter, mem_pool, hasLabel_iff, and_assoc]

lemma pairwise_urgentOf (pool : List CastleIssueCandidate) :
    (urgentOf labels pool).Pairwise byNumber := by
  have htot : Std.Total byNumber := ⟨fun a b => Nat.le_total a.number b.number⟩
  have htrans : IsTrans CastleIssueCandidate byNumber := ⟨fun _ _ _ => Nat.le_trans⟩
  exact pairwise_insertionSort byNumber _

lemma numbers_injective (hcand : (candidates.map (·.number)).Nodup)
    {c c' : CastleIssueCandidate} (hc : c ∈ candidates) (hc' : c' ∈ candidates)
    (h : c.number = c'.number) : c = c' :=
  inj_on_of_nodup_map hcand hc hc' h

lemma candidateOf_eq_some {pool : List CastleIssueCandidate} {number : ℕ}
    (h : candidateOf pool number = some c) : c ∈ pool ∧ c.number = number := by
  have hmem := mem_of_find?_eq_some h
  have hnumb := find?_some h
  exact ⟨mem_reverse.mp hmem, by simpa using hnumb⟩

lemma candidateOf_isSome {pool : List CastleIssueCandidate} (hc : c ∈ pool) :
    (candidateOf pool c.number).isSome = true := by
  rw [candidateOf, find?_isSome]
  exact ⟨c, mem_reverse.mpr hc, by simp⟩

lemma map_filterMap_candidateOf {pool : List CastleIssueCandidate} {numbers : List ℕ}
    (h : ∀ number ∈ numbers, (candidateOf pool number).isSome = true) :
    (numbers.filterMap (candidateOf pool)).map (·.number) = numbers := by
  induction numbers with
  | nil => rfl
  | cons number numbers ih =>
    obtain ⟨c, hc⟩ := Option.isSome_iff_exists.mp (h number mem_cons_self)
    rw [filterMap_cons_some hc, map_cons, (candidateOf_eq_some hc).2,
      ih fun number hn => h number (mem_cons_of_mem _ hn)]

def others (labels : CastleSelectionLabels) (pool filtered : List CastleIssueCandidate) :
    List CastleIssueCandidate :=
  filtered.filter fun c => !((urgentOf labels pool).map (·.number)).contains c.number

lemma mem_others {pool filtered : List CastleIssueCandidate} : c ∈ others labels pool filtered ↔
      c ∈ filtered ∧ c.number ∉ (urgentOf labels pool).map (·.number) := by
  simp [others]

variable (labels) in
lemma number_mem_urgentOf (hcand : (candidates.map (·.number)).Nodup)
    (hc : c ∈ pool toLowerCase labels poolLabel candidates filter) :
    c.number ∈ (urgentOf labels (pool toLowerCase labels poolLabel candidates filter)).map
        (·.number) ↔ labels.urgent ∈ c.labels := by
  constructor
  · intro h
    obtain ⟨c', hc', hnumb⟩ := mem_map.mp h
    obtain ⟨hmem', -, hurg⟩ := mem_urgentOf.mp hc'
    have heq : c' = c := numbers_injective hcand hmem' (mem_pool.mp hc).1 hnumb
    exact heq ▸ hurg
  · intro h
    exact mem_map_of_mem (mem_urgentOf.mpr ⟨(mem_pool.mp hc).1, (mem_pool.mp hc).2, h⟩)

lemma nodup_urgentOf (hcand : (candidates.map (·.number)).Nodup) :
    ((urgentOf labels (pool toLowerCase labels poolLabel candidates filter)).map
      (·.number)).Nodup := by
  have hperm := (perm_insertionSort byNumber
    ((pool toLowerCase labels poolLabel candidates filter).filter fun c =>
      hasLabel c labels.urgent)).map (·.number)
  rw [urgentOf, hperm.nodup_iff]
  exact hcand.sublist ((filter_sublist.trans pool_sublist).map _)

lemma selects_of {filtered : List CastleIssueCandidate} (hcand : (candidates.map (·.number)).Nodup)
    (hfilt : ∀ c ∈ filtered, c ∈ pool toLowerCase labels poolLabel candidates filter)
    (hoth : ((others labels (pool toLowerCase labels poolLabel candidates filter)
      filtered).map (·.number)).Nodup) :
    Selects toLowerCase labels poolLabel candidates filter
      (urgentOf labels (pool toLowerCase labels poolLabel candidates filter) ++
        others labels (pool toLowerCase labels poolLabel candidates filter) filtered) := by
  constructor
  · rw [map_append, nodup_append]
    refine ⟨nodup_urgentOf hcand, hoth, ?_⟩
    intro number hurg number' hother heq
    obtain ⟨c, hc, rfl⟩ := mem_map.mp hother
    exact (mem_others.mp hc).2 (heq ▸ hurg)
  · intro c hc
    rcases mem_append.mp hc with hc | hc
    · obtain ⟨hmem, hcons, -⟩ := mem_urgentOf.mp hc
      exact ⟨hmem, hcons⟩
    · exact mem_pool.mp (hfilt c (mem_others.mp hc).1)
  · refine ⟨_, _, rfl, pairwise_urgentOf _, fun c => mem_urgentOf, ?_⟩
    intro c hc hurg
    obtain ⟨hmem, hnot⟩ := mem_others.mp hc
    exact hnot ((number_mem_urgentOf labels hcand (hfilt c hmem)).mpr hurg)

lemma selects_sorted {chosen : List CastleIssueCandidate}
    (hcand : (candidates.map (·.number)).Nodup)
    (hchos : chosen.Sublist (pool toLowerCase labels poolLabel candidates filter)) :
    Selects toLowerCase labels poolLabel candidates filter
      (urgentOf labels (pool toLowerCase labels poolLabel candidates filter) ++
        others labels (pool toLowerCase labels poolLabel candidates filter)
          (sortByPriority chosen labels)) := by
  have hperm : (sortByPriority chosen labels).Perm chosen := perm_insertionSort _ _
  apply selects_of hcand
  · intro c hc
    exact hchos.subset (hperm.mem_iff.mp hc)
  · have hnod : ((sortByPriority chosen labels).map (·.number)).Nodup := by
      rw [(hperm.map (·.number)).nodup_iff]
      exact hcand.sublist ((hchos.trans pool_sublist).map _)
    exact hnod.sublist (filter_sublist.map _)

section
variable {numbers : List ℕ}

lemma map_others (hfound : ∀ number ∈ numbers,
      (candidateOf (pool toLowerCase labels poolLabel candidates (.issues numbers))
        number).isSome = true) :
    (others labels (pool toLowerCase labels poolLabel candidates (.issues numbers))
        (numbers.filterMap (candidateOf (pool toLowerCase labels poolLabel candidates
          (.issues numbers))))).map (·.number) =
      numbers.filter fun number =>
        !((urgentOf labels (pool toLowerCase labels poolLabel candidates (.issues numbers))).map
          (·.number)).contains number := by
  have hmap := map_filterMap_candidateOf hfound
  conv_rhs => rw [← hmap]
  rw [filter_map]
  rfl

lemma nodup_others_iff (hcand : (candidates.map (·.number)).Nodup) (hfound : ∀ number ∈ numbers,
      (candidateOf (pool toLowerCase labels poolLabel candidates (.issues numbers))
        number).isSome = true) :
    ((others labels (pool toLowerCase labels poolLabel candidates (.issues numbers))
        (numbers.filterMap (candidateOf (pool toLowerCase labels poolLabel candidates
          (.issues numbers))))).map (·.number)).Nodup ↔
      ∀ c ∈ candidates, Consulted toLowerCase labels poolLabel (.issues numbers) c →
        labels.urgent ∉ c.labels → numbers.count c.number ≤ 1 := by
  rw [map_others hfound, nodup_iff_count_le_one]
  constructor
  · intro h c hc hcons hurg
    have hpool := mem_pool.mpr ⟨hc, hcons⟩
    have hnot := mt (number_mem_urgentOf labels hcand hpool).mp hurg
    have hcount := h c.number
    rwa [count_filter (by simpa using hnot)] at hcount
  · intro h number
    by_cases hnumb : number ∈ numbers.filter fun number =>
        !((urgentOf labels (pool toLowerCase labels poolLabel candidates (.issues numbers))).map
          (·.number)).contains number
    · obtain ⟨hmem, hkeep⟩ := mem_filter.mp hnumb
      obtain ⟨c, hc⟩ := Option.isSome_iff_exists.mp (hfound number hmem)
      obtain ⟨hpool, rfl⟩ := candidateOf_eq_some hc
      have hurg := mt (number_mem_urgentOf labels hcand hpool).mpr
        (by simpa using hkeep)
      have hcount := h c (mem_pool.mp hpool).1 (mem_pool.mp hpool).2 hurg
      exact (filter_sublist.count_le c.number).trans hcount
    · rw [count_eq_zero_of_not_mem hnumb]
      exact Nat.zero_le 1

lemma missing_iff : (∃ number ∈ numbers, ∀ c ∈ candidates,
        Consulted toLowerCase labels poolLabel (.issues numbers) c → c.number ≠ number) ↔
      numbers.filter (fun number =>
        (candidateOf (pool toLowerCase labels poolLabel candidates (.issues numbers))
          number).isNone) ≠ [] := by
  rw [Ne, filter_eq_nil_iff, not_forall]
  constructor
  · rintro ⟨number, hnumb, hnone⟩
    refine ⟨number, fun h => h hnumb ?_⟩
    rw [Option.isNone_iff_eq_none, candidateOf, find?_eq_none]
    intro c hc
    obtain ⟨hmem, hcons⟩ := mem_pool.mp (mem_reverse.mp hc)
    simpa using hnone c hmem hcons
  · rintro ⟨number, h⟩
    obtain ⟨hnumb, hnone⟩ := Classical.not_imp.mp h
    refine ⟨number, hnumb, fun c hc hcons heq => ?_⟩
    subst heq
    have hsome := candidateOf_isSome (mem_pool.mpr ⟨hc, hcons⟩)
    rw [not_not, Option.isNone_iff_eq_none] at hnone
    rw [hnone] at hsome
    cases hsome

end

lemma selectCastleIssues_eq :
    selectCastleIssues toLowerCase labels poolLabel declaredLane candidates filter =
      (filtered labels poolLabel declaredLane
          (pool toLowerCase labels poolLabel candidates filter) filter).map fun filtered =>
        urgentOf labels (pool toLowerCase labels poolLabel candidates filter) ++
          others labels (pool toLowerCase labels poolLabel candidates filter) filtered := rfl

variable (declaredLane) in
/-- What is selected is right where each number of the filter is given once, and only there. -/
lemma selects_iff (hcand : (candidates.map (·.number)).Nodup) :
    (∀ selected, selectCastleIssues toLowerCase labels poolLabel declaredLane candidates filter =
        .ok selected → Selects toLowerCase labels poolLabel candidates filter selected) ↔
      GivenOnce toLowerCase labels poolLabel candidates filter := by
  rw [selectCastleIssues_eq]
  cases filter with
  | all =>
    refine iff_of_true ?_ trivial
    rintro selected ⟨⟩
    exact selects_sorted hcand filter_sublist
  | spec spec =>
    refine iff_of_true ?_ trivial
    rintro selected ⟨⟩
    exact selects_sorted hcand (filter_sublist.trans filter_sublist)
  | selector selector =>
    refine iff_of_true ?_ trivial
    rintro selected ⟨⟩
    exact selects_sorted hcand filter_sublist
  | issues numbers =>
    rw [GivenOnce, missing_iff, filtered]
    by_cases hmiss : numbers.filter (fun number =>
        (candidateOf (pool toLowerCase labels poolLabel candidates (.issues numbers))
          number).isNone) = []
    · rw [if_pos hmiss]
      have hfound : ∀ number ∈ numbers,
          (candidateOf (pool toLowerCase labels poolLabel candidates (.issues numbers))
            number).isSome = true := by
        intro number hnumb
        have hnot := filter_eq_nil_iff.mp hmiss number hnumb
        simpa [Option.isSome_iff_ne_none] using hnot
      rw [← nodup_others_iff hcand hfound, or_iff_right (not_not.mpr hmiss)]
      constructor
      · intro h
        have hnod := (h _ rfl).nodup
        rw [map_append, nodup_append] at hnod
        exact hnod.2.1
      · rintro hoth selected ⟨⟩
        apply selects_of hcand _ hoth
        intro c hc
        obtain ⟨number, -, hnumb⟩ := mem_filterMap.mp hc
        exact (candidateOf_eq_some hnumb).1
    · rw [if_neg hmiss]
      refine iff_of_true ?_ (.inl hmiss)
      rintro selected ⟨⟩

end
end Redskilled.Pool.CastleSelection
