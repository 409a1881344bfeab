import Redskilled.Foundation.Dialogue
import Redskilled.Tracker.StateTransition

/-!
# Dependencies

An issue that waits declares what it waits for: by labels that start with `reqPrefix`,
or, where no label names a number, by the references of its body under the heading
"Blocked by". When all of them are closed the issue is promoted, and the promotion takes
away every label that starts with `reqPrefix`.

How a number is printed is left open. It is asked of labels and of comments alone.
-/
namespace Redskilled.Tracker
open Foundation Dialogue List

structure TrackerIssue where
  number : JsNumber
  body : Text
  labels : List Text

structure TrackerIssueReference where
  number : JsNumber
  title : Option Text
  url : Option Text

inductive TrackerQuestion where
  | listOpenIssuesByLabel (label : Text)
  | isIssueClosed (issue : JsNumber)
  | editIssueLabels (issue : JsNumber) (remove add : List Text)
  | commentOnIssue (issue : JsNumber) (body : Text)
  | issueReference (issue : JsNumber)

namespace TrackerQuestion

abbrev Answer : TrackerQuestion → Type
  | .listOpenIssuesByLabel _ => List TrackerIssue
  | .isIssueClosed _ => Bool
  | .editIssueLabels .. => Unit
  | .commentOnIssue .. => Unit
  | .issueReference _ => Option TrackerIssueReference

def isEdit : TrackerQuestion → Bool
  | .editIssueLabels .. => true
  | _ => false

end TrackerQuestion

abbrev TrackerRun := Dialogue TrackerQuestion TrackerQuestion.Answer

abbrev TrackerTrace := List (Exchange TrackerQuestion TrackerQuestion.Answer)

structure DependencyPromotionPlan where
  issue : JsNumber
  dependencies : List JsNumber
  removeLabels : List Text
  addLabels : List Text

def issueNumber (n : ℕ) : JsNumber := ((n : ℚ≥0) : JsNumber)

/-- `Number(digits)`. -/
def numberOf (digits : Text) : JsNumber :=
  ((Text.toNumber digits).map (·.magnitude)).getD 0

def sortedSet (ns : List JsNumber) : List JsNumber := ns.eraseDups.insertionSort (· ≤ ·)

/-- `/^## /`. -/
def isAnyH2 (line : Text) : Bool := "## ".toList.isPrefixOf line

/-- `/^## Blocked by[ \t]*$/`. -/
def isBlockedByHeading (line : Text) : Bool :=
  let heading := "## Blocked by".toList
  heading.isPrefixOf line && (line.drop heading.length).all fun c => c = ' ' ∨ c = '\t'

/-- `/#[0-9]+/g`, without the number sign. -/
def refTokens : Text → List Text
  | [] => []
  | c :: t =>
    let digits := t.takeWhile Char.isDigit
    if c = '#' ∧ digits ≠ [] then digits :: refTokens t else refTokens t

/-- The references that the loop over the lines reads. -/
def readRefs (inSection : Bool) : List Text → List Text
  | [] => []
  | line :: lines =>
    if inSection then
      if isAnyH2 line then readRefs false lines else refTokens line ++ readRefs true lines
    else readRefs (isBlockedByHeading line) lines

def parseBlockedBy (body : Text) : List JsNumber :=
  sortedSet ((readRefs false (body.splitOn '\n')).map numberOf)

namespace StateTransitionLabels
variable (print : JsNumber → Text) (labels : StateTransitionLabels)

def labelForDependency (issue : JsNumber) : Text := labels.reqPrefix ++ print issue

def dependencyDigits (label : Text) : Option Text :=
  let t := Text.trim label
  let digits := t.drop labels.reqPrefix.length
  if labels.reqPrefix <+: t ∧ digits ≠ [] ∧ digits.all Char.isDigit then some digits else none

def parseDependencyLabels (issueLabels : List Text) : List JsNumber :=
  sortedSet ((issueLabels.filterMap labels.dependencyDigits).map numberOf)

/-- What the promotion of an issue relies on. -/
def dependencies (candidate : TrackerIssue) : List JsNumber :=
  let labelDeps := labels.parseDependencyLabels candidate.labels
  if labelDeps ≠ [] then labelDeps else parseBlockedBy candidate.body

def allClosed (justClosedIssue : Option JsNumber) : List JsNumber → TrackerRun Bool
  | [] => pure true
  | dependency :: rest =>
    if some dependency = justClosedIssue then allClosed justClosedIssue rest
    else do
      if ← need (.isIssueClosed dependency) then allClosed justClosedIssue rest else pure false

def promotionPlan (candidate : TrackerIssue) : Option DependencyPromotionPlan :=
  match labels.planTransition print candidate.labels .promote with
  | .error _ => none
  | .ok transition =>
    some ⟨candidate.number, labels.dependencies candidate, transition.remove, transition.add⟩

def planPromotion (justClosedIssue : Option JsNumber) (candidate : TrackerIssue) :
    TrackerRun (Option DependencyPromotionPlan) :=
  if labels.dependencyBlocked ∉ candidate.labels then pure none
  else if labels.dependencies candidate = [] then pure none
  else do
    if ← allClosed justClosedIssue (labels.dependencies candidate) then
      pure (labels.promotionPlan print candidate)
    else pure none

def planPromotions (justClosedIssue : Option JsNumber) :
    List TrackerIssue → TrackerRun (List DependencyPromotionPlan)
  | [] => pure []
  | candidate :: candidates => do
      let plan ← labels.planPromotion print justClosedIssue candidate
      let plans ← planPromotions justClosedIssue candidates
      pure (plan.toList ++ plans)

def renderIssueReference (ref : TrackerIssueReference) : Text :=
  let plain := '#' :: print ref.number
  match ref.title, ref.url with
  | some (c :: title), some (d :: url) =>
    "[".toList ++ (c :: title) ++ " (".toList ++ plain ++ ")](".toList ++ (d :: url) ++ ")".toList
  | _, _ => plain

def referenceOf (lookup : Bool) (number : JsNumber) :
    TrackerRun (Option (Option TrackerIssueReference)) :=
  if lookup then attempt (TrackerQuestion.issueReference number) else pure (some none)

def lookUp (lookup : Bool) : List JsNumber → TrackerRun (List (Option TrackerIssueReference))
  | [] => pure []
  | number :: numbers => do
      let answer ← referenceOf lookup number
      let refs ← lookUp lookup numbers
      pure ((answer.map fun ref => ref.getD ⟨number, none, none⟩) :: refs)

def dependencyAuditComment (lookup : Bool) (dependencies : List JsNumber) : TrackerRun Text := do
  match (← lookUp lookup dependencies).allSome with
  | none => .fail
  | some refs =>
    pure ("🤖 /afk unblocked: all dependencies closed (".toList ++
      List.intercalate ", ".toList (refs.map (renderIssueReference print)) ++ ").".toList)

def executePromotions (lookup : Bool) : List DependencyPromotionPlan → TrackerRun (List JsNumber)
  | [] => pure []
  | plan :: plans => do
      let _ ← need (.editIssueLabels plan.issue plan.removeLabels plan.addLabels)
      let comment ← dependencyAuditComment print lookup plan.dependencies
      let _ ← need (.commentOnIssue plan.issue comment)
      let promoted ← executePromotions lookup plans
      pure (plan.issue :: promoted)

def promote (lookup : Bool) (justClosedIssue : Option JsNumber) (candidates : List TrackerIssue) :
    TrackerRun (List JsNumber) := do
  let plans ← labels.planPromotions print justClosedIssue candidates
  executePromotions print lookup plans

def executeCloseCascade (lookup : Bool) (closedIssue : JsNumber) : TrackerRun (List JsNumber) := do
  let dependents ← need (.listOpenIssuesByLabel (labels.labelForDependency print closedIssue))
  labels.promote print lookup (some closedIssue) dependents

def executeUnblockSweep (lookup : Bool) : TrackerRun (List JsNumber) := do
  let candidates ← need (.listOpenIssuesByLabel labels.dependencyBlocked)
  labels.promote print lookup none candidates

/-! The section of the body as its headings tell it, and what the tracker was asked. -/

def sectionRefs (inside : Bool) : List Text → List Text
  | [] => []
  | line :: lines =>
    if isAnyH2 line then sectionRefs (isBlockedByHeading line) lines
    else (if inside then refTokens line else []) ++ sectionRefs inside lines

def refIssue (digits : Text) : ℕ := Nat.ofDigitChars 10 digits 0

def Names (label : Text) (issue : ℕ) : Prop :=
  ∃ digits, labels.dependencyDigits label = some digits ∧ refIssue digits = issue

/-- The issue is the one just closed, or the tracker has said that it is closed. -/
def Checked (justClosedIssue : Option JsNumber) (trace : TrackerTrace) (issue : ℕ) : Prop :=
  justClosedIssue = some (issueNumber issue) ∨
    ⟨.isIssueClosed (issueNumber issue), some true⟩ ∈ trace

/-- Each promotion is of a candidate that waits. -/
def Lawful (candidates : List TrackerIssue) (justClosedIssue : Option JsNumber)
    (trace : TrackerTrace) : Prop :=
  ∀ issue remove add answer, ⟨.editIssueLabels issue remove add, answer⟩ ∈ trace →
    ∃ candidate ∈ candidates, candidate.number = issue ∧
      labels.dependencyBlocked ∈ candidate.labels ∧
      (∀ l ∈ remove, labels.IsEdge l → ∃ n, labels.Names l n ∧ Checked justClosedIssue trace n) ∧
      (labels.parseDependencyLabels candidate.labels = [] →
        ∀ ref ∈ sectionRefs false (candidate.body.splitOn '\n'),
          Checked justClosedIssue trace (refIssue ref))

/-- The candidate is promoted once what it relies on is closed. -/
def Eligible (candidate : TrackerIssue) : Prop :=
  labels.dependencyBlocked ∈ candidate.labels ∧ labels.dependencies candidate ≠ [] ∧
    (labels.promotionPlan print candidate).isSome

def Exact (issue : ℕ) : Prop := JsNumber.nearest issue = issueNumber issue

/-- Each edge of the candidate names an issue by an exact number, and where it has no
edge that does, so does each reference, and none is only in a section that is passed
over. -/
def Declared (justClosedIssue : Option JsNumber) (candidate : TrackerIssue) : Prop :=
  (∀ l ∈ candidate.labels, labels.IsEdge l → ∃ n, labels.Names l n ∧ Exact n) ∧
    (labels.parseDependencyLabels candidate.labels = [] →
      ∀ ref ∈ sectionRefs false (candidate.body.splitOn '\n'),
        Exact (refIssue ref) ∧ (justClosedIssue = some (issueNumber (refIssue ref)) ∨
            ∃ read ∈ readRefs false (candidate.body.splitOn '\n'), refIssue read = refIssue ref))

variable {print labels} {lookup : Bool} {justClosedIssue : Option JsNumber}
  {candidates : List TrackerIssue} {candidate : TrackerIssue} {trace : TrackerTrace}

lemma mem_sortedSet {ns : List JsNumber} {n : JsNumber} : n ∈ sortedSet ns ↔ n ∈ ns := by
  simp [sortedSet]

variable {digits : Text} {n : ℕ} {outcome : Outcome (List JsNumber)}

lemma numberOf_digits (hne : digits ≠ []) (h : digits.all Char.isDigit) :
    numberOf digits = JsNumber.nearest (refIssue digits) := by
  rw [numberOf, Text.toNumber_digits hne h]
  rfl

lemma dependencyDigits_some {label : Text} (h : labels.dependencyDigits label = some digits) :
    digits ≠ [] ∧ digits.all Char.isDigit := by
  simp only [dependencyDigits, Option.ite_none_right_eq_some, Option.some.injEq] at h
  obtain ⟨⟨-, hne, hall⟩, rfl⟩ := h
  exact ⟨hne, hall⟩

lemma refTokens_digits {line : Text} (h : digits ∈ refTokens line) :
    digits ≠ [] ∧ digits.all Char.isDigit := by
  induction line with
  | nil => exact absurd h not_mem_nil
  | cons c t ih =>
    simp only [refTokens] at h
    split_ifs at h with hc
    · rcases mem_cons.mp h with rfl | h
      · exact ⟨hc.2, all_takeWhile⟩
      · exact ih h
    · exact ih h

lemma isAnyH2_of_heading {line : Text} (h : isBlockedByHeading line) : isAnyH2 line := by
  simp only [isBlockedByHeading, Bool.and_eq_true, isPrefixOf_iff_prefix] at h
  apply isPrefixOf_iff_prefix.mpr
  exact List.IsPrefix.trans (by decide +kernel) h.1

lemma mem_sectionRefs {inSection inside : Bool} (h : inSection = true → inside = true)
    {lines : List Text} {ref : Text} (href : ref ∈ readRefs inSection lines) :
    ref ∈ sectionRefs inside lines := by
  induction lines generalizing inSection inside with
  | nil => exact href
  | cons line lines ih =>
    have hfalse : false = true → inside = true := fun h => absurd h Bool.false_ne_true
    simp only [readRefs] at href
    simp only [sectionRefs]
    split_ifs at href with hin hline
    · rw [if_pos hline]
      exact ih (fun h => absurd h Bool.false_ne_true) href
    · rw [if_neg hline, if_pos (h hin)]
      rcases mem_append.mp href with htok | hrest
      · exact mem_append_left _ htok
      · exact mem_append_right _ (ih (fun _ => h hin) hrest)
    · by_cases hline : isAnyH2 line = true
      · rw [if_pos hline]
        exact ih id href
      · rw [if_neg hline]
        have hno : isBlockedByHeading line = false :=
          Bool.eq_false_iff.mpr fun hyes => hline (isAnyH2_of_heading hyes)
        rw [hno] at href
        exact mem_append_right _ (ih hfalse href)

lemma sectionRefs_digits {inside : Bool} {lines : List Text} {ref : Text}
    (h : ref ∈ sectionRefs inside lines) : ref ≠ [] ∧ ref.all Char.isDigit := by
  induction lines generalizing inside with
  | nil => exact absurd h not_mem_nil
  | cons line lines ih =>
    simp only [sectionRefs] at h
    split_ifs at h
    · exact ih h
    · rcases mem_append.mp h with h | h
      · exact refTokens_digits h
      · exact ih h
    · exact ih h

lemma mem_parseDependencyLabels {issueLabels : List Text} {n : JsNumber} :
    n ∈ labels.parseDependencyLabels issueLabels ↔
      ∃ l ∈ issueLabels, ∃ issue, labels.Names l issue ∧ JsNumber.nearest issue = n := by
  simp only [parseDependencyLabels, mem_sortedSet, mem_map, mem_filterMap]
  constructor
  · rintro ⟨digits, ⟨l, hl, hdig⟩, rfl⟩
    obtain ⟨hne, hall⟩ := dependencyDigits_some hdig
    exact ⟨l, hl, _, ⟨digits, hdig, rfl⟩, (numberOf_digits hne hall).symm⟩
  · rintro ⟨l, hl, issue, ⟨digits, hdig, rfl⟩, rfl⟩
    obtain ⟨hne, hall⟩ := dependencyDigits_some hdig
    exact ⟨digits, ⟨l, hl, hdig⟩, numberOf_digits hne hall⟩

lemma mem_parseBlockedBy {body : Text} {n : JsNumber} : n ∈ parseBlockedBy body ↔
    ∃ ref ∈ readRefs false (body.splitOn '\n'), JsNumber.nearest (refIssue ref) = n := by
  simp only [parseBlockedBy, mem_sortedSet, mem_map]
  constructor
  · rintro ⟨ref, href, rfl⟩
    obtain ⟨hne, hall⟩ := sectionRefs_digits (mem_sectionRefs id href)
    exact ⟨ref, href, (numberOf_digits hne hall).symm⟩
  · rintro ⟨ref, href, rfl⟩
    obtain ⟨hne, hall⟩ := sectionRefs_digits (mem_sectionRefs id href)
    exact ⟨ref, href, numberOf_digits hne hall⟩

/-! What a run has asked before it edits. -/

def Settled (justClosedIssue : Option JsNumber) (trace : TrackerTrace) (n : JsNumber) : Prop :=
  some n = justClosedIssue ∨ ⟨.isIssueClosed n, some true⟩ ∈ trace

lemma Settled.mono {n : JsNumber} {more : TrackerTrace} (h : Settled justClosedIssue trace n)
    (hsub : ∀ e ∈ trace, e ∈ more) : Settled justClosedIssue more n := by
  rcases h with h | h
  · exact .inl h
  · exact .inr (hsub _ h)

lemma allClosed_run {ds : List JsNumber} {value : Bool}
    (h : Run (allClosed justClosedIssue ds) trace (.returned value)) (hvalue : value = true) :
    ∀ d ∈ ds, Settled justClosedIssue trace d := by
  induction ds generalizing trace with
  | nil => exact fun d hd => absurd hd not_mem_nil
  | cons dependency rest ih =>
    simp only [allClosed] at h
    split_ifs at h with hjust
    · intro d hd
      rcases mem_cons.mp hd with rfl | hd
      · exact .inl hjust
      · exact ih h d hd
    · obtain ⟨closed, first, after, rfl, hask, hrest⟩ := h.bind_returned
      cases hask with
      | @ask _ _ answer _ _ hansw =>
        cases answer with
        | none => cases hansw
        | some a =>
          cases hansw
          cases closed with
          | false =>
            cases hrest
            cases hvalue
          | true =>
            intro d hd
            rcases mem_cons.mp hd with rfl | hd
            · exact .inr mem_cons_self
            · exact (ih hrest d hd).mono fun e he => mem_cons_of_mem _ he

structure Founded (print : JsNumber → Text) (labels : StateTransitionLabels)
    (justClosedIssue : Option JsNumber) (trace : TrackerTrace) (plan : DependencyPromotionPlan)
    (candidate : TrackerIssue) : Prop where
  waits : labels.dependencyBlocked ∈ candidate.labels
  relies : labels.dependencies candidate ≠ []
  planned : labels.promotionPlan print candidate = some plan
  settled : ∀ d ∈ labels.dependencies candidate, Settled justClosedIssue trace d

lemma planPromotion_run {plan : Option DependencyPromotionPlan}
    (h : Run (labels.planPromotion print justClosedIssue candidate) trace (.returned plan)) :
    ∀ p ∈ plan, Founded print labels justClosedIssue trace p candidate := by
  intro p hp
  obtain rfl : plan = some p := hp
  simp only [planPromotion] at h
  split_ifs at h with hwaits hrel
  · cases h
  · obtain ⟨closed, first, rest, rfl, hall, hrest⟩ := h.bind_returned
    have hsettl := allClosed_run hall
    cases closed with
    | false => cases hrest
    | true =>
      have hplan : labels.promotionPlan print candidate = some p := by
        generalize labels.promotionPlan print candidate = q at hrest
        cases hrest
        rfl
      exact ⟨hwaits, hrel, hplan, fun d hd =>
        (hsettl rfl d hd).mono fun e he => mem_append_left _ he⟩
  · cases h

lemma planPromotions_run {plans : List DependencyPromotionPlan}
    (h : Run (labels.planPromotions print justClosedIssue candidates) trace (.returned plans)) :
    ∀ p ∈ plans, ∃ candidate ∈ candidates,
      Founded print labels justClosedIssue trace p candidate := by
  induction candidates generalizing trace plans with
  | nil =>
    cases h
    exact fun p hp => absurd hp not_mem_nil
  | cons candidate candidates ih =>
    obtain ⟨plan, first, rest, rfl, hplan, hrest⟩ := h.bind_returned
    obtain ⟨others, second, last, rfl, hoth, hlast⟩ := hrest.bind_returned
    generalize hall : plan.toList ++ others = all at hlast
    cases hlast
    subst hall
    intro p hp
    rcases mem_append.mp hp with hp | hp
    · have hfound := planPromotion_run hplan p (Option.mem_toList.mp hp)
      exact ⟨candidate, mem_cons_self, { hfound with
        settled := fun d hd => (hfound.settled d hd).mono fun e he =>
          mem_append_left _ he }⟩
    · obtain ⟨c, hc, hfound⟩ := ih hoth p hp
      exact ⟨c, mem_cons_of_mem _ hc, { hfound with
        settled := fun d hd => (hfound.settled d hd).mono fun e he =>
          mem_append_right _ (mem_append_left _ he) }⟩

lemma notMem_of_noEdit {α : Type} {p : TrackerRun α} (hp : p.AtMost TrackerQuestion.isEdit 0)
    {outcome : Outcome α} (h : Run p trace outcome) (issue : JsNumber) (remove add : List Text)
    (answer : Option Unit) : ⟨.editIssueLabels issue remove add, answer⟩ ∉ trace := by
  have hcount := countP_eq_zero.mp (Nat.le_zero.mp (hp.run h))
  exact fun hin => hcount _ hin rfl

lemma allClosed_noEdit (ds : List JsNumber) :
    (allClosed justClosedIssue ds).AtMost TrackerQuestion.isEdit 0 := by
  induction ds with
  | nil => exact atMost_pure _ _
  | cons dependency rest ih =>
    simp only [allClosed]
    split_ifs
    · exact ih
    · apply AtMost.bind (n := 0) (m := 0) (atMost_need _)
      intro closed
      split_ifs
      · exact ih
      · exact atMost_pure _ _

lemma planPromotions_noEdit :
    (labels.planPromotions print justClosedIssue candidates).AtMost TrackerQuestion.isEdit 0 := by
  induction candidates with
  | nil => exact atMost_pure _ _
  | cons candidate candidates ih =>
    have hone : (labels.planPromotion print justClosedIssue candidate).AtMost
        TrackerQuestion.isEdit 0 := by
      simp only [planPromotion]
      split_ifs
      · exact atMost_pure _ _
      · apply AtMost.bind (n := 0) (m := 0) (allClosed_noEdit _)
        intro closed
        split_ifs
        · exact atMost_pure _ _
        · exact atMost_pure _ _
      · exact atMost_pure _ _
    apply AtMost.bind (n := 0) (m := 0) hone
    intro plan
    exact AtMost.bind (n := 0) (m := 0) ih fun plans => atMost_pure _ _

lemma dependencyAuditComment_noEdit (numbers : List JsNumber) :
    (dependencyAuditComment print lookup numbers).AtMost TrackerQuestion.isEdit 0 := by
  have hlook : (lookUp lookup numbers).AtMost TrackerQuestion.isEdit 0 := by
    induction numbers with
    | nil => exact atMost_pure _ _
    | cons number numbers ih =>
      have hone : (referenceOf lookup number).AtMost TrackerQuestion.isEdit 0 := by
        unfold referenceOf
        split_ifs
        · exact atMost_attempt _
        · exact atMost_pure _ _
      apply AtMost.bind (n := 0) (m := 0) hone
      intro answer
      exact AtMost.bind (n := 0) (m := 0) ih fun refs => atMost_pure _ _
  apply AtMost.bind (n := 0) (m := 0) hlook
  intro refs
  split
  · trivial
  · exact atMost_pure _ _

lemma executePromotions_run {plans : List DependencyPromotionPlan}
    (h : Run (executePromotions print lookup plans) trace outcome) {issue : JsNumber}
    {remove add : List Text} {answer : Option Unit}
    (hedit : ⟨.editIssueLabels issue remove add, answer⟩ ∈ trace) :
    ∃ p ∈ plans, p.issue = issue ∧ p.removeLabels = remove := by
  induction plans generalizing trace outcome with
  | nil =>
    cases h <;> exact absurd hedit not_mem_nil
  | cons plan plans ih =>
    rcases h.need_cases with rfl | rfl | ⟨a, rest, rfl, hrest⟩
    · exact absurd hedit not_mem_nil
    · cases mem_singleton.mp hedit
      exact ⟨plan, mem_cons_self, rfl, rfl⟩
    rcases mem_cons.mp hedit with heq | hedit
    · cases heq
      exact ⟨plan, mem_cons_self, rfl, rfl⟩
    rcases hrest.bind_cases with ⟨comment, first, rest, rfl, haud, hrest⟩ | ⟨before, haud⟩
    · have hnone := notMem_of_noEdit (dependencyAuditComment_noEdit _) haud issue remove add answer
      have hedit := (mem_append.mp hedit).resolve_left hnone
      rcases hrest.need_cases with rfl | rfl | ⟨b, last, rfl, hlast⟩
      · exact absurd hedit not_mem_nil
      · cases mem_singleton.mp hedit
      have hedit := (mem_cons.mp hedit).resolve_left fun heq => by cases heq
      have hplan : ∃ p ∈ plans, p.issue = issue ∧ p.removeLabels = remove := by
        rcases hlast.bind_cases with ⟨promoted, second, done, rfl, hall, hdone⟩ | ⟨before, hall⟩
        · rcases mem_append.mp hedit with hedit | hedit
          · exact ih hall hedit
          · cases hdone <;> exact absurd hedit not_mem_nil
        · exact ih hall hedit
      obtain ⟨p, hp, hplan⟩ := hplan
      exact ⟨p, mem_cons_of_mem _ hp, hplan⟩
    · exact absurd hedit
        (notMem_of_noEdit (dependencyAuditComment_noEdit _) haud issue remove add answer)

/-- An edit of a run is of a candidate whose plan was founded by then. -/
lemma promote_run
    (h : Run (labels.promote print lookup justClosedIssue candidates) trace outcome)
    {issue : JsNumber} {remove add : List Text} {answer : Option Unit}
    (hedit : ⟨.editIssueLabels issue remove add, answer⟩ ∈ trace) :
    ∃ candidate ∈ candidates, ∃ plan, Founded print labels justClosedIssue trace plan candidate ∧
      plan.issue = issue ∧ plan.removeLabels = remove := by
  rcases h.bind_cases with ⟨plans, first, rest, rfl, hplans, hrest⟩ | ⟨before, hplans⟩
  · have hnone := notMem_of_noEdit planPromotions_noEdit hplans issue remove add answer
    have hedit := (mem_append.mp hedit).resolve_left hnone
    obtain ⟨plan, hplan, hiss, hrem⟩ := executePromotions_run hrest hedit
    obtain ⟨candidate, hcandidate, hfound⟩ := planPromotions_run hplans plan hplan
    exact ⟨candidate, hcandidate, plan, { hfound with
      settled := fun d hd => (hfound.settled d hd).mono fun e he =>
        mem_append_left _ he }, hiss, hrem⟩
  · exact absurd hedit (notMem_of_noEdit planPromotions_noEdit hplans issue remove add answer)

lemma promotionPlan_some {plan : DependencyPromotionPlan}
    (h : labels.promotionPlan print candidate = some plan) :
    plan.issue = candidate.number ∧ (∀ l ∈ plan.removeLabels, l ∈ candidate.labels) ∧
      ∀ l ∈ candidate.labels, labels.IsEdge l → l ∈ plan.removeLabels := by
  unfold promotionPlan at h
  split at h
  · cases h
  · rename_i transition hok
    cases h
    obtain ⟨-, -, rfl⟩ := planTransition_ok_iff.mp hok
    refine ⟨rfl, fun l hl => ?_, fun l hl hedge => ?_⟩
    · exact (mem_removals.mp (mem_eraseDups.mp hl)).1
    · apply mem_eraseDups.mpr
      exact mem_removals.mpr ⟨hl, .inr (.inr (.inr ⟨hedge, rfl⟩))⟩

lemma checked_of_settled (h : Settled justClosedIssue trace (issueNumber n)) :
    Checked justClosedIssue trace n :=
  h.imp Eq.symm id

lemma lawful_of_declared
    (hdecl : ∀ candidate ∈ candidates, labels.Eligible print candidate →
      labels.Declared justClosedIssue candidate)
    (h : Run (labels.promote print lookup justClosedIssue candidates) trace outcome) :
    labels.Lawful candidates justClosedIssue trace := by
  intro issue remove add answer hedit
  obtain ⟨candidate, hcandidate, plan, hfound, rfl, rfl⟩ := promote_run h hedit
  obtain ⟨hiss, hsub, -⟩ := promotionPlan_some hfound.planned
  have heligible : labels.Eligible print candidate :=
    ⟨hfound.waits, hfound.relies, Option.isSome_iff_exists.mpr ⟨plan, hfound.planned⟩⟩
  obtain ⟨hedg, hbody⟩ := hdecl candidate hcandidate heligible
  refine ⟨candidate, hcandidate, hiss.symm, hfound.waits, ?_, ?_⟩
  · intro l hl hedge
    obtain ⟨n, hnam, hexact⟩ := hedg l (hsub l hl) hedge
    have hin : issueNumber n ∈ labels.parseDependencyLabels candidate.labels :=
      mem_parseDependencyLabels.mpr ⟨l, hsub l hl, n, hnam, hexact⟩
    refine ⟨n, hnam, checked_of_settled (hfound.settled _ ?_)⟩
    rw [dependencies, if_pos (ne_nil_of_mem hin)]
    exact hin
  · intro hnone ref href
    obtain ⟨hexact, hjust | ⟨read, hread, heq⟩⟩ := hbody hnone ref href
    · exact .inl hjust
    · apply checked_of_settled
      apply hfound.settled
      rw [dependencies, if_neg (not_not.mpr hnone)]
      apply mem_parseBlockedBy.mpr
      exact ⟨read, hread, by rw [heq, hexact]⟩

/-! The run in which every call succeeds and the tracker calls the numbers of `P` closed. -/

section
variable (print) (labels) (lookup) (justClosedIssue) (P : JsNumber → Bool)

def answered : ∀ q : TrackerQuestion, Option q.Answer
  | .listOpenIssuesByLabel _ => some []
  | .isIssueClosed issue => some (P issue)
  | .editIssueLabels .. => some ()
  | .commentOnIssue .. => some ()
  | .issueReference _ => some none

lemma allClosed_told (ds : List JsNumber) : ∃ trace,
    (allClosed justClosedIssue ds).told (answered P) =
      (trace, .returned (ds.all fun d => some d = justClosedIssue ∨ P d)) := by
  induction ds with
  | nil => exact ⟨[], rfl⟩
  | cons d ds ih =>
    obtain ⟨trace, htrace⟩ := ih
    by_cases hjust : some d = justClosedIssue
    · exact ⟨trace, by simp [allClosed, hjust, htrace]⟩
    · rw [allClosed, if_neg hjust, told_need (a := P d) rfl, all_cons]
      cases hP : P d with
      | false =>
        have hno : decide (some d = justClosedIssue ∨ false = true) = false := by simp [hjust]
        rw [hno]
        exact ⟨_, rfl⟩
      | true =>
        have hyes : decide (some d = justClosedIssue ∨ true = true) = true := by simp
        rw [hyes, if_pos rfl, htrace]
        exact ⟨_, rfl⟩

lemma planPromotion_told (candidate : TrackerIssue) : ∃ trace plan,
    (labels.planPromotion print justClosedIssue candidate).told (answered P) =
        (trace, .returned plan) ∧
      (labels.Eligible print candidate → (∀ d ∈ labels.dependencies candidate, P d) →
        plan = labels.promotionPlan print candidate) := by
  obtain ⟨trace, htrace⟩ := allClosed_told justClosedIssue P
    (labels.dependencies candidate)
  simp only [planPromotion]
  split_ifs with hwaits hrel
  · exact ⟨[], none, rfl, fun h => absurd hrel h.2.1⟩
  · rw [told_bind htrace]
    split_ifs with hall
    · exact ⟨_, _, rfl, fun _ _ => rfl⟩
    · refine ⟨_, _, rfl, fun _ hP => ?_⟩
      apply absurd _ hall
      exact all_eq_true.mpr fun d hd => decide_eq_true (.inr (hP d hd))
  · exact ⟨[], none, rfl, fun h => absurd h.1 hwaits⟩

lemma planPromotions_told (candidates : List TrackerIssue) : ∃ trace plans,
    (labels.planPromotions print justClosedIssue candidates).told (answered P) =
        (trace, .returned plans) ∧
      ∀ candidate ∈ candidates, labels.Eligible print candidate →
        (∀ d ∈ labels.dependencies candidate, P d) →
        ∀ plan ∈ labels.promotionPlan print candidate, plan ∈ plans := by
  induction candidates with
  | nil => exact ⟨[], [], rfl, fun candidate h => absurd h not_mem_nil⟩
  | cons candidate candidates ih =>
    obtain ⟨first, plan, hfirst, hplan⟩ := planPromotion_told print labels justClosedIssue P
      candidate
    obtain ⟨rest, plans, hrest, hplans⟩ := ih
    refine ⟨first ++ (rest ++ []), plan.toList ++ plans, ?_, ?_⟩
    · rw [planPromotions, told_bind hfirst, told_bind hrest]
      rfl
    · intro c hc heligible hP p hp
      rcases mem_cons.mp hc with rfl | hc
      · rw [← hplan heligible hP] at hp
        exact mem_append_left _ (Option.mem_toList.mpr hp)
      · exact mem_append_right _ (hplans c hc heligible hP p hp)

lemma lookUp_told (numbers : List JsNumber) :
    ∃ (trace : TrackerTrace) (refs : List TrackerIssueReference),
      (lookUp lookup numbers).told (answered P) = (trace, .returned (refs.map some)) := by
  induction numbers with
  | nil => exact ⟨[], [], rfl⟩
  | cons number numbers ih =>
    obtain ⟨trace, refs, htrace⟩ := ih
    have hfirst : ∃ first,
        (referenceOf lookup number).told (answered P) = (first, .returned (some none)) := by
      cases lookup with
      | false => exact ⟨_, rfl⟩
      | true => exact ⟨_, rfl⟩
    obtain ⟨first, hfirst⟩ := hfirst
    refine ⟨first ++ (trace ++ []), ⟨number, none, none⟩ :: refs, ?_⟩
    rw [lookUp, told_bind hfirst, told_bind htrace]
    rfl

lemma allSome_map_some {α : Type} (xs : List α) : (xs.map some).allSome = some xs := by
  induction xs with
  | nil => rfl
  | cons x xs ih =>
    simp only [allSome, map_cons, mapM_cons] at ih ⊢
    rw [ih]
    rfl

lemma dependencyAuditComment_told (numbers : List JsNumber) : ∃ trace comment,
    (dependencyAuditComment print lookup numbers).told (answered P) =
      (trace, .returned comment) := by
  obtain ⟨trace, refs, htrace⟩ := lookUp_told lookup P numbers
  rw [dependencyAuditComment, told_bind htrace, allSome_map_some]
  exact ⟨_, _, rfl⟩

lemma executePromotions_told (plans : List DependencyPromotionPlan) :
    ∃ (trace : TrackerTrace) (promoted : List JsNumber),
      (executePromotions print lookup plans).told (answered P) = (trace, .returned promoted) ∧
      ∀ plan ∈ plans,
        ⟨.editIssueLabels plan.issue plan.removeLabels plan.addLabels, some ()⟩ ∈ trace := by
  induction plans with
  | nil => exact ⟨[], [], rfl, fun plan hplan => absurd hplan not_mem_nil⟩
  | cons first plans ih =>
    obtain ⟨rest, promoted, hrest, hin⟩ := ih
    obtain ⟨trace, comment, hcomm⟩ := dependencyAuditComment_told print lookup P
      first.dependencies
    have htold : (executePromotions print lookup (first :: plans)).told (answered P) =
        (⟨.editIssueLabels first.issue first.removeLabels first.addLabels, some ()⟩ ::
          (trace ++ ⟨.commentOnIssue first.issue comment, some ()⟩ :: (rest ++ [])),
          .returned (first.issue :: promoted)) := by
      rw [executePromotions, told_need (a := ()) rfl, told_bind hcomm,
        told_need (a := ()) rfl, told_bind hrest]
      rfl
    refine ⟨_, _, htold, fun plan hplan => ?_⟩
    rcases mem_cons.mp hplan with rfl | hplan
    · exact mem_cons_self
    · apply mem_cons_of_mem
      apply mem_append_right
      apply mem_cons_of_mem
      exact mem_append_left _ (hin plan hplan)

variable {print labels} in
/-- An eligible candidate is promoted whatever the tracker says of other numbers. -/
lemma promoted_run (hcandidate : candidate ∈ candidates)
    (heligible : labels.Eligible print candidate)
    (hP : ∀ d ∈ labels.dependencies candidate, P d) :
    ∃ trace outcome plan,
      Run (labels.promote print lookup justClosedIssue candidates) trace outcome ∧
      labels.promotionPlan print candidate = some plan ∧
      ⟨.editIssueLabels plan.issue plan.removeLabels plan.addLabels, some ()⟩ ∈ trace ∧
      ∀ n, ⟨.isIssueClosed n, some true⟩ ∈ trace → P n := by
  obtain ⟨first, plans, hfirst, hplans⟩ := planPromotions_told print labels justClosedIssue P
    candidates
  obtain ⟨rest, promoted, hrest, hin⟩ := executePromotions_told print lookup P plans
  obtain ⟨plan, hplan⟩ := Option.isSome_iff_exists.mp heligible.2.2
  have htold : (labels.promote print lookup justClosedIssue candidates).told (answered P) =
      (first ++ rest, .returned promoted) := by
    rw [promote, told_bind hfirst, hrest]
  have hrun := run_told (answered P) (labels.promote print lookup justClosedIssue candidates)
  have hmem : ∀ e ∈ first ++ rest, e.answer = answered P e.question := by
    intro e he
    apply mem_told (p := labels.promote print lookup justClosedIssue candidates)
    rw [htold]
    exact he
  rw [htold] at hrun
  refine ⟨_, _, plan, hrun, hplan, ?_, ?_⟩
  · exact mem_append_right _ (hin plan (hplans candidate hcandidate heligible hP plan hplan))
  · intro n hn
    exact (Option.some.inj (hmem _ hn)).symm

end

variable (lookup) in
lemma unchecked_run (hcandidate : candidate ∈ candidates)
    (heligible : labels.Eligible print candidate)
    (hn : issueNumber n ∉ labels.dependencies candidate)
    (hjust : justClosedIssue ≠ some (issueNumber n)) :
    ∃ trace outcome plan,
      Run (labels.promote print lookup justClosedIssue candidates) trace outcome ∧
      labels.promotionPlan print candidate = some plan ∧
      ⟨.editIssueLabels plan.issue plan.removeLabels plan.addLabels, some ()⟩ ∈ trace ∧
      ¬ Checked justClosedIssue trace n := by
  have hP : ∀ d ∈ labels.dependencies candidate, decide (d ≠ issueNumber n) = true :=
    fun d hd => decide_eq_true fun heq => hn (heq ▸ hd)
  obtain ⟨trace, outcome, plan, hrun, hplan, hedit, hasked⟩ := promoted_run lookup justClosedIssue
    (fun d => decide (d ≠ issueNumber n)) hcandidate heligible hP
  refine ⟨trace, outcome, plan, hrun, hplan, hedit, ?_⟩
  rintro (hcheck | hcheck)
  · exact hjust hcheck
  · exact of_decide_eq_true (hasked _ hcheck) rfl

lemma issueNumber_injective : Function.Injective issueNumber := by
  intro m n h
  have h : (m : ℚ≥0) = n := WithTop.coe_inj.mp h
  exact_mod_cast h

lemma exact_of_nearest {q : ℚ≥0} (h : JsNumber.nearest q = issueNumber n) : Exact n :=
  JsNumber.nearest_of_nearest h

lemma exact_of_mem (h : issueNumber n ∈ labels.dependencies candidate) : Exact n := by
  simp only [dependencies] at h
  split_ifs at h
  · obtain ⟨l, -, issue, -, heq⟩ := mem_parseDependencyLabels.mp h
    exact exact_of_nearest heq
  · obtain ⟨ref, -, heq⟩ := mem_parseBlockedBy.mp h
    exact exact_of_nearest heq

lemma Names.unique {l : Text} {m : ℕ} (hm : labels.Names l m) (hn : labels.Names l n) : m = n := by
  obtain ⟨digits, hdig, rfl⟩ := hm
  obtain ⟨others, hoth, rfl⟩ := hn
  rw [Option.some.inj (hdig.symm.trans hoth)]

section
variable (hjust : ∀ n, justClosedIssue = some (issueNumber n) → Exact n)
  (hlawful : ∀ trace outcome,
    Run (labels.promote print lookup justClosedIssue candidates) trace outcome →
      labels.Lawful candidates justClosedIssue trace)
  (hcandidate : candidate ∈ candidates) (heligible : labels.Eligible print candidate)
include hjust hlawful hcandidate heligible

/-- A label that names no issue, or names it by a number that is not exact, is taken away
unchecked. -/
lemma names_of_lawful {l : Text} (hl : l ∈ candidate.labels) (hedge : labels.IsEdge l) :
    ∃ n, labels.Names l n ∧ Exact n := by
  obtain ⟨trace, outcome, plan, hrun, hplan, hedit, -⟩ := promoted_run lookup justClosedIssue
    (fun _ => true) hcandidate heligible fun _ _ => rfl
  have htak : ∀ plan, labels.promotionPlan print candidate = some plan → l ∈ plan.removeLabels :=
    fun plan hplan => (promotionPlan_some hplan).2.2 l hl hedge
  obtain ⟨_, -, -, -, hedg, -⟩ := hlawful _ _ hrun _ _ _ _ hedit
  obtain ⟨n, hnam, -⟩ := hedg l (htak plan hplan) hedge
  refine ⟨n, hnam, ?_⟩
  by_contra hexact
  obtain ⟨trace, outcome, plan, hrun, hplan, hedit, hunch⟩ := unchecked_run
    lookup hcandidate heligible (fun h => hexact (exact_of_mem h))
    fun h => hexact (hjust n h)
  obtain ⟨_, -, -, -, hedg, -⟩ := hlawful _ _ hrun _ _ _ _ hedit
  obtain ⟨m, hm, hcheck⟩ := hedg l (htak plan hplan) hedge
  rw [hm.unique hnam] at hcheck
  exact hunch hcheck

omit hjust in
/-- A reference is among the dependencies where the candidate relies on its body. -/
lemma mem_of_lawful (hnumb : (candidates.map (·.number)).Nodup)
    (hnone : labels.parseDependencyLabels candidate.labels = []) {ref : Text}
    (href : ref ∈ sectionRefs false (candidate.body.splitOn '\n')) :
    justClosedIssue = some (issueNumber (refIssue ref)) ∨
      issueNumber (refIssue ref) ∈ labels.dependencies candidate := by
  by_contra hno
  obtain ⟨hjust, hn⟩ := not_or.mp hno
  obtain ⟨trace, outcome, plan, hrun, hplan, hedit, hunch⟩ := unchecked_run
    lookup hcandidate heligible hn hjust
  obtain ⟨other, hother, hnumber, -, -, hbody⟩ := hlawful _ _ hrun _ _ _ _ hedit
  have hsame : other = candidate := by
    apply inj_on_of_nodup_map hnumb hother hcandidate
    rw [hnumber, (promotionPlan_some hplan).1]
  subst hsame
  exact hunch (hbody hnone ref href)

lemma declared_of_lawful (hnumb : (candidates.map (·.number)).Nodup) :
    labels.Declared justClosedIssue candidate := by
  refine ⟨fun l hl hedge => names_of_lawful hjust hlawful hcandidate heligible hl hedge, ?_⟩
  intro hnone
  have hmem : ∀ ref ∈ sectionRefs false (candidate.body.splitOn '\n'),
      justClosedIssue = some (issueNumber (refIssue ref)) ∨
        issueNumber (refIssue ref) ∈ labels.dependencies candidate :=
    fun ref href => mem_of_lawful hlawful hcandidate heligible hnumb hnone href
  have hexact : ∀ ref ∈ sectionRefs false (candidate.body.splitOn '\n'), Exact (refIssue ref) :=
    fun ref href => (hmem ref href).elim (hjust _) exact_of_mem
  intro ref href
  refine ⟨hexact ref href, (hmem ref href).imp_right fun hin => ?_⟩
  rw [dependencies, if_neg (not_not.mpr hnone)] at hin
  obtain ⟨read, hread, heq⟩ := mem_parseBlockedBy.mp hin
  have hreadEx : Exact (refIssue read) := hexact read (mem_sectionRefs id hread)
  exact ⟨read, hread, issueNumber_injective (hreadEx.symm.trans heq)⟩

end

def unblock (print : JsNumber → Text) (labels : StateTransitionLabels) (lookup : Bool) :
    Option JsNumber → TrackerRun (List JsNumber)
  | some closedIssue => labels.executeCloseCascade print lookup closedIssue
  | none => labels.executeUnblockSweep print lookup

def listedBy (print : JsNumber → Text) (labels : StateTransitionLabels) : Option JsNumber → Text
  | some closedIssue => labels.labelForDependency print closedIssue
  | none => labels.dependencyBlocked

lemma unblock_run : Run (labels.unblock print lookup justClosedIssue)
        (⟨.listOpenIssuesByLabel (labels.listedBy print justClosedIssue), some candidates⟩ :: trace)
        outcome ↔
      Run (labels.promote print lookup justClosedIssue candidates) trace outcome := by
  cases justClosedIssue <;> exact ⟨fun h => by cases h; assumption, fun h => .ask h⟩

/-- No promotion passes an open blocker, whatever the tracker answers, where every
candidate that can be promoted declares its edges plainly; and only there, where no issue
is listed twice. -/
theorem passes_no_open_blocker_iff (closedIssue : Option ℚ≥0) (candidates : List TrackerIssue) :
    let justClosed := closedIssue.map JsNumber.nearest
    let listing : Exchange TrackerQuestion TrackerQuestion.Answer :=
      ⟨.listOpenIssuesByLabel (labels.listedBy print justClosed), some candidates⟩
    ((∀ c ∈ candidates, labels.Eligible print c → labels.Declared justClosed c) →
      ∀ trace outcome, Run (labels.unblock print lookup justClosed) (listing :: trace) outcome →
        labels.Lawful candidates justClosed trace) ∧
    ((candidates.map (·.number)).Nodup →
      (∀ trace outcome, Run (labels.unblock print lookup justClosed) (listing :: trace) outcome →
        labels.Lawful candidates justClosed trace) →
      ∀ c ∈ candidates, labels.Eligible print c → labels.Declared justClosed c) := by
  intro justClosed listing
  have hjust : ∀ n, justClosed = some (issueNumber n) → Exact n := by
    intro n h
    obtain ⟨q, -, hq⟩ := Option.map_eq_some_iff.mp h
    exact exact_of_nearest hq
  constructor
  · intro hdecl trace outcome hrun
    exact lawful_of_declared hdecl (unblock_run.mp hrun)
  · intro hnumb hlawful c hc heligible
    have hprom : ∀ trace outcome,
        Run (labels.promote print lookup justClosed candidates) trace outcome →
          labels.Lawful candidates justClosed trace :=
      fun trace outcome hrun => hlawful trace outcome (unblock_run.mpr hrun)
    exact declared_of_lawful hjust hprom hc heligible hnumb

/-- The label `req:#12` is no edge to the pattern: the issue is promoted once #3 is
closed, and the label is gone. -/
theorem promoted_past_a_mistyped_edge : let candidate : TrackerIssue :=
      ⟨issueNumber 20, [], ["blocked:dependency".toList, "req:3".toList, "req:#12".toList]⟩
    ∃ trace outcome, Run (engineDefaults.unblock (fun _ => []) false none)
        (⟨.listOpenIssuesByLabel engineDefaults.dependencyBlocked, some [candidate]⟩ :: trace)
        outcome ∧
      ¬ engineDefaults.Lawful [candidate] none trace := by
  intro candidate
  have hdep : engineDefaults.dependencies candidate = [issueNumber 3] := by
    decide +kernel
  have heligible : engineDefaults.Eligible (fun _ => []) candidate := by
    refine ⟨by decide +kernel, ?_, by decide +kernel⟩
    rw [hdep]
    exact cons_ne_nil _ _
  obtain ⟨trace, outcome, plan, hrun, hplan, hedit, -⟩ := promoted_run false none
    (fun n => decide (n = issueNumber 3)) (mem_singleton_self candidate) heligible (by simp [hdep])
  refine ⟨trace, outcome, unblock_run.mpr hrun, fun hlawful => ?_⟩
  obtain ⟨_, -, -, -, hedg, -⟩ := hlawful _ _ _ _ hedit
  have htak : "req:#12".toList ∈ plan.removeLabels :=
    (promotionPlan_some hplan).2.2 _ (by decide +kernel) (by decide +kernel)
  obtain ⟨n, ⟨digits, hdig, -⟩, -⟩ := hedg _ htak (by decide +kernel)
  have hnone : engineDefaults.dependencyDigits "req:#12".toList = none := by decide +kernel
  rw [hnone] at hdig
  cases hdig

end StateTransitionLabels
end Redskilled.Tracker
