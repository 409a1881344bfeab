import Redskilled.Landing.LandPrecondition

/-!
# What the gate authorises

The land precondition is about the last row of each key. Where nobody has judged the head,
the first key of the same patch with a passing row is looked at alone, and a stronger
judgement of another head is not. Which of two heads comes first decides then, so the gate
is true to the ledger, in whatever order its keys stand, exactly where the heads of the
patch agree.
-/
namespace Redskilled.Landing.Countersign
open Foundation Acp.TicketLoop List

def Authorises (requirement : VerifyRequirement) (row : CountersignRow) : Prop :=
  row.voided = false ∧ isPassingCountersign row.countersign = true ∧
    countersignMeetsRequirement requirement row.countersign = true

/-- The head is judged, or nobody has judged it and another head of its patch is. -/
def Authorised (rows : List CountersignRow) (key : CountersignKey)
    (requirement : VerifyRequirement) : Prop :=
  (∃ row, lastOf rows key = some row ∧ Authorises requirement row) ∨
    (lastOf rows key = none ∧ ∃ other row, other.pr = key.pr ∧ other.patchId = key.patchId ∧
      lastOf rows other = some row ∧ Authorises requirement row)

/-- The row of another head of the patch that stands and passes. -/
def candidate (rows : List CountersignRow) (key other : CountersignKey) : Option CountersignRow :=
  (lastOf rows other).filter fun row =>
    decide (row.pr = key.pr) && decide (row.patchId = key.patchId) && !row.voided &&
      isPassingCountersign row.countersign

def firstCandidate (rows : List CountersignRow) (key : CountersignKey) : Option CountersignRow :=
  rows.findSome? fun row => candidate rows key row.toCountersignKey

/-- The head is judged, or the other heads of its patch that stand and pass all meet the
requirement, or none of them does. -/
def Steady (rows : List CountersignRow) (key : CountersignKey) (requirement : VerifyRequirement) :
    Prop :=
  lastOf rows key = none → (∃ other row, candidate rows key other = some row ∧
      countersignMeetsRequirement requirement row.countersign = true) →
    ∀ other row, candidate rows key other = some row →
      countersignMeetsRequirement requirement row.countersign = true

/-- The rows of each key are the same, in the same order. -/
def SameByKey (rows rows' : List CountersignRow) : Prop :=
  ∀ key : CountersignKey, rows.filter (fun row => decide (row.toCountersignKey = key)) =
    rows'.filter fun row => decide (row.toCountersignKey = key)

/-- What the gate is for: it allows what is authorised, in whatever order the keys of the
ledger stand, and neither its own voids nor the retention change its answer. -/
structure Authoritative (rows : List CountersignRow) (key : CountersignKey)
    (requirement : VerifyRequirement) : Prop where
  allows : (decideLandCountersign rows key requirement).decision.allowed = true ↔
    Authorised rows key requirement
  permuted : ∀ rows', SameByKey rows rows' →
    (decideLandCountersign rows' key requirement).decision.allowed =
      (decideLandCountersign rows key requirement).decision.allowed
  repeated : ∀ subject steps rows',
    (gate ⟨subject, some key, some requirement⟩).Run anyStep rows steps rows' →
      (decideLandCountersign rows' key requirement).decision.allowed =
        (decideLandCountersign rows key requirement).decision.allowed ∧
      ∀ stale, (decideLandCountersign rows' key requirement).supersede = some stale →
        stale.toCountersignKey ≠ key

/-- The rows of one key, before all others. -/
def broughtForward (other : CountersignKey) (rows : List CountersignRow) : List CountersignRow :=
  rows.filter (fun row => decide (row.toCountersignKey = other)) ++
    rows.filter fun row => !decide (row.toCountersignKey = other)

section
variable {rows rows' : List CountersignRow} {row : CountersignRow} {key other : CountersignKey}
  {requirement : VerifyRequirement}

lemma allowed_authorize {subject : LandSubject} {matchedBy : LandCountersignMatch} :
    (authorize subject requirement matchedBy row).decision.allowed =
      countersignMeetsRequirement requirement row.countersign := by
  unfold authorize verifyRequirementShortfall
  cases h : countersignMeetsRequirement requirement row.countersign with
  | true => rfl
  | false => rfl

lemma supersede_authorize {subject : LandSubject} {matchedBy : LandCountersignMatch} :
    (authorize subject requirement matchedBy row).supersede = none := by
  unfold authorize
  split <;> rfl

lemma findSome?_filter {α β : Type*} (l : List α) (p : α → Bool) (f : α → Option β) :
    (l.filter p).findSome? f = l.findSome? fun a => if p a then f a else none := by
  induction l with
  | nil => rfl
  | cons a l ih =>
    rw [filter_cons, findSome?_cons]
    cases hp : p a with
    | true => simp [findSome?_cons, ih]
    | false => simp [ih]

lemma find?_filterMap_filter {α β : Type*} (l : List α) (f : α → Option β) (p q : β → Bool) :
    ((l.filterMap f).filter p).find? q = l.findSome? fun a => (f a).filter fun b => p b && q b := by
  rw [find?_filter, find?_filterMap]
  induction l with
  | nil => rfl
  | cons a l ih =>
    rw [findSome?_cons, ← ih, find?_cons]
    cases hf : f a with
    | none => simp
    | some b =>
      cases hpq : p b && q b with
      | true => simp [Option.filter, hf, Bool.and_eq_true_iff.mp hpq]
      | false => simp [Option.filter, hpq]

lemma lastOf_filter (h : other.pr = key.pr) :
    lastOf (rows.filter fun row => decide (row.pr = key.pr)) other = lastOf rows other := by
  unfold lastOf
  rw [filter_filter]
  congr 1
  apply filter_congr
  intro row _
  by_cases hkey : row.toCountersignKey = other
  · simp [hkey, h]
  · simp [hkey]

lemma find?_passing :
    (passingOf (standingCountersigns (rows.filter fun row => decide (row.pr = key.pr)))).find?
        (fun row => decide (row.patchId = key.patchId)) = firstCandidate rows key := by
  rw [passingOf, find?_filterMap_filter, findSome?_values, findSome?_filter, firstCandidate]
  congr 1
  funext row
  by_cases hpr : row.pr = key.pr
  · have hlook := @lookup_standing (rows.filter fun row => decide (row.pr = key.pr))
      row.toCountersignKey
    rw [lastOf_filter hpr] at hlook
    rw [if_pos (by simpa using hpr), candidate]
    cases hentry : (standingCountersigns (rows.filter fun row => decide (row.pr = key.pr))).lookup
        (countersignKeyOf row.toCountersignKey) with
    | none =>
      rw [hentry] at hlook
      rw [Option.map_eq_none_iff.mp hlook.symm]
      rfl
    | some entry =>
      rw [hentry] at hlook
      obtain ⟨last, hlast, hpair⟩ := Option.map_eq_some_iff.mp hlook.symm
      obtain ⟨hstand, -⟩ := Prod.mk.inj hpair
      have hlastK : last.pr = key.pr := by rw [key_of_lastOf hlast, hpr]
      rw [hlast, Option.bind_some, ← hstand]
      cases hvoid : last.voided with
      | true => simp [Option.filter, hvoid]
      | false => simp [Option.filter, hvoid, hlastK, and_comm]
  · rw [if_neg (by simpa using hpr), candidate]
    cases hlast : lastOf rows row.toCountersignKey with
    | none => rfl
    | some last =>
      have hlastK : last.pr ≠ key.pr := by rw [key_of_lastOf hlast]; exact hpr
      simp [Option.filter, hlastK]

lemma allowed_decide : (decideLandCountersign rows key requirement).decision.allowed =
      match lastOf rows key with
      | some row => !row.voided && isPassingCountersign row.countersign &&
          countersignMeetsRequirement requirement row.countersign
      | none => (firstCandidate rows key).any fun row =>
        countersignMeetsRequirement requirement row.countersign := by
  have hlook := @lookup_standing (rows.filter fun row => decide (row.pr = key.pr)) key
  rw [lastOf_filter rfl] at hlook
  unfold decideLandCountersign
  cases hentry : (standingCountersigns (rows.filter fun row => decide (row.pr = key.pr))).lookup
      (countersignKeyOf key) with
  | none =>
    rw [hentry] at hlook
    rw [Option.map_eq_none_iff.mp hlook.symm]
    simp only [hentry, find?_passing]
    cases firstCandidate rows key with
    | some row => simp [allowed_authorize]
    | none =>
      simp only [Option.any_none]
      split <;> rfl
  | some entry =>
    rw [hentry] at hlook
    obtain ⟨last, hlast, hpair⟩ := Option.map_eq_some_iff.mp hlook.symm
    obtain ⟨hstand, -⟩ := Prod.mk.inj hpair
    simp only [hentry, hlast, ← hstand]
    cases hvoid : last.voided with
    | true => rfl
    | false =>
      cases hpass : isPassingCountersign last.countersign with
      | true => simp [hpass, allowed_authorize]
      | false => simp [hpass, Decision.allowed, refuseLand]

lemma mem_of_standing {entry : CountersignStanding}
    (hentry : entry ∈ (standingCountersigns rows).values) (h : entry.standing = some row) :
    row ∈ rows := by
  induction rows using reverseRecOn with
  | nil => cases hentry
  | append_singleton rows last ih =>
    rw [standingCountersigns_concat] at hentry
    rcases JsMap.mem_values_set hentry with rfl | hentry
    · simp only [standingAfter] at h
      split_ifs at h
      cases h
      exact mem_append_right _ (mem_singleton_self _)
    · exact mem_append_left _ (ih hentry)

lemma mem_of_passing (h : row ∈ passingOf (standingCountersigns rows)) : row ∈ rows := by
  obtain ⟨hstand, -⟩ := mem_filter.mp h
  obtain ⟨entry, hentry, hrow⟩ := mem_filterMap.mp hstand
  exact mem_of_standing hentry hrow

lemma decide_of_supersede {stale : CountersignRow}
    (h : (decideLandCountersign rows key requirement).supersede = some stale) :
    lastOf rows key = none ∧ firstCandidate rows key = none ∧ stale ∈ rows := by
  have hlook := @lookup_standing (rows.filter fun row => decide (row.pr = key.pr)) key
  rw [lastOf_filter rfl] at hlook
  unfold decideLandCountersign at h
  cases hentry : (standingCountersigns (rows.filter fun row => decide (row.pr = key.pr))).lookup
      (countersignKeyOf key) with
  | none =>
    rw [hentry] at hlook
    simp only [hentry, find?_passing] at h
    refine ⟨Option.map_eq_none_iff.mp hlook.symm, ?_⟩
    cases hfirst : firstCandidate rows key with
    | some row => simp [hfirst, supersede_authorize] at h
    | none =>
      simp only [hfirst] at h
      refine ⟨rfl, ?_⟩
      split at h
      · next found hfound =>
          cases h
          exact mem_of_mem_filter (mem_of_passing (mem_of_getLast? hfound))
      · cases h
  | some entry =>
    simp only [hentry] at h
    split at h
    · split_ifs at h
      rw [supersede_authorize] at h
      cases h
    · cases h

lemma candidate_eq_some : candidate rows key other = some row ↔
    lastOf rows other = some row ∧ other.pr = key.pr ∧ other.patchId = key.patchId ∧
      row.voided = false ∧ isPassingCountersign row.countersign = true := by
  rw [candidate, Option.filter_eq_some_iff]
  apply and_congr_right
  intro hlast
  rw [← key_of_lastOf hlast]
  simp [and_assoc]

lemma candidate_eq_none_of_change (h : ¬ (other.pr = key.pr ∧ other.patchId = key.patchId)) :
    candidate rows key other = none := by
  rw [Option.eq_none_iff_forall_ne_some]
  intro row hrow
  obtain ⟨-, hpr, hpatch, -⟩ := candidate_eq_some.mp hrow
  exact h ⟨hpr, hpatch⟩

lemma firstCandidate_eq_none :
    firstCandidate rows key = none ↔ ∀ other, candidate rows key other = none := by
  rw [firstCandidate, findSome?_eq_none_iff]
  constructor
  · intro h other
    cases hlast : lastOf rows other with
    | none => simp [candidate, hlast]
    | some row =>
      have hmem : row ∈ rows := mem_of_mem_filter (mem_of_getLast? hlast)
      rw [← key_of_lastOf hlast]
      exact h row hmem
  · intro h row _
    exact h row.toCountersignKey

lemma exists_of_firstCandidate (h : firstCandidate rows key = some row) :
    ∃ other, candidate rows key other = some row := by
  obtain ⟨first, -, hfirst⟩ := exists_of_findSome?_eq_some h
  exact ⟨first.toCountersignKey, hfirst⟩

lemma authorised_of_unjudged (hlast : lastOf rows key = none) :
    Authorised rows key requirement ↔ ∃ other row, candidate rows key other = some row ∧
      countersignMeetsRequirement requirement row.countersign = true := by
  rw [Authorised, hlast]
  simp only [reduceCtorEq, false_and, exists_false, false_or, true_and]
  refine exists_congr fun other => exists_congr fun row => ?_
  rw [candidate_eq_some, Authorises]
  tauto

/-- Where the heads of the patch agree, the first of them speaks for all. -/
lemma allowed_iff_authorised (h : Steady rows key requirement) :
    (decideLandCountersign rows key requirement).decision.allowed = true ↔
      Authorised rows key requirement := by
  cases hlast : lastOf rows key with
  | some row => simp [allowed_decide, Authorised, hlast, Authorises, and_assoc]
  | none =>
    rw [authorised_of_unjudged hlast, allowed_decide, hlast]
    simp only [Option.any_eq_true]
    constructor
    · rintro ⟨row, hfirst, hstr⟩
      obtain ⟨other, hcandidate⟩ := exists_of_firstCandidate hfirst
      exact ⟨other, row, hcandidate, hstr⟩
    · intro hsome
      obtain ⟨row, hfirst⟩ : ∃ row, firstCandidate rows key = some row := by
        rw [← Option.ne_none_iff_exists']
        intro hnone
        obtain ⟨other, row, hcandidate, -⟩ := hsome
        rw [firstCandidate_eq_none.mp hnone other] at hcandidate
        cases hcandidate
      obtain ⟨other, hcandidate⟩ := exists_of_firstCandidate hfirst
      exact ⟨row, hfirst, h hlast hsome other row hcandidate⟩

lemma SameByKey.lastOf (h : SameByKey rows rows') : lastOf rows key = lastOf rows' key := by
  rw [Countersign.lastOf, Countersign.lastOf, h key]

lemma SameByKey.authorised (h : SameByKey rows rows') :
    Authorised rows key requirement ↔ Authorised rows' key requirement := by
  unfold Authorised
  simp only [h.lastOf]

lemma SameByKey.candidate (h : SameByKey rows rows') :
    candidate rows key other = candidate rows' key other := by
  rw [Countersign.candidate, Countersign.candidate, h.lastOf]

lemma SameByKey.steady (h : SameByKey rows rows') (hsteady : Steady rows key requirement) :
    Steady rows' key requirement := by
  simpa only [Steady, h.lastOf, h.candidate] using hsteady

lemma sameByKey_broughtForward : SameByKey rows (broughtForward other rows) := by
  intro key
  rw [broughtForward, filter_append, filter_filter, filter_filter]
  by_cases hkey : key = other
  · subst hkey
    simp
  · have hgone : rows.filter (fun row => decide (row.toCountersignKey = key) &&
        decide (row.toCountersignKey = other)) = [] := by
      rw [filter_eq_nil_iff]
      intro row _ hboth
      simp only [Bool.and_eq_true, decide_eq_true_eq] at hboth
      exact hkey (hboth.1.symm.trans hboth.2)
    rw [hgone, nil_append]
    apply filter_congr
    intro row _
    by_cases hrow : row.toCountersignKey = key
    · simp [hrow, hkey]
    · simp [hrow]

lemma firstCandidate_broughtForward (h : candidate rows key other = some row) :
    firstCandidate (broughtForward other rows) key = some row := by
  obtain ⟨hlast, -⟩ := candidate_eq_some.mp h
  have hmem : row ∈ rows.filter fun row => decide (row.toCountersignKey = other) :=
    mem_of_getLast? hlast
  obtain ⟨first, rest, hrows⟩ := exists_cons_of_ne_nil (ne_nil_of_mem hmem)
  have hfirst : first.toCountersignKey = other := by
    have hin : first ∈ rows.filter fun row => decide (row.toCountersignKey = other) := by
      rw [hrows]
      exact mem_cons_self
    simpa using (mem_filter.mp hin).2
  have hfound : candidate (broughtForward other rows) key first.toCountersignKey = some row := by
    rw [hfirst, ← sameByKey_broughtForward.candidate]
    exact h
  rw [firstCandidate, broughtForward, hrows, cons_append, findSome?_cons]
  rw [broughtForward, hrows, cons_append] at hfound
  rw [hfound]

/-- A strong head brought forward is allowed and a weak one refused, so they agree where the
answer does not depend on the order. -/
lemma steady_of_permuted (h : ∀ rows', SameByKey rows rows' →
    (decideLandCountersign rows' key requirement).decision.allowed =
      (decideLandCountersign rows key requirement).decision.allowed) :
    Steady rows key requirement := by
  have hansw : ∀ other row, lastOf rows key = none → candidate rows key other = some row →
      countersignMeetsRequirement requirement row.countersign =
        (decideLandCountersign rows key requirement).decision.allowed := by
    intro other row hlast hcandidate
    have hsame : SameByKey rows (broughtForward other rows) := sameByKey_broughtForward
    rw [← h _ hsame, allowed_decide, ← hsame.lastOf, hlast,
      firstCandidate_broughtForward hcandidate]
    rfl
  rintro hlast ⟨strong, row, hstr, hmeets⟩ other last hoth
  rw [hansw other last hlast hoth, ← hansw strong row hlast hstr, hmeets]

lemma lastOf_drop (n : ℕ) (h : lastOf (rows.drop n) key = some row) :
    lastOf rows key = some row := by
  unfold lastOf at h ⊢
  rw [← take_append_drop n rows, filter_append, getLast?_append, h]
  rfl

/-- Nobody has judged the head, and no other head of its patch is judged well. -/
def Unjudged (key : CountersignKey) (rows : List CountersignRow) : Prop :=
  lastOf rows key = none ∧ ∀ other, candidate rows key other = none

lemma Unjudged.append (h : Unjudged key rows) (n : ℕ) (hvoid : row.voided = true)
    (hne : row.toCountersignKey ≠ key) : Unjudged key (appendRow rows n row) := by
  constructor
  · rw [appendRow, lastOf_concat, if_neg hne]
    cases hlast : lastOf (rows.drop n) key with
    | none => rfl
    | some last =>
      have hfound := lastOf_drop n hlast
      rw [h.1] at hfound
      cases hfound
  · intro other
    rw [Option.eq_none_iff_forall_ne_some]
    intro found hfound
    obtain ⟨hlast, hrest⟩ := candidate_eq_some.mp hfound
    rw [appendRow, lastOf_concat] at hlast
    split_ifs at hlast with hkey
    · cases hlast
      rw [hvoid] at hrest
      cases hrest.2.2.1
    · have hold := candidate_eq_some.mpr ⟨lastOf_drop n hlast, hrest⟩
      rw [h.2 other] at hold
      cases hold

lemma Unjudged.refused (h : Unjudged key rows) :
    (decideLandCountersign rows key requirement).decision.allowed = false := by
  rw [allowed_decide, h.1]
  simp [firstCandidate_eq_none.mpr h.2]

lemma supersede_ne {stale : CountersignRow}
    (h : (decideLandCountersign rows key requirement).supersede = some stale) :
    stale.toCountersignKey ≠ key := by
  obtain ⟨hlast, -, hmem⟩ := decide_of_supersede h
  exact lastOf_eq_none.mp hlast stale hmem

variable {subject : LandSubject} {required : Option VerifyRequirement}

lemma check_eq (now : Text) (dropped : ℕ) : check rows ⟨subject, some key, required⟩ now dropped =
      ((decideLandCountersign rows key (required.getD unlabeledVerifyRequirement)).decision,
        match (decideLandCountersign rows key
            (required.getD unlabeledVerifyRequirement)).supersede with
        | some stale => appendRow rows dropped (voidRow stale key now)
        | none => rows) := by
  simp only [check]
  cases (decideLandCountersign rows key (required.getD unlabeledVerifyRequirement)).supersede with
  | some stale => rfl
  | none => rfl

lemma Unjudged.check (h : Unjudged key rows) (now : Text) (dropped : ℕ) :
    Unjudged key (check rows ⟨subject, some key, required⟩ now dropped).2 := by
  rw [check_eq]
  simp only
  split
  · next stale hstale =>
      have hne := supersede_ne hstale
      exact h.append dropped rfl hne
  · exact h

lemma run_allowed {steps : List (Text × ℕ)}
    (h : (gate ⟨subject, some key, required⟩).Run anyStep rows steps rows') :
    (decideLandCountersign rows' key (required.getD unlabeledVerifyRequirement)).decision.allowed =
      (decideLandCountersign rows key
        (required.getD unlabeledVerifyRequirement)).decision.allowed := by
  cases hstale : (decideLandCountersign rows key
      (required.getD unlabeledVerifyRequirement)).supersede with
  | none =>
    have hsame : rows' = rows := by
      apply h.inv (· = rows)
      · intro s step t hs _ hnext
        cases hnext
        rw [check_eq, hs, hstale]
      · rfl
    rw [hsame]
  | some stale =>
    obtain ⟨hlast, hfirst, -⟩ := decide_of_supersede hstale
    have hunj : Unjudged key rows := ⟨hlast, firstCandidate_eq_none.mp hfirst⟩
    have hlat : Unjudged key rows' := by
      apply h.inv (Unjudged key)
      · intro s step t hs _ hnext
        cases hnext
        exact hs.check step.1 step.2
      · exact hunj
    rw [hunj.refused, hlat.refused]

/-- The gate is true to a ledger, and to all that have its rows with the keys in another order,
exactly where the head is judged or the heads of its patch agree on the requirement. -/
theorem countersign_authority (rows : List CountersignRow) (key : CountersignKey)
    (requirement : VerifyRequirement) :
    Authoritative rows key requirement ↔ Steady rows key requirement := by
  constructor
  · intro h
    exact steady_of_permuted h.permuted
  · intro hsteady
    refine ⟨allowed_iff_authorised hsteady, ?_, ?_⟩
    · intro rows' hsame
      rw [Bool.eq_iff_iff, allowed_iff_authorised hsteady,
        allowed_iff_authorised (hsame.steady hsteady), hsame.authorised]
    · intro subject steps rows' hrun
      exact ⟨run_allowed hrun, fun stale hstale => supersede_ne hstale⟩

end

section

def judgedHead : CountersignKey := ⟨7, List.replicate 7 'a', ['p'], by decide⟩

def rejudgedHead : CountersignKey := ⟨7, List.replicate 7 'b', ['p'], by decide⟩

def landingHead : CountersignKey := ⟨7, List.replicate 7 'c', ['p'], by decide⟩

def judgement (key : CountersignKey) (countersign : CountersignClass) : CountersignRow :=
  ⟨key, ['t'], countersign, ['v'], false, none, none⟩

/-- The patch is judged by the gate alone at one head and by tests at the next. -/
theorem stronger_judgement_unread :
    (decideLandCountersign [judgement judgedHead .typeCheckOnly, judgement rejudgedHead .testVerified]
      landingHead unlabeledVerifyRequirement).decision.allowed = false ∧
    Authorised [judgement judgedHead .typeCheckOnly, judgement rejudgedHead .testVerified]
      landingHead unlabeledVerifyRequirement ∧
    (decideLandCountersign [judgement rejudgedHead .testVerified, judgement judgedHead .typeCheckOnly]
      landingHead unlabeledVerifyRequirement).decision.allowed = true := by
  refine ⟨by decide +kernel, ?_, by decide +kernel⟩
  right
  refine ⟨by decide +kernel, rejudgedHead, judgement rejudgedHead .testVerified, rfl, rfl, ?_, ?_⟩
  · decide +kernel
  · exact ⟨rfl, by decide, by decide⟩

end
end Redskilled.Landing.Countersign
