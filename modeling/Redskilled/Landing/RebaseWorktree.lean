import Redskilled.Foundation.History
import Redskilled.Landing.PreMergeRebase

/-!
# What the rebase leaves behind

The worktree is on the worker branch, so that its `HEAD` is the branch. Commits are told by
their names. `others` move the base of the remote: a fetch brings whatever tip it has by
then. A command that fails changes nothing, but for a rebase, which stops at a conflict and
is then in progress until it is continued to its end or aborted.
-/
namespace Redskilled.Landing.PreMergeRebase
open Foundation Foundation.Dialogue Foundation.Text

/-- `previous` is `HEAD@{1}`. Of the fetches and the rebases it is noted what the last
one brought that went well. -/
structure Worktree (τ : Type*) where
  head : Text
  previous : Text
  index : τ
  refs : Text → Text
  branch : Text
  rebasing : Option Text
  fetched : Option Text
  rebased : Option τ

namespace Worktree
variable {τ : Type*} (history : History Text τ)

def moved (w : Worktree τ) (head : Text) : Worktree τ :=
  { w with head, previous := w.head }

def fetchedTo (w : Worktree τ) (ref tip : Text) : Worktree τ :=
  { w with refs := Function.update w.refs ref tip, fetched := some tip }

def stopped (w : Worktree τ) (start head previous : Text) (index : τ) : Worktree τ :=
  { w with head, previous, index, rebasing := some start }

def finished (w : Worktree τ) (head previous : Text) : Worktree τ :=
  { w with
    head
    previous
    index := history.tree head
    rebasing := none
    rebased := some (history.tree head) }

/-- `rebase --abort`, which has nothing to do where no rebase is in progress. -/
def aborted (w : Worktree τ) (previous : Text) : Worktree τ :=
  match w.rebasing with
  | some start => { w with head := start, previous, index := history.tree start, rebasing := none }
  | none => w

/-- What a resolver leaves. -/
inductive Resolves (baseRef : Text) (w : Worktree τ) : Bool → Worktree τ → Prop
  | idle : Resolves baseRef w false w
  | partly {start head previous : Text} {index : τ} : w.rebasing = some start →
      Resolves baseRef w false (w.stopped start head previous index)
  | gaveUp {previous : Text} : Resolves baseRef w false (w.aborted history previous)
  | finished {said : Bool} {head previous : Text} : history.Ancestor (w.refs baseRef) head →
      Resolves baseRef w said (w.finished history head previous)

end Worktree

section
variable {τ : Type*} (history : History Text τ) (baseRef : Text)

/-- What a command does, with the answer that it gives. -/
def gitSteps (w : Worktree τ) (result : ExecResult) (t : Worktree τ) : GitCommand → Prop
  | .fetch remote base =>
    if result.code = 0 then ∃ tip, t = w.fetchedTo (trackingRef remote base) tip else t = w
  | .isAncestor ref => t = w ∧ (result.code = 0 → history.Ancestor (w.refs ref) w.head)
  | .mergeBase ref => t = w ∧ (result.code = 0 →
      history.Ancestor (trim result.stdout) (w.refs ref) ∧
        history.Ancestor (trim result.stdout) w.head)
  | .resetSoft target => result.code = 0 ∧ t = w.moved target
  | .resetSoftBack => result.code = 0 ∧ t = w.moved w.previous
  | .commit _ =>
    if result.code = 0 then
      ∃ commit, history.tree commit = w.index ∧ history.parents commit = [w.head] ∧
        t = w.moved commit
    else t = w
  | .rebase ref =>
    if result.code = 0 then
      ∃ head previous, history.Ancestor (w.refs ref) head ∧ t = w.finished history head previous
    else ∃ head previous index, t = w.stopped w.head head previous index
  | .rebaseAbort => ∃ previous, t = w.aborted history previous
  | .pushForceWithLease _ _ => if result.code = 0 then t = { w with branch := w.head } else t = w
  | _ => t = w

/-- One exchange of the dialogue. Of a question that throws nothing is said. -/
def worldSteps (w : Worktree τ) : Exchange Question Answer → Worktree τ → Prop
  | ⟨.git command, some result⟩, t => gitSteps history w result t command
  | ⟨.nowEpochS, some _⟩, t => t = w
  | ⟨.resolveMechanical, some said⟩, t => w.Resolves history baseRef said t
  | ⟨.resolveAgent, some said⟩, t => w.Resolves history baseRef said t
  | ⟨_, none⟩, _ => True

end

section
variable {τ : Type*} (history : History Text τ) (input : PreMergeRebaseInput)
  (start w : Worktree τ)

structure Settled : Prop where
  idle : w.rebasing = none
  clean : w.index = history.tree w.head
  tree : history.tree w.head = w.rebased.getD (history.tree start.head)
  branch : w.branch = start.branch

structure Stopped : Prop where
  tree : ∃ head, w.rebasing = some head ∧
    history.tree head = w.rebased.getD (history.tree start.head)
  branch : w.branch = start.branch

/-- The base that was fetched last is the one that the tracking ref names. -/
def Tracks : Prop := w.fetched = some (w.refs (trackingRef input.remote input.base))

def Integrated : Prop := history.Ancestor (w.refs input.baseRefName) w.head

def baseOf : Option Text :=
  match input.baseRef with
  | none => w.fetched
  | some ref => some (w.refs ref)

end

section
variable {τ : Type*} {history : History Text τ} {input : PreMergeRebaseInput}
  {start w t : Worktree τ} {print : WithTop ℚ → Text}

lemma Settled.replaced (h : Settled history start w) {head : Text} (previous : Text)
    (hsame : history.tree head = history.tree w.head) :
    Settled history start { w with head, previous } :=
  ⟨h.idle, h.clean.trans hsame.symm, hsame.trans h.tree, h.branch⟩

lemma Settled.stopped (h : Settled history start w) (head previous : Text) (index : τ) :
    Stopped history start (w.stopped w.head head previous index) :=
  ⟨⟨w.head, rfl, h.tree⟩, h.branch⟩

lemma Stopped.aborted (h : Stopped history start w) (previous : Text) :
    Settled history start (w.aborted history previous) := by
  obtain ⟨head, hrebas, htree⟩ := h.tree
  unfold Worktree.aborted
  rw [hrebas]
  exact ⟨rfl, rfl, htree, h.branch⟩

lemma Settled.aborted (h : Settled history start w) (previous : Text) :
    Settled history start (w.aborted history previous) := by
  unfold Worktree.aborted
  rw [h.idle]
  exact h

variable (history) in
lemma settled_finished (h : w.branch = start.branch) (head previous : Text) :
    Settled history start (w.finished history head previous) :=
  ⟨rfl, rfl, rfl, h⟩

/-- What a conflict leaves behind, once a resolver had its turn. -/
def Open (history : History Text τ) (start w : Worktree τ) : Prop :=
  Stopped history start w ∨ Settled history start w

lemma Open.branch (h : Open history start w) : w.branch = start.branch := by
  rcases h with h | h
  · exact h.branch
  · exact h.branch

lemma Open.aborted (h : Open history start w) (previous : Text) :
    Settled history start (w.aborted history previous) := by
  rcases h with h | h
  · exact h.aborted previous
  · exact h.aborted previous

lemma aborted_refs (w : Worktree τ) (previous : Text) : (w.aborted history previous).refs = w.refs ∧
      (w.aborted history previous).fetched = w.fetched := by
  unfold Worktree.aborted
  split
  · exact ⟨rfl, rfl⟩
  · exact ⟨rfl, rfl⟩

lemma Tracks.of_refs (h : Tracks input w) (hrefs : t.refs = w.refs ∧ t.fetched = w.fetched) :
    Tracks input t := by
  unfold Tracks
  rw [hrefs.1, hrefs.2]
  exact h

lemma Open.resolves (h : Open history start w) {said : Bool}
    (hres : w.Resolves history input.baseRefName said t) :
    Open history start t ∧ (t.refs = w.refs ∧ t.fetched = w.fetched) ∧
      (said = true → Settled history start t ∧ Integrated history input t) := by
  cases hres with
  | idle =>
    refine ⟨h, ⟨rfl, rfl⟩, ?_⟩
    intro hsaid
    cases hsaid
  | partly hrebas =>
    rcases h with h | h
    · obtain ⟨head, hhead, htree⟩ := h.tree
      rw [hhead] at hrebas
      cases hrebas
      refine ⟨Or.inl ⟨⟨_, rfl, htree⟩, h.branch⟩, ⟨rfl, rfl⟩, ?_⟩
      intro hsaid
      cases hsaid
    · rw [h.idle] at hrebas
      cases hrebas
  | gaveUp =>
    refine ⟨Or.inr (h.aborted _), aborted_refs w _, ?_⟩
    intro hsaid
    cases hsaid
  | finished hanc =>
    have hsettl := settled_finished history h.branch
    exact ⟨Or.inr (hsettl _ _), ⟨rfl, rfl⟩, fun _ => ⟨hsettl _ _, hanc⟩⟩

lemma squashOnto_ensures (fork : Text) (ahead : ℤ) (h : Settled history start w) (htracks : Tracks input w) :
    (squashOnto input fork ahead).Ensures (worldSteps history input.baseRefName)
      (fun _ t => Settled history start t ∧ Tracks input t) w := by
  apply ensures_asked
  rintro subjects _ rfl
  apply ensures_asked
  rintro reset _ ⟨hreset, rfl⟩
  rw [if_neg (not_not.mpr hreset)]
  apply ensures_asked
  intro commit t hcomm
  dsimp only [worldSteps, gitSteps] at hcomm
  split_ifs at hcomm with hcode
  · -- the commit takes the tree that the branch had, out of the index
    obtain ⟨name, htree, -, rfl⟩ := hcomm
    rw [if_pos hcode]
    exact ⟨h.replaced _ (htree.trans h.clean), htracks⟩
  · subst hcomm
    rw [if_neg hcode]
    apply ensures_asked
    rintro back _ ⟨-, rfl⟩
    exact ⟨h.replaced _ rfl, htracks⟩

lemma squashOwnHistory_ensures (h : Settled history start w) (htracks : Tracks input w) :
    (squashOwnHistory input).Ensures (worldSteps history input.baseRefName)
      (fun _ t => Settled history start t ∧ Tracks input t) w := by
  apply ensures_asked
  rintro fork _ ⟨rfl, -⟩
  split_ifs
  · exact ⟨h, htracks⟩
  · apply ensures_asked
    rintro count _ rfl
    cases toSquash input count with
    | none => exact ⟨h, htracks⟩
    | some ahead => exact squashOnto_ensures _ ahead h htracks

lemma staleRefusal_ensures :
    (staleRefusal print input).Ensures (worldSteps history input.baseRefName) (fun _ t => t = w) w := by
  unfold staleRefusal
  cases input.staleBranchGuard with
  | none => rfl
  | some guard =>
    have hlooks : (measureStaleBranch input).Ensures (worldSteps history input.baseRefName)
        (fun _ t => t = w) w := by
      apply ensures_asked
      rintro fork _ ⟨rfl, -⟩
      split_ifs
      · rfl
      · apply ensures_asked
        rintro count _ rfl
        split_ifs
        · rfl
        · apply ensures_asked
          rintro date _ rfl
          split
          · rfl
          · apply ensures_asked
            rintro now _ rfl
            rfl
    apply hlooks.seq
    rintro observation _ rfl
    rfl

lemma resolveAgentAttempts_ensures (attempts : ℕ) (h : Open history start w)
    (htracks : Tracks input w) :
    (resolveAgentAttempts input attempts).Ensures (worldSteps history input.baseRefName)
      (fun said t => Open history start t ∧ Tracks input t ∧
        (said = true → Settled history start t ∧ Integrated history input t)) w := by
  induction attempts generalizing w with
  | zero => exact ⟨h, htracks, fun hsaid => by cases hsaid⟩
  | succ attempts ih =>
    simp only [resolveAgentAttempts]
    split_ifs
    · apply ensures_asked
      intro said t hres
      obtain ⟨hopen, hrefs, hsaid⟩ := h.resolves hres
      cases said with
      | true => exact ⟨hopen, htracks.of_refs hrefs, hsaid⟩
      | false => exact ih hopen (htracks.of_refs hrefs)
    · exact ih h htracks

lemma resolveMechanicalAttempt_ensures (h : Open history start w) (htracks : Tracks input w) :
    (resolveMechanicalAttempt input).Ensures (worldSteps history input.baseRefName)
      (fun said t => Open history start t ∧ Tracks input t ∧
        (said = true → Settled history start t ∧ Integrated history input t)) w := by
  unfold resolveMechanicalAttempt
  split_ifs
  · apply ensures_need
    intro said t hres
    obtain ⟨hopen, hrefs, hsaid⟩ := h.resolves hres
    exact ⟨hopen, htracks.of_refs hrefs, hsaid⟩
  · exact ⟨h, htracks, fun hsaid => by cases hsaid⟩

lemma resolveConflict_ensures (h : Open history start w) (htracks : Tracks input w) :
    (resolveConflict input).Ensures (worldSteps history input.baseRefName)
      (fun said t => Open history start t ∧ Tracks input t ∧
        (said = true → Settled history start t ∧ Integrated history input t)) w := by
  apply (resolveMechanicalAttempt_ensures h htracks).seq
  rintro said t ⟨hopen, htrack, hsaid⟩
  cases said with
  | true => exact ⟨hopen, htrack, hsaid⟩
  | false => exact resolveAgentAttempts_ensures _ hopen htrack

lemma abortRebase_ensures (h : Open history start w) :
    (abortRebase input).Ensures (worldSteps history input.baseRefName)
      (fun _ t => Settled history start t) w := by
  apply ensures_asked
  rintro unmerged _ rfl
  apply ensures_asked
  rintro abort _ ⟨previous, rfl⟩
  exact h.aborted previous

def Rebased (history : History Text τ) (input : PreMergeRebaseInput) (start : Worktree τ)
    {α : Type} (result : Except Failure α) (t : Worktree τ) : Prop :=
  Settled history start t ∧
    ((∃ value, result = .ok value) → Tracks input t ∧ Integrated history input t)

lemma rebaseBranch_ensures (h : Settled history start w) (htracks : Tracks input w) :
    (rebaseBranch input).Ensures (worldSteps history input.baseRefName)
      (Rebased history input start) w := by
  apply ensures_asked
  intro rebase t hrebase
  dsimp only [worldSteps, gitSteps] at hrebase
  split_ifs at hrebase with hcode
  · obtain ⟨head, previous, hanc, rfl⟩ := hrebase
    rw [if_pos hcode]
    exact ⟨settled_finished history h.branch _ _, fun _ => ⟨htracks, hanc⟩⟩
  · obtain ⟨head, previous, index, rfl⟩ := hrebase
    rw [if_neg hcode]
    apply (resolveConflict_ensures (Or.inl (h.stopped head previous index)) htracks).seq
    rintro said t ⟨hopen, htrack, hsaid⟩
    cases said with
    | true =>
      obtain ⟨hsettl, hint⟩ := hsaid rfl
      exact ⟨hsettl, fun _ => ⟨htrack, hint⟩⟩
    | false =>
      apply (abortRebase_ensures hopen).seq
      intro failure t hsettl
      refine ⟨hsettl, ?_⟩
      rintro ⟨value, hok⟩
      cases hok

lemma rebaseOntoBase_ensures (h : Settled history start w) :
    (rebaseOntoBase print input).Ensures (worldSteps history input.baseRefName)
      (fun result t => Rebased history input start result t ∧
        (result = .ok true → t.head = w.head)) w := by
  apply ensures_asked
  intro fetch t hfetch
  dsimp only [worldSteps, gitSteps] at hfetch
  split_ifs at hfetch with hcode
  · obtain ⟨tip, rfl⟩ := hfetch
    rw [if_neg (not_not.mpr hcode)]
    have hsettl : Settled history start
        (w.fetchedTo (trackingRef input.remote input.base) tip) :=
      ⟨h.idle, h.clean, h.tree, h.branch⟩
    have htracks : Tracks input (w.fetchedTo (trackingRef input.remote input.base) tip) := by
      have hself : Function.update w.refs (trackingRef input.remote input.base) tip
          (trackingRef input.remote input.base) = tip := Function.update_self _ _ _
      exact congrArg some hself.symm
    apply ensures_asked
    rintro ancestor _ ⟨rfl, hanc⟩
    by_cases hint : ancestor.code = 0
    · rw [if_pos hint]
      exact ⟨⟨hsettl, fun _ => ⟨htracks, hanc hint⟩⟩, fun _ => rfl⟩
    · rw [if_neg hint]
      apply (squashOwnHistory_ensures hsettl htracks).seq
      rintro _ squashed ⟨hsquash, htrack⟩
      apply staleRefusal_ensures.seq
      rintro stale _ rfl
      cases stale with
      | some message =>
        refine ⟨⟨hsquash, ?_⟩, ?_⟩
        · rintro ⟨value, hok⟩
          cases hok
        · intro hok
          cases hok
      | none =>
        apply (rebaseBranch_ensures hsquash htrack).seq
        intro result t hreb
        cases result with
        | error failure =>
          refine ⟨⟨hreb.1, ?_⟩, ?_⟩
          · rintro ⟨value, hok⟩
            cases hok
          · intro hok
            cases hok
        | ok value =>
          refine ⟨⟨hreb.1, fun _ => hreb.2 ⟨value, rfl⟩⟩, ?_⟩
          intro hok
          cases hok
  · subst hfetch
    rw [if_pos hcode]
    refine ⟨⟨h, ?_⟩, ?_⟩
    · rintro ⟨value, hok⟩
      cases hok
    · intro hok
      cases hok

structure Published (history : History Text τ) (input : PreMergeRebaseInput)
    (start : Worktree τ) (result : PreMergeRebaseResult) (t : Worktree τ) : Prop where
  idle : t.rebasing = none
  tree : history.tree t.head = t.rebased.getD (history.tree start.head)
  accepted : result = .ok () → (∃ base, baseOf input t = some base ∧ history.Ancestor base t.head) ∧
      (t.branch = t.head ∨ t.head = start.head ∧ t.branch = start.branch)
  refused : ∀ failure, result = .error failure → t.branch = start.branch

lemma Integrated.base (h : Integrated history input t) (htracks : Tracks input t) :
    ∃ base, baseOf input t = some base ∧ history.Ancestor base t.head := by
  unfold baseOf
  unfold Integrated PreMergeRebaseInput.baseRefName at h
  cases hbase : input.baseRef with
  | none =>
    rw [hbase] at h
    exact ⟨_, htracks, h⟩
  | some ref =>
    rw [hbase] at h
    exact ⟨_, rfl, h⟩

lemma Settled.refused (h : Settled history start w) (failure : Failure) :
    Published history input start (.error failure) w :=
  ⟨h.idle, h.tree, fun hok => (by cases hok), fun _ _ => h.branch⟩

lemma pushAttempts_ensures (attempts : ℕ) (h : Settled history start w)
    (htracks : Tracks input w) (hint : Integrated history input w) :
    (pushAttempts print input attempts).Ensures (worldSteps history input.baseRefName)
      (Published history input start) w := by
  induction attempts generalizing w with
  | zero =>
    simp only [pushAttempts]
    exact h.refused _
  | succ attempts ih =>
    simp only [pushAttempts]
    apply ensures_asked
    intro push t hpush
    dsimp only [worldSteps, gitSteps] at hpush
    split_ifs at hpush with hcode
    · subst hpush
      rw [if_pos hcode]
      refine ⟨h.idle, h.tree, fun _ => ⟨hint.base htracks, Or.inl rfl⟩, ?_⟩
      intro failure hfail
      cases hfail
    · subst hpush
      rw [if_neg hcode]
      split_ifs with hlast
      · exact h.refused _
      · apply (rebaseOntoBase_ensures h).seq
        rintro result t ⟨hreb, -⟩
        cases result with
        | error failure => exact hreb.1.refused failure
        | ok already =>
          obtain ⟨htrack, hagain⟩ := hreb.2 ⟨already, rfl⟩
          exact ih hreb.1 htrack hagain

lemma preMergeRebase_ensures (h : Settled history start start) :
    (preMergeRebase print input).Ensures (worldSteps history input.baseRefName)
      (Published history input start) start := by
  apply (rebaseOntoBase_ensures h).seq
  rintro result t ⟨hreb, hhead⟩
  cases result with
  | error failure => exact hreb.1.refused failure
  | ok already =>
    obtain ⟨htracks, hint⟩ := hreb.2 ⟨already, rfl⟩
    cases already with
    | true =>
      refine ⟨hreb.1.idle, hreb.1.tree, ?_, ?_⟩
      · intro _
        exact ⟨hint.base htracks, Or.inr ⟨hhead rfl, hreb.1.branch⟩⟩
      · intro failure hfail
        cases hfail
    | false => exact pushAttempts_ensures _ hreb.1 htracks hint

end

structure Fresh {τ : Type*} (history : History Text τ) (start : Worktree τ) : Prop where
  idle : start.rebasing = none
  clean : start.index = history.tree start.head
  unrebased : start.rebased = none

section

def sampleHistory : History Text ℕ where
  tree commit :=
    if commit = "work".toList then 1 else if commit = "rebased".toList then 2 else 0
  parents commit :=
    if commit = "work".toList then ["base".toList]
    else if commit = "rebased".toList then ["tip".toList]
    else []

def sampleInput : PreMergeRebaseInput where
  remote := "origin".toList
  base := "main".toList
  branch := "worker".toList
  staleBranchGuard := none

def noPrint : WithTop ℚ → Text := fun _ => []

def unpushed : Worktree ℕ where
  head := "work".toList
  previous := "base".toList
  index := 1
  refs := fun _ => "base".toList
  branch := "base".toList
  rebasing := none
  fetched := none
  rebased := none

lemma fresh_unpushed : Fresh sampleHistory unpushed := ⟨rfl, rfl, rfl⟩

def said (command : GitCommand) (code : ℤ) : Exchange Question Answer :=
  ⟨.git command, some ⟨code, []⟩⟩

def fetchSampleBase (tip : String) : Worktree ℕ :=
  unpushed.fetchedTo "origin/main".toList tip.toList

lemma leads_fetch (tip : String) {trace : List (Exchange Question Answer)} {t : Worktree ℕ}
    (h : Leads (worldSteps sampleHistory sampleInput.baseRefName) (fetchSampleBase tip) trace t) :
    Leads (worldSteps sampleHistory sampleInput.baseRefName) unpushed
      (said (.fetch "origin".toList "main".toList) 0 :: trace) t :=
  .cons ⟨tip.toList, rfl⟩ h

def rebasedPull : Worktree ℕ :=
  (fetchSampleBase "tip").finished sampleHistory "rebased".toList "work".toList

end
end Redskilled.Landing.PreMergeRebase
