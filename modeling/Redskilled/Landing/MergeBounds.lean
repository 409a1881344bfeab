import Redskilled.Landing.MergePasses

/-!
# Only what is proved is merged, and not for ever

A pull request is merged only where the forge and the gate speak for it, and one that is not
armed is left alone. What one pull request meets changes nothing for another, and each pass that
writes the store uses up one attempt of every record that stays armed.
-/
namespace Redskilled.Landing.MergePasses
open Foundation MergeDriver Option

section
variable (toUpperCase : Text → Text) (maxAttempts : ℕ)

structure Clear (view : View) : Prop where
  state : view.state = .OPEN
  status : view.mergeStateStatus = "CLEAN".toList ∨ view.mergeStateStatus = "UNSTABLE".toList
  checks : view.checks = .green
  mergeable : upper toUpperCase view.mergeable ≠ "CONFLICTING".toList
  notDirty : upper toUpperCase (some view.mergeStateStatus) ≠ "DIRTY".toList
  draft : view.isDraft ≠ some true
  review : upper toUpperCase view.reviewDecision ≠ "REVIEW_REQUIRED".toList
  changes : upper toUpperCase view.reviewDecision ≠ "CHANGES_REQUESTED".toList

structure Mergeable (view : View) : Prop extends Clear toUpperCase view where
  threads : ∀ threads ∈ view.unresolvedReviewThreads, threads ≤ 0

def Terminal (r : StoredRecord) : Prop :=
  r.status = .known .merged ∨ r.status = .known .needsMedic ∨ r.status = .known .needsHuman

/-- A merge is called only for what was viewed as mergeable and let pass by the gate. -/
def MergesProved (stored : Records) (p : PassInput) : Prop :=
  ∀ pr, PortCall.merge pr ∈ (runMergeDriverPass toUpperCase maxAttempts stored p).calls →
    ∃ key record view, (validateState stored).lookup key = some record ∧ record.pr = pr ∧
      Armed record ∧ (p.ask key).view = .ok view ∧ Mergeable toUpperCase view ∧
        (p.gated = true → (p.ask key).check = .allowed)

/-- A pull request whose record is not armed is not called for. -/
def LeavesUnarmed (stored : Records) (p : PassInput) : Prop :=
  ∀ pr, (∀ record, (validateState stored).lookup (Text.integer pr) = some record → ¬ Armed record) →
    ∀ call ∈ (runMergeDriverPass toUpperCase maxAttempts stored p).calls, call.pr ≠ pr

def outcome (stored : Records) (p : PassInput) (pr : ℤ) :
    List PortCall × List PassEntry × Option StoredRecord :=
  ((runMergeDriverPass toUpperCase maxAttempts stored p).calls.filter (·.pr = pr),
    (returned toUpperCase maxAttempts stored p).filter (·.pr = pr),
    (validateState (storedAfter toUpperCase maxAttempts stored p)).lookup (Text.integer pr))

def PassInput.answering (p : PassInput) (key : Text) (answers : Answers) : PassInput :=
  { p with ask := Function.update p.ask key answers }

/-- Whatever one pull request met, another has the outcome that it would have had. -/
def Isolates (stored : Records) (p : PassInput) : Prop :=
  ∀ key record, (validateState stored).lookup key = some record → Armed record →
    ∀ answers : Answers, answers.check ≠ .threw →
      ∀ pr ≠ record.pr, outcome toUpperCase maxAttempts stored p pr =
        outcome toUpperCase maxAttempts stored (p.answering key answers) pr

/-- What the driver is to keep in the passes so far. -/
structure Driven (s : State) : Prop where
  merges : ∀ pass ∈ s.passed, MergesProved toUpperCase maxAttempts pass.1 pass.2
  unarmed : ∀ pass ∈ s.passed, LeavesUnarmed toUpperCase maxAttempts pass.1 pass.2
  isolated : ∀ pass ∈ s.passed, Isolates toUpperCase maxAttempts pass.1 pass.2
  bounded : maxAttempts + 1 ≤ s.writes →
    ∀ key record, (validateState s.initial).lookup key = some record → Armed record →
      (∀ record', (validateState s.stored).lookup key = some record' → Terminal record') ∧
        ((∀ pass ∈ s.passed, pass.2.readable = true) → key ∈ validateState s.stored)

def SafeCount (threads : ℚ) : Prop :=
  threads.den = 1 ∧ 0 < threads.num ∧ threads.num < 2 ^ 53

/-- Each armed record is filed under its own number, and no attempts are owed. -/
def Tidy (stored : Records) : Prop :=
  ∀ key record, (validateState stored).lookup key = some record → Armed record →
    key = Text.integer record.pr ∧ 0 ≤ record.attempts

/-- Where nothing but threads is in the way, they are counted in whole numbers; and a gate that
is asked does not throw, unless no other record is armed. -/
def PassMet (s : State) (p : PassInput) : Prop :=
  ∀ key record, (readStore s.stored p).lookup key = some record → Armed record →
    record.attempts < maxAttempts → ∀ view, (p.ask key).view = .ok view → (Clear toUpperCase view →
        ∀ threads ∈ view.unresolvedReviewThreads, 0 < threads → SafeCount threads) ∧
      (Mergeable toUpperCase view → p.gated = true → (p.ask key).check = .threw →
        ∀ key' record', (readStore s.stored p).lookup key' = some record' → Armed record' →
          key' = key)

end

lemma eq_of_orElse_eq {value other word : Text} (hword : word ≠ [])
    (h : orElse value other ≠ word) : value ≠ word := by
  intro heq
  subst heq
  exact h (if_neg hword)

section
variable {toUpperCase : Text → Text}

variable {view : View}

lemma blocker_open {mergeable mergeStateStatus reviewDecision : Text}
    {unresolved : ℕ} {regressed : Bool} {b : Blocker}
    (hb : blocker view mergeable mergeStateStatus unresolved regressed reviewDecision = b)
    (hstate : view.state ≠ .CLOSED) (hconfl : b.kind ≠ .conflict)
    (hthrea : ¬ (b.kind = .threads ∨ b.kind = .ci))
    (hhum : ¬ (b.kind = .draft ∨ b.kind = .review ∨ b.kind = .gate)) :
    ¬ (mergeable = "CONFLICTING".toList ∨ mergeStateStatus = "DIRTY".toList) ∧
      ¬ 0 < unresolved ∧ view.isDraft ≠ some true ∧
      ¬ (reviewDecision = "REVIEW_REQUIRED".toList ∨
        reviewDecision = "CHANGES_REQUESTED".toList) := by
  subst hb
  unfold blocker at hconfl hthrea hhum
  rw [if_neg hstate] at hconfl hthrea hhum
  by_cases h1 : mergeable = "CONFLICTING".toList ∨ mergeStateStatus = "DIRTY".toList
  · rw [if_pos h1] at hconfl
    exact absurd rfl hconfl
  rw [if_neg h1] at hthrea hhum
  by_cases h2 : 0 < unresolved
  · rw [if_pos h2] at hthrea
    exact absurd (.inl rfl) hthrea
  rw [if_neg h2] at hthrea hhum
  by_cases h3 : view.checks = .failing
  · rw [if_pos h3] at hthrea
    exact absurd (.inr rfl) hthrea
  rw [if_neg h3] at hhum
  by_cases h4 : view.isDraft = some true
  · rw [if_pos h4] at hhum
    exact absurd (.inl rfl) hhum
  rw [if_neg h4] at hhum
  by_cases h5 : reviewDecision = "REVIEW_REQUIRED".toList ∨
      reviewDecision = "CHANGES_REQUESTED".toList
  · rw [if_pos h5] at hhum
    exact absurd (.inr (.inl rfl)) hhum
  exact ⟨h1, h2, h4, h5⟩

lemma clear_of_merge {previous : Option Proof}
    (h : verdict view (buildMergeProof toUpperCase view previous) = .merge) :
    Clear toUpperCase view ∧ count view.unresolvedReviewThreads = 0 := by
  unfold verdict at h
  split_ifs at h with hmerged hclos hconfl hthrea hhum hbeh hclean
  have hopen := blocker_open rfl hclos hconfl hthrea hhum
  obtain ⟨hdirty, hcount, hdraft, hrev⟩ := hopen
  have hstate : view.state = .OPEN := by
    cases hs : view.state with
    | OPEN => rfl
    | MERGED => exact absurd hs hmerged
    | CLOSED => exact absurd hs hclos
  have hD : "DIRTY".toList ≠ [] := by decide
  have hR : "REVIEW_REQUIRED".toList ≠ [] := by decide
  have hC : "CHANGES_REQUESTED".toList ≠ [] := by decide
  refine ⟨?_, Nat.eq_zero_of_not_pos hcount⟩
  exact
    { state := hstate
      status := hclean.1
      checks := hclean.2
      mergeable := (not_or.mp hdirty).1
      notDirty := eq_of_orElse_eq hD (not_or.mp hdirty).2
      draft := hdraft
      review := eq_of_orElse_eq hR (not_or.mp hrev).1
      changes := eq_of_orElse_eq hC (not_or.mp hrev).2 }

lemma count_of_safe {threads : ℚ} (h : SafeCount threads) : 0 < count (some threads) := by
  have hcount : count (some threads) = threads.num.toNat := if_pos h
  have hpos := h.2.1
  omega

lemma mergeable_of_merge {previous : Option Proof}
    (h : verdict view (buildMergeProof toUpperCase view previous) = .merge)
    (hsafe : Clear toUpperCase view →
      ∀ threads ∈ view.unresolvedReviewThreads, 0 < threads → SafeCount threads) :
    Mergeable toUpperCase view := by
  obtain ⟨hclear, hcount⟩ := clear_of_merge h
  refine ⟨hclear, ?_⟩
  intro threads hthrea
  by_contra hpos
  have hzero : 0 < count (some threads) :=
    count_of_safe (hsafe hclear threads hthrea (not_le.mp hpos))
  rw [← mem_def.mp hthrea, hcount] at hzero
  exact lt_irrefl 0 hzero

lemma verdict_stamp {proof : Proof} {status : Status} {action : Action}
    {note : Option Text} (h : verdict view proof = .stamp status action note) :
    status = .merged ∨ status = .needsMedic ∨ status = .needsHuman ∨ status = .armed := by
  unfold verdict at h
  split_ifs at h
  all_goals
    obtain ⟨rfl, -, -⟩ := Verdict.stamp.inj h
    simp

end

section
variable {toUpperCase : Text → Text} {maxAttempts : ℕ} {p : PassInput} {answers : Answers}
  {r : StoredRecord}

/-- What a visit calls and stamps is about its own record, which is terminal by then or has used
up an attempt. -/
structure Fits (maxAttempts : ℕ) (r : StoredRecord) (v : Visit) : Prop where
  calls : ∀ call ∈ v.calls, call.pr = r.pr
  stamped : ∀ stamped ∈ v.result, stamped.1.pr = r.pr ∧ stamped.2.pr = r.pr ∧ (Terminal stamped.1 ∨
      Armed stamped.1 ∧ stamped.1.attempts = r.attempts + 1 ∧ r.attempts < maxAttempts)

lemma fits_of {calls : List PortCall} {record : StoredRecord} {entry : PassEntry}
    (hcalls : ∀ call ∈ calls, call.pr = r.pr) (hpr : record.pr = r.pr) (hentry : entry.pr = r.pr)
    (hstat : Terminal record ∨
      Armed record ∧ record.attempts = r.attempts + 1 ∧ r.attempts < maxAttempts) :
    Fits maxAttempts r ⟨calls, some (record, entry)⟩ where
  calls := hcalls
  stamped stamped h := by
    cases h
    exact ⟨hpr, hentry, hstat⟩

/-- The record is stamped, and still armed. -/
def Stamped (maxAttempts : ℕ) (r stamped : StoredRecord) : Prop :=
  stamped.pr = r.pr ∧ Armed stamped ∧ stamped.attempts = r.attempts + 1 ∧ r.attempts < maxAttempts

variable {stamped : StoredRecord}

lemma fits_retry {calls : List PortCall} (call message : Text)
    (hcalls : ∀ c ∈ calls, c.pr = r.pr) (h : Stamped maxAttempts r stamped) :
    Fits maxAttempts r (retry calls stamped call message) := by
  obtain ⟨hpr, harm, hatt⟩ := h
  exact fits_of hcalls hpr hpr (.inr ⟨harm, hatt⟩)

lemma fits_merging {asked : List PortCall}
    (hasked : ∀ c ∈ asked, c.pr = r.pr) (h : Stamped maxAttempts r stamped) :
    Fits maxAttempts r (merging answers asked stamped) := by
  have hpr : stamped.pr = r.pr := h.1
  have hcalls : ∀ c ∈ asked ++ [PortCall.merge stamped.pr], c.pr = r.pr := by
    intro c hc
    rcases List.mem_append.mp hc with hc | hc
    · exact hasked c hc
    · rw [List.mem_singleton.mp hc]
      exact hpr
  unfold merging
  cases answers.merge with
  | none => exact fits_of hcalls hpr hpr (.inl (.inl rfl))
  | some message => exact fits_retry _ message hcalls h

lemma fits_land (h : Stamped maxAttempts r stamped) :
    Fits maxAttempts r (land p answers stamped) := by
  have hpr : stamped.pr = r.pr := h.1
  have hviewed : ∀ c ∈ [PortCall.viewPr stamped.pr], c.pr = r.pr := by
    simpa [PortCall.pr] using hpr
  have hasked : ∀ c ∈ [PortCall.viewPr stamped.pr, .check stamped.pr], c.pr = r.pr := by
    simpa [PortCall.pr] using hpr
  unfold land
  split_ifs with hgat
  · cases answers.check with
    | allowed => exact fits_merging hasked h
    | refused message => exact fits_of hasked hpr hpr (.inl (.inr (.inr rfl)))
    | threw =>
      constructor
      · exact hasked
      · intro stamped h
        cases h
  · exact fits_merging hviewed h

lemma stamped_assessed (harm : Armed r) (hbound : r.attempts < maxAttempts) (view : View) :
    Stamped maxAttempts r (assessed toUpperCase p r view) :=
  ⟨rfl, harm, rfl, hbound⟩

lemma fits_viewed (harm : Armed r) (hbound : r.attempts < maxAttempts) (view : View) :
    Fits maxAttempts r (viewed toUpperCase p answers r view) := by
  unfold viewed
  have hview : ∀ c ∈ [PortCall.viewPr r.pr], c.pr = r.pr := by simp [PortCall.pr]
  have hupd : ∀ c ∈ [PortCall.viewPr r.pr, .updateBranch r.pr], c.pr = r.pr := by
    simp [PortCall.pr]
  have hstamped : Stamped maxAttempts r (assessed toUpperCase p r view) :=
    stamped_assessed harm hbound view
  cases hverd : verdict view (buildMergeProof toUpperCase view r.proof) with
  | stamp status action note =>
    apply fits_of hview
    · rfl
    · rfl
    · rcases verdict_stamp hverd with rfl | rfl | rfl | rfl
      · exact .inl (.inl rfl)
      · exact .inl (.inr (.inl rfl))
      · exact .inl (.inr (.inr rfl))
      · exact .inr ⟨rfl, rfl, hbound⟩
  | updateBranch =>
    cases answers.updateBranch with
    | none => exact fits_of hupd rfl rfl (.inr hstamped.2)
    | some message => exact fits_retry _ message hupd hstamped
  | merge => exact fits_land hstamped

lemma fits_visit (harm : Armed r) :
    Fits maxAttempts r (visit toUpperCase maxAttempts p answers r) := by
  unfold visit
  split_ifs with hbound
  · exact fits_of (by simp) rfl rfl (.inl (.inr (.inr rfl)))
  · have hlt : r.attempts < maxAttempts := by omega
    cases answers.view with
    | error message =>
      exact fits_retry _ message (by simp [PortCall.pr]) ⟨rfl, harm, rfl, hlt⟩
    | ok view => exact fits_viewed harm hlt view

/-- What a call for a merge, and a gate that throws, come behind. -/
structure Asked (toUpperCase : Text → Text) (maxAttempts : ℕ) (answers : Answers)
    (r : StoredRecord) (view : View) : Prop where
  attempts : r.attempts < maxAttempts
  viewed : answers.view = .ok view
  verdict : verdict view (buildMergeProof toUpperCase view r.proof) = .merge

lemma land_merge {pr : ℤ} (h : PortCall.merge pr ∈ (land p answers stamped).calls) :
    p.gated = true → answers.check = .allowed := by
  intro hgat
  unfold land at h
  rw [if_pos hgat] at h
  cases hcheck : answers.check with
  | allowed => rfl
  | refused message => simp [hcheck] at h
  | threw => simp [hcheck] at h

lemma merging_result (answers : Answers) (asked : List PortCall) (stamped : StoredRecord) :
    (merging answers asked stamped).result ≠ none := by
  unfold merging
  cases answers.merge with
  | none => exact some_ne_none _
  | some message => exact some_ne_none _

lemma land_threw (h : (land p answers stamped).result = none) :
    p.gated = true ∧ answers.check = .threw := by
  unfold land at h
  split_ifs at h with hgat
  · refine ⟨hgat, ?_⟩
    cases hcheck : answers.check with
    | threw => rfl
    | refused message => simp [hcheck] at h
    | allowed =>
      rw [hcheck] at h
      exact absurd h (merging_result _ _ _)
  · exact absurd h (merging_result _ _ _)

lemma visit_land {P : Visit → Prop} (h : P (visit toUpperCase maxAttempts p answers r))
    (hexh : ¬ P (exhausted maxAttempts p r))
    (hretry : ∀ (calls : List PortCall) (stamped : StoredRecord) (call message : Text),
      (∀ pr, PortCall.merge pr ∉ calls) → ¬ P (retry calls stamped call message))
    (hstamp : ∀ (calls : List PortCall) (stamped : StoredRecord × PassEntry),
      (∀ pr, PortCall.merge pr ∉ calls) → ¬ P ⟨calls, some stamped⟩) :
    ∃ view stamped, Asked toUpperCase maxAttempts answers r view ∧ P (land p answers stamped) := by
  unfold visit at h
  split_ifs at h with hbound
  · exact absurd h hexh
  cases hview : answers.view with
  | error message =>
    rw [hview] at h
    exact absurd h (hretry _ _ _ _ (by simp))
  | ok view =>
    rw [hview] at h
    simp only [viewed] at h
    cases hverd : verdict view (buildMergeProof toUpperCase view r.proof) with
    | stamp status action note =>
      rw [hverd] at h
      exact absurd h (hstamp _ _ (by simp))
    | updateBranch =>
      rw [hverd] at h
      cases hupd : answers.updateBranch with
      | none =>
        rw [hupd] at h
        exact absurd h (hstamp _ _ (by simp))
      | some message =>
        rw [hupd] at h
        exact absurd h (hretry _ _ _ _ (by simp))
    | merge =>
      rw [hverd] at h
      exact ⟨view, _, ⟨by omega, hview, hverd⟩, h⟩

lemma visit_merge {pr : ℤ} (h : PortCall.merge pr ∈ (visit toUpperCase maxAttempts p answers r).calls) :
    ∃ view, Asked toUpperCase maxAttempts answers r view ∧
      (p.gated = true → answers.check = .allowed) := by
  obtain ⟨view, stamped, hasked, hland⟩ := visit_land (P := fun v => PortCall.merge pr ∈ v.calls) h
    (by simp [exhausted]) (fun _ _ _ _ hnot => hnot pr) (fun _ _ hnot => hnot pr)
  exact ⟨view, hasked, land_merge hland⟩

lemma visit_threw (h : (visit toUpperCase maxAttempts p answers r).result = none) :
    ∃ view, Asked toUpperCase maxAttempts answers r view ∧
      p.gated = true ∧ answers.check = .threw := by
  obtain ⟨view, stamped, hasked, hland⟩ := visit_land (P := fun v => v.result = none) h
    (by simp [exhausted]) (fun _ _ _ _ _ => some_ne_none _)
    (fun _ _ _ => some_ne_none _)
  exact ⟨view, hasked, land_threw hland⟩

end

section
variable {toUpperCase : Text → Text} {maxAttempts : ℕ} {p : PassInput}

def visitOf (toUpperCase : Text → Text) (maxAttempts : ℕ) (p : PassInput)
    (e : Σ _ : Text, StoredRecord) : Visit :=
  visit toUpperCase maxAttempts p (p.ask e.1) e.2

lemma loop_cons (e : Σ _ : Text, StoredRecord) (es : List (Σ _ : Text, StoredRecord))
    (pass : Pass) :
    loop toUpperCase maxAttempts p (e :: es) pass = if Armed e.2 then
        match (visitOf toUpperCase maxAttempts p e).result with
        | none =>
          { pass with
            calls := pass.calls ++ (visitOf toUpperCase maxAttempts p e).calls
            threw := true }
        | some (record, entry) =>
          loop toUpperCase maxAttempts p es
            { calls := pass.calls ++ (visitOf toUpperCase maxAttempts p e).calls
              next := pass.next.set (Text.integer e.2.pr) record
              entries := pass.entries ++ [entry]
              threw := false }
      else loop toUpperCase maxAttempts p es pass := by
  rw [loop]
  split_ifs with harm
  · unfold Pass.after visitOf
    cases (visit toUpperCase maxAttempts p (p.ask e.1) e.2).result <;> rfl
  · rfl

variable {e : Σ _ : Text, StoredRecord} {es : List (Σ _ : Text, StoredRecord)} {key : Text}
  {pass pass' : Pass} {pr : ℤ}

lemma loop_of_unarmed (h : ∀ e ∈ es, ¬ Armed e.2)
    (pass : Pass) : loop toUpperCase maxAttempts p es pass = pass := by
  induction es with
  | nil => rfl
  | cons e es ih =>
    rw [loop_cons, if_neg (h e List.mem_cons_self)]
    exact ih fun e' he' => h e' (List.mem_cons_of_mem _ he')

lemma mem_calls_loop {call : PortCall} (h : call ∈ (loop toUpperCase maxAttempts p es pass).calls) :
    call ∈ pass.calls ∨
      ∃ e ∈ es, Armed e.2 ∧ call ∈ (visitOf toUpperCase maxAttempts p e).calls := by
  induction es generalizing pass with
  | nil => exact .inl h
  | cons e es ih =>
    have hlat : (∃ e' ∈ es, Armed e'.2 ∧ call ∈ (visitOf toUpperCase maxAttempts p e').calls) →
        ∃ e' ∈ e :: es, Armed e'.2 ∧ call ∈ (visitOf toUpperCase maxAttempts p e').calls := by
      rintro ⟨e', he', hcall⟩
      exact ⟨e', List.mem_cons_of_mem _ he', hcall⟩
    rw [loop_cons] at h
    split_ifs at h with harm
    · have hhere : call ∈ pass.calls ++ (visitOf toUpperCase maxAttempts p e).calls →
          call ∈ pass.calls ∨ ∃ e' ∈ e :: es, Armed e'.2 ∧
            call ∈ (visitOf toUpperCase maxAttempts p e').calls := by
        intro hcall
        rcases List.mem_append.mp hcall with hcall | hcall
        · exact .inl hcall
        · exact .inr ⟨e, List.mem_cons_self, harm, hcall⟩
      cases hres : (visitOf toUpperCase maxAttempts p e).result with
      | none =>
        rw [hres] at h
        exact hhere h
      | some stamped =>
        rw [hres] at h
        rcases ih h with hcall | hcall
        · exact hhere hcall
        · exact .inr (hlat hcall)
    · exact (ih h).imp_right hlat

lemma lookup_loop_of_unarmed
    (h : ∀ e ∈ es, Armed e.2 → Text.integer e.2.pr ≠ key) :
    (loop toUpperCase maxAttempts p es pass).next.lookup key = pass.next.lookup key := by
  induction es generalizing pass with
  | nil => rfl
  | cons e es ih =>
    have hes : ∀ e' ∈ es, Armed e'.2 → Text.integer e'.2.pr ≠ key := fun e' he' =>
      h e' (List.mem_cons_of_mem _ he')
    rw [loop_cons]
    split_ifs with harm
    · cases (visitOf toUpperCase maxAttempts p e).result with
      | none => rfl
      | some stamped =>
        have hne : key ≠ Text.integer e.2.pr := (h e List.mem_cons_self harm).symm
        simp only
        rw [ih hes, JsMap.lookup_set_ne _ _ hne]
    · exact ih hes

lemma lookup_loop_of_armed
    (hes : es.NodupKeys)
    (hkeys : ∀ e ∈ es, Armed e.2 → e.1 = Text.integer e.2.pr) (he : e ∈ es) (harm : Armed e.2)
    (hthr : (loop toUpperCase maxAttempts p es pass).threw = false) :
    ∃ stamped ∈ (visitOf toUpperCase maxAttempts p e).result,
      (loop toUpperCase maxAttempts p es pass).next.lookup e.1 = some stamped.1 := by
  induction es generalizing pass with
  | nil => cases he
  | cons head es ih =>
    obtain ⟨hne, hes⟩ := JsObject.nodupKeys_cons.mp hes
    have hkeys' : ∀ e ∈ es, Armed e.2 → e.1 = Text.integer e.2.pr := fun e' he' =>
      hkeys e' (List.mem_cons_of_mem _ he')
    rw [loop_cons] at hthr ⊢
    rcases List.mem_cons.mp he with rfl | he
    · rw [if_pos harm] at hthr ⊢
      cases hres : (visitOf toUpperCase maxAttempts p e).result with
      | none =>
        rw [hres] at hthr
        cases hthr
      | some stamped =>
        have hrest : ∀ e' ∈ es, Armed e'.2 → Text.integer e'.2.pr ≠ e.1 := by
          intro e' he' harm'
          rw [← hkeys' e' he' harm']
          exact hne e' he'
        refine ⟨stamped, rfl, ?_⟩
        simp only
        rw [lookup_loop_of_unarmed hrest, ← hkeys e List.mem_cons_self harm]
        exact JsMap.lookup_set_self _ _ _
    · split_ifs at hthr ⊢ with hhead
      · cases hres : (visitOf toUpperCase maxAttempts p head).result with
        | none =>
          rw [hres] at hthr
          cases hthr
        | some stamped =>
          rw [hres] at hthr
          exact ih hes hkeys' he hthr
      · exact ih hes hkeys' he hthr

/-- A record whose visit throws is the only armed one. -/
def Sole (toUpperCase : Text → Text) (maxAttempts : ℕ) (p : PassInput)
    (es : List (Σ _ : Text, StoredRecord)) : Prop :=
  ∀ e ∈ es, Armed e.2 → (visitOf toUpperCase maxAttempts p e).result = none →
    ∀ e' ∈ es, Armed e'.2 → e'.1 = e.1

lemma Sole.tail
    (h : Sole toUpperCase maxAttempts p (e :: es)) : Sole toUpperCase maxAttempts p es := by
  intro e₁ he₁ harm hres e₂ he₂
  exact h e₁ (List.mem_cons_of_mem _ he₁) harm hres e₂ (List.mem_cons_of_mem _ he₂)

lemma Sole.rest
    (h : Sole toUpperCase maxAttempts p (e :: es)) (hes : (e :: es).NodupKeys) (harm : Armed e.2)
    (hres : (visitOf toUpperCase maxAttempts p e).result = none) :
    ∀ e' ∈ es, ¬ Armed e'.2 := by
  intro e' he' harm'
  exact (JsObject.nodupKeys_cons.mp hes).1 e' he'
    (h e List.mem_cons_self harm hres e' (List.mem_cons_of_mem _ he') harm')

lemma visited_of_threw
    (hpass : pass.threw = false)
    (h : (loop toUpperCase maxAttempts p es pass).threw = true) :
    ∃ e ∈ es, Armed e.2 ∧ (visitOf toUpperCase maxAttempts p e).result = none := by
  induction es generalizing pass with
  | nil =>
    rw [loop, hpass] at h
    cases h
  | cons e es ih =>
    have hlat : (∃ e' ∈ es, Armed e'.2 ∧ (visitOf toUpperCase maxAttempts p e').result = none) →
        ∃ e' ∈ e :: es, Armed e'.2 ∧ (visitOf toUpperCase maxAttempts p e').result = none := by
      rintro ⟨e', he', hres⟩
      exact ⟨e', List.mem_cons_of_mem _ he', hres⟩
    rw [loop_cons] at h
    split_ifs at h with harm
    · cases hres : (visitOf toUpperCase maxAttempts p e).result with
      | none => exact ⟨e, List.mem_cons_self, harm, hres⟩
      | some stamped =>
        rw [hres] at h
        exact hlat (ih rfl h)
    · exact hlat (ih hpass h)

lemma loop_of_threw
    (hsole : Sole toUpperCase maxAttempts p es) (hes : es.NodupKeys)
    (h : (loop toUpperCase maxAttempts p es pass).threw = true) :
    (loop toUpperCase maxAttempts p es pass).next = pass.next ∧
      (loop toUpperCase maxAttempts p es pass).entries = pass.entries := by
  induction es with
  | nil => exact ⟨rfl, rfl⟩
  | cons e es ih =>
    rw [loop_cons] at h ⊢
    split_ifs at h ⊢ with harm
    · cases hres : (visitOf toUpperCase maxAttempts p e).result with
      | none => exact ⟨rfl, rfl⟩
      | some stamped =>
        rw [hres] at h
        obtain ⟨e', he', harm', hthr⟩ := visited_of_threw rfl h
        have hkey := hsole e' (List.mem_cons_of_mem _ he') harm' hthr e
          List.mem_cons_self harm
        exact absurd hkey.symm ((JsObject.nodupKeys_cons.mp hes).1 e' he')
    · exact ih hsole.tail (JsObject.nodupKeys_cons.mp hes).2 h

/-- Two passes stand the same for one pull request. -/
def Same (pr : ℤ) (pass pass' : Pass) : Prop :=
  pass.calls.filter (·.pr = pr) = pass'.calls.filter (·.pr = pr) ∧
    pass.entries.filter (·.pr = pr) = pass'.entries.filter (·.pr = pr) ∧
    pass.next.lookup (Text.integer pr) = pass'.next.lookup (Text.integer pr)

lemma filter_calls_append {calls calls' more : List PortCall} (h : ∀ call ∈ more, call.pr ≠ pr)
    (hsame : calls.filter (·.pr = pr) = calls'.filter (·.pr = pr)) :
    (calls ++ more).filter (·.pr = pr) = calls'.filter (·.pr = pr) := by
  have hnil : more.filter (·.pr = pr) = [] := by
    rw [List.filter_eq_nil_iff]
    intro call hcall
    simpa using h call hcall
  rw [List.filter_append, hnil, List.append_nil, hsame]

lemma Same.left {r : StoredRecord} {calls : List PortCall}
    (h : Same pr pass pass') (hcalls : ∀ call ∈ calls, call.pr = r.pr) (hpr : r.pr ≠ pr)
    {stamped : StoredRecord × PassEntry} (hentry : stamped.2.pr = r.pr) :
    Same pr
      { calls := pass.calls ++ calls
        next := pass.next.set (Text.integer r.pr) stamped.1
        entries := pass.entries ++ [stamped.2]
        threw := false }
      pass' := by
  obtain ⟨hc, he, hn⟩ := h
  refine ⟨filter_calls_append (fun call hcall => by rwa [hcalls call hcall]) hc, ?_, ?_⟩
  · have hnil : [stamped.2].filter (fun entry => decide (entry.pr = pr)) = [] := by
      simpa [hentry] using hpr
    rw [List.filter_append, hnil, List.append_nil, he]
  · rw [JsMap.lookup_set_ne _ _ fun heq => hpr (Text.integer_injective heq).symm, hn]

lemma Same.symm (h : Same pr pass pass') : Same pr pass' pass :=
  ⟨h.1.symm, h.2.1.symm, h.2.2.symm⟩

lemma Same.both (h : Same pr pass pass') (r : StoredRecord)
    (calls : List PortCall) (stamped : StoredRecord × PassEntry) :
    Same pr
      { calls := pass.calls ++ calls
        next := pass.next.set (Text.integer r.pr) stamped.1
        entries := pass.entries ++ [stamped.2]
        threw := false }
      { calls := pass'.calls ++ calls
        next := pass'.next.set (Text.integer r.pr) stamped.1
        entries := pass'.entries ++ [stamped.2]
        threw := false } := by
  obtain ⟨hc, he, hn⟩ := h
  refine ⟨?_, ?_, ?_⟩
  · rw [List.filter_append, List.filter_append, hc]
  · rw [List.filter_append, List.filter_append, he]
  · rw [JsMap.lookup_set, JsMap.lookup_set, hn]

lemma visitOf_answering {answers : Answers} (hkey : e.1 ≠ key) :
    visitOf toUpperCase maxAttempts (p.answering key answers) e =
      visitOf toUpperCase maxAttempts p e := by
  unfold visitOf PassInput.answering
  simp only [Function.update_of_ne hkey]
  rfl

/-- What the ports answer for one record changes nothing for another pull request. -/
lemma loop_isolated {answers : Answers} (hes : es.NodupKeys)
    (hkeys : ∀ e ∈ es, Armed e.2 → e.1 = Text.integer e.2.pr)
    (hsole : Sole toUpperCase maxAttempts p es)
    (hansw : answers.check ≠ .threw) (hpr : Text.integer pr ≠ key)
    (h : Same pr pass pass') :
    Same pr (loop toUpperCase maxAttempts p es pass)
      (loop toUpperCase maxAttempts (p.answering key answers) es pass') := by
  induction es generalizing pass pass' with
  | nil => exact h
  | cons e es ih =>
    have hkeys' : ∀ e ∈ es, Armed e.2 → e.1 = Text.integer e.2.pr := fun e' he' =>
      hkeys e' (List.mem_cons_of_mem _ he')
    have hes' := (JsObject.nodupKeys_cons.mp hes).2
    by_cases harm : Armed e.2
    swap
    · rw [loop_cons, loop_cons, if_neg harm, if_neg harm]
      exact ih hes' hkeys' hsole.tail h
    rw [loop_cons, loop_cons, if_pos harm, if_pos harm]
    by_cases hkey : e.1 = key
    · have hne : e.2.pr ≠ pr := by
        intro heq
        rw [← heq, ← hkeys e List.mem_cons_self harm] at hpr
        exact hpr hkey
      have hfits : Fits maxAttempts e.2 (visitOf toUpperCase maxAttempts p e) :=
        fits_visit harm
      have hfits' : Fits maxAttempts e.2
          (visitOf toUpperCase maxAttempts (p.answering key answers) e) :=
        fits_visit harm
      cases hres' : (visitOf toUpperCase maxAttempts (p.answering key answers) e).result with
      | none =>
        obtain ⟨view, -, -, hthr⟩ := visit_threw hres'
        have hask : (p.answering key answers).ask e.1 = answers := by
          rw [hkey]
          exact Function.update_self key answers p.ask
        rw [hask] at hthr
        exact absurd hthr hansw
      | some stamped' =>
        have hentry' := (hfits'.stamped stamped' hres').2.1
        cases hres : (visitOf toUpperCase maxAttempts p e).result with
        | none =>
          simp only
          rw [loop_of_unarmed (hsole.rest hes harm hres)]
          refine Same.symm (Same.left ?_ hfits'.calls hne hentry')
          obtain ⟨hc, he, hn⟩ := h.symm
          have hfilt := filter_calls_append
            (fun call hcall => by rwa [hfits.calls call hcall]) hc.symm
          exact ⟨hfilt.symm, he, hn⟩
        | some stamped =>
          have hentry := (hfits.stamped stamped hres).2.1
          apply ih hes' hkeys' hsole.tail
          exact Same.left (Same.left h.symm hfits'.calls hne hentry').symm hfits.calls hne
            hentry
    · rw [visitOf_answering hkey]
      cases (visitOf toUpperCase maxAttempts p e).result with
      | none =>
        obtain ⟨hc, he, hn⟩ := h
        refine ⟨?_, he, hn⟩
        simp only
        rw [List.filter_append, List.filter_append, hc]
      | some stamped =>
        apply ih hes' hkeys' hsole.tail
        exact h.both _ _ _

end

lemma safeOrZero_safeOrZero (n : ℤ) : safeOrZero (safeOrZero n) = safeOrZero n := by
  by_cases h : isSafeInteger n = true
  · have hn : safeOrZero n = n := if_pos h
    rw [hn, hn]
  · have hn : safeOrZero n = 0 := if_neg h
    rw [hn]
    rfl

/-- What the validation makes of a record that it lets pass. -/
def normalised (r : StoredRecord) : StoredRecord :=
  { r with
    armedAtEpoch := safeOrZero r.armedAtEpoch
    attempts := safeOrZero r.attempts
    updatedAtEpoch := safeOrZero r.updatedAtEpoch }

lemma normalised_normalised (r : StoredRecord) : normalised (normalised r) = normalised r := by
  simp only [normalised, safeOrZero_safeOrZero]

def ValidKey (key : Text) (pr : ℤ) : Prop :=
  key ≠ [] ∧ key.all Char.isDigit = true ∧ isSafeInteger pr = true

variable {key : Text} {r : StoredRecord}

lemma validRecord_eq_some {r' : StoredRecord} :
    validRecord key r = some r' ↔ ValidKey key r.pr ∧ r' = normalised r := by
  unfold validRecord
  split_ifs with h
  · rw [some.injEq, eq_comm]
    exact (and_iff_right h).symm
  · constructor
    · intro h'
      cases h'
    · rintro ⟨hval, -⟩
      exact absurd hval h

lemma lookup_validateState_eq (m : Records) (key : Text) :
    (validateState m).lookup key = (m.lookup key).bind (validRecord key) :=
  JsObject.lookup_keep validRecord m key

lemma lookup_validateState {m : Records} : (validateState m).lookup key = some r ↔
      ∃ r₀, m.lookup key = some r₀ ∧ ValidKey key r₀.pr ∧ r = normalised r₀ := by
  rw [lookup_validateState_eq, bind_eq_some_iff]
  simp only [validRecord_eq_some]

lemma validated {m : Records}
    (h : (validateState m).lookup key = some r) : ValidKey key r.pr ∧ normalised r = r := by
  obtain ⟨r₀, -, hval, rfl⟩ := lookup_validateState.mp h
  exact ⟨hval, normalised_normalised r₀⟩

lemma lookup_validateState_validateState (m : Records) (key : Text) :
    (validateState (validateState m)).lookup key = (validateState m).lookup key := by
  apply ext
  intro r
  rw [lookup_validateState]
  constructor
  · rintro ⟨r₀, h, -, rfl⟩
    rw [(validated h).2]
    exact h
  · intro h
    exact ⟨r, h, (validated h).1, (validated h).2.symm⟩

section
variable {toUpperCase : Text → Text} {maxAttempts : ℕ} {stored : Records} {p : PassInput}

lemma readStore_eq_some {key : Text} {r : StoredRecord} : (readStore stored p).lookup key = some r ↔
      p.readable = true ∧ (validateState stored).lookup key = some r := by
  unfold readStore
  split_ifs with h
  · simp [h]
  · simp [h]

lemma mem_listed {e : Σ _ : Text, StoredRecord} : e ∈ JsObject.entries (readStore stored p) ↔
      p.readable = true ∧ (validateState stored).lookup e.1 = some e.2 := by
  rw [JsObject.mem_entries, readStore_eq_some]

lemma keys_of_tidy (h : Tidy stored) :
    ∀ e ∈ JsObject.entries (readStore stored p), Armed e.2 → e.1 = Text.integer e.2.pr := by
  intro e he harm
  exact (h e.1 e.2 (mem_listed.mp he).2 harm).1

lemma next_lookup (htidy : Tidy stored)
    (hthr : (runMergeDriverPass toUpperCase maxAttempts stored p).threw = false) (key : Text) :
    (readStore stored p).lookup key = none ∧
        (runMergeDriverPass toUpperCase maxAttempts stored p).next.lookup key = none ∨
      (∃ r, (readStore stored p).lookup key = some r ∧ ¬ Armed r ∧
        (runMergeDriverPass toUpperCase maxAttempts stored p).next.lookup key = some r) ∨
      ∃ r stamped, (readStore stored p).lookup key = some r ∧ Armed r ∧
        (runMergeDriverPass toUpperCase maxAttempts stored p).next.lookup key = some stamped ∧
        stamped.pr = r.pr ∧ (Terminal stamped ∨
          Armed stamped ∧ stamped.attempts = r.attempts + 1 ∧ r.attempts < maxAttempts) := by
  have hkeys := keys_of_tidy (p := p) htidy
  have hstays : (∀ r, (readStore stored p).lookup key = some r → ¬ Armed r) →
      (runMergeDriverPass toUpperCase maxAttempts stored p).next.lookup key =
        (readStore stored p).lookup key := by
    intro hunarm
    apply lookup_loop_of_unarmed
    intro e he harm heq
    rw [← hkeys e he harm] at heq
    exact hunarm e.2 (heq ▸ JsObject.mem_entries.mp he) harm
  cases hlook : (readStore stored p).lookup key with
  | none =>
    have hunarm : ∀ r, (readStore stored p).lookup key = some r → ¬ Armed r := by
      intro r hr
      rw [hlook] at hr
      cases hr
    exact .inl ⟨rfl, (hstays hunarm).trans hlook⟩
  | some r =>
    by_cases harm : Armed r
    · have he : (⟨key, r⟩ : Σ _ : Text, StoredRecord) ∈
          JsObject.entries (readStore stored p) := JsObject.mem_entries.mpr hlook
      obtain ⟨stamped, hstamped, hnext⟩ := lookup_loop_of_armed
        (JsObject.nodupKeys_entries _) hkeys he harm hthr
      obtain ⟨hpr, -, hstat⟩ := (fits_visit harm).stamped stamped hstamped
      exact .inr (.inr ⟨r, stamped.1, rfl, harm, hnext, hpr, hstat⟩)
    · have hunarm : ∀ r', (readStore stored p).lookup key = some r' → ¬ Armed r' := by
        intro r' hr'
        rw [hlook] at hr'
        exact some.inj hr' ▸ harm
      exact .inr (.inl ⟨r, rfl, harm, (hstays hunarm).trans hlook⟩)

/-- What a pass that writes leaves of a record. -/
def Follows (maxAttempts : ℕ) (r r' : StoredRecord) : Prop :=
  ¬ Armed r ∧ r' = r ∨ Armed r ∧ r'.pr = r.pr ∧ (Terminal r' ∨
    Armed r' ∧ r'.attempts = r.attempts + 1 ∧ r.attempts < maxAttempts)

lemma normalised_follows {key : Text} {r stamped : StoredRecord} (hmax : maxAttempts < 2 ^ 53)
    (hkey : ValidKey key r.pr) (harm : Armed r) (hatt : 0 ≤ r.attempts)
    (hpr : stamped.pr = r.pr)
    (hstat : Terminal stamped ∨
      Armed stamped ∧ stamped.attempts = r.attempts + 1 ∧ r.attempts < maxAttempts) :
    ValidKey key stamped.pr ∧ Follows maxAttempts r (normalised stamped) := by
  constructor
  · rw [hpr]
    exact hkey
  · refine .inr ⟨harm, hpr, ?_⟩
    rcases hstat with hterm | ⟨hstill, heq, hlt⟩
    · exact .inl hterm
    · refine .inr ⟨hstill, ?_, hlt⟩
      have hsafe : isSafeInteger stamped.attempts = true := by
        simp only [isSafeInteger, Bool.and_eq_true, decide_eq_true_eq]
        omega
      have hkept : (normalised stamped).attempts = stamped.attempts := if_pos hsafe
      rw [hkept, heq]

lemma lookup_after (hmax : maxAttempts < 2 ^ 53) (htidy : Tidy stored)
    (hwrit : writes toUpperCase maxAttempts stored p = true) (key : Text) :
    (readStore stored p).lookup key = none ∧
        (validateState (storedAfter toUpperCase maxAttempts stored p)).lookup key = none ∨
      ∃ r r', (readStore stored p).lookup key = some r ∧
        (validateState (storedAfter toUpperCase maxAttempts stored p)).lookup key = some r' ∧
        Follows maxAttempts r r' := by
  have hthr : (runMergeDriverPass toUpperCase maxAttempts stored p).threw = false := by
    simp only [writes, Bool.and_eq_true, Bool.not_eq_true'] at hwrit
    exact hwrit.1
  rw [storedAfter, if_pos hwrit, lookup_validateState_validateState]
  rcases next_lookup htidy hthr key with ⟨hnone, hnext⟩ | ⟨r, hr, harm, hnext⟩ |
    ⟨r, stamped, hr, harm, hnext, hpr, hstat⟩
  · refine .inl ⟨hnone, ?_⟩
    rw [lookup_validateState_eq, hnext]
    rfl
  · have hval := validated (readStore_eq_some.mp hr).2
    refine .inr ⟨r, r, hr, ?_, .inl ⟨harm, rfl⟩⟩
    exact lookup_validateState.mpr ⟨r, hnext, hval.1, hval.2.symm⟩
  · have hstor := (readStore_eq_some.mp hr).2
    obtain ⟨hkey, hfoll⟩ := normalised_follows hmax (validated hstor).1 harm
      (htidy key r hstor harm).2 hpr hstat
    refine .inr ⟨r, normalised stamped, hr, ?_, hfoll⟩
    exact lookup_validateState.mpr ⟨stamped, hnext, hkey, rfl⟩

variable {s : State}

lemma sole_of_met (hmet : PassMet toUpperCase maxAttempts s p) :
    Sole toUpperCase maxAttempts p (JsObject.entries (readStore s.stored p)) := by
  intro e he harm hres e' he' harm'
  obtain ⟨view, hasked, hgat, hthr⟩ := visit_threw hres
  obtain ⟨hsafe, hgate⟩ := hmet e.1 e.2 (JsObject.mem_entries.mp he) harm hasked.attempts view
    hasked.viewed
  exact hgate (mergeable_of_merge hasked.verdict hsafe) hgat hthr e'.1 e'.2
    (JsObject.mem_entries.mp he') harm'

lemma mergesProved_of_met (hmet : PassMet toUpperCase maxAttempts s p) :
    MergesProved toUpperCase maxAttempts s.stored p := by
  intro pr hcall
  rcases mem_calls_loop hcall with hnone | ⟨e, he, harm, hcall⟩
  · cases hnone
  obtain ⟨view, hasked, hgate⟩ := visit_merge hcall
  have hpr : pr = e.2.pr := (fits_visit harm).calls _ hcall
  have hsafe := (hmet e.1 e.2 (JsObject.mem_entries.mp he) harm hasked.attempts view
    hasked.viewed).1
  exact ⟨e.1, e.2, view, (mem_listed.mp he).2, hpr.symm, harm, hasked.viewed,
    mergeable_of_merge hasked.verdict hsafe, hgate⟩

lemma leavesUnarmed_of_tidy (htidy : Tidy stored) :
    LeavesUnarmed toUpperCase maxAttempts stored p := by
  intro pr hunarm call hcall hpr
  rcases mem_calls_loop hcall with hnone | ⟨e, he, harm, hcall⟩
  · cases hnone
  have hpr' : call.pr = e.2.pr := (fits_visit harm).calls _ hcall
  have hkey : e.1 = Text.integer pr := by
    rw [← hpr, hpr']
    exact keys_of_tidy htidy e he harm
  exact hunarm e.2 (hkey ▸ (mem_listed.mp he).2) harm

lemma outcome_of_sole (pr : ℤ)
    (hsole : Sole toUpperCase maxAttempts p (JsObject.entries (readStore stored p))) :
    outcome toUpperCase maxAttempts stored p pr =
      ((runMergeDriverPass toUpperCase maxAttempts stored p).calls.filter (·.pr = pr),
        if p.written = true then
          (runMergeDriverPass toUpperCase maxAttempts stored p).entries.filter (·.pr = pr)
        else [],
        if p.written = true then
          (validateState (runMergeDriverPass toUpperCase maxAttempts stored p).next).lookup
            (Text.integer pr)
        else (validateState stored).lookup (Text.integer pr)) := by
  unfold outcome returned storedAfter writes
  cases hwritt : p.written with
  | false => simp
  | true =>
    cases hthr : (runMergeDriverPass toUpperCase maxAttempts stored p).threw with
    | false => simp [lookup_validateState_validateState]
    | true =>
      obtain ⟨hnext, hentr⟩ := loop_of_threw hsole (JsObject.nodupKeys_entries _) hthr
      obtain ⟨e, he, -, -⟩ := visited_of_threw rfl hthr
      have hread : readStore stored p = validateState stored := if_pos (mem_listed.mp he).1
      have hnext' : (runMergeDriverPass toUpperCase maxAttempts stored p).next =
          validateState stored := hnext.trans hread
      have hentr' : (runMergeDriverPass toUpperCase maxAttempts stored p).entries = [] :=
        hentr
      simp [hnext', hentr', lookup_validateState_validateState]

lemma isolates_of_met (htidy : Tidy s.stored) (hmet : PassMet toUpperCase maxAttempts s p) :
    Isolates toUpperCase maxAttempts s.stored p := by
  intro key record hrec harm answers hansw pr hpr
  have hkey : Text.integer pr ≠ key := by
    rw [(htidy key record hrec harm).1]
    exact fun heq => hpr (Text.integer_injective heq)
  have hsole := sole_of_met hmet
  have hsole' : Sole toUpperCase maxAttempts (p.answering key answers)
      (JsObject.entries (readStore s.stored p)) := by
    intro e he harm' hres
    by_cases he' : e.1 = key
    · obtain ⟨view, -, -, hthr⟩ := visit_threw hres
      have hask : (p.answering key answers).ask e.1 = answers := by
        rw [he']
        exact Function.update_self key answers p.ask
      rw [hask] at hthr
      exact absurd hthr hansw
    · exact hsole e he harm' (visitOf_answering he' ▸ hres)
  have hstart : Same pr (.start (readStore s.stored p)) (.start (readStore s.stored p)) :=
    ⟨rfl, rfl, rfl⟩
  obtain ⟨hcalls, hentr, hnext⟩ := loop_isolated (JsObject.nodupKeys_entries _)
    (keys_of_tidy htidy) hsole hansw hkey hstart
  rw [outcome_of_sole pr hsole, outcome_of_sole (p := p.answering key answers) pr hsole']
  have hval : (validateState (runMergeDriverPass toUpperCase maxAttempts s.stored p).next).lookup
        (Text.integer pr) =
      (validateState (runMergeDriverPass toUpperCase maxAttempts s.stored
        (p.answering key answers)).next).lookup (Text.integer pr) := by
    rw [lookup_validateState_eq, lookup_validateState_eq]
    exact congrArg (fun r : Option StoredRecord => r.bind (validRecord (Text.integer pr))) hnext
  rw [hval]
  exact Prod.ext hcalls (Prod.ext (congrArg (fun l => if p.written = true then l else []) hentr)
    rfl)

end

section
variable {toUpperCase : Text → Text} {maxAttempts : ℕ} {s t : State} {p : PassInput}

structure Inv (toUpperCase : Text → Text) (maxAttempts : ℕ) (s : State) : Prop where
  merges : ∀ pass ∈ s.passed, MergesProved toUpperCase maxAttempts pass.1 pass.2
  unarmed : ∀ pass ∈ s.passed, LeavesUnarmed toUpperCase maxAttempts pass.1 pass.2
  isolated : ∀ pass ∈ s.passed, Isolates toUpperCase maxAttempts pass.1 pass.2
  tidy : Tidy s.stored
  attempts : ∀ key r, (validateState s.stored).lookup key = some r → Armed r →
    s.writes ≤ r.attempts ∧ (0 < s.writes → r.attempts ≤ maxAttempts)
  driven : ∀ key r₀, (validateState s.initial).lookup key = some r₀ → Armed r₀ →
    ∀ r, (validateState s.stored).lookup key = some r → Armed r ∨ Terminal r
  listed : (∀ pass ∈ s.passed, pass.2.readable = true) →
    ∀ key, key ∈ validateState s.initial → key ∈ validateState s.stored

lemma forall_mem_concat {α : Type*} {P : α → Prop} {l : List α} {a : α} (hl : ∀ b ∈ l, P b)
    (ha : P a) : ∀ b ∈ l ++ [a], P b := by
  intro b hb
  rcases List.mem_append.mp hb with hb | hb
  · exact hl b hb
  · exact List.mem_singleton.mp hb ▸ ha

lemma inv_start {stored : Records} (htidy : Tidy stored) :
    Inv toUpperCase maxAttempts (.start stored) where
  merges pass h := by cases h
  unarmed pass h := by cases h
  isolated pass h := by cases h
  tidy := htidy
  attempts key r hr harm := by
    have hzero := (htidy key r hr harm).2
    constructor
    · simpa [State.start] using hzero
    · intro hpos
      cases hpos
  driven key r₀ hr₀ harm r hr := by
    have heq : r₀ = r := Option.some.inj (hr₀.symm.trans hr)
    exact .inl (heq ▸ harm)
  listed _ key hkey := hkey

lemma step_of_unwritten (h : (passes toUpperCase maxAttempts).next s p = some t)
    (hwrit : writes toUpperCase maxAttempts s.stored p = false) :
    t.stored = s.stored ∧ t.writes = s.writes := by
  cases h
  constructor
  · exact if_neg (by simp [hwrit])
  · simp [hwrit]

lemma step_of_written (hmax : maxAttempts < 2 ^ 53) (htidy : Tidy s.stored)
    (h : (passes toUpperCase maxAttempts).next s p = some t)
    (hwrit : writes toUpperCase maxAttempts s.stored p = true) :
    t.writes = s.writes + 1 ∧ (∀ key r', (validateState t.stored).lookup key = some r' →
        ∃ r, (validateState s.stored).lookup key = some r ∧ Follows maxAttempts r r') ∧
      (p.readable = true → ∀ key, key ∈ validateState s.stored → key ∈ validateState t.stored) := by
  cases h
  refine ⟨by simp [hwrit], ?_, ?_⟩
  · intro key r' hr'
    rcases lookup_after hmax htidy hwrit key with ⟨-, hnone⟩ | ⟨r, r₁, hr, hr₁, hfoll⟩
    · rw [hnone] at hr'
      cases hr'
    · obtain rfl := some.inj (hr₁.symm.trans hr')
      exact ⟨r, (readStore_eq_some.mp hr).2, hfoll⟩
  · intro hreadable key hkey
    obtain ⟨r, hr⟩ := JsMap.mem_iff_lookup.mp hkey
    have hread : (readStore s.stored p).lookup key = some r :=
      readStore_eq_some.mpr ⟨hreadable, hr⟩
    rcases lookup_after hmax htidy hwrit key with ⟨hnone, -⟩ | ⟨r₁, r', -, hr', -⟩
    · rw [hnone] at hread
      cases hread
    · exact JsMap.mem_iff_lookup.mpr ⟨r', hr'⟩

variable {r : StoredRecord}

lemma Terminal.not_armed (h : Terminal r) : ¬ Armed r := by
  intro harm
  unfold Armed at harm
  unfold Terminal at h
  rw [harm] at h
  simp at h

lemma Follows.armed {r' : StoredRecord} (h : Follows maxAttempts r r') (harm : Armed r') :
    Armed r ∧ r'.pr = r.pr ∧ r'.attempts = r.attempts + 1 ∧ r.attempts < maxAttempts := by
  rcases h with ⟨hnot, rfl⟩ | ⟨hr, hpr, hterm | ⟨-, hatt⟩⟩
  · exact absurd harm hnot
  · exact absurd harm hterm.not_armed
  · exact ⟨hr, hpr, hatt⟩

lemma Follows.driven {r' : StoredRecord} (h : Follows maxAttempts r r')
    (hr : Armed r ∨ Terminal r) : Armed r' ∨ Terminal r' := by
  rcases h with ⟨-, rfl⟩ | ⟨-, -, hterm | ⟨harm, -⟩⟩
  · exact hr
  · exact .inr hterm
  · exact .inl harm

lemma inv_step (hmax : maxAttempts < 2 ^ 53) (hs : Inv toUpperCase maxAttempts s)
    (hmet : PassMet toUpperCase maxAttempts s p)
    (h : (passes toUpperCase maxAttempts).next s p = some t) :
    Inv toUpperCase maxAttempts t := by
  have hpassed : t.passed = s.passed ++ [(s.stored, p)] := by
    cases h
    rfl
  have hinit : t.initial = s.initial := by
    cases h
    rfl
  have hmerg : ∀ pass ∈ s.passed ++ [(s.stored, p)],
      MergesProved toUpperCase maxAttempts pass.1 pass.2 :=
    forall_mem_concat hs.merges (mergesProved_of_met hmet)
  have hunarm : ∀ pass ∈ s.passed ++ [(s.stored, p)],
      LeavesUnarmed toUpperCase maxAttempts pass.1 pass.2 :=
    forall_mem_concat hs.unarmed (leavesUnarmed_of_tidy hs.tidy)
  have hisol : ∀ pass ∈ s.passed ++ [(s.stored, p)],
      Isolates toUpperCase maxAttempts pass.1 pass.2 :=
    forall_mem_concat hs.isolated (isolates_of_met hs.tidy hmet)
  have hreadable : (∀ pass ∈ t.passed, pass.2.readable = true) →
      (∀ pass ∈ s.passed, pass.2.readable = true) ∧ p.readable = true := by
    intro hall
    rw [hpassed] at hall
    exact ⟨fun pass hpass => hall pass (List.mem_append_left _ hpass),
      hall (s.stored, p) (List.mem_append_right _ List.mem_cons_self)⟩
  cases hwrit : writes toUpperCase maxAttempts s.stored p with
  | false =>
    obtain ⟨hstor, hcount⟩ := step_of_unwritten h hwrit
    exact
      { merges := hpassed ▸ hmerg
        unarmed := hpassed ▸ hunarm
        isolated := hpassed ▸ hisol
        tidy := hstor ▸ hs.tidy
        attempts := by
          rw [hstor, hcount]
          exact hs.attempts
        driven := by
          rw [hstor, hinit]
          exact hs.driven
        listed := by
          intro hall
          rw [hstor, hinit]
          exact hs.listed (hreadable hall).1 }
  | true =>
    obtain ⟨hcount, hfoll, hlist⟩ := step_of_written hmax hs.tidy h hwrit
    constructor
    · exact hpassed ▸ hmerg
    · exact hpassed ▸ hunarm
    · exact hpassed ▸ hisol
    · intro key r' hr' harm'
      obtain ⟨r, hr, hrr'⟩ := hfoll key r' hr'
      obtain ⟨harm, hpr, hatt, -⟩ := hrr'.armed harm'
      obtain ⟨hkey, hnonn⟩ := hs.tidy key r hr harm
      rw [hpr, hatt]
      exact ⟨hkey, by omega⟩
    · intro key r' hr' harm'
      obtain ⟨r, hr, hrr'⟩ := hfoll key r' hr'
      obtain ⟨harm, -, hatt, hlt⟩ := hrr'.armed harm'
      have hless := (hs.attempts key r hr harm).1
      rw [hatt, hcount]
      constructor
      · push_cast
        omega
      · intro _
        omega
    · intro key r₀ hr₀ harmed₀ r' hr'
      rw [hinit] at hr₀
      obtain ⟨r, hr, hrr'⟩ := hfoll key r' hr'
      exact hrr'.driven (hs.driven key r₀ hr₀ harmed₀ r hr)
    · intro hall key hkey
      rw [hinit] at hkey
      obtain ⟨hbef, hp⟩ := hreadable hall
      exact hlist hp key (hs.listed hbef key hkey)

lemma Inv.toDriven (hs : Inv toUpperCase maxAttempts s) : Driven toUpperCase maxAttempts s where
  merges := hs.merges
  unarmed := hs.unarmed
  isolated := hs.isolated
  bounded hwrit key r₀ hr₀ harmed₀ := by
    constructor
    · intro r hr
      rcases hs.driven key r₀ hr₀ harmed₀ r hr with harm | hterm
      · obtain ⟨hless, hle⟩ := hs.attempts key r hr harm
        have hbound := hle (by omega)
        omega
      · exact hterm
    · intro hall
      exact hs.listed hall key (JsMap.mem_iff_lookup.mpr ⟨r₀, hr₀⟩)

end

/-- In runs over tidy records, where no gate throws that others depend on and threads are counted
in whole numbers, the driver merges only what it proved, and not for ever. -/
theorem driven_of_met {toUpperCase : Text → Text} {maxAttempts : ℕ} {stored : Records}
    {inputs : List PassInput} {s : State} (hmax : maxAttempts < 2 ^ 53) (htidy : Tidy stored)
    (hrun : (passes toUpperCase maxAttempts).Run (PassMet toUpperCase maxAttempts)
      (.start stored) inputs s) :
    Driven toUpperCase maxAttempts s := by
  have hinv : Inv toUpperCase maxAttempts s :=
    hrun.inv (Inv toUpperCase maxAttempts) (fun _ _ _ hs hmet h => inv_step hmax hs hmet h)
      (inv_start htidy)
  exact hinv.toDriven

def armedRecord (pr : ℤ) : StoredRecord := ⟨pr, .known .armed, 0, 0, 0, none, none, none⟩

def cleanView : View := ⟨.OPEN, "CLEAN".toList, none, .green, none, none, none⟩

def cleanPass (check : Text → GateAnswer) : PassInput :=
  { nowEpoch := 0
    gated := true
    readable := true
    written := true
    ask := fun key => ⟨.ok cleanView, none, check key, none⟩ }

def oneArmed : Records := (∅ : Records).set (Text.integer 7) (armedRecord 7)

def twoArmed : Records := oneArmed.set (Text.integer 8) (armedRecord 8)

/-- The first record is merged. The view of the second cannot be had, in either pass. -/
def blindPass : PassInput :=
  { cleanPass fun _ => .allowed with
    ask := fun key => if key = Text.integer 8 then ⟨.error [], none, .allowed, none⟩
      else ⟨.ok cleanView, none, .allowed, none⟩ }

theorem twoArmed_driven :
    ∃ s, (passes id 1).Run (PassMet id 1) (.start twoArmed) [blindPass, blindPass] s ∧
      Driven id 1 s := by
  have htidy : Tidy twoArmed := by
    intro key record hrec harm
    obtain ⟨r₀, hr₀, -, rfl⟩ := lookup_validateState.mp hrec
    rw [twoArmed, oneArmed, JsMap.lookup_set, JsMap.lookup_set] at hr₀
    split_ifs at hr₀ with hsecond hfirst
    · obtain rfl := some.inj hr₀
      exact ⟨hsecond, by decide⟩
    · obtain rfl := some.inj hr₀
      exact ⟨hfirst, by decide⟩
    · cases hr₀
  have hmet : ∀ s, PassMet id 1 s blindPass := by
    intro s key record _ _ _ view hview
    simp only [blindPass] at hview ⊢
    split_ifs at hview ⊢
    obtain rfl := Except.ok.inj hview
    constructor
    · intro _ threads hthrea
      cases hthrea
    · intro _ _ hthr
      cases hthr
  have hrun : (passes id 1).Run (PassMet id 1) (.start twoArmed) [blindPass, blindPass] _ :=
    .cons (hmet _) rfl (.cons (hmet _) rfl (.nil _))
  exact ⟨_, hrun, driven_of_met (by decide) htidy hrun⟩

/-- The gate throws for the first record, and the second is not looked at. -/
theorem throwing_gate_stops_others :
    ¬ ∀ (toUpperCase : Text → Text) (maxAttempts : ℕ) (stored : Records)
      (inputs : List PassInput) (s : State),
        (passes toUpperCase maxAttempts).Run anyStep (.start stored) inputs s →
          Driven toUpperCase maxAttempts s := by
  intro h
  have hrun : (passes id 25).Run anyStep (.start twoArmed)
      [cleanPass fun key => if key = Text.integer 7 then .threw else .allowed] _ :=
    .cons trivial rfl (.nil _)
  have hisol := (h id 25 twoArmed _ _ hrun).isolated (twoArmed, _) List.mem_cons_self
  have hsev : (validateState twoArmed).lookup (Text.integer 7) = some (armedRecord 7) := by
    decide +kernel
  have houtc := hisol (Text.integer 7) (armedRecord 7) hsev rfl
    ⟨.ok cleanView, none, .allowed, none⟩ (by decide) 8 (by decide)
  have hcalls := congrArg (fun o => o.1.length) houtc
  revert hcalls
  decide +kernel

end Redskilled.Landing.MergePasses
