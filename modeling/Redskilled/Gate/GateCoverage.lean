import Redskilled.Gate.GateExecutor

/-!
# What the gate checks

A gate that was admitted and answers has run, of the feedback scripts, those that its scopes
declare. A root trigger leaves the root as the only scope, so the scripts of the packages are
then checked as far as the root declares scripts of the same names that cover the workspace.
-/
namespace Redskilled.Gate
open Foundation List Option

variable {input : GateInput} {p q : Progress} {r : CastleGateResult} {script : Text}

lemma calls_foldlM {β : Type*} {f : Progress → β → Option Progress} {g : β → List FeedbackCall}
    (hf : ∀ p b q, f p b = some q → q.calls = p.calls ++ g b) {bs : List β}
    (h : bs.foldlM f p = some q) : q.calls = p.calls ++ bs.flatMap g := by
  induction bs generalizing p with
  | nil =>
    cases h
    simp
  | cons b bs ih =>
    rw [foldlM_cons] at h
    obtain ⟨mid, hstep, hrest⟩ := bind_eq_some_iff.mp h
    rw [ih hrest, hf p b mid hstep, flatMap_cons, append_assoc]

def scopeCalls (input : GateInput) (script scope : Text) : List FeedbackCall :=
  if input.layout.hasScript scope script then [feedbackCall input.worktree scope script] else []

lemma calls_runScope {scope : Text} (h : runScope input script p scope = some q) :
    q.calls = p.calls ++ scopeCalls input script scope := by
  rw [runScope] at h
  rw [scopeCalls]
  split_ifs at h ⊢
  · obtain ⟨answer, -, rfl⟩ := map_eq_some_iff.mp h
    rfl
  · cases h
    simp [Progress.skip]

lemma calls_runScript {scopes : List Text} (h : runScript input scopes p script = some q) :
    q.calls = p.calls ++ scopes.flatMap (scopeCalls input script) := by
  rw [runScript] at h
  split_ifs at h with hnone
  · cases h
    simp [Progress.skip, hnone]
  · exact calls_foldlM (fun _ _ _ hstep => calls_runScope hstep) h

lemma calls_runFeedbackChecks {scopes : List Text} (h : runFeedbackChecks input scopes = some q) :
    q.calls = feedbackScripts.flatMap fun script => scopes.flatMap (scopeCalls input script) :=
  calls_foldlM (fun _ _ _ hstep => calls_runScript hstep) h

lemma calls_runCommand {entry : Text × ℕ}
    (h : runCommand input p entry = some q) : q.calls = p.calls := by
  rw [runCommand] at h
  split_ifs at h
  · cases h
    rfl
  · obtain ⟨answer, -, rfl⟩ := map_eq_some_iff.mp h
    rfl

lemma calls_runBackpressureChecks
    (h : runBackpressureChecks input p = some q) : q.calls = p.calls := by
  have hcalls := calls_foldlM (g := fun _ => [])
    (fun _ _ _ hstep => by rw [calls_runCommand hstep, append_nil]) h
  rw [hcalls, flatMap_eq_nil_iff.mpr fun _ _ => rfl, append_nil]

lemma calls_runChecks {scope : ValidationScope} {admission : HostGateAdmission}
    (h : runChecks input scope admission = some r) :
    r.calls = feedbackScripts.flatMap fun script =>
      (scopesForValidationScope scope).flatMap (scopeCalls input script) := by
  rw [runChecks] at h
  obtain ⟨findings, -, h⟩ := bind_eq_some_iff.mp h
  obtain ⟨feedback, hfeedb, h⟩ := bind_eq_some_iff.mp h
  obtain ⟨finished, hfin, h⟩ := bind_eq_some_iff.mp h
  cases h
  have hcalls : finished.calls = feedback.calls := by
    rw [runCommands] at hfin
    split_ifs at hfin
    · exact calls_runBackpressureChecks hfin
    · cases hfin
      rfl
  exact hcalls.trans (calls_runFeedbackChecks hfeedb)

lemma mem_calls (hrun : runCastleGate input = some r)
    (hadmitted : r.admission.admitted = true) {call : FeedbackCall} :
    call ∈ r.calls ↔ ∃ script ∈ feedbackScripts,
      ∃ scope ∈ scopesForValidationScope (computeValidationScope input.changedFiles
        input.layout.hasPackage input.graph),
      input.layout.hasScript scope script = true ∧
        call = feedbackCall input.worktree scope script := by
  rw [runCastleGate] at hrun
  obtain ⟨admission, -, hrun⟩ := bind_eq_some_iff.mp hrun
  split_ifs at hrun with hadm
  · rw [calls_runChecks hrun]
    simp only [mem_flatMap, scopeCalls, mem_ite_nil_right, mem_singleton]
  · cases hrun
    exact absurd hadmitted hadm

def feedbackArgs (worktree scope script : Text) : List Text :=
  ["pnpm".toList, "-C".toList, scopeDir worktree scope, script]

lemma scopeDir_injective {worktree p q : Text} (h : scopeDir worktree p = scopeDir worktree q) :
    p = q := by
  simp only [scopeDir] at h
  split_ifs at h with hp hq hq
  · rw [hp, hq]
  · have hlen := congrArg length h
    simp only [length_append, length_cons] at hlen
    omega
  · have hlen := congrArg length h
    simp only [length_append, length_cons] at hlen
    omega
  · exact (cons.inj (append_cancel_left h)).2

def Ran (input : GateInput) (r : CastleGateResult) (p script : Text) : Prop :=
  ∃ call ∈ r.calls, call.args = feedbackArgs input.worktree p script

def Declares (input : GateInput) (p script : Text) : Prop :=
  script ∈ feedbackScripts ∧ input.layout.hasScript p script = true

instance (input : GateInput) (p script : Text) : Decidable (Declares input p script) :=
  inferInstanceAs (Decidable (script ∈ feedbackScripts ∧ input.layout.hasScript p script = true))

/-- The packages a gate runs scripts in. -/
def Scoped (input : GateInput) (p : Text) : Prop :=
  if HasTrigger input.changedFiles then p = root
  else InCone input.layout.hasPackage input.graph input.changedFiles p

lemma ran_iff (hrun : runCastleGate input = some r)
    (hadmitted : r.admission.admitted = true) {p : Text} :
    Ran input r p script ↔ Declares input p script ∧ Scoped input p := by
  constructor
  · rintro ⟨call, hcall, hargs⟩
    obtain ⟨script', hscr, scope, hscope, hhas, rfl⟩ := (mem_calls hrun hadmitted).mp hcall
    simp only [feedbackCall, feedbackArgs, cons.injEq, and_true, true_and] at hargs
    obtain ⟨hdir, rfl⟩ := hargs
    rw [scopeDir_injective hdir] at hscope hhas
    exact ⟨⟨hscr, hhas⟩, mem_scopes.mp hscope⟩
  · rintro ⟨⟨hscr, hhas⟩, hscop⟩
    refine ⟨feedbackCall input.worktree p script, (mem_calls hrun hadmitted).mpr ?_, rfl⟩
    exact ⟨script, hscr, p, mem_scopes.mpr hscop, hhas, rfl⟩

section
variable (covers : Text → Prop)

/-- A script was run in a package, or at the root where the root's covers the workspace. -/
def Checked (input : GateInput) (r : CastleGateResult) (p script : Text) : Prop :=
  Ran input r p script ∨ (covers script ∧ Ran input r root script)

/-- A package that holds a changed file or depends on one that does. -/
def IsAffected (input : GateInput) (p : Text) : Prop :=
  Affected input.layout.hasPackage input.graph input.changedFiles p

/-- Every feedback script of an affected package is checked. -/
def ChecksAffected (input : GateInput) (r : CastleGateResult) : Prop :=
  ∀ p script, IsAffected input p → Declares input p script → Checked covers input r p script

/-- The second change is the first with files added, in the same workspace. -/
structure Adds (input more : GateInput) : Prop where
  layout : more.layout = input.layout
  graph : more.graph = input.graph
  files : input.changedFiles ⊆ more.changedFiles

/-- What was run for the smaller change is checked for the larger one. -/
def Keeps (input : GateInput) (r : CastleGateResult) (more : GateInput) (r' : CastleGateResult) :
    Prop :=
  ∀ p script, Ran input r p script → Checked covers more r' p script

/-- The gate ended well with every script skipped, though an affected package declares one. -/
def SkippedAll (input : GateInput) (r : CastleGateResult) : Prop :=
  r.ok = true ∧ (∀ p script, ¬ Ran input r p script) ∧
    ∃ p script, IsAffected input p ∧ Declares input p script

/-- The root's script stands in for a package's. -/
def StandsIn (input : GateInput) (p script : Text) : Prop :=
  Declares input root script ∧ (p = root ∨ covers script)

/-- Where a file configures the workspace, the root stands in for the affected packages. -/
def RootStandsIn (input : GateInput) : Prop :=
  HasTrigger input.changedFiles →
    ∀ p script, IsAffected input p → Declares input p script → StandsIn covers input p script

/-- The files lie in no package, and the root package is checked in their place. -/
def FallsBack (input : GateInput) : Prop :=
  ¬ NamesPackage input.layout.hasPackage input.changedFiles ∧ input.layout.hasPackage root = true

/-- Where the added files bring the first that configures the workspace, the root stands in
for the packages checked before; and where they bring the first that lies in a package, the
packages checked in the place of none are still checked. -/
def AddsNoGap (input more : GateInput) : Prop :=
  ¬ HasTrigger input.changedFiles → (HasTrigger more.changedFiles →
      ∀ p script, InCone input.layout.hasPackage input.graph input.changedFiles p →
        Declares input p script → StandsIn covers input p script) ∧
    (¬ HasTrigger more.changedFiles → FallsBack input →
      NamesPackage input.layout.hasPackage more.changedFiles →
      ∀ p script, Reaches input.graph p root → Declares input p script →
        IsAffected more p ∨ (covers script ∧ Declares input root script ∧ IsAffected more root))

variable {covers} {input more : GateInput} {r r' : CastleGateResult}

variable {p script : Text}

lemma IsAffected.inCone (h : IsAffected input p) :
    InCone input.layout.hasPackage input.graph input.changedFiles p := by
  obtain ⟨file, hfile, q, hcont, hreach⟩ := h
  exact ⟨q, .inl ⟨file, hfile, hcont⟩, hreach⟩

lemma inCone_iff_of_names
    (h : NamesPackage input.layout.hasPackage input.changedFiles) :
    InCone input.layout.hasPackage input.graph input.changedFiles p ↔ IsAffected input p := by
  constructor
  · rintro ⟨q, ⟨file, hfile, hcont⟩ | ⟨hnone, -⟩, hreach⟩
    · exact ⟨file, hfile, q, hcont, hreach⟩
    · exact absurd h hnone
  · exact IsAffected.inCone

lemma inCone_iff_of_fallsBack (h : FallsBack input) :
    InCone input.layout.hasPackage input.graph input.changedFiles p ↔
      Reaches input.graph p root := by
  constructor
  · rintro ⟨q, ⟨file, hfile, hcont⟩ | ⟨-, -, rfl⟩, hreach⟩
    · exact absurd ⟨file, hfile, q, hcont⟩ h.1
    · exact hreach
  · exact fun hreach => ⟨root, .inr ⟨h.1, h.2, rfl⟩, hreach⟩

lemma checked_iff_of_trigger (hrun : runCastleGate input = some r)
    (hadmitted : r.admission.admitted = true) (htrigg : HasTrigger input.changedFiles)
    (hdecl : Declares input p script) :
    Checked covers input r p script ↔ StandsIn covers input p script := by
  simp only [Checked, ran_iff hrun hadmitted, Scoped, if_pos htrigg, StandsIn]
  constructor
  · rintro (⟨hp, rfl⟩ | ⟨hcov, hroot, -⟩)
    · exact ⟨hp, .inl rfl⟩
    · exact ⟨hroot, .inr hcov⟩
  · rintro ⟨hroot, rfl | hcov⟩
    · exact .inl ⟨hroot, rfl⟩
    · exact .inr ⟨hcov, hroot, trivial⟩

lemma checksAffected_iff (hrun : runCastleGate input = some r)
    (hadmitted : r.admission.admitted = true) :
    ChecksAffected covers input r ↔ RootStandsIn covers input := by
  constructor
  · intro hchecks htrigg p script haff hdecl
    exact (checked_iff_of_trigger hrun hadmitted htrigg hdecl).mp
      (hchecks p script haff hdecl)
  · intro hroot p script haff hdecl
    by_cases htrigg : HasTrigger input.changedFiles
    · apply (checked_iff_of_trigger hrun hadmitted htrigg hdecl).mpr
      exact hroot htrigg p script haff hdecl
    · left
      rw [ran_iff hrun hadmitted, Scoped, if_neg htrigg]
      exact ⟨hdecl, haff.inCone⟩

lemma ChecksAffected.not_skippedAll (h : ChecksAffected covers input r) : ¬ SkippedAll input r := by
  rintro ⟨-, hskipp, p, script, haff, hdecl⟩
  rcases h p script haff hdecl with hran | ⟨-, hran⟩
  · exact hskipp p script hran
  · exact hskipp root script hran

lemma Adds.hasTrigger (h : Adds input more) (htrigg : HasTrigger input.changedFiles) :
    HasTrigger more.changedFiles := by
  obtain ⟨file, hfile, hroot⟩ := htrigg
  exact ⟨file, h.files hfile, hroot⟩

lemma Adds.isAffected (h : Adds input more) (haff : IsAffected input p) : IsAffected more p := by
  obtain ⟨file, hfile, q, hcont, hreach⟩ := haff
  rw [IsAffected, h.layout, h.graph]
  exact ⟨file, h.files hfile, q, hcont, hreach⟩

lemma Adds.declares (h : Adds input more) : Declares more p script ↔ Declares input p script := by
  rw [Declares, Declares, h.layout]

lemma Adds.standsIn (h : Adds input more) :
    StandsIn covers more p script ↔ StandsIn covers input p script := by
  rw [StandsIn, StandsIn, h.declares]

lemma Adds.keeps_iff (h : Adds input more) (hrun : runCastleGate input = some r)
    (hadmitted : r.admission.admitted = true) (hrun' : runCastleGate more = some r')
    (hadmitted' : r'.admission.admitted = true) :
    Keeps covers input r more r' ↔ AddsNoGap covers input more := by
  constructor
  · intro hkeeps hclean
    have hran : ∀ p script, InCone input.layout.hasPackage input.graph input.changedFiles p →
        Declares input p script → Checked covers more r' p script := by
      intro p script hcone hdecl
      apply hkeeps
      rw [ran_iff hrun hadmitted, Scoped, if_neg hclean]
      exact ⟨hdecl, hcone⟩
    constructor
    · intro htrigg p script hcone hdecl
      apply h.standsIn.mp
      exact (checked_iff_of_trigger hrun' hadmitted' htrigg (h.declares.mpr hdecl)).mp
        (hran p script hcone hdecl)
    · intro hclean' hback hnam p script hreach hdecl
      have hcheck := hran p script ((inCone_iff_of_fallsBack hback).mpr hreach) hdecl
      rw [← h.layout] at hnam
      simpa only [Checked, ran_iff hrun' hadmitted', Scoped, if_neg hclean',
        inCone_iff_of_names hnam, h.declares, hdecl, true_and] using hcheck
  · intro hgap p script hran
    obtain ⟨hdecl, hscop⟩ := (ran_iff hrun hadmitted).mp hran
    by_cases htrigg : HasTrigger input.changedFiles
    · rw [Scoped, if_pos htrigg] at hscop
      left
      rw [ran_iff hrun' hadmitted', h.declares, Scoped, if_pos (h.hasTrigger htrigg)]
      exact ⟨hdecl, hscop⟩
    · rw [Scoped, if_neg htrigg] at hscop
      obtain ⟨hconf, hfirst⟩ := hgap htrigg
      by_cases htrigg' : HasTrigger more.changedFiles
      · apply (checked_iff_of_trigger hrun' hadmitted' htrigg' (h.declares.mpr hdecl)).mpr
        exact h.standsIn.mpr (hconf htrigg' p script hscop hdecl)
      · have hran' : InCone more.layout.hasPackage more.graph more.changedFiles p →
            Ran more r' p script := by
          intro hcone
          rw [ran_iff hrun' hadmitted', h.declares, Scoped, if_neg htrigg']
          exact ⟨hdecl, hcone⟩
        by_cases hnam : NamesPackage input.layout.hasPackage input.changedFiles
        · left
          exact hran' (h.isAffected ((inCone_iff_of_names hnam).mp hscop)).inCone
        · have hback : FallsBack input := by
            obtain ⟨q, ⟨file, hfile, hcont⟩ | ⟨-, hroot, -⟩, -⟩ := hscop
            · exact absurd ⟨file, hfile, q, hcont⟩ hnam
            · exact ⟨hnam, hroot⟩
          have hreach := (inCone_iff_of_fallsBack hback).mp hscop
          by_cases hnam' : NamesPackage input.layout.hasPackage more.changedFiles
          · rcases hfirst htrigg' hback hnam' p script hreach hdecl with
              haff | ⟨hcov, hroot, haff⟩
            · exact .inl (hran' haff.inCone)
            · right
              rw [ran_iff hrun' hadmitted', h.declares, Scoped, if_neg htrigg']
              exact ⟨hcov, hroot, haff.inCone⟩
          · left
            have hback' : FallsBack more := by
              rw [FallsBack, h.layout]
              exact ⟨hnam', hback.2⟩
            apply hran'
            rw [inCone_iff_of_fallsBack hback', h.graph]
            exact hreach

/-- The gate checks what a change can reach: every declared feedback script of the affected
packages, no less for a larger change, and never nothing. -/
structure ReachesAll (covers : Text → Prop) (input : GateInput) (r : CastleGateResult)
    (more : GateInput) (r' : CastleGateResult) : Prop where
  affected : ChecksAffected covers input r
  keeps : Keeps covers input r more r'
  notSkipped : ¬ SkippedAll input r

/-- The gate checks what a change can reach exactly where the root stands in for the packages
that a root trigger takes the place of, and a first named package drops none. -/
theorem gate_reaches_all (covers : Text → Prop) {input more : GateInput}
    {r r' : CastleGateResult} (hadds : Adds input more) (hrun : runCastleGate input = some r)
    (hadmitted : r.admission.admitted = true) (hrun' : runCastleGate more = some r')
    (hadmitted' : r'.admission.admitted = true) :
    ReachesAll covers input r more r' ↔ RootStandsIn covers input ∧ AddsNoGap covers input more := by
  constructor
  · intro h
    constructor
    · exact (checksAffected_iff hrun hadmitted).mp h.affected
    · exact (hadds.keeps_iff hrun hadmitted hrun' hadmitted').mp h.keeps
  · rintro ⟨hroot, hgap⟩
    have haff := (checksAffected_iff hrun hadmitted).mpr hroot
    constructor
    · exact haff
    · exact (hadds.keeps_iff hrun hadmitted hrun' hadmitted').mpr hgap
    · exact haff.not_skippedAll

end

/-- A core package with two scripts, a plugin that depends on it, and a bare root. -/
def coreInput (changedFiles : List Text) : GateInput where
  worktree := "/repo".toList
  changedFiles := changedFiles
  layout :=
    { hasPackage := fun dir =>
        [root, "packages/core".toList, "apps/plugin-dev".toList].contains dir
      hasScript := fun dir script =>
        dir == "packages/core".toList && ["test".toList, "typecheck".toList].contains script }
  graph := ⟨[⟨"packages/core".toList, []⟩, ⟨"apps/plugin-dev".toList, ["packages/core".toList]⟩]⟩
  findings := []
  backpressureCommands := []
  backpressureTimeoutMs := none
  hostProfile := none
  gateWeight := none
  intentFinding := fun _ _ => some .approved
  applyMechanical := fun _ _ => true
  feedbackExec := fun _ => some (⟨0, "ok".toList, []⟩, 1)
  backpressureExec := fun _ _ => some (⟨0, "ok".toList, []⟩, 1)

def coreFile : Text := "packages/core/src/index.ts".toList

def workflowFile : Text := ".github/workflows/ci.yml".toList

lemma core_run : (runCastleGate (coreInput [coreFile])).map
    (fun r => (r.ok, r.admission.admitted, r.calls.map FeedbackCall.args)) =
      some (true, true, [feedbackArgs "/repo".toList "packages/core".toList "test".toList,
        feedbackArgs "/repo".toList "packages/core".toList "typecheck".toList]) := by
  decide +kernel

lemma workflow_run : (runCastleGate (coreInput [coreFile, workflowFile])).map
    (fun r => (r.ok, r.admission.admitted, r.calls.map FeedbackCall.args)) =
      some (true, true, []) := by
  decide +kernel

lemma core_adds : Adds (coreInput [coreFile]) (coreInput [coreFile, workflowFile]) where
  layout := rfl
  graph := rfl
  files := by simp [coreInput]

lemma core_affected (files : List Text) (h : coreFile ∈ files) :
    IsAffected (coreInput files) "packages/core".toList := by
  have hnear : nearestPackageScope (coreInput []).layout.hasPackage coreFile =
      some "packages/core".toList := by
    decide +kernel
  exact ⟨coreFile, h, _, nearestPackageScope_eq_some.mp hnear, .refl⟩

/-- A workflow file beside the core one takes its scripts out of the gate, which passes with
every script skipped, whatever the root's scripts cover. -/
theorem workflow_skips_core : ∃ r r', runCastleGate (coreInput [coreFile]) = some r ∧
    r.admission.admitted = true ∧
    runCastleGate (coreInput [coreFile, workflowFile]) = some r' ∧
    r'.admission.admitted = true ∧
    Adds (coreInput [coreFile]) (coreInput [coreFile, workflowFile]) ∧
    SkippedAll (coreInput [coreFile, workflowFile]) r' ∧
    ∀ covers : Text → Prop, ¬ ChecksAffected covers (coreInput [coreFile, workflowFile]) r' ∧
      ¬ Keeps covers (coreInput [coreFile]) r (coreInput [coreFile, workflowFile]) r' := by
  obtain ⟨r, hrun, hview⟩ := map_eq_some_iff.mp core_run
  obtain ⟨r', hrun', hview'⟩ := map_eq_some_iff.mp workflow_run
  simp only [Prod.mk.injEq] at hview hview'
  obtain ⟨-, hadmitted, hargs⟩ := hview
  obtain ⟨hok', hadmitted', hargs'⟩ := hview'
  have hnone : ∀ p script, ¬ Ran (coreInput [coreFile, workflowFile]) r' p script := by
    rintro p script ⟨call, hcall, -⟩
    rw [map_eq_nil_iff.mp hargs'] at hcall
    exact absurd hcall not_mem_nil
  have hran : Ran (coreInput [coreFile]) r "packages/core".toList "test".toList := by
    obtain ⟨call, hcall, hcallA⟩ := mem_map.mp (hargs ▸ mem_cons_self)
    exact ⟨call, hcall, hcallA⟩
  have haff := core_affected [coreFile, workflowFile] (by simp)
  have hdecl : Declares (coreInput [coreFile, workflowFile]) "packages/core".toList
      "test".toList := by
    decide
  refine ⟨r, r', hrun, hadmitted, hrun', hadmitted', core_adds,
    ⟨hok', hnone, _, _, haff, hdecl⟩, ?_⟩
  intro covers
  have hunch : ¬ Checked covers (coreInput [coreFile, workflowFile]) r'
      "packages/core".toList "test".toList := by
    rintro (h | ⟨-, h⟩)
    · exact hnone _ _ h
    · exact hnone _ _ h
  constructor
  · intro hchecks
    exact hunch (hchecks _ _ haff hdecl)
  · intro hkeeps
    exact hunch (hkeeps _ _ hran)

theorem gate_reaches_all_core : ∃ r r', runCastleGate (coreInput [coreFile]) = some r ∧
    runCastleGate (coreInput [coreFile, workflowFile]) = some r' ∧
    (ReachesAll (fun _ => False) (coreInput [coreFile]) r (coreInput [coreFile, workflowFile]) r' ↔
      RootStandsIn (fun _ => False) (coreInput [coreFile]) ∧
        AddsNoGap (fun _ => False) (coreInput [coreFile]) (coreInput [coreFile, workflowFile])) := by
  obtain ⟨r, hrun, hview⟩ := map_eq_some_iff.mp core_run
  obtain ⟨r', hrun', hview'⟩ := map_eq_some_iff.mp workflow_run
  simp only [Prod.mk.injEq] at hview hview'
  exact ⟨r, r', hrun, hrun', gate_reaches_all _ core_adds hrun hview.2.1 hrun' hview'.2.1⟩

end Redskilled.Gate
