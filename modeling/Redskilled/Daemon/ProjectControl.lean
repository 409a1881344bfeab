import Redskilled.Foundation.JsMap
import Redskilled.Foundation.JsText
import Redskilled.Foundation.LastWord
import Redskilled.Foundation.Machine

/-!
# Project control

A drain or a stop of a project reads the control map, makes a copy of it with the
project's new record, hands the copy to the store, and sets the record in the map once the
store has written it. The store hangs every write on the one before it, so that a write
begins after the other has ended; a write that fails ends the chain, and what hangs on it
is refused without being tried.

A call runs on as soon as its write has ended, which is before the next write can end. A
file stands for what is read back from it.
-/
namespace Redskilled.Daemon.ProjectControl
open Foundation LastWord

inductive ProjectControlOperation where
  | drain | stop
  deriving DecidableEq

inductive ProjectDrainIntent where
  | inactive | draining | stopped
  deriving DecidableEq

inductive ProjectControlOperationStatus where
  | draining | alreadyDraining | stopped | alreadyStopped
  deriving DecidableEq

structure ProjectControlUpdate where
  sequence : ℕ
  operation : ProjectControlOperation
  drainIntent : ProjectDrainIntent
  deriving DecidableEq

structure ProjectControlState where
  drainIntent : ProjectDrainIntent
  revision : ℕ
  updates : List ProjectControlUpdate
  target : Option ℕ
  runner : Option Text
  deriving DecidableEq

abbrev Controls := JsMap Text ProjectControlState

structure ProjectControlRequest where
  target : Option ℕ
  runner : Option Text

structure ControlAnswer where
  projectId : Text
  control : ProjectControlState
  status : ProjectControlOperationStatus
  deriving DecidableEq

structure Mutation where
  project : Text
  operation : ProjectControlOperation
  record : ProjectControlState
  snapshot : Controls

inductive WriteEnd where
  | written | failed | skipped
  deriving DecidableEq

structure Write where
  call : ℕ
  mutation : Mutation

structure Landing where
  write : Write
  result : WriteEnd

inductive CallState where
  | waiting
  | resolved (answer : ControlAnswer)
  /-- `own` is whether the call's own write was tried, and failed. -/
  | rejected (own : Bool)
  deriving DecidableEq

structure State where
  controls : Controls
  /-- What is read back from the file, `none` where there is none. -/
  file : Option Controls
  chain : List Write
  broken : Bool
  landing : Option Landing
  calls : ℕ → Option CallState
  resolved : List (Entry Text ProjectControlState)

inductive Step where
  | call (i : ℕ) (project : Text) (operation : ProjectControlOperation)
      (request : ProjectControlRequest)
  /-- The next write ends; one that is not tried does not fail by itself. -/
  | write (fails : Bool)
  | runOn

def inactive : ProjectControlState :=
  { drainIntent := .inactive, revision := 0, updates := [], target := none, runner := none }

def ProjectControlOperation.intent : ProjectControlOperation → ProjectDrainIntent
  | .drain => .draining
  | .stop => .stopped

def ProjectControlOperation.already : ProjectControlOperation → ProjectControlOperationStatus
  | .drain => .alreadyDraining
  | .stop => .alreadyStopped

def ProjectControlOperation.done : ProjectControlOperation → ProjectControlOperationStatus
  | .drain => .draining
  | .stop => .stopped

def projectControlSnapshot (project : Text) (controls : Controls) : ProjectControlState :=
  (controls.lookup project).getD inactive

def nextControl (held : Option ProjectControlState) (operation : ProjectControlOperation)
    (request : ProjectControlRequest) : Option ProjectControlState :=
  if held = none ∧ operation = .stop then none
  else
    let observed := held.getD inactive
    let target := request.target <|> observed.target
    let runner := request.runner <|> observed.runner
    if observed.drainIntent = operation.intent ∧ target = observed.target ∧
        runner = observed.runner then none
    else
      some
        { drainIntent := operation.intent
          revision := observed.revision + 1
          updates := observed.updates ++ [⟨observed.revision + 1, operation, operation.intent⟩]
          target, runner }

namespace State
variable (s : State)

def applyProjectControl (i : ℕ) (project : Text) (operation : ProjectControlOperation)
    (request : ProjectControlRequest) : State :=
  match nextControl (s.controls.lookup project) operation request with
  | none =>
    { s with
      calls := Function.update s.calls i (some (.resolved
        ⟨project, projectControlSnapshot project s.controls, operation.already⟩)) }
  | some record =>
    { s with
      chain := s.chain ++ [⟨i, ⟨project, operation, record, s.controls.set project record⟩⟩]
      calls := Function.update s.calls i (some .waiting) }

def wrote (write : Write) (rest : List Write) (fails : Bool) : State :=
  if s.broken then { s with chain := rest, landing := some ⟨write, .skipped⟩ }
  else if fails then { s with chain := rest, broken := true, landing := some ⟨write, .failed⟩ }
  else
    { s with
      chain := rest
      file := some write.mutation.snapshot
      landing := some ⟨write, .written⟩ }

def ranOn (landing : Landing) : State :=
  let i := landing.write.call
  let m := landing.write.mutation
  match landing.result with
  | .written =>
    let controls := s.controls.set m.project m.record
    { s with
      controls
      landing := none
      calls := Function.update s.calls i (some (.resolved
        ⟨m.project, projectControlSnapshot m.project controls, m.operation.done⟩))
      resolved := .settled m.project m.record :: s.resolved }
  | .failed =>
    { s with landing := none, calls := Function.update s.calls i (some (.rejected true)) }
  | .skipped =>
    { s with landing := none, calls := Function.update s.calls i (some (.rejected false)) }

def next : Step → Option State
  | .call i project operation request =>
    if (s.calls i).isNone then some (s.applyProjectControl i project operation request) else none
  | .write fails =>
    match s.landing, s.chain with
    | none, write :: rest => some (s.wrote write rest fails)
    | _, _ => none
  | .runOn => s.landing.map s.ranOn

end State

/-- The updates are numbered from one to the revision. -/
def ProjectControlState.Numbered (record : ProjectControlState) : Prop :=
  record.updates.map (·.sequence) = List.range' 1 record.revision

def AllNumbered (controls : Controls) : Prop :=
  ∀ project record, controls.lookup project = some record → record.Numbered

structure Start (initial : Controls) (s : State) : Prop where
  controls : s.controls = initial
  file : s.file.getD ∅ = initial
  numbered : AllNumbered initial
  chain : s.chain = []
  whole : s.broken = false
  landing : s.landing = none
  calls : ∀ i, s.calls i = none
  resolved : s.resolved = []

def store (initial : Controls) : Machine State Step where
  start := Start initial
  next := State.next

/-- What a mutation asks for. -/
def ProjectControlState.terms (record : ProjectControlState) :
    ProjectDrainIntent × Option ℕ × Option Text :=
  (record.drainIntent, record.target, record.runner)

def terms (controls : Controls) (project : Text) :
    Option (ProjectDrainIntent × Option ℕ × Option Text) :=
  (controls.lookup project).map (·.terms)

def State.fileTerms (s : State) (project : Text) :
    Option (ProjectDrainIntent × Option ℕ × Option Text) :=
  terms (s.file.getD ∅) project

/-- No write's turn comes after one that failed, and the copy that is written has, for every
other project, what the control map has by then. -/
def Current (s : State) : Step → Prop
  | .write _ => s.broken = false ∧ ∀ write rest, s.chain = write :: rest →
      ∀ project, project ≠ write.mutation.project →
        terms write.mutation.snapshot project = terms s.controls project
  | _ => True

def State.Resolving (s : State) (project : Text) : Prop :=
  ∃ landing, s.landing = some landing ∧ landing.result = .written ∧
    landing.write.mutation.project = project ∧
    s.fileTerms project = some landing.write.mutation.record.terms

structure Durable (initial : Controls) (s : State) : Prop where
  answered : ∀ i answer, s.calls i = some (.resolved answer) →
    (answer.status = .draining ∨ answer.status = .stopped) →
    .settled answer.projectId answer.control ∈ s.resolved
  inMap : ∀ project record, lastSettled s.resolved project = some record →
    s.controls.lookup project = some record
  inFile : ∀ project record, lastSettled s.resolved project = some record →
    s.fileTerms project = some record.terms ∨ s.Resolving project
  unchanged : ∀ project, lastSettled s.resolved project = none →
    s.controls.lookup project = initial.lookup project
  numbered : AllNumbered s.controls ∧ AllNumbered (s.file.getD ∅)
  rejected : ∀ i own, s.calls i = some (.rejected own) → own = true

section
variable {held : Option ProjectControlState} {operation : ProjectControlOperation}
  {request : ProjectControlRequest} {record : ProjectControlState} {controls : Controls}
  {project : Text}

lemma numbered_inactive : inactive.Numbered := rfl

lemma numbered_nextControl (hheld : ∀ r, held = some r → r.Numbered)
    (h : nextControl held operation request = some record) : record.Numbered := by
  have hobs : (held.getD inactive).Numbered := by
    cases held with
    | none => exact numbered_inactive
    | some r => exact hheld r rfl
  unfold nextControl at h
  dsimp only at h
  split_ifs at h
  cases h
  unfold ProjectControlState.Numbered at hobs ⊢
  rw [List.map_append, hobs, List.range'_1_concat, Nat.add_comm 1]
  rfl

lemma allNumbered_set (h : AllNumbered controls) (hrec : record.Numbered) :
    AllNumbered (controls.set project record) := by
  intro q r hr
  rw [JsMap.lookup_set] at hr
  split_ifs at hr
  · cases hr
    exact hrec
  · exact h q r hr

lemma terms_set (q : Text) : terms (controls.set project record) q =
      if q = project then some record.terms else terms controls q := by
  rw [terms, JsMap.lookup_set]
  split_ifs
  · rfl
  · rfl

end

/-- What the file should have for `project`. -/
def State.expected (s : State) (project : Text) :
    Option (ProjectDrainIntent × Option ℕ × Option Text) :=
  match s.landing with
  | some ⟨write, .written⟩ =>
    if project = write.mutation.project then some write.mutation.record.terms
    else terms s.controls project
  | _ => terms s.controls project

structure Write.Sound (write : Write) : Prop where
  own : write.mutation.snapshot.lookup write.mutation.project = some write.mutation.record
  numbered : AllNumbered write.mutation.snapshot

structure Inv (initial : Controls) (s : State) : Prop where
  answered : ∀ i answer, s.calls i = some (.resolved answer) →
    (answer.status = .draining ∨ answer.status = .stopped) →
    .settled answer.projectId answer.control ∈ s.resolved
  inMap : ∀ project record, lastSettled s.resolved project = some record →
    s.controls.lookup project = some record
  unchanged : ∀ project, lastSettled s.resolved project = none →
    s.controls.lookup project = initial.lookup project
  controls : AllNumbered s.controls
  file : AllNumbered (s.file.getD ∅)
  chain : ∀ write ∈ s.chain, write.Sound
  landing : ∀ landing, s.landing = some landing → landing.result ≠ .skipped ∧ landing.write.Sound
  inFile : ∀ project, s.fileTerms project = s.expected project
  rejected : ∀ i own, s.calls i = some (.rejected own) → own = true

section
variable {initial : Controls} {s t : State}

lemma Inv.durable (h : Inv initial s) : Durable initial s where
  answered := h.answered
  inMap := h.inMap
  inFile := by
    intro project record hrec
    have hfile := h.inFile project
    have hmap : terms s.controls project = some record.terms := by
      rw [terms, h.inMap project record hrec]
      rfl
    unfold State.expected at hfile
    split at hfile
    · next write hlandi =>
        split_ifs at hfile with hproj
        · exact Or.inr ⟨⟨write, .written⟩, hlandi, rfl, hproj.symm, hfile⟩
        · exact Or.inl (hfile.trans hmap)
    · exact Or.inl (hfile.trans hmap)
  unchanged := h.unchanged
  numbered := ⟨h.controls, h.file⟩
  rejected := h.rejected

lemma calls_update {calls : ℕ → Option CallState} {i j : ℕ} {x : CallState} {y : CallState}
    (h : Function.update calls i (some x) j = some y) : y = x ∨ calls j = some y := by
  by_cases hj : j = i
  · rw [hj, Function.update_self] at h
    exact Or.inl (Option.some.inj h).symm
  · rw [Function.update_of_ne hj] at h
    exact Or.inr h

lemma Inv.call (h : Inv initial s) (i : ℕ) (project : Text)
    (operation : ProjectControlOperation) (request : ProjectControlRequest) :
    Inv initial (s.applyProjectControl i project operation request) := by
  unfold State.applyProjectControl
  split
  · constructor
    · intro j answer hj hstat
      rcases calls_update hj with hansw | hold
      · obtain rfl := CallState.resolved.inj hansw
        cases operation <;> rcases hstat with hs | hs <;> cases hs
      · exact h.answered j answer hold hstat
    · exact h.inMap
    · exact h.unchanged
    · exact h.controls
    · exact h.file
    · exact h.chain
    · exact h.landing
    · exact h.inFile
    · intro j own hj
      rcases calls_update hj with hrej | hold
      · cases hrej
      · exact h.rejected j own hold
  · next record hrec =>
      have hnumb : record.Numbered := numbered_nextControl (h.controls project) hrec
      constructor
      · intro j answer hj hstat
        rcases calls_update hj with hansw | hold
        · cases hansw
        · exact h.answered j answer hold hstat
      · exact h.inMap
      · exact h.unchanged
      · exact h.controls
      · exact h.file
      · intro write hwrite
        rcases List.mem_append.mp hwrite with hold | hnew
        · exact h.chain write hold
        · obtain rfl := List.mem_singleton.mp hnew
          exact ⟨JsMap.lookup_set_self .., allNumbered_set h.controls hnumb⟩
      · exact h.landing
      · exact h.inFile
      · intro j own hj
        rcases calls_update hj with hrej | hold
        · cases hrej
        · exact h.rejected j own hold

lemma Inv.settled (h : Inv initial s) (hlandi : s.landing = none) (project : Text) :
    s.fileTerms project = terms s.controls project := by
  have hfile := h.inFile project
  rw [State.expected, hlandi] at hfile
  exact hfile

lemma Inv.wrote (h : Inv initial s) {write : Write} {rest : List Write} {fails : Bool}
    (hlandi : s.landing = none) (hchain : s.chain = write :: rest)
    (hcurr : Current s (.write fails)) : Inv initial (s.wrote write rest fails) := by
  obtain ⟨hwhole, hagr⟩ := hcurr
  have hsound : write.Sound := h.chain write (by rw [hchain]; exact List.mem_cons_self)
  have hrest : ∀ w ∈ rest, w.Sound :=
    fun w hw => h.chain w (by rw [hchain]; exact List.mem_cons_of_mem _ hw)
  have hland : ∀ result, result ≠ .skipped → ∀ landing : Landing,
      some (⟨write, result⟩ : Landing) = some landing →
        landing.result ≠ .skipped ∧ landing.write.Sound := by
    intro result hres landing hl
    cases hl
    exact ⟨hres, hsound⟩
  unfold State.wrote
  rw [if_neg (by simp [hwhole])]
  split_ifs
  · refine ⟨h.answered, h.inMap, h.unchanged, h.controls, h.file, hrest, ?_, ?_, h.rejected⟩
    · exact hland .failed (by decide)
    · exact h.settled hlandi
  · refine ⟨h.answered, h.inMap, h.unchanged, h.controls, hsound.numbered, hrest, ?_, ?_,
      h.rejected⟩
    · exact hland .written (by decide)
    · intro project
      change terms write.mutation.snapshot project =
        if project = write.mutation.project then some write.mutation.record.terms
        else terms s.controls project
      split_ifs with hproj
      · rw [hproj, terms, hsound.own]
        rfl
      · exact hagr write rest hchain project hproj

lemma Inv.ranOn (h : Inv initial s) {landing : Landing} (hlandi : s.landing = some landing) :
    Inv initial (s.ranOn landing) := by
  obtain ⟨hres, hsound⟩ := h.landing landing hlandi
  obtain ⟨write, result⟩ := landing
  cases result with
  | skipped => exact absurd rfl hres
  | failed =>
    constructor
    · intro j answer hj hstat
      rcases calls_update hj with hansw | hold
      · cases hansw
      · exact h.answered j answer hold hstat
    · exact h.inMap
    · exact h.unchanged
    · exact h.controls
    · exact h.file
    · exact h.chain
    · rintro landing ⟨⟩
    · intro project
      have hfile := h.inFile project
      rw [State.expected, hlandi] at hfile
      exact hfile
    · intro j own hj
      rcases calls_update hj with hrej | hold
      · exact CallState.rejected.inj hrej
      · exact h.rejected j own hold
  | written =>
    have hrec : write.mutation.record.Numbered := hsound.numbered _ _ hsound.own
    constructor
    · intro j answer hj hstat
      rcases calls_update hj with hansw | hold
      · obtain rfl := CallState.resolved.inj hansw
        have hset : projectControlSnapshot write.mutation.project
            (s.controls.set write.mutation.project write.mutation.record) =
              write.mutation.record := by
          rw [projectControlSnapshot, JsMap.lookup_set_self]
          rfl
        rw [hset]
        exact List.mem_cons_self
      · exact List.mem_cons_of_mem _ (h.answered j answer hold hstat)
    · intro project record hlast
      change (s.controls.set write.mutation.project write.mutation.record).lookup project = _
      simp only [State.ranOn, lastSettled] at hlast
      rw [JsMap.lookup_set]
      split_ifs at hlast ⊢ with hproj hproj' hproj'
      · exact hlast
      · exact absurd hproj.symm hproj'
      · exact absurd hproj'.symm hproj
      · exact h.inMap project record hlast
    · intro project hlast
      change (s.controls.set write.mutation.project write.mutation.record).lookup project = _
      simp only [State.ranOn, lastSettled] at hlast
      split_ifs at hlast with hproj
      rw [JsMap.lookup_set_ne _ _ (Ne.symm hproj)]
      exact h.unchanged project hlast
    · exact allNumbered_set h.controls hrec
    · exact h.file
    · exact h.chain
    · rintro landing ⟨⟩
    · intro project
      have hfile := h.inFile project
      rw [State.expected, hlandi] at hfile
      exact hfile.trans (terms_set project).symm
    · intro j own hj
      rcases calls_update hj with hrej | hold
      · cases hrej
      · exact h.rejected j own hold

lemma Inv.step (h : Inv initial s) {a : Step} (hcurr : Current s a)
    (hn : s.next a = some t) : Inv initial t := by
  cases a with
  | call i project operation request =>
    simp only [State.next] at hn
    split_ifs at hn
    cases hn
    exact h.call i project operation request
  | write fails =>
    simp only [State.next] at hn
    split at hn
    · next write rest hlandi hchain =>
        cases hn
        exact h.wrote hlandi hchain hcurr
    · cases hn
  | runOn =>
    obtain ⟨landing, hlandi, rfl⟩ := Option.map_eq_some_iff.mp hn
    exact h.ranOn hlandi

lemma inv_start (h : Start initial s) : Inv initial s := by
  constructor
  · intro i answer hi
    rw [h.calls i] at hi
    cases hi
  · intro project record hlast
    rw [h.resolved] at hlast
    cases hlast
  · intro project _
    rw [h.controls]
  · rw [h.controls]
    exact h.numbered
  · rw [h.file]
    exact h.numbered
  · rw [h.chain]
    rintro write ⟨⟩
  · rw [h.landing]
    rintro landing ⟨⟩
  · intro project
    rw [State.expected, h.landing, State.fileTerms, h.file, h.controls]
  · intro i own hi
    rw [h.calls i] at hi
    cases hi

/-- In a run whose writes are all current, the map and the file keep what the last resolved
mutation of each project asks for, every record is well numbered, and only a call whose own
write failed is refused. -/
theorem durable_while_current (h : (store initial).Reach Current s) : Durable initial s :=
  (h.inv (Inv initial) (fun _ hstart => inv_start hstart)
    fun _ _ _ hinv hok hn => hinv.step hok hn).durable

end

section

def isCurrent (s : State) : Step → Bool
  | .write _ => !s.broken && s.chain.head?.all fun write =>
    (write.mutation.snapshot.keys ++ s.controls.keys).all fun project =>
      project = write.mutation.project ||
        terms write.mutation.snapshot project = terms s.controls project
  | _ => true

lemma terms_of_notMem {controls : Controls} {project : Text} (h : project ∉ controls.keys) :
    terms controls project = none := by
  rw [terms, AList.lookup_eq_none.mpr (by rwa [AList.mem_keys])]
  rfl

lemma current_of_isCurrent {s : State} {a : Step} (h : isCurrent s a = true) : Current s a := by
  cases a with
  | call i project operation request => trivial
  | runOn => trivial
  | write fails =>
    simp only [isCurrent, Bool.and_eq_true, Bool.not_eq_true'] at h
    refine ⟨h.1, ?_⟩
    intro write rest hchain project hproj
    have hkeys := h.2
    rw [hchain, List.head?_cons, Option.all_some, List.all_eq_true] at hkeys
    by_cases hmem : project ∈ write.mutation.snapshot.keys ++ s.controls.keys
    · simpa [hproj] using hkeys project hmem
    · simp only [List.mem_append, not_or] at hmem
      rw [terms_of_notMem hmem.1, terms_of_notMem hmem.2]

def nothing : State :=
  { controls := ∅, file := none, chain := [], broken := false, landing := none
    calls := fun _ => none, resolved := [] }

lemma start_nothing : Start ∅ nothing :=
  ⟨rfl, rfl, by rintro project record ⟨⟩, rfl, rfl, rfl, fun _ => rfl, rfl⟩

def drain (i : ℕ) (project : Text) : Step := .call i project .drain ⟨some 2, none⟩

def overlap : List Step :=
  [drain 0 ['p'], drain 1 ['q'], .write false, .runOn, .write false, .runOn]

def afterFailure : List Step :=
  [drain 0 ['p'], .write true, .runOn, drain 1 ['p'], .write false, .runOn]

/-- A second call writes from a copy made before the first was stored. -/
theorem not_always_durable : (¬ ∀ initial s, (store initial).Reach anyStep s →
      ∀ project record, lastSettled s.resolved project = some record →
        s.fileTerms project = some record.terms ∨ s.Resolving project) ∧
    ¬ ∀ initial s, (store initial).Reach anyStep s →
      ∀ i own, s.calls i = some (.rejected own) → own = true := by
  constructor
  · intro h
    have hrun : ((store ∅).exec nothing overlap).map (fun s =>
        ((lastSettled s.resolved ['p']).isSome, (s.fileTerms ['p']).isNone, s.landing.isNone)) =
          some (true, true, true) := by
      decide +kernel
    obtain ⟨s, hs, hdata⟩ := Option.map_eq_some_iff.mp hrun
    simp only [Prod.mk.injEq] at hdata
    obtain ⟨hlast, hfile, hlandi⟩ := hdata
    obtain ⟨record, hrec⟩ := Option.isSome_iff_exists.mp hlast
    rcases h ∅ s (Machine.reach_of_exec start_nothing hs) ['p'] record hrec with hheld | hheld
    · rw [hheld] at hfile
      cases hfile
    · obtain ⟨landing, hlands, -⟩ := hheld
      rw [hlands] at hlandi
      cases hlandi
  · intro h
    have hrun : ((store ∅).exec nothing afterFailure).map (·.calls 1) =
        some (some (.rejected false)) := by
      decide +kernel
    obtain ⟨s, hs, hcall⟩ := Option.map_eq_some_iff.mp hrun
    cases h ∅ s (Machine.reach_of_exec start_nothing hs) 1 false hcall

def inTurn : List Step :=
  [drain 0 ['p'], .write false, .runOn, drain 1 ['q'], .write false, .runOn]

theorem both_kept : ∃ s, (store ∅).execIf isCurrent nothing inTurn = some s ∧
      (s.fileTerms ['p']).isSome = true ∧ (s.fileTerms ['q']).isSome = true ∧ Durable ∅ s := by
  have hrun : ((store ∅).execIf isCurrent nothing inTurn).map (fun s =>
      ((s.fileTerms ['p']).isSome, (s.fileTerms ['q']).isSome)) = some (true, true) := by
    decide +kernel
  obtain ⟨s, hs, hfile⟩ := Option.map_eq_some_iff.mp hrun
  have hreach : (store ∅).Reach Current s :=
    ⟨_, inTurn, start_nothing, (Machine.run_of_execIf hs).mono fun _ _ => current_of_isCurrent⟩
  exact ⟨s, hs, congrArg Prod.fst hfile, congrArg Prod.snd hfile, durable_while_current hreach⟩

end

end Redskilled.Daemon.ProjectControl
