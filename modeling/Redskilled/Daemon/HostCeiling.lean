import Redskilled.Foundation.Machine
import Redskilled.Foundation.JsMap
import Redskilled.Daemon.Admission

/-!
# The host ceiling

Every birth of the daemon goes through an admission on the Workers it holds at
that moment: at once where nothing is awaited, and a second time after the
awaited trunk fetch. So the live Workers stay within the ceiling in every run of
births and deaths.

Byte totals are those of the host's own numbers. Up to `2 ^ 53` bytes they are
exact; from there on a ceiling can be passed byte by byte.
-/
namespace Redskilled.Daemon.HostCeiling
open Foundation Admission List

structure WorkerSpec where
  workerId : Option Text
  projectLabel : Text
  workspacePath : Text
  command : Text
  budget : Option WorkerBudget
  interactive : Bool

structure Host where
  workers : JsMap Text WorkerView
  waiting : List WorkerSpec

inductive StartError where
  | notAdmitted (verdict : AdmissionVerdict)
  | missing (field : Text)
  | notSpawned

/-- What a start is told from outside: the id that the clock mints and whether
the process exists. -/
structure Outside where
  minted : Text
  spawned : Bool

inductive Step where
  | start (spec : WorkerSpec) (outside : Outside)
  /-- A hook: an admission and at once the start. -/
  | hook (spec : WorkerSpec) (outside : Outside)
  /-- `admitAndStartWorker`, up to the fetch; the verdict may be an older one. -/
  | request (spec : WorkerSpec) (judged : Option AdmissionVerdict)
  | fetched (i : Nat) (reachable : Bool) (outside : Outside)
  | die (workerId : Text)

section
variable (numberText : JsNumber → Text) (ceiling : HostCeiling)

def admitWorker (host : Host) (spec : WorkerSpec) : AdmissionVerdict :=
  evaluateWorkerAdmission numberText
    { ceiling, workers := host.workers.values, budget := spec.budget
      projectLabel := some spec.projectLabel, interactive := spec.interactive }

/-- The first required field that is blank. -/
def missingField (spec : WorkerSpec) : Option Text :=
  if Text.trim spec.projectLabel = [] then some "project_label".toList
  else if Text.trim spec.workspacePath = [] then some "workspace_path".toList
  else if Text.trim spec.command = [] then some "command".toList
  else none

def launchWorker (spec : WorkerSpec) (admission : AdmissionVerdict) (outside : Outside) :
    Except StartError WorkerView :=
  if admission.admitted = false then .error (.notAdmitted admission)
  else
    match missingField spec with
    | some field => .error (.missing field)
    | none =>
      let requested := (spec.workerId.map Text.trim).getD []
      let workerId := if requested = [] then outside.minted else requested
      if outside.spawned then .ok { workerId, budget := spec.budget } else .error .notSpawned

def startWorker (host : Host) (spec : WorkerSpec) (grant : Option AdmissionVerdict)
    (outside : Outside) : Except StartError Host :=
  match launchWorker spec (grant.getD (admitWorker numberText ceiling host spec)) outside with
  | .error e => .error e
  | .ok worker => .ok { host with workers := host.workers.set worker.workerId worker }

def startHook (host : Host) (spec : WorkerSpec) (outside : Outside) : Except StartError Host :=
  let admission := admitWorker numberText ceiling host spec
  if admission.admitted = false then .error (.notAdmitted admission)
  else startWorker numberText ceiling host spec (some admission) outside

def beginStart (host : Host) (spec : WorkerSpec) (judged : Option AdmissionVerdict) :
    Except StartError Host :=
  let admission := judged.getD (admitWorker numberText ceiling host spec)
  if admission.admitted = false then .error (.notAdmitted admission)
  else .ok { host with waiting := host.waiting ++ [spec] }

def finishStart (host : Host) (spec : WorkerSpec) (outside : Outside) : Except StartError Host :=
  let finalAdmission := admitWorker numberText ceiling host spec
  if finalAdmission.admitted = false then .error (.notAdmitted finalAdmission)
  else startWorker numberText ceiling host spec (some finalAdmission) outside

def settle (host : Host) (result : Except StartError Host) : Host :=
  match result with
  | .ok host' => host'
  | .error _ => host

def next (host : Host) : Step → Option Host
  | .start spec outside => some (settle host (startWorker numberText ceiling host spec none outside))
  | .hook spec outside => some (settle host (startHook numberText ceiling host spec outside))
  | .request spec judged => some (settle host (beginStart numberText ceiling host spec judged))
  | .fetched i reachable outside =>
    match host.waiting[i]? with
    | none => none
    | some spec =>
      let host := { host with waiting := host.waiting.eraseIdx i }
      if reachable then some (settle host (finishStart numberText ceiling host spec outside))
      else some host
  | .die workerId => some { host with workers := host.workers.erase workerId }

end

def Step.spec (host : Host) : Step → Option WorkerSpec
  | .start spec _ | .hook spec _ => some spec
  | .fetched i _ _ => host.waiting[i]?
  | .request .. | .die _ => none

def committedBytes (workers : List WorkerView) : JsNumber :=
  (workers.map fun worker => (budgetMemoryCharge worker.budget).committed).sum

def CountWithin (ceiling : HostCeiling) (workers : List WorkerView) : Prop :=
  ∀ c, ceiling.workerCount = some c → workers.length ≤ c + ceiling.reserved

def MemoryWithin (ceiling : HostCeiling) (workers : List WorkerView) : Prop :=
  ∀ m, ceiling.memoryBytes = some m → committedBytes workers ≤ m

/-- A host may start with any live Workers within its ceiling. -/
def hosts (numberText : JsNumber → Text) (ceiling : HostCeiling) : Machine Host Step where
  start host := CountWithin ceiling host.workers.values ∧ MemoryWithin ceiling host.workers.values
  next := next numberText ceiling

section
variable {numberText : JsNumber → Text} {ceiling : HostCeiling} {s t : Host}

lemma launchWorker_ok {spec : WorkerSpec} {admission : AdmissionVerdict} {outside : Outside}
    {worker : WorkerView} (h : launchWorker spec admission outside = .ok worker) :
    admission.admitted = true ∧ worker.budget = spec.budget := by
  unfold launchWorker at h
  split_ifs at h with hadm hspawn
  · split at h
    · cases h
    · cases h
      exact ⟨by simpa using hadm, rfl⟩
  · split at h <;> cases h

lemma startWorker_ok {spec : WorkerSpec} {grant : Option AdmissionVerdict} {outside : Outside}
    (hgrant : grant.getD (admitWorker numberText ceiling s spec) = admitWorker numberText ceiling s spec)
    (h : startWorker numberText ceiling s spec grant outside = .ok t) :
    (admitWorker numberText ceiling s spec).admitted = true ∧
      ∃ worker, worker.budget = spec.budget ∧
        t = { s with workers := s.workers.set worker.workerId worker } := by
  unfold startWorker at h
  rw [hgrant] at h
  split at h
  · cases h
  · rename_i worker hlaunch
    cases h
    exact ⟨(launchWorker_ok hlaunch).1, worker, (launchWorker_ok hlaunch).2, rfl⟩

lemma next_cases {a : Step} (h : next numberText ceiling s a = some t) : t.workers = s.workers ∨
      (∃ spec worker, a.spec s = some spec ∧ (admitWorker numberText ceiling s spec).admitted = true ∧
        worker.budget = spec.budget ∧ t.workers = s.workers.set worker.workerId worker) ∨
      ∃ workerId, a = .die workerId ∧ t.workers = s.workers.erase workerId := by
  cases a with
  | start spec outside =>
    cases h
    cases hr : startWorker numberText ceiling s spec none outside with
    | error e => exact .inl rfl
    | ok t =>
      obtain ⟨hadm, worker, hbudg, rfl⟩ := startWorker_ok rfl hr
      exact .inr (.inl ⟨spec, worker, rfl, hadm, hbudg, rfl⟩)
  | hook spec outside =>
    cases h
    unfold startHook
    dsimp only
    split_ifs with href
    · exact .inl rfl
    · cases hr : startWorker numberText ceiling s spec
          (some (admitWorker numberText ceiling s spec)) outside with
      | error e => exact .inl rfl
      | ok t =>
        obtain ⟨hadm, worker, hbudg, rfl⟩ := startWorker_ok rfl hr
        exact .inr (.inl ⟨spec, worker, rfl, hadm, hbudg, rfl⟩)
  | request spec judged =>
    cases h
    unfold beginStart
    dsimp only
    split_ifs <;> exact .inl rfl
  | fetched i reachable outside =>
    simp only [next] at h
    split at h
    · cases h
    · rename_i spec hspec
      split_ifs at h with hreach
      · cases h
        unfold finishStart
        dsimp only
        split_ifs with href
        · exact .inl rfl
        · cases hr : startWorker numberText ceiling { s with waiting := s.waiting.eraseIdx i } spec
              (some (admitWorker numberText ceiling { s with waiting := s.waiting.eraseIdx i } spec))
              outside with
          | error e => exact .inl rfl
          | ok t =>
            obtain ⟨hadm, worker, hbudg, rfl⟩ := startWorker_ok rfl hr
            exact .inr (.inl ⟨spec, worker, hspec, hadm, hbudg, rfl⟩)
      · cases h
        exact .inl rfl
  | die workerId =>
    cases h
    exact .inr (.inr ⟨workerId, rfl, rfl⟩)

end

section
variable {workers : List WorkerView}

lemma sum_bytes (workers : List WorkerView) :
    (workers.filterMap fun worker => (budgetMemoryCharge worker.budget).bytes?).sum =
      committedBytes workers := by
  unfold committedBytes
  induction workers with
  | nil => rfl
  | cons worker workers ih =>
    unfold Charge.committed at ih ⊢
    cases hcharge : (budgetMemoryCharge worker.budget).bytes? with
    | none => simpa [hcharge] using ih
    | some n => simp [hcharge, ih]

lemma isInteger_of_mem_bytes {n : JsNumber}
    (h : n ∈ workers.filterMap fun worker => (budgetMemoryCharge worker.budget).bytes?) :
    JsNumber.IsInteger n := by
  obtain ⟨worker, -, hn⟩ := mem_filterMap.mp h
  have hcomm := isInteger_committed worker.budget
  rwa [Charge.committed, hn] at hcomm

lemma projected_exact {budget : Option WorkerBudget} {m : JsNumber}
    (hm : m < ((2 ^ 53 : ℚ≥0) : JsNumber))
    (h : JsNumber.add (measureHostConsumption workers).memoryBytes
      (budgetMemoryCharge budget).committed ≤ m) :
    committedBytes workers + (budgetMemoryCharge budget).committed ≤ m := by
  have htot : JsNumber.add (measureHostConsumption workers).memoryBytes
      (budgetMemoryCharge budget).committed =
        JsNumber.total ((workers.filterMap fun worker => (budgetMemoryCharge worker.budget).bytes?) ++
          [(budgetMemoryCharge budget).committed]) := by
    simp only [JsNumber.total, foldl_append, foldl_cons, foldl_nil]
    rfl
  rw [htot] at h
  have hsum := JsNumber.total_exact (fun n hn => ?_) (h.trans_lt hm)
  · rw [hsum, sum_append, sum_bytes, sum_singleton] at h
    exact h
  · rcases mem_append.mp hn with hn | hn
    · exact isInteger_of_mem_bytes hn
    · rw [mem_singleton.mp hn]
      exact isInteger_committed budget

lemma sum_values_set_le {ν : Type*} (f : ν → JsNumber) (m : JsMap Text ν) (k : Text) (v : ν) :
    ((m.set k v).values.map f).sum ≤ (m.values.map f).sum + f v := by
  rcases m.values_set k v with h | ⟨l₁, w, l₂, hm, hset⟩
  · rw [h]
    simp
  · rw [hm, hset]
    simp only [map_append, map_cons, sum_append, sum_cons]
    calc (l₁.map f).sum + (f v + (l₂.map f).sum)
        ≤ (l₁.map f).sum + (f v + (l₂.map f).sum) + f w := le_self_add
      _ = (l₁.map f).sum + (f w + (l₂.map f).sum) + f v := by ac_rfl

lemma committedBytes_set (m : JsMap Text WorkerView) (k : Text) (worker : WorkerView) :
    committedBytes (m.set k worker).values ≤
      committedBytes m.values + (budgetMemoryCharge worker.budget).committed :=
  sum_values_set_le (fun w : WorkerView => (budgetMemoryCharge w.budget).committed) m k worker

lemma committedBytes_sublist {l l' : List WorkerView} (h : l.Sublist l') :
    committedBytes l ≤ committedBytes l' :=
  (h.map _).sum_le_sum fun _ _ => zero_le

end

section
variable {numberText : JsNumber → Text} {ceiling : HostCeiling} {s t : Host} {a : Step}

lemma length_set_le {ν : Type*} (m : JsMap Text ν) (k : Text) (worker : ν) :
    (m.set k worker).values.length ≤ m.values.length + 1 := by
  rcases m.values_set k worker with h | ⟨l₁, w, l₂, hm, hset⟩
  · rw [h, length_append, length_singleton]
  · rw [hm, hset]
    simp

lemma countWithin_step (h : CountWithin ceiling s.workers.values)
    (hn : next numberText ceiling s a = some t) : CountWithin ceiling t.workers.values := by
  intro c hc
  rcases next_cases hn with heq | ⟨spec, worker, -, hadm, -, hset⟩ | ⟨workerId, -, herase⟩
  · rw [heq]
    exact h c hc
  · have hroom : s.workers.values.length < c + ceiling.reserved :=
      (((admitted_iff ..).mp hadm).1 c hc).2
    have hlength := length_set_le s.workers worker.workerId worker
    rw [hset]
    omega
  · have hlength := (JsMap.values_erase_sublist s.workers workerId).length_le
    have hs := h c hc
    rw [herase]
    omega

lemma memoryWithin_step (hsafe : ∀ m, ceiling.memoryBytes = some m → m < ((2 ^ 53 : ℚ≥0) : JsNumber))
    (h : MemoryWithin ceiling s.workers.values)
    (hn : next numberText ceiling s a = some t) : MemoryWithin ceiling t.workers.values := by
  intro m hm
  rcases next_cases hn with heq | ⟨spec, worker, -, hadm, hbudg, hset⟩ | ⟨workerId, -, herase⟩
  · rw [heq]
    exact h m hm
  · have hproj := (((admitted_iff ..).mp hadm).2 m hm).2
    rw [hset]
    calc committedBytes (s.workers.set worker.workerId worker).values
        ≤ committedBytes s.workers.values + (budgetMemoryCharge worker.budget).committed :=
          committedBytes_set s.workers worker.workerId worker
      _ ≤ m := by
          rw [hbudg]
          exact projected_exact (hsafe m hm) hproj
  · rw [herase]
    exact (committedBytes_sublist (JsMap.values_erase_sublist s.workers workerId)).trans (h m hm)

lemma unchanged_of_full {c : Nat} {spec : WorkerSpec} (hc : ceiling.workerCount = some c)
    (hfull : c ≤ s.workers.values.length) (hspec : a.spec s = some spec)
    (hint : spec.interactive = false) (hn : next numberText ceiling s a = some t) :
    (admitWorker numberText ceiling s spec).admitted = false ∧ t.workers = s.workers := by
  have href : (admitWorker numberText ceiling s spec).admitted = false := by
    apply Bool.eq_false_iff.mpr
    intro hadm
    have hroom : s.workers.values.length < c :=
      (((admitted_iff ..).mp hadm).1 c hc).1 hint
    omega
  refine ⟨href, ?_⟩
  rcases next_cases hn with heq | ⟨spec', worker, hspec', hadm, -, -⟩ | ⟨workerId, rfl, -⟩
  · exact heq
  · obtain rfl : spec = spec' := Option.some.inj (hspec.symm.trans hspec')
    rw [href] at hadm
    cases hadm
  · cases hspec

/-- In every run of births and deaths the live Workers stay within the Worker
ceiling and its reservation, a full host takes no ordinary request, and a memory
ceiling below `2 ^ 53` bytes is never exceeded. -/
theorem within_ceiling (h : (hosts numberText ceiling).Reach anyStep s) :
    CountWithin ceiling s.workers.values ∧
      ((∀ m, ceiling.memoryBytes = some m → m < ((2 ^ 53 : ℚ≥0) : JsNumber)) →
        MemoryWithin ceiling s.workers.values) ∧
      ∀ c a spec t, ceiling.workerCount = some c → c ≤ s.workers.values.length →
        a.spec s = some spec → spec.interactive = false →
        next numberText ceiling s a = some t →
        (admitWorker numberText ceiling s spec).admitted = false ∧ t.workers = s.workers := by
  refine ⟨?_, fun hsafe => ?_, fun c a spec t hc hfull hspec hi hn =>
    unchanged_of_full hc hfull hspec hi hn⟩
  · exact h.inv (fun s => CountWithin ceiling s.workers.values) (fun s (hs : (hosts numberText ceiling).start s) => hs.1)
      fun _ _ _ hs _ hn => countWithin_step hs hn
  · exact h.inv (fun s => MemoryWithin ceiling s.workers.values) (fun s (hs : (hosts numberText ceiling).start s) => hs.2)
      fun _ _ _ hs _ hn => memoryWithin_step hsafe hs hn

end

section

def request (id budget : Text) (interactive : Bool) : WorkerSpec :=
  { workerId := some id, projectLabel := ['p'], workspacePath := ['w'], command := ['c']
    budget := some { memoryHigh := none, memoryMax := some budget }, interactive }

def spawns : Outside := { minted := ['m'], spawned := true }

def emptyHost : Host := { workers := ∅, waiting := [] }

lemma start_empty (numberText : JsNumber → Text) (ceiling : HostCeiling) :
    (hosts numberText ceiling).start emptyHost :=
  ⟨fun _ _ => Nat.zero_le _, fun _ _ => zero_le⟩

def petabytes : HostCeiling :=
  { memoryBytes := some (((2 ^ 53 : ℕ) : ℚ≥0) : JsNumber), workerCount := none
    interactiveReservation := none }

/-- A Worker of `8192T` fills the ceiling; one more byte is lost in the sum. -/
theorem passed_by_a_byte : ¬ ∀ numberText ceiling s, (hosts numberText ceiling).Reach anyStep s →
      MemoryWithin ceiling s.workers.values := by
  intro h
  have hrun : ((hosts (fun _ => []) petabytes).exec emptyHost
      [.start (request ['a'] ['8', '1', '9', '2', 'T'] false) spawns,
        .start (request ['b'] ['1'] false) spawns]).map
        (fun s => decide (committedBytes s.workers.values ≤ ((2 ^ 53 : ℚ≥0) : JsNumber))) =
      some false := by
    decide +kernel
  obtain ⟨s, hs, hbyt⟩ := Option.map_eq_some_iff.mp hrun
  exact of_decide_eq_false hbyt (h _ petabytes s
    (Machine.reach_of_exec (start_empty _ _) hs) _ rfl)

def small : HostCeiling :=
  { memoryBytes := some (((2 ^ 31 : ℕ) : ℚ≥0) : JsNumber), workerCount := some 1
    interactiveReservation := none }

theorem within_small :
    ∃ s : Host, s.workers.values.length = 2 ∧ CountWithin small s.workers.values ∧
      MemoryWithin small s.workers.values ∧
      (admitWorker (fun _ => []) small s (request ['c'] ['1'] false)).admitted = false := by
  have hrun : ((hosts (fun _ => []) small).exec emptyHost
      [.start (request ['a'] ['1', 'G'] false) spawns,
        .start (request ['b'] ['1', 'G'] true) spawns]).map (·.workers.values.length) =
      some 2 := by
    decide +kernel
  obtain ⟨s, hs, hlength⟩ := Option.map_eq_some_iff.mp hrun
  obtain ⟨hcount, hmem, hfull⟩ :=
    within_ceiling (Machine.reach_of_exec (start_empty (fun _ => []) small) hs)
  have hbel : ((2 ^ 31 : ℚ≥0) : JsNumber) < ((2 ^ 53 : ℚ≥0) : JsNumber) := by decide +kernel
  refine ⟨s, hlength, hcount, hmem fun m hm => Option.some.inj hm ▸ hbel, ?_⟩
  exact (hfull 1 (.start (request ['c'] ['1'] false) spawns) _ _ rfl (by omega) rfl rfl rfl).1

end

end Redskilled.Daemon.HostCeiling
