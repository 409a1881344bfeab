import Mathlib.Data.Finset.Basic
import Redskilled.Foundation.KeyedLog
import Redskilled.Lane.Encode

/-!
# Rotation of a full lane

A lane that would pass its ceiling is replaced by a compact generation: the newest
history that fits, and every birth that a boot still needs. A suffix of the events
alone could lose a live Worker, whose birth is older than the cut; those births are
pinned. Where the cut goes is found by bisection.
-/
namespace Redskilled.Lane
open Foundation List

variable {ν : Type*}

def rehydrateStep (alive : JsMap Text (WorkerView ν)) (event : HostEvent ν) :
    JsMap Text (WorkerView ν) :=
  if event.kind.isDaemon then alive
  else if event.kind = .workerBirth then alive.set event.workerId (toWorkerView event)
  else if event.kind = .workerDeath ∨ event.kind = .workerBudgetKill then
    alive.erase event.workerId
  else alive

def aliveWorkers (events : List (HostEvent ν)) : JsMap Text (WorkerView ν) :=
  events.foldl rehydrateStep ∅

def rehydrateWorkers (events : List (HostEvent ν)) : List (WorkerView ν) :=
  (aliveWorkers events).values

def word (event : HostEvent ν) : Word Text (WorkerView ν) :=
  if event.kind = .workerBirth then .put event.workerId (toWorkerView event)
  else if event.kind = .workerDeath ∨ event.kind = .workerBudgetKill then .drop event.workerId
  else .other

lemma rehydrateStep_eq (alive : JsMap Text (WorkerView ν)) (event : HostEvent ν) :
    rehydrateStep alive event = (word event).write alive := by
  cases hkind : event.kind <;> simp [rehydrateStep, word, EventKind.isDaemon, hkind, Word.write]

lemma aliveWorkers_eq (events : List (HostEvent ν)) :
    aliveWorkers events = KeyedLog.replay word events := by
  have hstep : rehydrateStep = fun (m : JsMap Text (WorkerView ν)) a => (word a).write m := by
    funext alive event
    exact rehydrateStep_eq alive event
  rw [aliveWorkers, hstep]
  rfl

variable {events : List (HostEvent ν)} {id : Text} {log : List (HostEvent ν × ℕ)}
  {p : HostEvent ν × ℕ} {required : Finset ℕ} {view : WorkerView ν}

lemma word_eq_put {event : HostEvent ν} : word event = .put id view ↔
      event.kind = .workerBirth ∧ event.workerId = id ∧ toWorkerView event = view := by
  unfold word
  split_ifs with hbirth hend
  · simp [hbirth]
  · simp [hbirth]
  · simp [hbirth]

lemma lookup_alive (h : KeyedLog.Numbered log) (id : Text) (view : WorkerView ν) :
    (aliveWorkers (log.map Prod.fst)).lookup id = some view ↔
      ∃ p, KeyedLog.Stands word log id view p := by
  rw [aliveWorkers_eq, KeyedLog.lookup_replay h]

lemma workerId_of_lookup
    (h : (aliveWorkers events).lookup id = some view) : view.workerId = id := by
  rw [← zipIdx_map_fst 0 events, lookup_alive (KeyedLog.numbered_zipIdx events)] at h
  obtain ⟨p, -, hput, -⟩ := h
  obtain ⟨-, hid, hview⟩ := word_eq_put.mp hput
  rw [← hview]
  exact hid

lemma mem_rehydrateWorkers :
    view ∈ rehydrateWorkers events ↔ (aliveWorkers events).lookup view.workerId = some view := by
  rw [rehydrateWorkers, JsMap.mem_values]
  constructor
  · rintro ⟨id, hid⟩
    rwa [workerId_of_lookup hid]
  · intro h
    exact ⟨_, h⟩

def selectedEvents (events : List (HostEvent ν)) (pinnedIndices : Finset ℕ)
    (optionalIndices : List ℕ) : List (HostEvent ν) :=
  (events.zipIdx.filter fun p => p.2 ∈ pinnedIndices ∨ p.2 ∈ optionalIndices).map Prod.fst

def pinBirths : List (HostEvent ν × ℕ) → Finset Text → Finset ℕ → Finset ℕ
  | [], _, pinnedIndices => pinnedIndices
  | (event, index) :: earlier, liveIds, pinnedIndices =>
    if liveIds = ∅ then pinnedIndices
    else if event.kind ≠ .workerBirth ∨ event.workerId ∉ liveIds then
      pinBirths earlier liveIds pinnedIndices
    else pinBirths earlier (liveIds.erase event.workerId) (insert index pinnedIndices)

/-- The bisection between `low` and `high`. -/
def bisect (fits : ℕ → Bool) (low high : ℕ) : ℕ :=
  if low < high then
    if fits ((low + high) / 2) then bisect fits low ((low + high) / 2)
    else bisect fits ((low + high) / 2 + 1) high
  else low
termination_by high - low
decreasing_by all_goals omega

/-- The births and the required events do not fit. -/
inductive CompactionError where
  | baselineExceeds (maxBytes : ℕ)
  deriving DecidableEq

section
variable (toon : Toon ν) (conv : Conversions ν)

def byteLength (events : List (HostEvent ν)) : ℕ := (encodeEventLane toon conv events).length

def liveIds (events : List (HostEvent ν)) : Finset Text :=
  ((rehydrateWorkers events).map WorkerView.workerId).toFinset

def pinnedIndices (events : List (HostEvent ν)) (required : Finset ℕ) : Finset ℕ :=
  pinBirths events.zipIdx.reverse (liveIds events) required

def optionalIndices (events : List (HostEvent ν)) (pinned : Finset ℕ) : List ℕ :=
  (List.range events.length).filter (· ∉ pinned)

/-- Retain the newest history that fits, pinning every birth needed at boot. -/
def compactEventLane (events : List (HostEvent ν)) (maxBytes : ℕ) (required : Finset ℕ) :
    Except CompactionError (List (HostEvent ν)) :=
  let pinned := pinnedIndices events required
  let optional := optionalIndices events pinned
  let fits (start : ℕ) : Bool :=
    byteLength toon conv (selectedEvents events pinned (optional.drop start)) ≤ maxBytes
  let low := bisect fits 0 optional.length
  let compact := selectedEvents events pinned (optional.drop low)
  if byteLength toon conv compact > maxBytes then .error (.baselineExceeds maxBytes)
  else .ok compact

/-- The events of the next generation. -/
def rotateEventLane (history : List (HostEvent ν)) (maxBytes : ℕ) (incoming : HostEvent ν) :
    Except CompactionError (List (HostEvent ν)) :=
  let events := history ++ [incoming]
  let required : Finset ℕ := {events.length - 1}
  match compactEventLane toon conv events (maxBytes / 2) required with
  | .ok compact => .ok compact
  | .error (.baselineExceeds _) => compactEventLane toon conv events maxBytes required

end

lemma mem_liveIds : id ∈ liveIds events ↔ ∃ view, (aliveWorkers events).lookup id = some view := by
  simp only [liveIds, mem_toFinset, mem_map, mem_rehydrateWorkers]
  constructor
  · rintro ⟨view, hview, rfl⟩
    exact ⟨view, hview⟩
  · rintro ⟨view, hview⟩
    have hid := workerId_of_lookup hview
    exact ⟨view, hid ▸ hview, hid⟩

def LastBirth (log : List (HostEvent ν × ℕ)) (p : HostEvent ν × ℕ) : Prop :=
  p ∈ log ∧ p.1.kind = .workerBirth ∧
    ∀ q ∈ log, p.2 < q.2 → q.1.kind = .workerBirth → q.1.workerId ≠ p.1.workerId

/-- An entry in front that is later than all others is a last birth if it is a
birth; it takes that from the entries of its own Worker. -/
lemma lastBirth_cons {e : HostEvent ν × ℕ} (h : ∀ q ∈ log, q.2 < e.2) : LastBirth (e :: log) p ↔
      p = e ∧ e.1.kind = .workerBirth ∨
        LastBirth log p ∧ (e.1.kind = .workerBirth → e.1.workerId ≠ p.1.workerId) := by
  constructor
  · rintro ⟨hp, hbirth, hlat⟩
    rcases mem_cons.mp hp with rfl | hp
    · exact .inl ⟨rfl, hbirth⟩
    · refine .inr ⟨⟨hp, hbirth, ?_⟩, hlat e mem_cons_self (h p hp)⟩
      intro q hq
      exact hlat q (mem_cons_of_mem _ hq)
  · rintro (⟨rfl, hbirth⟩ | ⟨⟨hp, hbirth, hlat⟩, he⟩)
    · refine ⟨mem_cons_self, hbirth, fun q hq hpq => ?_⟩
      rcases mem_cons.mp hq with rfl | hq
      · omega
      · have := h q hq
        omega
    · refine ⟨mem_cons_of_mem _ hp, hbirth, fun q hq hpq => ?_⟩
      rcases mem_cons.mp hq with rfl | hq
      · exact he
      · exact hlat q hq hpq

lemma mem_pinBirths (h : log.Pairwise fun p q => q.2 < p.2)
    (live : Finset Text) (pinned : Finset ℕ) (index : ℕ) :
    index ∈ pinBirths log live pinned ↔
      index ∈ pinned ∨ ∃ p, LastBirth log p ∧ p.1.workerId ∈ live ∧ p.2 = index := by
  induction log generalizing live pinned with
  | nil => simp [pinBirths, LastBirth]
  | cons e log ih =>
    obtain ⟨event, number⟩ := e
    have ih := ih (pairwise_cons.mp h).2
    simp only [pinBirths, lastBirth_cons (pairwise_cons.mp h).1]
    split_ifs with hempty hskip
    · simp [hempty]
    · rw [ih]
      refine or_congr_right (exists_congr fun p => ?_)
      constructor
      · rintro ⟨hp, hlive, hind⟩
        refine ⟨.inr ⟨hp, fun hbirth hid => ?_⟩, hlive, hind⟩
        rcases hskip with hkind | hdead
        · exact hkind hbirth
        · exact hdead (hid ▸ hlive)
      · rintro ⟨⟨rfl, hbirth⟩ | ⟨hp, -⟩, hlive, hind⟩
        · rcases hskip with hkind | hdead
          · exact absurd hbirth hkind
          · exact absurd hlive hdead
        · exact ⟨hp, hlive, hind⟩
    · push Not at hskip
      obtain ⟨hbirth, hlive⟩ := hskip
      rw [ih, Finset.mem_insert]
      constructor
      · rintro ((rfl | hmem) | ⟨p, hp, hid, hind⟩)
        · exact .inr ⟨_, .inl ⟨rfl, hbirth⟩, hlive, rfl⟩
        · exact .inl hmem
        · obtain ⟨hne, hid⟩ := Finset.mem_erase.mp hid
          exact .inr ⟨p, .inr ⟨hp, fun _ => Ne.symm hne⟩, hid, hind⟩
      · rintro (hmem | ⟨p, ⟨rfl, -⟩ | ⟨hp, hne⟩, hid, hind⟩)
        · exact .inl (.inr hmem)
        · exact .inl (.inl hind.symm)
        · exact .inr ⟨p, hp, Finset.mem_erase.mpr ⟨(hne hbirth).symm, hid⟩, hind⟩

/-- What is kept at an index: it is required, or the last birth of a live Worker, or
it is not earlier than the cut. -/
lemma mem_pinnedIndices {index : ℕ} : index ∈ pinnedIndices events required ↔ index ∈ required ∨
        ∃ p, LastBirth events.zipIdx p ∧ p.1.workerId ∈ liveIds events ∧ p.2 = index := by
  have hdown : events.zipIdx.reverse.Pairwise fun p q => q.2 < p.2 :=
    pairwise_reverse.mpr (KeyedLog.numbered_zipIdx events)
  rw [pinnedIndices, mem_pinBirths hdown]
  simp [LastBirth]

lemma mem_drop_optionalIndices {pinned : Finset ℕ} {start i j : ℕ}
    (hi : i ∈ (optionalIndices events pinned).drop start) (hij : i < j)
    (hj : j ∈ optionalIndices events pinned) :
    j ∈ (optionalIndices events pinned).drop start := by
  have hsort : (optionalIndices events pinned).Pairwise (· < ·) :=
    pairwise_lt_range.filter _
  rw [← take_append_drop start (optionalIndices events pinned)] at hj hsort
  rcases mem_append.mp hj with hj | hj
  · have hji := (pairwise_append.mp hsort).2.2 j hj i hi
    omega
  · exact hj

lemma pinned_of_stands (h : KeyedLog.Stands word events.zipIdx id view p) :
    p.2 ∈ pinnedIndices events required := by
  have hlive : id ∈ liveIds events := by
    rw [mem_liveIds]
    refine ⟨view, ?_⟩
    rw [← zipIdx_map_fst 0 events, lookup_alive (KeyedLog.numbered_zipIdx events)]
    exact ⟨p, h⟩
  obtain ⟨hp, hput, hlat⟩ := h
  obtain ⟨hbirth, rfl, -⟩ := word_eq_put.mp hput
  refine mem_pinnedIndices.mpr (.inr ⟨p, ⟨hp, hbirth, fun q hq hpq hkind hid => ?_⟩, hlive, rfl⟩)
  have hword : word q.1 = .put q.1.workerId (toWorkerView q.1) := word_eq_put.mpr ⟨hkind, rfl, rfl⟩
  apply hlat q hq hpq
  rw [hword, hid]
  rfl

lemma stands_of_lastBirth
    (hp : LastBirth events.zipIdx p) (hlive : p.1.workerId ∈ liveIds events) :
    KeyedLog.Stands word events.zipIdx p.1.workerId (toWorkerView p.1) p := by
  obtain ⟨hmem, hbirth, hlast⟩ := hp
  obtain ⟨view, hview⟩ := mem_liveIds.mp hlive
  rw [← zipIdx_map_fst 0 events, lookup_alive (KeyedLog.numbered_zipIdx events)] at hview
  obtain ⟨q, hq, hput, hlat⟩ := hview
  obtain ⟨hkind, hid, -⟩ := word_eq_put.mp hput
  refine ⟨hmem, word_eq_put.mpr ⟨hbirth, rfl, rfl⟩, fun r hr hpr => hlat r hr ?_⟩
  by_contra hqr
  have hpq : p.2 < q.2 := by omega
  exact hlast q hq hpq hkind hid

lemma entry_eq {α : Type*} {l : List α} {p q : α × ℕ} (hp : p ∈ l.zipIdx) (hq : q ∈ l.zipIdx)
    (h : p.2 = q.2) : p = q := by
  have hp' := mem_zipIdx_iff_getElem?.mp hp
  have hq' := mem_zipIdx_iff_getElem?.mp hq
  rw [h, hq'] at hp'
  exact Prod.ext (Option.some.inj hp').symm h

lemma alive_selectedEvents
    (hlast : ∀ i ∈ required, events.length ≤ i + 1) (start : ℕ) (id : Text) :
    (aliveWorkers (selectedEvents events (pinnedIndices events required)
      ((optionalIndices events (pinnedIndices events required)).drop start))).lookup id =
        (aliveWorkers events).lookup id := by
  have hsort := KeyedLog.numbered_zipIdx events
  conv_rhs => rw [← zipIdx_map_fst 0 events]
  rw [selectedEvents, aliveWorkers_eq, aliveWorkers_eq]
  refine KeyedLog.lookup_replay_filter hsort ?_ ?_ id
  · intro id view p hp
    simp [pinned_of_stands hp]
  · rintro id view p hp hkeep hput ⟨q, hq, hpq, hkey⟩
    have hlt : q.2 < events.length := (mem_zipIdx' hq).1
    refine ⟨q, hq, ?_, hpq, hkey⟩
    rcases of_decide_eq_true hkeep with hpinn | hopt
    -- behind a pinned event no word of its Worker follows
    · rcases mem_pinnedIndices.mp hpinn with hreq | ⟨p', hbirth, hlive, hind⟩
      · have := hlast p.2 hreq
        omega
      · have hstands := stands_of_lastBirth hbirth hlive
        have hpp : p' = p := entry_eq hbirth.1 hp hind
        subst hpp
        obtain ⟨-, hid, -⟩ := word_eq_put.mp hput
        exact absurd (hid ▸ hkey) (hstands.2.2 q hq hpq)
    -- behind an optional one everything is kept
    · by_cases hq' : q.2 ∈ pinnedIndices events required
      · simp [hq']
      · have hmem : q.2 ∈ optionalIndices events (pinnedIndices events required) := by
          simp [optionalIndices, hlt, hq']
        simp [mem_drop_optionalIndices hopt hpq hmem]

section
variable {toon : Toon ν} {conv : Conversions ν} {events compact history : List (HostEvent ν)}
  {required : Finset ℕ} {maxBytes : ℕ} {incoming : HostEvent ν}

lemma compact_spec (h : compactEventLane toon conv events maxBytes required = .ok compact) :
    byteLength toon conv compact ≤ maxBytes ∧
      ∃ start, compact = selectedEvents events (pinnedIndices events required)
        ((optionalIndices events (pinnedIndices events required)).drop start) := by
  simp only [compactEventLane] at h
  split_ifs at h with hfits
  obtain rfl := Except.ok.inj h
  exact ⟨not_lt.mp hfits, _, rfl⟩

lemma rotate_spec (h : rotateEventLane toon conv history maxBytes incoming = .ok compact) :
    ∃ target ≤ maxBytes,
      compactEventLane toon conv (history ++ [incoming]) target {history.length} = .ok compact := by
  have hlength : (history ++ [incoming]).length - 1 = history.length := by simp
  simp only [rotateEventLane, hlength] at h
  split at h
  · next hok => exact ⟨maxBytes / 2, Nat.div_le_self _ _, hok.trans h⟩
  · exact ⟨maxBytes, le_rfl, h⟩

lemma selectedEvents_sublist (events : List (HostEvent ν)) (pinned : Finset ℕ)
    (optional : List ℕ) : (selectedEvents events pinned optional).Sublist events := by
  conv_rhs => rw [← zipIdx_map_fst 0 events]
  exact filter_sublist.map _

lemma mem_selectedEvents {pinned : Finset ℕ} {optional : List ℕ} {event : HostEvent ν}
    {index : ℕ} (h : (event, index) ∈ events.zipIdx) (hpinn : index ∈ pinned) :
    event ∈ selectedEvents events pinned optional :=
  mem_map.mpr ⟨(event, index), mem_filter.mpr ⟨h, by simp [hpinn]⟩, rfl⟩

lemma rotate_concat
    (h : rotateEventLane toon conv history maxBytes incoming = .ok compact) :
    ∃ kept, compact = kept ++ [incoming] := by
  obtain ⟨target, -, hcomp⟩ := rotate_spec h
  obtain ⟨-, start, rfl⟩ := compact_spec hcomp
  have hlast : history.length ∈ pinnedIndices (history ++ [incoming]) {history.length} :=
    mem_pinnedIndices.mpr (.inl (Finset.mem_singleton_self _))
  rw [selectedEvents, zipIdx_append, filter_append, map_append]
  refine ⟨_, congrArg _ ?_⟩
  simp [hlast]

/-- The compact generation holds the same Workers as the history with the event
that filled it, is a part of that history with the event, and fits. -/
theorem rotation_keeps_workers
    (h : rotateEventLane toon conv history maxBytes incoming = .ok compact) :
    (∀ view, view ∈ rehydrateWorkers compact ↔ view ∈ rehydrateWorkers (history ++ [incoming])) ∧
      compact.Sublist (history ++ [incoming]) ∧ incoming ∈ compact ∧
      (encodeEventLane toon conv compact).length ≤ maxBytes := by
  obtain ⟨target, htarg, hcomp⟩ := rotate_spec h
  obtain ⟨hfits, start, rfl⟩ := compact_spec hcomp
  refine ⟨?_, selectedEvents_sublist .., ?_, hfits.trans htarg⟩
  · intro view
    have hlast : ∀ i ∈ ({history.length} : Finset ℕ), (history ++ [incoming]).length ≤ i + 1 := by
      simp
    rw [mem_rehydrateWorkers, mem_rehydrateWorkers, alive_selectedEvents hlast]
  · have hmem : (incoming, history.length) ∈ (history ++ [incoming]).zipIdx := by
      simp [mem_zipIdx_iff_getElem?]
    exact mem_selectedEvents hmem (mem_pinnedIndices.mpr (.inl (Finset.mem_singleton_self _)))

end

theorem rotation_keeps_oldest_birth :
    let worker (id : Text) : WorkerView ℕ := { workerId := id, pid := 7 }
    let event (kind : EventKind) (id : Text) := buildHostEvent { kind, worker := worker id }
    let conv : Conversions ℕ := ⟨0, 1, fun _ => 0, fun b => b.toNat, fun _ => []⟩
    -- eleven bytes of header, and the Worker's name
    let toon : Toon ℕ :=
      { header := fun _ => "[]{worker}:".toUTF8.toList
        line := fun row =>
          match row .workerId with
          | some (.text t) => t.map fun c => UInt8.ofNat c.toNat
          | _ => []
        parseRecords := fun _ _ => none }
    let history := [event .workerBirth ['a'], event .workerBirth ['b'],
      event .workerActivity ['a'], event .workerDeath ['b']]
    (∀ view, view ∈ rehydrateWorkers [event .workerBirth ['a'], event .workerMetrics ['a']] ↔
        view ∈ rehydrateWorkers (history ++ [event .workerMetrics ['a']])) ∧
      [event .workerBirth ['a'], event .workerMetrics ['a']].Sublist
        (history ++ [event .workerMetrics ['a']]) ∧
      event .workerMetrics ['a'] ∈ [event .workerBirth ['a'], event .workerMetrics ['a']] ∧
      (encodeEventLane toon conv
        [event .workerBirth ['a'], event .workerMetrics ['a']]).length ≤ 33 :=
  rotation_keeps_workers (by decide +kernel)

end Redskilled.Lane
