import Mathlib.Data.List.Chain
import Redskilled.Github.GatewayTimers

/-!
# What a read is answered with

Answers are shared by the key of the read. So whatever a read is answered with, the
upstream was asked for it under the same project, profile and read. The credential is that
of the state, and with it that of the reader who asked first.
-/
namespace Redskilled.Github.Gateway
open Foundation List Option

section
variable {V : Type*} {options : GatewayOptions}

/-- The upstream has answered a call of the key with the value. -/
def Has (answered : List (Answered V)) (key : Text) (value : V) : Prop :=
  ∃ answer ∈ answered, cacheKey answer.project answer.read = key ∧ answer.read.Normal ∧
    answer.value = value

structure StateSound (answered : List (Answered V)) (state : RefreshState V) : Prop where
  key : state.key = cacheKey state.project state.read
  scope : state.scope = scopeKey state.project
  normal : state.read.Normal
  answer : ∀ value, state.answer = some value → Has answered state.key value

structure FlightSound (answered : List (Answered V)) (heap : List (RefreshState V)) (key : Text)
    (flight : Flight V) : Prop where
  state : ∃ state, heap[flight.state]? = some state ∧ state.key = key
  held : ∀ value, flight.held.value = some value → Has answered key value
  ending : ∀ value, flight.ending = some (some value) → Has answered key value
  waiting : ∀ wait ∈ flight.waiting, cacheKey wait.1.project wait.2 = key ∧ wait.2.Normal

/-- Whatever is kept under a key was answered for it. -/
structure Sound (g : State V) : Prop where
  states : ∀ (id : ℕ) (state : RefreshState V), g.heap[id]? = some state → StateSound g.answered state
  cache : ∀ key entry, g.cache.lookup key = some entry → Has g.answered key entry.value
  flights : ∀ key flight, g.inFlight.lookup key = some flight → FlightSound g.answered g.heap key flight
  resolved : ∀ r ∈ g.resolved, Has g.answered (cacheKey r.reader.project r.read) r.value ∧ r.read.Normal

/-- What of a state matters for the answers. -/
structure StateFace (V : Type*) where
  key : Text
  scope : Text
  project : ProjectAuthority
  read : Read
  answer : Option V

def RefreshState.face (state : RefreshState V) : StateFace V :=
  ⟨state.key, state.scope, state.project, state.read, state.answer⟩

/-- Nothing is kept that was not kept before. -/
structure KeepsLess (g g' : State V) : Prop where
  heap : ∀ id : ℕ, (g'.heap[id]?).map RefreshState.face = (g.heap[id]?).map RefreshState.face
  cache : ∀ key entry, g'.cache.lookup key = some entry → g.cache.lookup key = some entry
  flights : ∀ key flight, g'.inFlight.lookup key = some flight → g.inFlight.lookup key = some flight
  answered : g'.answered = g.answered
  resolved : g'.resolved = g.resolved

lemma KeepsLess.refl (g : State V) : KeepsLess g g :=
  ⟨fun _ => rfl, fun _ _ h => h, fun _ _ h => h, rfl, rfl⟩

variable {flight : Flight V} {g g' : State V} {key now : Text} {read : Read}
  {reader : ProjectReader}

lemma KeepsLess.trans {g'' : State V} (h : KeepsLess g g') (h' : KeepsLess g' g'') :
    KeepsLess g g'' where
  heap id := (h'.heap id).trans (h.heap id)
  cache key entry hlook := h.cache key entry (h'.cache key entry hlook)
  flights key flight hlook := h.flights key flight (h'.flights key flight hlook)
  answered := h'.answered.trans h.answered
  resolved := h'.resolved.trans h.resolved

lemma Has.mono {answered answered' : List (Answered V)} {key : Text} {value : V}
    (h : Has answered key value) (hsub : answered ⊆ answered') : Has answered' key value := by
  obtain ⟨answer, hmem, hrest⟩ := h
  exact ⟨answer, hsub hmem, hrest⟩

lemma Sound.frame (h : Sound g) (hless : KeepsLess g g') : Sound g' := by
  have hsub : g.answered ⊆ g'.answered := by
    rw [hless.answered]
    exact List.Subset.refl _
  constructor
  · intro id state' hget
    have hface := hless.heap id
    rw [hget] at hface
    cases hold : g.heap[id]? with
    | none => simp [hold] at hface
    | some state =>
      simp only [hold, map_some, some.injEq, RefreshState.face, StateFace.mk.injEq] at hface
      obtain ⟨hkey, hscope, hproj, hread, hansw⟩ := hface
      obtain ⟨skey, sscope, snormal, sanswer⟩ := h.states id state hold
      constructor
      · rw [hkey, hproj, hread]
        exact skey
      · rw [hscope, hproj]
        exact sscope
      · rw [hread]
        exact snormal
      · intro value hvalue
        rw [hkey]
        rw [hansw] at hvalue
        exact (sanswer value hvalue).mono hsub
  · intro key entry hlook
    exact (h.cache key entry (hless.cache key entry hlook)).mono hsub
  · intro key flight hlook
    obtain ⟨⟨state, hget, hkey⟩, hheld, hend, hwaiti⟩ :=
      h.flights key flight (hless.flights key flight hlook)
    constructor
    · have hface := hless.heap flight.state
      rw [hget] at hface
      cases hnew : g'.heap[flight.state]? with
      | none => simp [hnew] at hface
      | some state' =>
        simp only [hnew, map_some, some.injEq] at hface
        have hsame : state'.key = state.key := congrArg StateFace.key hface
        exact ⟨state', rfl, hsame.trans hkey⟩
    · exact fun value hvalue => (hheld value hvalue).mono hsub
    · exact fun value hvalue => (hend value hvalue).mono hsub
    · exact hwaiti
  · intro r hr
    rw [hless.resolved] at hr
    obtain ⟨hhas, hnorm⟩ := h.resolved r hr
    exact ⟨hhas.mono hsub, hnorm⟩

lemma keepsLess_modify {id : ℕ} {change : RefreshState V → RefreshState V}
    (hchange : ∀ state, (change state).face = state.face) :
    KeepsLess g (g.modifyState id change) := by
  refine { KeepsLess.refl g with heap := ?_ }
  intro other
  simp only [State.modifyState, getElem?_modify]
  cases g.heap[other]? with
  | none => rfl
  | some state =>
    split_ifs
    · exact congrArg some (hchange state)
    · rfl

lemma keepsLess_subscribe (g : State V) (reader : ProjectReader) :
    KeepsLess g (g.subscribe reader) := by
  unfold State.subscribe
  split
  · exact { KeepsLess.refl g with }
  · exact { KeepsLess.refl g with }

lemma keepsLess_trimStates (n : ℕ) (g : State V) : KeepsLess g (g.trimStates options n) := by
  induction n generalizing g with
  | zero => exact .refl g
  | succ n ih =>
    unfold State.trimStates
    split_ifs
    · split
      · exact .refl g
      · next key id _ =>
          have hdrop : KeepsLess g (g.drop key id) := by
            have hmodify : KeepsLess g (g.modifyState id fun state =>
                { state with armed := false }) := keepsLess_modify fun _ => rfl
            refine { hmodify with cache := ?_ }
            intro other entry hlook
            change AList.lookup other (g.cache.erase key) = some entry at hlook
            rw [JsMap.lookup_erase_eq] at hlook
            split_ifs at hlook
            exact hlook
          exact hdrop.trans (ih _)
    · exact .refl g

lemma keepsLess_close (g : State V) : KeepsLess g g.close := by
  refine { KeepsLess.refl g with heap := ?_ }
  intro id
  have hget : g.close.heap[id]? = (g.heap[id]?).map fun state =>
      if id ∈ g.states.values then { state with armed := false } else state :=
    getElem?_mapIdx
  rw [hget]
  cases g.heap[id]? with
  | none => rfl
  | some state =>
    simp only [map_some, some.injEq]
    split_ifs <;> rfl

lemma lookup_evictOldest {n : ℕ} {cache : Cache V} {entry : CacheEntry V}
    (h : (evictOldest options n cache).lookup key = some entry) :
    cache.lookup key = some entry := by
  induction n generalizing cache with
  | zero => exact h
  | succ n ih =>
    unfold evictOldest at h
    split_ifs at h
    · split at h
      · exact h
      · have heras := ih h
        rw [JsMap.lookup_erase_eq] at heras
        split_ifs at heras
        exact heras
    · exact h

lemma lookup_put {cache : Cache V} {other : Text} {entry found : CacheEntry V}
    (h : (cache.put options key entry).lookup other = some found) :
    other = key ∧ found = entry ∨ cache.lookup other = some found := by
  have hset := lookup_evictOldest h
  rw [JsMap.lookup_set, JsMap.lookup_erase_eq] at hset
  split_ifs at hset with heq
  · exact .inl ⟨heq, (some.inj hset).symm⟩
  · exact .inr hset

lemma Sound.has_of_read (h : Sound g) {value : V}
    (hread : (g.cache.read options key now).value = some value) : Has g.answered key value := by
  unfold Cache.read at hread
  cases hlook : g.cache.lookup key with
  | none => simp [hlook, CacheRead.value] at hread
  | some entry =>
    have hhas := h.cache key entry hlook
    simp only [hlook] at hread
    cases hage : ageOf options entry.fetchedAt now with
    | none =>
      simp only [hage, CacheRead.value, some.injEq] at hread
      exact hread ▸ hhas
    | some age =>
      simp only [hage] at hread
      split_ifs at hread <;> (obtain rfl := some.inj hread; exact hhas)

lemma Sound.join (h : Sound g) (hkey : cacheKey reader.project read = key) (hread : read.Normal) :
    Sound (g.join key reader read) := by
  unfold State.join
  cases hflight : g.inFlight.lookup key with
  | none =>
    simp only
    exact h
  | some flight =>
    simp only
    have hsound := h.flights key flight hflight
    refine { h with flights := ?_ }
    intro other found hfound
    rw [JsMap.lookup_set] at hfound
    split_ifs at hfound with heq
    · cases hfound
      subst heq
      refine { hsound with waiting := ?_ }
      intro wait hwait
      rcases mem_append.mp hwait with hold | hnew
      · exact hsound.waiting wait hold
      · obtain rfl := mem_singleton.mp hnew
        exact ⟨hkey, hread⟩
    · exact h.flights other found hfound

lemma Sound.refreshState (h : Sound g) (id : ℕ) (startedBy : Option ProjectReader)
    (now : Text) : Sound (g.refreshState options id startedBy now) := by
  rcases refreshState_cases options g id startedBy now with hsame | ⟨state, hget, _, hcall⟩
  · rw [hsame]
    exact h
  · rw [hcall]
    refine { h with flights := ?_ }
    intro key flight hfound
    change (g.inFlight.set _ _).lookup key = _ at hfound
    rw [JsMap.lookup_set] at hfound
    split_ifs at hfound with heq
    · cases hfound
      subst heq
      constructor
      · exact ⟨state, hget, rfl⟩
      · exact fun value hvalue => h.has_of_read hvalue
      · intro value hvalue
        cases hvalue
      · intro wait hwait
        cases hwait
    · exact h.flights key flight hfound

lemma Sound.refreshAll {ids : List ℕ} (h : Sound g) (now : Text) :
    Sound (ids.foldl (fun g id => g.refreshState options id none now) g) := by
  induction ids generalizing g with
  | nil => exact h
  | cons id ids ih => exact ih (h.refreshState id none now)

lemma Sound.wake (h : Sound g) (reader : ProjectReader) (deliveryId now : Text) :
    Sound (g.wake options reader deliveryId now) := by
  unfold State.wake
  split_ifs
  · exact h
  · exact h
  · apply Sound.refreshAll
    exact h.frame { KeepsLess.refl g with }

lemma Sound.addState (h : Sound g)
    (hkey : cacheKey reader.project read = key) (hread : read.Normal) :
    Sound (g.addState key reader read) := by
  have hget : ∀ {id : ℕ} {state : RefreshState V}, g.heap[id]? = some state →
      (g.addState key reader read).heap[id]? = some state := by
    intro id state hstate
    obtain ⟨hlt, _⟩ := List.getElem?_eq_some_iff.mp hstate
    exact (getElem?_append_left hlt).trans hstate
  refine { h with states := ?_, flights := ?_ }
  · intro id state hstate
    rcases lt_or_ge id g.heap.length with hlt | hge
    · exact h.states id state ((getElem?_append_left hlt).symm.trans hstate)
    · change (g.heap ++ [_])[id]? = some state at hstate
      rw [getElem?_append_right hge, getElem?_singleton] at hstate
      split_ifs at hstate
      cases hstate
      constructor
      · exact hkey.symm
      · rfl
      · exact hread
      · intro value hvalue
        cases hvalue
  · intro other flight hflight
    obtain ⟨⟨state, hstate, hsame⟩, hrest⟩ := h.flights other flight hflight
    exact { h.flights other flight hflight with state := ⟨state, hget hstate, hsame⟩ }

lemma Sound.readKey (h : Sound g)
    (hkey : cacheKey reader.project read = key) (hread : read.Normal) :
    Sound (g.readKey options reader read key now) := by
  have hmissed : Sound (g.readMissed options reader read key now) := by
    unfold State.readMissed
    cases g.inFlight.lookup key with
    | some flight => exact h.join hkey hread
    | none =>
      cases g.states.lookup key with
      | some id => exact (h.refreshState id _ now).join hkey hread
      | none =>
        have hadd : Sound (g.addTrimmed options key reader read) :=
          (h.addState hkey hread).frame (keepsLess_trimStates _ _)
        exact (hadd.refreshState _ _ now).join hkey hread
  unfold State.readKey
  cases hcache : g.cache.read options key now with
  | fresh value =>
    refine { h with resolved := ?_ }
    intro r hr
    rcases mem_append.mp hr with hold | hnew
    · exact h.resolved r hold
    · obtain rfl := mem_singleton.mp hnew
      refine ⟨?_, hread⟩
      rw [hkey]
      exact h.has_of_read (by rw [hcache]; rfl)
  | miss => exact hmissed
  | undated value => exact hmissed
  | stale value => exact hmissed

lemma Sound.keep (h : Sound g) {state : RefreshState V} {value : V} {validators : Option Validators}
    (hget : g.heap[flight.state]? = some state) (hkey : state.key = key)
    (hhas : Has g.answered key value) : Sound (g.keep options flight state value validators now) := by
  have hmod : ∀ other : ℕ, (g.keep options flight state value validators now).heap[other]? =
      if flight.state = other then
        (g.heap[other]?).map fun state => { state with answer := some value, validators }
      else g.heap[other]? := by
    intro other
    simp only [State.keep, State.modifyState, getElem?_modify]
    split_ifs
    · rfl
    · simp
  constructor
  · intro id found hfound
    rw [hmod] at hfound
    split_ifs at hfound with heq
    · subst heq
      obtain ⟨old, hold, rfl⟩ := map_eq_some_iff.mp hfound
      obtain rfl : state = old := some.inj (hget.symm.trans hold)
      refine { h.states _ state hget with answer := ?_ }
      intro other hoth
      cases hoth
      change Has g.answered state.key value
      rw [hkey]
      exact hhas
    · exact h.states id found hfound
  · intro other entry hlook
    rcases lookup_put hlook with ⟨rfl, rfl⟩ | hold
    · rw [hkey]
      exact hhas
    · exact h.cache other entry hold
  · intro other found hfound
    obtain ⟨old, hold, hsame⟩ := (h.flights other found hfound).state
    refine { h.flights other found hfound with state := ?_ }
    by_cases heq : flight.state = found.state
    · refine ⟨{ old with answer := some value, validators }, ?_, hsame⟩
      rw [hmod, if_pos heq, hold]
      rfl
    · exact ⟨old, by rw [hmod, if_neg heq, hold], hsame⟩
  · exact h.resolved

lemma Sound.endWith (h : Sound g)
    (hflight : FlightSound g.answered g.heap key flight) {value : Option V}
    (hvalue : ∀ v, value = some v → Has g.answered key v) : Sound (g.endWith key flight value) := by
  refine { h with flights := ?_ }
  intro other found hfound
  change (g.inFlight.set _ _).lookup other = _ at hfound
  rw [JsMap.lookup_set] at hfound
  split_ifs at hfound with heq
  · cases hfound
    subst heq
    refine { hflight with ending := ?_ }
    intro v hv
    exact hvalue v (some.inj hv)
  · exact h.flights other found hfound

lemma FlightSound.mono {g g' : State V} {key : Text} {flight : Flight V}
    (h : FlightSound g.answered g.heap key flight) (hsub : g.answered ⊆ g'.answered)
    (hheap : ∀ state, g.heap[flight.state]? = some state →
      ∃ state', g'.heap[flight.state]? = some state' ∧ state'.key = state.key) :
    FlightSound g'.answered g'.heap key flight := by
  obtain ⟨⟨state, hget, hkey⟩, hheld, hend, hwaiti⟩ := h
  obtain ⟨state', hget', hkey'⟩ := hheap state hget
  constructor
  · exact ⟨state', hget', hkey'.trans hkey⟩
  · exact fun value hvalue => (hheld value hvalue).mono hsub
  · exact fun value hvalue => (hend value hvalue).mono hsub
  · exact hwaiti

lemma Sound.publish (h : Sound g) (state : RefreshState V) (value : V)
    (now : Text) (throwing : Option ℕ) : Sound (g.publish state value now throwing) :=
  h.frame { KeepsLess.refl g with }

lemma keep_keys {g : State V} {flight : Flight V} {state : RefreshState V} {value : V}
    {validators : Option Validators} {now : Text} (hget : g.heap[flight.state]? = some state) :
    ∀ old, g.heap[flight.state]? = some old →
      ∃ new, (g.keep options flight state value validators now).heap[flight.state]? = some new ∧
        new.key = old.key := by
  intro old hold
  obtain rfl : state = old := some.inj (hget.symm.trans hold)
  refine ⟨{ state with answer := some value, validators }, ?_, rfl⟩
  simp [State.keep, State.modifyState, hget]

lemma Sound.settle [DecidableEq V] (h : Sound g)
    {state : RefreshState V} {outcome : UpstreamOutcome V} {throwing : Option ℕ}
    (hflight : g.inFlight.lookup key = some flight) (hget : g.heap[flight.state]? = some state) :
    Sound (g.settle options key flight state outcome now throwing) := by
  have hsound := h.flights key flight hflight
  have hstate := h.states _ state hget
  have hkey : state.key = key := by
    obtain ⟨found, hfound, hsame⟩ := hsound.state
    obtain rfl : state = found := some.inj (hget.symm.trans hfound)
    exact hsame
  have hkeep : ∀ {value : V} {validators : Option Validators}, Has g.answered key value →
      Sound (g.keep options flight state value validators now) ∧
        FlightSound (g.keep options flight state value validators now).answered
          (g.keep options flight state value validators now).heap key flight := by
    intro value validators hhas
    exact ⟨h.keep hget hkey hhas, hsound.mono (List.Subset.refl _) (keep_keys hget)⟩
  cases outcome with
  | value value validators =>
    have hsub : g.answered ⊆ g.answered ++ [⟨state.project, state.read, value⟩] :=
      subset_append_left _ _
    have hnew : Has (g.answered ++ [⟨state.project, state.read, value⟩]) key value := by
      refine ⟨⟨state.project, state.read, value⟩, by simp, ?_, hstate.normal, rfl⟩
      rw [← hkey]
      exact hstate.key.symm
    have hgrown : Sound { g with
        answered := g.answered ++ [⟨state.project, state.read, value⟩] } := by
      constructor
      · intro id found hfound
        refine { h.states id found hfound with answer := ?_ }
        exact fun v hv => ((h.states id found hfound).answer v hv).mono hsub
      · exact fun other entry hlook => (h.cache other entry hlook).mono hsub
      · intro other found hfound
        exact (h.flights other found hfound).mono hsub fun old hold => ⟨old, hold, rfl⟩
      · exact fun r hr => ⟨(h.resolved r hr).1.mono hsub, (h.resolved r hr).2⟩
    have hkept : Sound (g.keepAnswer options flight state value validators now) :=
      hgrown.keep hget hkey hnew
    have hkeptFl : FlightSound
        (g.keepAnswer options flight state value validators now).answered
        (g.keepAnswer options flight state value validators now).heap key flight :=
      hsound.mono hsub (@keep_keys V options g flight state value validators now hget)
    simp only [State.settle, State.settleValue]
    split_ifs
    · exact hkept.endWith hkeptFl fun v hv => some.inj hv ▸ hnew
    · exact (hkept.publish state value now throwing).endWith hkeptFl (by simp)
    · exact (hkept.publish state value now throwing).endWith hkeptFl
        fun v hv => some.inj hv ▸ hnew
  | notModified validators =>
    simp only [State.settle]
    cases hvalue : state.answer <|> flight.held.value with
    | none => exact h.endWith hsound (by simp)
    | some value =>
      have hhas : Has g.answered key value := by
        cases hansw : state.answer with
        | some answer =>
          rw [hansw] at hvalue
          cases hvalue
          exact hkey ▸ hstate.answer _ hansw
        | none =>
          rw [hansw] at hvalue
          exact hsound.held value hvalue
      obtain ⟨hkept, hkeptFl⟩ := @hkeep value (validators <|> state.validators) hhas
      exact hkept.endWith hkeptFl fun v hv => some.inj hv ▸ hhas
  | backpressure =>
    simp only [State.settle]
    apply h.endWith hsound
    intro v hv
    split_ifs at hv
    apply hsound.held
    cases hheld : flight.held <;> simp_all [CacheRead.dated, CacheRead.value]
  | failure => exact h.endWith hsound (by simp)

lemma Sound.finish (h : Sound g) {ending : Option V} (hflight : g.inFlight.lookup key = some flight)
    (hend : flight.ending = some ending) : Sound (g.finish key flight ending) := by
  have hsound := h.flights key flight hflight
  have htak : Sound { g with
      inFlight := g.inFlight.erase key
      resolved := g.resolved ++ State.answers flight ending } := by
    refine { h with flights := ?_, resolved := ?_ }
    · intro other found hfound
      rw [JsMap.lookup_erase_eq] at hfound
      split_ifs at hfound
      exact h.flights other found hfound
    · intro r hr
      rcases mem_append.mp hr with hold | hnew
      · exact h.resolved r hold
      · cases ending with
        | none => cases hnew
        | some value =>
          obtain ⟨wait, hwait, rfl⟩ := mem_map.mp hnew
          obtain ⟨hkey, hnorm⟩ := hsound.waiting wait hwait
          refine ⟨?_, hnorm⟩
          rw [hkey]
          exact hsound.ending value hend
  unfold State.finish State.schedule
  split_ifs
  · exact htak
  · exact htak.frame (keepsLess_modify fun _ => rfl)

lemma sound_next [DecidableEq V] {step : GatewayStep V} (h : Sound g)
    (hnext : g.next options step = some g') : Sound g' := by
  cases step with
  | forProject authority credential =>
    obtain ⟨readers, rfl⟩ := forProject_cases hnext
    exact h.frame { KeepsLess.refl g with }
  | read reader request now =>
    obtain ⟨r, _, rfl⟩ := map_eq_some_iff.mp hnext
    unfold State.read
    cases hread : validateRead options.toLowerCase r.project request with
    | error error => exact h
    | ok read => exact h.readKey rfl (normal_of_validateRead hread)
  | refresh reader now =>
    obtain ⟨r, _, rfl⟩ := map_eq_some_iff.mp hnext
    exact h.refreshAll now
  | wake reader deliveryId now =>
    obtain ⟨r, _, rfl⟩ := map_eq_some_iff.mp hnext
    exact h.wake r deliveryId now
  | subscribe reader =>
    obtain ⟨r, _, rfl⟩ := map_eq_some_iff.mp hnext
    exact h.frame (keepsLess_subscribe g r)
  | unsubscribe id =>
    obtain ⟨subscription, _, rfl⟩ := map_eq_some_iff.mp hnext
    exact h.frame { KeepsLess.refl g with }
  | timer id now =>
    obtain ⟨state, _, _, rfl⟩ := timer_cases hnext
    have hquiet : KeepsLess g (g.modifyState id fun state => { state with armed := false }) :=
      keepsLess_modify fun _ => rfl
    exact (h.frame hquiet).refreshState id none now
  | answered key outcome now throwing =>
    obtain ⟨flight, state, hflight, hget, rfl⟩ := answered_cases hnext
    exact h.settle hflight hget
  | finished key =>
    obtain ⟨flight, ending, hflight, hend, rfl⟩ := finished_cases hnext
    exact h.finish hflight hend
  | close =>
    cases hnext
    exact h.frame (keepsLess_close g)

lemma sound_start : Sound ({} : State V) := by
  constructor
  · exact fun _ _ hget => nomatch hget
  · exact fun _ _ hlook => nomatch hlook
  · exact fun _ _ hlook => nomatch hlook
  · exact fun _ hr => nomatch hr

end

section
variable {V : Type*} {options : GatewayOptions}

/-- What the observers have been told. -/
structure Delivers (g : State V) : Prop where
  sets : ∀ subscription ∈ g.subscriptions, subscription.set < g.sets.length
  members : ∀ (set : ℕ) (ids : List ℕ), g.sets[set]? = some ids → ∀ id ∈ ids,
    ∃ subscription, g.subscriptions[id]? = some subscription ∧ subscription.set = set
  observed : ∀ scope set, g.observers.lookup scope = some set →
    set < g.sets.length ∧ ∀ subscription ∈ g.subscriptions, subscription.set = set →
      scopeKey subscription.project = scope
  distinct : ∀ scope scope' set, g.observers.lookup scope = some set →
    g.observers.lookup scope' = some set → scope = scope'
  scopes : ∀ subscription ∈ g.subscriptions, ∀ update ∈ subscription.delivered,
    update.projectId = subscription.project.projectId ∧
      update.credentialProfile = subscription.project.credentialProfile
  numbers : ∀ subscription ∈ g.subscriptions, subscription.delivered.IsChain fun update later =>
    later.sequence = update.sequence + 1
  latest : ∀ scope, ∀ id ∈ g.targets scope, ∀ subscription : Subscription V,
    g.subscriptions[id]? = some subscription → ∀ update ∈ subscription.delivered.getLast?,
        update.sequence = (g.sequences.lookup scope).getD 0

variable {g g' : State V}

lemma mem_targets {scope : Text} {id : ℕ} :
    id ∈ g.targets scope ↔ ∃ set ids, g.observers.lookup scope = some set ∧
      g.sets[set]? = some ids ∧ id ∈ ids := by
  unfold State.targets
  cases g.observers.lookup scope with
  | none => simp
  | some set =>
    cases hset : g.sets[set]? with
    | none => simp [hset]
    | some ids => simp [hset]

lemma Delivers.scope_of_target (h : Delivers g) {scope : Text} {id : ℕ}
    (hid : id ∈ g.targets scope) {subscription : Subscription V}
    (hget : g.subscriptions[id]? = some subscription) :
    scopeKey subscription.project = scope := by
  obtain ⟨set, ids, hobser, hset, hmem⟩ := mem_targets.mp hid
  obtain ⟨found, hfound, hsame⟩ := h.members set ids hset id hmem
  obtain rfl : subscription = found := some.inj (hget.symm.trans hfound)
  exact (h.observed scope set hobser).2 subscription (mem_of_getElem? hget) hsame

lemma Delivers.fewer (h : Delivers g) (hsets : g'.sets.length = g.sets.length)
    (hmemb : ∀ (set : ℕ) (ids : List ℕ), g'.sets[set]? = some ids →
      ∃ old, g.sets[set]? = some old ∧ ids ⊆ old)
    (hobserv : ∀ scope set, g'.observers.lookup scope = some set →
      g.observers.lookup scope = some set)
    (hseq : g'.sequences = g.sequences) (hsubscr : g'.subscriptions = g.subscriptions) :
    Delivers g' := by
  constructor
  · rw [hsubscr, hsets]
    exact h.sets
  · intro set ids hset id hid
    obtain ⟨old, hold, hsub⟩ := hmemb set ids hset
    rw [hsubscr]
    exact h.members set old hold id (hsub hid)
  · intro scope set hlook
    rw [hsubscr, hsets]
    exact h.observed scope set (hobserv scope set hlook)
  · intro scope scope' set hlook hlook'
    exact h.distinct scope scope' set (hobserv scope set hlook) (hobserv scope' set hlook')
  · rw [hsubscr]
    exact h.scopes
  · rw [hsubscr]
    exact h.numbers
  · intro scope id hid
    rw [hsubscr, hseq]
    obtain ⟨set, ids, hlook, hset, hmem⟩ := mem_targets.mp hid
    obtain ⟨old, hold, hsub⟩ := hmemb set ids hset
    exact h.latest scope id (mem_targets.mpr ⟨set, old, hobserv scope set hlook, hold, hsub hmem⟩)

lemma Delivers.frame (h : Delivers g) (hsets : g'.sets = g.sets)
    (hobserv : g'.observers = g.observers) (hseq : g'.sequences = g.sequences)
    (hsubscr : g'.subscriptions = g.subscriptions) : Delivers g' := by
  apply h.fewer (by rw [hsets]) ?_ ?_ hseq hsubscr
  · intro set ids hset
    rw [hsets] at hset
    exact ⟨ids, hset, List.Subset.refl _⟩
  · intro scope set hlook
    rwa [hobserv] at hlook

lemma Delivers.unsubscribe (h : Delivers g) (id : ℕ)
    (subscription : Subscription V) : Delivers (g.unsubscribe id subscription) := by
  apply h.fewer
  · exact length_modify ..
  · intro set ids hset
    simp only [State.unsubscribe, State.leave, getElem?_modify] at hset
    obtain ⟨old, hold, hids⟩ := map_eq_some_iff.mp hset
    refine ⟨old, hold, ?_⟩
    rw [← hids]
    split_ifs
    · exact erase_subset
    · exact List.Subset.refl _
  · intro scope set hlook
    simp only [State.unsubscribe] at hlook
    split_ifs at hlook
    · rw [JsMap.lookup_erase_eq] at hlook
      split_ifs at hlook
      exact hlook
    · exact hlook
  · rfl
  · rfl

lemma Delivers.close (h : Delivers g) : Delivers g.close := by
  apply h.fewer
  · rfl
  · exact fun set ids hset => ⟨ids, hset, List.Subset.refl _⟩
  · intro scope set hlook
    cases hlook
  · rfl
  · rfl

lemma Delivers.subscribed {g g' : State V} (h : Delivers g) {subscription : Subscription V}
    (hnew : subscription.delivered = [])
    (hsubscr : g'.subscriptions = g.subscriptions ++ [subscription])
    (hseq : g'.sequences = g.sequences) (hlong : g.sets.length ≤ g'.sets.length)
    (hset : subscription.set < g'.sets.length)
    (hmemb : ∀ (set : ℕ) (ids : List ℕ), g'.sets[set]? = some ids → ∀ id ∈ ids,
      (∃ old, g.sets[set]? = some old ∧ id ∈ old) ∨
        id = g.subscriptions.length ∧ subscription.set = set)
    (hobser : ∀ scope set, g'.observers.lookup scope = some set →
      set < g'.sets.length ∧ (g.observers.lookup scope = some set ∨
          ∀ old ∈ g.subscriptions, old.set ≠ set) ∧
        (subscription.set = set → scopeKey subscription.project = scope))
    (hdist : ∀ scope scope' set, g'.observers.lookup scope = some set →
      g'.observers.lookup scope' = some set → scope = scope') : Delivers g' := by
  have hget : ∀ {id : ℕ} {old : Subscription V}, g.subscriptions[id]? = some old →
      g'.subscriptions[id]? = some old := by
    intro id old hold
    obtain ⟨hlt, _⟩ := List.getElem?_eq_some_iff.mp hold
    rw [hsubscr]
    exact (getElem?_append_left hlt).trans hold
  have hcas : ∀ found ∈ g'.subscriptions, found ∈ g.subscriptions ∨ found = subscription := by
    intro found hfound
    rw [hsubscr] at hfound
    simpa using hfound
  constructor
  · intro found hfound
    rcases hcas found hfound with hold | rfl
    · exact (h.sets found hold).trans_le hlong
    · exact hset
  · intro set ids hids id hid
    rcases hmemb set ids hids id hid with ⟨old, hold, hmem⟩ | ⟨rfl, hsame⟩
    · obtain ⟨found, hfound, hsame⟩ := h.members set old hold id hmem
      exact ⟨found, hget hfound, hsame⟩
    · refine ⟨subscription, ?_, hsame⟩
      rw [hsubscr]
      exact getElem?_concat_length
  · intro scope set hlook
    obtain ⟨hlt, hold, hself⟩ := hobser scope set hlook
    refine ⟨hlt, ?_⟩
    intro found hfound hsame
    rcases hcas found hfound with hmem | rfl
    · rcases hold with hold | hnone
      · exact (h.observed scope set hold).2 found hmem hsame
      · exact absurd hsame (hnone found hmem)
    · exact hself hsame
  · exact hdist
  · intro found hfound
    rcases hcas found hfound with hold | rfl
    · exact h.scopes found hold
    · rw [hnew]
      simp
  · intro found hfound
    rcases hcas found hfound with hold | rfl
    · exact h.numbers found hold
    · rw [hnew]
      exact .nil
  · intro scope id hid found hfound update hupd
    rw [hseq]
    obtain ⟨set, ids, hlook, hids, hmem⟩ := mem_targets.mp hid
    rcases hmemb set ids hids id hmem with ⟨old, hold, holdM⟩ | ⟨rfl, hsame⟩
    · obtain ⟨known, hknown, hknownS⟩ := h.members set old hold id holdM
      obtain rfl : found = known := some.inj (hfound.symm.trans (hget hknown))
      obtain ⟨_, hobs, _⟩ := hobser scope set hlook
      rcases hobs with hobs | hnone
      · exact h.latest scope id (mem_targets.mpr ⟨set, old, hobs, hold, holdM⟩) found hknown
          update hupd
      · exact absurd hknownS (hnone found (mem_of_getElem? hknown))
    · rw [hsubscr, getElem?_concat_length] at hfound
      cases hfound
      rw [hnew] at hupd
      cases hupd

lemma Delivers.subscribe (h : Delivers g) (reader : ProjectReader) :
    Delivers (g.subscribe reader) := by
  unfold State.subscribe
  cases hobserv : g.observers.lookup (scopeKey reader.project) with
  | some set =>
    have hlt := (h.observed _ set hobserv).1
    have hlength : (g.sets.modify set fun ids => ids ++ [g.subscriptions.length]).length =
        g.sets.length := length_modify ..
    dsimp only
    apply @Delivers.subscribed V g _ h { project := reader.project, set }
    · rfl
    · rfl
    · rfl
    · exact hlength.ge
    · exact hlt.trans_eq hlength.symm
    · intro other ids hids id hid
      simp only [getElem?_modify] at hids
      obtain ⟨old, hold, hnew⟩ := map_eq_some_iff.mp hids
      rw [← hnew] at hid
      split_ifs at hid with heq
      · rcases mem_append.mp hid with hmem | hself
        · exact .inl ⟨old, hold, hmem⟩
        · exact .inr ⟨mem_singleton.mp hself, heq⟩
      · exact .inl ⟨old, hold, hid⟩
    · intro scope other hlook
      refine ⟨((h.observed scope other hlook).1).trans_eq hlength.symm, .inl hlook, ?_⟩
      intro hsame
      change set = other at hsame
      subst hsame
      exact h.distinct _ _ set hobserv hlook
    · exact h.distinct
  | none =>
    have hlength : (g.sets ++ [[g.subscriptions.length]]).length = g.sets.length + 1 := by
      simp
    have hlook : ∀ scope, (g.observers.set (scopeKey reader.project) g.sets.length).lookup
        scope = if scope = scopeKey reader.project then some g.sets.length else
          g.observers.lookup scope := JsMap.lookup_set _ _ _
    dsimp only
    apply @Delivers.subscribed V g _ h { project := reader.project, set := g.sets.length }
    · rfl
    · rfl
    · rfl
    · exact hlength ▸ Nat.le_succ _
    · exact hlength ▸ Nat.lt_succ_self _
    · intro other ids hids id hid
      rcases lt_or_ge other g.sets.length with hlt | hge
      · rw [getElem?_append_left hlt] at hids
        exact .inl ⟨ids, hids, hid⟩
      · rw [getElem?_append_right hge, getElem?_singleton] at hids
        split_ifs at hids with hzero
        cases hids
        exact .inr ⟨mem_singleton.mp hid, by change g.sets.length = other; omega⟩
    · intro scope other hfound
      rw [hlook] at hfound
      split_ifs at hfound with heq
      · cases hfound
        refine ⟨hlength ▸ Nat.lt_succ_self _, .inr fun old hold => ?_, fun _ => heq.symm⟩
        exact (h.sets old hold).ne
      · have hlt := (h.observed scope other hfound).1
        refine ⟨hlength ▸ hlt.trans (Nat.lt_succ_self _), .inl hfound, fun hsame => ?_⟩
        change g.sets.length = other at hsame
        omega
    · intro scope scope' other hfound hfound'
      rw [hlook] at hfound hfound'
      split_ifs at hfound hfound' with heq heq' heq'
      · rw [heq, heq']
      · cases hfound
        exact absurd (h.observed scope' _ hfound').1 (lt_irrefl _)
      · cases hfound'
        exact absurd (h.observed scope _ hfound).1 (lt_irrefl _)
      · exact h.distinct scope scope' other hfound hfound'

lemma Delivers.publish (h : Delivers g) {state : RefreshState V}
    (hscope : state.scope = scopeKey state.project) (value : V) (now : Text) :
    Delivers (g.publish state value now none) := by
  have hget : ∀ id : ℕ, (g.publish state value now none).subscriptions[id]? =
      (g.subscriptions[id]?).map fun subscription =>
        if id ∈ g.targets state.scope then
          { subscription with
            delivered := subscription.delivered ++ [g.update state value now] }
        else subscription := by
    intro id
    exact getElem?_mapIdx
  have hold : ∀ {id : ℕ} {found : Subscription V},
      (g.publish state value now none).subscriptions[id]? = some found →
      ∃ old, g.subscriptions[id]? = some old ∧ found.project = old.project ∧ found.set = old.set ∧
        found.delivered = old.delivered ++
          if id ∈ g.targets state.scope then [g.update state value now] else [] := by
    intro id found hfound
    rw [hget] at hfound
    obtain ⟨old, hold, hnew⟩ := map_eq_some_iff.mp hfound
    refine ⟨old, hold, ?_⟩
    subst hnew
    split_ifs
    · exact ⟨rfl, rfl, rfl⟩
    · exact ⟨rfl, rfl, (append_nil _).symm⟩
  have hmem : ∀ found ∈ (g.publish state value now none).subscriptions, ∃ id old,
      g.subscriptions[id]? = some old ∧ found.project = old.project ∧ found.set = old.set ∧
        found.delivered = old.delivered ++
          if id ∈ g.targets state.scope then [g.update state value now] else [] := by
    intro found hfound
    obtain ⟨id, hid⟩ := mem_iff_getElem?.mp hfound
    exact ⟨id, hold hid⟩
  have hseq : ∀ scope, (g.publish state value now none).sequences.lookup scope =
      if scope = state.scope then some (g.nextSequence state.scope) else g.sequences.lookup scope :=
    JsMap.lookup_set _ _ _
  constructor
  · intro found hfound
    obtain ⟨id, old, hget', _, hset, _⟩ := hmem found hfound
    rw [hset]
    exact h.sets old (mem_of_getElem? hget')
  · intro set ids hset id hid
    obtain ⟨old, hget', hsame⟩ := h.members set ids hset id hid
    rw [hget, hget']
    refine ⟨_, rfl, ?_⟩
    split_ifs
    · exact hsame
    · exact hsame
  · intro scope set hlook
    obtain ⟨hlt, hall⟩ := h.observed scope set hlook
    refine ⟨hlt, ?_⟩
    intro found hfound hsame
    obtain ⟨id, old, hget', hproj, hset, _⟩ := hmem found hfound
    rw [hproj]
    exact hall old (mem_of_getElem? hget') (hset.symm.trans hsame)
  · exact h.distinct
  · intro found hfound update hupd
    obtain ⟨id, old, hget', hproj, _, hdeliv⟩ := hmem found hfound
    rw [hproj]
    rw [hdeliv] at hupd
    rcases mem_append.mp hupd with hbef | hnow
    · exact h.scopes old (mem_of_getElem? hget') update hbef
    · split_ifs at hnow with htarg
      · obtain rfl := mem_singleton.mp hnow
        have hsame := h.scope_of_target htarg hget'
        exact eq_of_scopeKey (hscope.symm.trans hsame.symm)
      · cases hnow
  · intro found hfound
    obtain ⟨id, old, hget', _, _, hdeliv⟩ := hmem found hfound
    rw [hdeliv]
    have hchain := h.numbers old (mem_of_getElem? hget')
    split_ifs with htarg
    · apply hchain.append (isChain_singleton _)
      intro last hlast update hupd
      cases hupd
      have hlat := h.latest state.scope id htarg old hget' last hlast
      rw [hlat]
      rfl
    · rw [append_nil]
      exact hchain
  · intro scope id hid found hfound update hupd
    change id ∈ g.targets scope at hid
    obtain ⟨old, hget', _, _, hdeliv⟩ := hold hfound
    rw [hdeliv] at hupd
    rw [hseq]
    by_cases heq : scope = state.scope
    · rw [if_pos (heq ▸ hid), getLast?_concat] at hupd
      cases hupd
      rw [if_pos heq]
      rfl
    · have hoth : id ∉ g.targets state.scope := by
        intro htarg
        exact heq ((h.scope_of_target hid hget').symm.trans (h.scope_of_target htarg hget'))
      rw [if_neg hoth, append_nil] at hupd
      rw [if_neg heq]
      exact h.latest scope id hid old hget' update hupd

/-- Nobody is told, subscribes or leaves. -/
structure Quiet (g g' : State V) : Prop where
  sets : g'.sets = g.sets
  observers : g'.observers = g.observers
  sequences : g'.sequences = g.sequences
  subscriptions : g'.subscriptions = g.subscriptions

lemma Quiet.refl (g : State V) : Quiet g g := ⟨rfl, rfl, rfl, rfl⟩

lemma Quiet.trans {g'' : State V} (h : Quiet g g') (h' : Quiet g' g'') : Quiet g g'' where
  sets := h'.sets.trans h.sets
  observers := h'.observers.trans h.observers
  sequences := h'.sequences.trans h.sequences
  subscriptions := h'.subscriptions.trans h.subscriptions

lemma Delivers.quiet (h : Delivers g) (hquiet : Quiet g g') : Delivers g' :=
  h.frame hquiet.sets hquiet.observers hquiet.sequences hquiet.subscriptions

lemma quiet_refreshState (g : State V) (id : ℕ) (startedBy : Option ProjectReader) (now : Text) :
    Quiet g (g.refreshState options id startedBy now) := by
  rcases refreshState_cases options g id startedBy now with hsame | ⟨state, _, _, hcall⟩
  · rw [hsame]
    exact .refl g
  · rw [hcall]
    exact ⟨rfl, rfl, rfl, rfl⟩

lemma quiet_refreshAll (ids : List ℕ) (g : State V) (now : Text) :
    Quiet g (ids.foldl (fun g id => g.refreshState options id none now) g) := by
  induction ids generalizing g with
  | nil => exact .refl g
  | cons id ids ih => exact (quiet_refreshState g id none now).trans (ih _)

lemma quiet_wake (g : State V) (reader : ProjectReader) (deliveryId now : Text) :
    Quiet g (g.wake options reader deliveryId now) := by
  unfold State.wake
  split_ifs
  · exact .refl g
  · exact .refl g
  · apply Quiet.trans ?_ (quiet_refreshAll _ _ now)
    exact ⟨rfl, rfl, rfl, rfl⟩

lemma quiet_join (g : State V) (key : Text) (reader : ProjectReader) (read : Read) :
    Quiet g (g.join key reader read) := by
  unfold State.join
  cases g.inFlight.lookup key with
  | none => exact .refl g
  | some flight => exact ⟨rfl, rfl, rfl, rfl⟩

lemma quiet_trimStates (n : ℕ) (g : State V) : Quiet g (g.trimStates options n) := by
  induction n generalizing g with
  | zero => exact .refl g
  | succ n ih =>
    unfold State.trimStates
    split_ifs
    · split
      · exact .refl g
      · apply Quiet.trans ?_ (ih _)
        exact ⟨rfl, rfl, rfl, rfl⟩
    · exact .refl g

lemma quiet_readKey (g : State V) (reader : ProjectReader) (read : Read) (key now : Text) :
    Quiet g (g.readKey options reader read key now) := by
  have hmissed : Quiet g (g.readMissed options reader read key now) := by
    unfold State.readMissed
    cases g.inFlight.lookup key with
    | some flight => exact quiet_join g key reader read
    | none =>
      cases g.states.lookup key with
      | some id => exact (quiet_refreshState g id _ now).trans (quiet_join _ _ _ _)
      | none =>
        have hadd : Quiet g (g.addTrimmed options key reader read) := by
          apply Quiet.trans ?_ (quiet_trimStates _ _)
          exact ⟨rfl, rfl, rfl, rfl⟩
        exact (hadd.trans (quiet_refreshState _ _ _ now)).trans (quiet_join _ _ _ _)
  unfold State.readKey
  cases g.cache.read options key now with
  | fresh value => exact ⟨rfl, rfl, rfl, rfl⟩
  | miss => exact hmissed
  | undated value => exact hmissed
  | stale value => exact hmissed

lemma quiet_finish (g : State V) (key : Text) (flight : Flight V) (ending : Option V) :
    Quiet g (g.finish key flight ending) := by
  unfold State.finish State.schedule
  split_ifs
  · exact ⟨rfl, rfl, rfl, rfl⟩
  · exact ⟨rfl, rfl, rfl, rfl⟩

lemma Delivers.settle [DecidableEq V] (h : Delivers g) {key : Text}
    {flight : Flight V} {state : RefreshState V} (hscope : state.scope = scopeKey state.project)
    (outcome : UpstreamOutcome V) (now : Text) :
    Delivers (g.settle options key flight state outcome now none) := by
  cases outcome with
  | value value validators =>
    have hkept : Delivers (g.keepAnswer options flight state value validators now) :=
      h.quiet ⟨rfl, rfl, rfl, rfl⟩
    simp only [State.settle, State.settleValue]
    split_ifs
    · exact hkept.quiet ⟨rfl, rfl, rfl, rfl⟩
    · exact (hkept.publish hscope value now).quiet ⟨rfl, rfl, rfl, rfl⟩
    · exact (hkept.publish hscope value now).quiet ⟨rfl, rfl, rfl, rfl⟩
  | notModified validators =>
    simp only [State.settle]
    cases state.answer <|> flight.held.value with
    | none => exact h.quiet ⟨rfl, rfl, rfl, rfl⟩
    | some value => exact h.quiet ⟨rfl, rfl, rfl, rfl⟩
  | backpressure => exact h.quiet ⟨rfl, rfl, rfl, rfl⟩
  | failure => exact h.quiet ⟨rfl, rfl, rfl, rfl⟩

end

section
variable {V : Type*} {options : GatewayOptions}

/-- A call that a read starts uses the credential of its reader. -/
def OwnCalls (calls : List UpstreamCall) : Prop :=
  ∀ call ∈ calls, ∀ reader, call.startedBy = some reader → call.credential = reader.credential

variable {g : State V}

lemma OwnCalls.refreshState (h : OwnCalls g.calls) {id : ℕ} {startedBy : Option ProjectReader}
    (hown : ∀ (state : RefreshState V) (reader : ProjectReader), g.heap[id]? = some state →
      startedBy = some reader → state.credential = reader.credential) (now : Text) :
    OwnCalls (g.refreshState options id startedBy now).calls := by
  rcases refreshState_cases options g id startedBy now with hsame | ⟨state, hget, _, hcall⟩
  · rw [hsame]
    exact h
  · rw [hcall]
    intro call hmem reader hreader
    rcases mem_append.mp hmem with hold | hnew
    · exact h call hold reader hreader
    · obtain rfl := mem_singleton.mp hnew
      exact hown state reader hget hreader

lemma OwnCalls.unasked (h : OwnCalls g.calls) (id : ℕ) (now : Text) :
    OwnCalls (g.refreshState options id none now).calls := by
  apply h.refreshState
  intro state reader _ hnone
  cases hnone

lemma OwnCalls.refreshAll {ids : List ℕ} (h : OwnCalls g.calls) (now : Text) :
    OwnCalls (ids.foldl (fun g id => g.refreshState options id none now) g).calls := by
  induction ids generalizing g with
  | nil => exact h
  | cons id ids ih => exact ih (h.unasked id now)

lemma OwnCalls.wake (h : OwnCalls g.calls) (reader : ProjectReader)
    (deliveryId now : Text) : OwnCalls (g.wake options reader deliveryId now).calls := by
  unfold State.wake
  split_ifs
  · exact h
  · exact h
  · apply OwnCalls.refreshAll
    exact h

@[simp] lemma calls_join (g : State V) (key : Text) (reader : ProjectReader) (read : Read) :
    (g.join key reader read).calls = g.calls := by
  unfold State.join
  cases g.inFlight.lookup key <;> rfl

lemma trimStates_credentials (n : ℕ) (g : State V) :
    (g.trimStates options n).calls = g.calls ∧ ∀ id : ℕ,
      ((g.trimStates options n).heap[id]?).map RefreshState.credential =
        (g.heap[id]?).map RefreshState.credential := by
  induction n generalizing g with
  | zero => exact ⟨rfl, fun _ => rfl⟩
  | succ n ih =>
    unfold State.trimStates
    split_ifs
    · split
      · exact ⟨rfl, fun _ => rfl⟩
      · next key id _ =>
          obtain ⟨hcalls, hheap⟩ := ih (g.drop key id)
          refine ⟨hcalls, fun other => (hheap other).trans ?_⟩
          simp only [State.drop, State.modifyState, getElem?_modify]
          cases g.heap[other]? with
          | none => rfl
          | some state =>
            simp only [map_some]
            split_ifs <;> rfl
    · exact ⟨rfl, fun _ => rfl⟩

/-- A read that starts the call of a state that is there has the credential of the state. -/
def FindsOwn (options : GatewayOptions) (g : State V) (reader : ProjectReader)
    (key now : Text) : Prop :=
  (g.cache.read options key now).isFresh = false → g.inFlight.lookup key = none →
    ∀ (id : ℕ) (state : RefreshState V), g.states.lookup key = some id →
      g.heap[id]? = some state → state.credential = reader.credential

lemma OwnCalls.readKey (h : OwnCalls g.calls) {reader : ProjectReader}
    {read : Read} {key now : Text} (hown : FindsOwn options g reader key now) :
    OwnCalls (g.readKey options reader read key now).calls := by
  have hmissed (hmiss : (g.cache.read options key now).isFresh = false) :
      OwnCalls (g.readMissed options reader read key now).calls := by
    unfold State.readMissed
    cases hflight : g.inFlight.lookup key with
    | some flight =>
      rw [calls_join]
      exact h
    | none =>
      cases hstate : g.states.lookup key with
      | some id =>
        rw [calls_join]
        apply h.refreshState
        intro state starter hget hstart
        cases hstart
        exact hown hmiss hflight id state hstate hget
      | none =>
        rw [calls_join]
        obtain ⟨hcalls, hheap⟩ := @trimStates_credentials V options
          (g.addState key reader read).states.entries.length (g.addState key reader read)
        have hadd : OwnCalls (g.addTrimmed options key reader read).calls := by
          change OwnCalls (State.trimStates options _ _).calls
          rw [hcalls]
          exact h
        apply hadd.refreshState
        intro state starter hget hstart
        cases hstart
        have hcred := hheap g.heap.length
        change (g.addTrimmed options key reader read).heap[g.heap.length]? = some state at hget
        change ((g.addTrimmed options key reader read).heap[g.heap.length]?).map _ = _
          at hcred
        rw [hget, State.addState, getElem?_concat_length] at hcred
        exact some.inj hcred
  unfold State.readKey
  cases hread : g.cache.read options key now with
  | fresh value => exact h
  | _ => exact hmissed (by rw [hread]; rfl)

@[simp] lemma calls_settle [DecidableEq V] (g : State V) (key : Text) (flight : Flight V)
    (state : RefreshState V) (outcome : UpstreamOutcome V) (now : Text) (throwing : Option ℕ) :
    (g.settle options key flight state outcome now throwing).calls = g.calls := by
  cases outcome with
  | value value validators =>
    simp only [State.settle, State.settleValue]
    split_ifs <;> rfl
  | notModified validators =>
    simp only [State.settle]
    cases state.answer <|> flight.held.value <;> rfl
  | backpressure => rfl
  | failure => rfl

@[simp] lemma calls_finish (g : State V) (key : Text) (flight : Flight V) (ending : Option V) :
    (g.finish key flight ending).calls = g.calls := by
  unfold State.finish State.schedule
  split_ifs <;> rfl

@[simp] lemma calls_subscribe (g : State V) (reader : ProjectReader) :
    (g.subscribe reader).calls = g.calls := by
  unfold State.subscribe
  cases g.observers.lookup (scopeKey reader.project) <;> rfl

end

section
variable {V : Type*} {options : GatewayOptions}

/-- A read finds no state of another credential for its key, and no observer throws. -/
def KeepsCredentials (options : GatewayOptions) (g : State V) : GatewayStep V → Prop
  | .read reader request now =>
    match g.readers[reader]? with
    | none => True
    | some reader =>
      match validateRead options.toLowerCase reader.project request with
      | .error _ => True
      | .ok read => FindsOwn options g reader (cacheKey reader.project read) now
  | .answered _ _ _ throwing => throwing = none
  | _ => True

structure Serving (g : State V) : Prop where
  sound : Sound g
  delivers : Delivers g
  calls : OwnCalls g.calls

lemma serving_next [DecidableEq V] {g g' : State V} {step : GatewayStep V} (h : Serving g)
    (hok : KeepsCredentials options g step) (hnext : g.next options step = some g') :
    Serving g' := by
  obtain ⟨hsound, hdel, hcalls⟩ := h
  suffices hrest : Delivers g' ∧ OwnCalls g'.calls from
    ⟨sound_next hsound hnext, hrest.1, hrest.2⟩
  cases step with
  | forProject authority credential =>
    obtain ⟨readers, rfl⟩ := forProject_cases hnext
    exact ⟨hdel.quiet ⟨rfl, rfl, rfl, rfl⟩, hcalls⟩
  | read reader request now =>
    obtain ⟨r, hreader, rfl⟩ := map_eq_some_iff.mp hnext
    simp only [KeepsCredentials, hreader] at hok
    unfold State.read
    cases hread : validateRead options.toLowerCase r.project request with
    | error error => exact ⟨hdel, hcalls⟩
    | ok read =>
      simp only [hread] at hok
      exact ⟨hdel.quiet (quiet_readKey g r read _ now), hcalls.readKey hok⟩
  | refresh reader now =>
    obtain ⟨r, _, rfl⟩ := map_eq_some_iff.mp hnext
    exact ⟨hdel.quiet (quiet_refreshAll _ g now), hcalls.refreshAll now⟩
  | wake reader deliveryId now =>
    obtain ⟨r, _, rfl⟩ := map_eq_some_iff.mp hnext
    exact ⟨hdel.quiet (quiet_wake g r deliveryId now), hcalls.wake r deliveryId now⟩
  | subscribe reader =>
    obtain ⟨r, _, rfl⟩ := map_eq_some_iff.mp hnext
    refine ⟨hdel.subscribe r, ?_⟩
    rw [calls_subscribe]
    exact hcalls
  | unsubscribe id =>
    obtain ⟨subscription, _, rfl⟩ := map_eq_some_iff.mp hnext
    exact ⟨hdel.unsubscribe id subscription, hcalls⟩
  | timer id now =>
    obtain ⟨state, _, _, rfl⟩ := timer_cases hnext
    constructor
    · apply hdel.quiet
      apply Quiet.trans ?_ (quiet_refreshState _ id none now)
      exact ⟨rfl, rfl, rfl, rfl⟩
    · apply OwnCalls.unasked
      exact hcalls
  | answered key outcome now throwing =>
    obtain rfl : throwing = none := hok
    obtain ⟨flight, state, _, hget, rfl⟩ := answered_cases hnext
    refine ⟨hdel.settle (hsound.states _ state hget).scope outcome now, ?_⟩
    rw [calls_settle]
    exact hcalls
  | finished key =>
    obtain ⟨flight, ending, _, _, rfl⟩ := finished_cases hnext
    refine ⟨hdel.quiet (quiet_finish g key flight ending), ?_⟩
    rw [calls_finish]
    exact hcalls
  | close =>
    cases hnext
    exact ⟨hdel.close, hcalls⟩

lemma serving_start : Serving ({} : State V) where
  sound := sound_start
  delivers := by
    constructor
    · exact fun _ h => nomatch h
    · exact fun _ _ h => nomatch h
    · exact fun _ _ h => nomatch h
    · exact fun _ _ _ h => nomatch h
    · exact fun _ h => nomatch h
    · exact fun _ h => nomatch h
    · exact fun _ _ h => nomatch h
  calls := fun _ h => nomatch h

/-- A read is answered with what the upstream answered for its project, its profile and itself. -/
structure ServesScope (g : State V) : Prop where
  answered : ∀ r ∈ g.resolved, ∃ answer ∈ g.answered,
    answer.project.projectId = r.reader.project.projectId ∧
      answer.project.credentialProfile = r.reader.project.credentialProfile ∧
      answer.read = r.read ∧ answer.value = r.value
  credential : ∀ call ∈ g.calls, ∀ reader, call.startedBy = some reader →
    call.credential = reader.credential
  scope : ∀ subscription ∈ g.subscriptions, ∀ update ∈ subscription.delivered,
    update.projectId = subscription.project.projectId ∧
      update.credentialProfile = subscription.project.credentialProfile
  numbers : ∀ subscription ∈ g.subscriptions, subscription.delivered.IsChain fun update later =>
    later.sequence = update.sequence + 1

lemma Serving.servesScope {g : State V} (h : Serving g) : ServesScope g where
  answered := by
    intro r hr
    obtain ⟨⟨answer, hmem, hkey, hnorm, hvalue⟩, hread⟩ := h.sound.resolved r hr
    obtain ⟨hid, hprof, hsame⟩ := eq_of_cacheKey hkey hnorm hread
    exact ⟨answer, hmem, hid, hprof, hsame, hvalue⟩
  credential := h.calls
  scope := h.delivers.scopes
  numbers := h.delivers.numbers

/-- While every reader keeps its credential, reads and updates stay within the reader's scope. -/
theorem reads_serve_scope [DecidableEq V] {g : State V}
    (h : (gateway options).Reach (KeepsCredentials options) g) : ServesScope g := by
  have hserv : Serving g := by
    apply h.inv Serving
    · rintro g rfl
      exact serving_start
    · exact fun _ _ _ hserv hok hnext => serving_next hserv hok hnext
  exact hserv.servesScope

end

section

def later : Text := "1970-01-01T00:02:00.000Z".toList

/-- Two minutes are between the two times. -/
def laterLocale : Locale where
  dateParse t := if t = start then some 0 else if t = later then some 120000 else none
  localeCompare a b := if Text.utf16Lt a b then .lt else if a = b then .eq else .gt

def freshForMinute : GatewayOptions where
  locale := laterLocale
  toLowerCase := asciiLower
  freshMs := 60000
  capacity := 1
  capacity_pos := Nat.one_pos

def newToken : Credential := ⟨"u".toList⟩

def findsNone (g : State ℕ) : GatewayStep ℕ → Bool
  | .read _ _ _ => g.states.entries.isEmpty
  | .answered _ _ _ throwing => throwing.isNone
  | _ => true

lemma keepsCredentials_of_findsNone {g : State ℕ} {step : GatewayStep ℕ}
    (h : findsNone g step = true) : KeepsCredentials freshForMinute g step := by
  cases step with
  | read reader request now =>
    simp only [findsNone, List.isEmpty_iff] at h
    have hnone : ∀ key, g.states.lookup key = none := by
      intro key
      change List.dlookup key g.states.entries = none
      rw [h]
      rfl
    simp only [KeepsCredentials]
    cases g.readers[reader]? with
    | none => trivial
    | some r =>
      dsimp only
      cases validateRead freshForMinute.toLowerCase r.project request with
      | error error => trivial
      | ok read =>
        intro _ _ id state hlook
        rw [hnone] at hlook
        cases hlook
  | answered key outcome now throwing => exact isNone_iff_eq_none.mp h
  | _ => trivial

def served (g : State ℕ) : List ℕ × List (List ℕ) :=
  (g.resolved.map (·.value), g.subscriptions.map fun subscription =>
    subscription.delivered.map (·.sequence))

theorem one_read_is_served : ∃ g : State ℕ, served g = ([7], [[1, 2]]) ∧ ServesScope g := by
  have hrun : ((gateway freshForMinute).execIf findsNone ({} : State ℕ)
      ([.forProject octo token, .subscribe 0, .read 0 issues start] ++ answered issues ++
        [.timer 0 later, .answered (cacheKey octo issues) (.value 8 none) later none,
          .finished (cacheKey octo issues)])).map served = some ([7], [[1, 2]]) := by
    decide +kernel
  obtain ⟨g, hexec, hserved⟩ := map_eq_some_iff.mp hrun
  have hguard := (Machine.run_of_execIf hexec).mono fun _ _ => keepsCredentials_of_findsNone
  exact ⟨g, hserved, reads_serve_scope ⟨{}, _, rfl, hguard⟩⟩

def secrets (call : UpstreamCall) : Text × Option Text :=
  (call.credential.secret, call.startedBy.map (·.credential.secret))

/-- The project is bound again with a new secret, and reads with the old one. -/
theorem old_secret_is_used :
    ¬ ∀ g : State ℕ, (gateway freshForMinute).Reach anyStep g → ServesScope g := by
  intro hall
  have hrun : ((gateway freshForMinute).exec ({} : State ℕ)
      ([.forProject octo token, .read 0 issues start] ++ answered issues ++
        [.forProject octo newToken, .read 1 issues later])).map (fun g => g.calls.map secrets) =
          some [("t".toList, some "t".toList), ("t".toList, some "u".toList)] := by
    decide +kernel
  obtain ⟨g, hexec, hsecre⟩ := map_eq_some_iff.mp hrun
  have hserves := hall g (Machine.reach_of_exec (M := gateway freshForMinute) rfl hexec)
  have hmem : (("t".toList, some "u".toList) : Text × Option Text) ∈ g.calls.map secrets := by
    rw [hsecre]
    decide
  obtain ⟨call, hcall, hsame⟩ := mem_map.mp hmem
  obtain ⟨hsecr, hstarted⟩ := Prod.mk.inj hsame
  obtain ⟨reader, hreader, hown⟩ := map_eq_some_iff.mp hstarted
  have hcred := hserves.credential call hcall reader hreader
  rw [hcred, hown] at hsecr
  exact absurd hsecr (by decide)

end

end Redskilled.Github.Gateway
