import Redskilled.Github.ReadGateway

/-!
# The timers of the gateway

An armed timer belongs to a state that the gateway holds for its key, as long as no state
is dropped while its call is in flight. The states are bounded, so the timers are too, and
no key has two of them. A gateway that is closed starts no call unless it is read anew.
-/
namespace Redskilled.Github.Gateway
open Foundation List Option

section
variable {V : Type*} {options : GatewayOptions} {bound : ℕ}

/-- What the timers depend on. -/
structure Polled (bound : ℕ) (g : State V) : Prop where
  bounded : g.states.entries.length ≤ bound
  emptied : g.closed = true → ∀ key, g.states.lookup key = none
  held : ∀ key id, g.states.lookup key = some id →
    ∃ state, g.heap[id]? = some state ∧ state.key = key
  armed : ∀ id state, g.heap[id]? = some state → state.armed = true →
    g.states.lookup state.key = some id
  flights : ∀ key flight, g.inFlight.lookup key = some flight →
    ∃ state, g.heap[flight.state]? = some state ∧ state.key = key ∧
      (g.closed = false → g.states.lookup key = some flight.state)
  calls : ∀ call ∈ g.calls, call.afterClose = false

/-- What of a state matters for its timer. -/
def RefreshState.polling (state : RefreshState V) : Text × Bool := (state.key, state.armed)

/-- Nothing changes for the timers. -/
structure SamePolling (g g' : State V) : Prop where
  heap : ∀ id : ℕ, (g'.heap[id]?).map RefreshState.polling = (g.heap[id]?).map RefreshState.polling
  states : g'.states = g.states
  closed : g'.closed = g.closed
  calls : g'.calls = g.calls
  flights : ∀ key flight', g'.inFlight.lookup key = some flight' →
    ∃ flight, g.inFlight.lookup key = some flight ∧ flight.state = flight'.state

lemma SamePolling.refl (g : State V) : SamePolling g g :=
  ⟨fun _ => rfl, rfl, rfl, rfl, fun _ flight h => ⟨flight, h, rfl⟩⟩

variable {flight : Flight V} {g g' : State V} {id : ℕ} {key : Text} {rest : List (Σ _ : Text, ℕ)}
  {state : RefreshState V}

lemma SamePolling.trans {g'' : State V} (h : SamePolling g g') (h' : SamePolling g' g'') :
    SamePolling g g'' where
  heap id := (h'.heap id).trans (h.heap id)
  states := h'.states.trans h.states
  closed := h'.closed.trans h.closed
  calls := h'.calls.trans h.calls
  flights := by
    intro key flight'' hfound
    obtain ⟨flight', hfound', hsame'⟩ := h'.flights key flight'' hfound
    obtain ⟨flight, hfound'', hsame⟩ := h.flights key flight' hfound'
    exact ⟨flight, hfound'', hsame.trans hsame'⟩

lemma SamePolling.get (h : SamePolling g g') {state' : RefreshState V}
    (hget : g'.heap[id]? = some state') :
    ∃ state, g.heap[id]? = some state ∧ state.key = state'.key ∧ state.armed = state'.armed := by
  have hheap := h.heap id
  rw [hget] at hheap
  cases hold : g.heap[id]? with
  | none => simp [hold] at hheap
  | some state =>
    simp only [hold, map_some, some.injEq, RefreshState.polling, Prod.mk.injEq] at hheap
    exact ⟨state, rfl, hheap.1.symm, hheap.2.symm⟩

lemma SamePolling.get' (h : SamePolling g g') (hget : g.heap[id]? = some state) :
    ∃ state', g'.heap[id]? = some state' ∧ state'.key = state.key := by
  have hheap := h.heap id
  rw [hget] at hheap
  cases hnew : g'.heap[id]? with
  | none => simp [hnew] at hheap
  | some state' =>
    simp only [hnew, map_some, some.injEq, RefreshState.polling, Prod.mk.injEq] at hheap
    exact ⟨state', rfl, hheap.1⟩

lemma Polled.frame (h : Polled bound g) (hsame : SamePolling g g') : Polled bound g' where
  bounded := hsame.states ▸ h.bounded
  emptied := by
    rw [hsame.closed, hsame.states]
    exact h.emptied
  held := by
    intro key id hlook
    rw [hsame.states] at hlook
    obtain ⟨state, hget, hkey⟩ := h.held key id hlook
    obtain ⟨state', hget', hkey'⟩ := hsame.get' hget
    exact ⟨state', hget', hkey'.trans hkey⟩
  armed := by
    intro id state' hget harm
    obtain ⟨state, hget', hkey, harm'⟩ := hsame.get hget
    rw [hsame.states, ← hkey]
    exact h.armed id state hget' (harm'.trans harm)
  flights := by
    intro key flight' hfound
    obtain ⟨flight, hfound', hstate⟩ := hsame.flights key flight' hfound
    obtain ⟨state, hget, hkey, hheld⟩ := h.flights key flight hfound'
    obtain ⟨state', hget', hkey'⟩ := hsame.get' hget
    rw [hsame.closed, hsame.states, ← hstate]
    exact ⟨state', hget', hkey'.trans hkey, hheld⟩
  calls := hsame.calls ▸ h.calls

lemma samePolling_modify {change : RefreshState V → RefreshState V}
    (hchange : ∀ state, (change state).polling = state.polling) :
    SamePolling g (g.modifyState id change) where
  heap := by
    intro other
    simp only [State.modifyState, getElem?_modify]
    cases g.heap[other]? with
    | none => rfl
    | some state =>
      split_ifs
      · exact congrArg some (hchange state)
      · rfl
  states := rfl
  closed := rfl
  calls := rfl
  flights := fun _ flight h => ⟨flight, h, rfl⟩

lemma samePolling_flight {flight' : Flight V}
    (hfound : g.inFlight.lookup key = some flight) (hstate : flight.state = flight'.state) :
    SamePolling g { g with inFlight := g.inFlight.set key flight' } where
  heap := fun _ => rfl
  states := rfl
  closed := rfl
  calls := rfl
  flights := by
    intro other found hlook
    rw [JsMap.lookup_set] at hlook
    split_ifs at hlook with heq
    · cases hlook
      exact ⟨flight, heq ▸ hfound, hstate⟩
    · exact ⟨found, hlook, rfl⟩

lemma samePolling_join (g : State V) (key : Text) (reader : ProjectReader) (read : Read) :
    SamePolling g (g.join key reader read) := by
  unfold State.join
  cases hfound : g.inFlight.lookup key with
  | none => exact .refl g
  | some flight => exact samePolling_flight hfound rfl

lemma samePolling_keep {g : State V} {flight : Flight V} {state : RefreshState V} {value : V}
    {validators : Option Validators} {now : Text} :
    SamePolling g (g.keep options flight state value validators now) := by
  have hsame : SamePolling g (g.modifyState flight.state fun state =>
      { state with answer := some value, validators }) := samePolling_modify fun _ => rfl
  exact { hsame with }

lemma samePolling_subscribe (g : State V) (reader : ProjectReader) :
    SamePolling g (g.subscribe reader) := by
  unfold State.subscribe
  cases g.observers.lookup (scopeKey reader.project) <;> exact { SamePolling.refl g with }

lemma samePolling_settle [DecidableEq V]
    {outcome : UpstreamOutcome V} {now : Text} {throwing : Option ℕ}
    (hfound : g.inFlight.lookup key = some flight) :
    SamePolling g (g.settle options key flight state outcome now throwing) := by
  cases outcome with
  | value value validators =>
    have hkept : SamePolling g (g.keepAnswer options flight state value validators now) :=
      { @samePolling_keep V options g flight state value validators now with }
    simp only [State.settle, State.settleValue]
    by_cases hsame : state.answer = some value
    · rw [if_pos hsame]
      exact hkept.trans (samePolling_flight hfound rfl)
    · rw [if_neg hsame]
      have hpubl : SamePolling (g.keepAnswer options flight state value validators now)
          ((g.keepAnswer options flight state value validators now).publish state value now
            throwing) := { SamePolling.refl _ with }
      exact (hkept.trans hpubl).trans (samePolling_flight hfound rfl)
  | notModified validators =>
    simp only [State.settle]
    cases state.answer <|> flight.held.value with
    | none => exact samePolling_flight hfound rfl
    | some value => exact samePolling_keep.trans (samePolling_flight hfound rfl)
  | backpressure => exact samePolling_flight hfound rfl
  | failure => exact samePolling_flight hfound rfl

def State.Holds (g : State V) (id : ℕ) : Prop :=
  ∃ state, g.heap[id]? = some state ∧ g.states.lookup state.key = some id

lemma Polled.holds (h : Polled bound g) (hlook : g.states.lookup key = some id) : g.Holds id := by
  obtain ⟨state, hget, hkey⟩ := h.held key id hlook
  exact ⟨state, hget, hkey ▸ hlook⟩

lemma Polled.refreshState (h : Polled bound g) (hid : g.Holds id)
    (startedBy : Option ProjectReader) (now : Text) : Polled bound (g.refreshState options id startedBy now) := by
  obtain ⟨state, hget, hheld⟩ := hid
  have hopen : g.closed = false := by
    cases hclos : g.closed with
    | false => rfl
    | true =>
      rw [h.emptied hclos] at hheld
      cases hheld
  rcases refreshState_cases options g id startedBy now with hsame |
    ⟨started, hstart, hflight, hcall⟩
  · rw [hsame]
    exact h
  · rw [hcall]
    obtain rfl : state = started := some.inj (hget.symm.trans hstart)
    refine { h with flights := ?_, calls := ?_ }
    · intro key flight hfound
      change (g.inFlight.set _ _).lookup key = _ at hfound
      rw [JsMap.lookup_set] at hfound
      split_ifs at hfound with heq
      · cases hfound
        exact ⟨state, hget, heq.symm, fun _ => heq ▸ hheld⟩
      · exact h.flights key flight hfound
    · intro call hmem
      rcases mem_append.mp hmem with hold | hnew
      · exact h.calls call hold
      · obtain rfl := mem_singleton.mp hnew
        exact hopen

lemma Polled.refreshAll {ids : List ℕ} (h : Polled bound g)
    (hids : ∀ id ∈ ids, g.Holds id) (now : Text) :
    Polled bound (ids.foldl (fun g id => g.refreshState options id none now) g) := by
  induction ids generalizing g with
  | nil => exact h
  | cons id ids ih =>
    apply ih (h.refreshState (hids id mem_cons_self) none now)
    intro other hoth
    have hold := hids other (mem_cons_of_mem id hoth)
    simpa [State.Holds] using hold

lemma Polled.refresh (h : Polled bound g) (reader : ProjectReader) (now : Text) :
    Polled bound (g.refresh options reader now) := by
  apply h.refreshAll
  intro id hid
  obtain ⟨key, hlook⟩ := JsMap.mem_values.mp (mem_of_mem_filter hid)
  exact h.holds hlook

lemma trimStates_of_le (h : g.states.entries.length ≤ options.capacity) (n : ℕ) :
    g.trimStates options n = g := by
  cases n with
  | zero => rfl
  | succ n => rw [State.trimStates, if_neg (by omega)]

def State.drop (g : State V) (key : Text) (id : ℕ) : State V :=
  { (g.modifyState id fun state => { state with armed := false }) with
    states := g.states.erase key
    cache := g.cache.erase key }

lemma length_erase_head {m : JsMap Text ℕ}
    (h : m.entries = ⟨key, id⟩ :: rest) : (m.erase key).entries = rest := by
  change kerase key m.entries = rest
  rw [h]
  exact kerase_cons_eq rfl

lemma trimStates_of_succ
    (hentr : g.states.entries = ⟨key, id⟩ :: rest) (hfull : rest.length = options.capacity)
    (n : ℕ) : g.trimStates options (n + 1) = g.drop key id := by
  have hlong : options.capacity < g.states.entries.length := by
    rw [hentr, length_cons]
    omega
  have hhead : g.states.entries.head? = some ⟨key, id⟩ := by
    rw [hentr]
    rfl
  rw [State.trimStates, if_pos hlong, hhead]
  apply trimStates_of_le (g := g.drop key id)
  change (g.states.erase key).entries.length ≤ options.capacity
  rw [length_erase_head hentr]
  omega

lemma Polled.drop (h : Polled (bound + 1) g) (hentr : g.states.entries = ⟨key, id⟩ :: rest)
    (hidle : g.inFlight.lookup key = none) (hopen : g.closed = false) :
    Polled bound (g.drop key id) := by
  have hfirst : g.states.lookup key = some id := by
    change dlookup key g.states.entries = some id
    rw [hentr, dlookup_cons_eq]
  have hget : ∀ other : ℕ, (g.drop key id).heap[other]? =
      if id = other then (g.heap[other]?).map fun state => { state with armed := false }
      else g.heap[other]? := by
    intro other
    simp only [State.drop, State.modifyState, getElem?_modify]
    split_ifs
    · rfl
    · simp
  have hlook : ∀ other, (g.drop key id).states.lookup other =
      if other = key then none else g.states.lookup other :=
    JsMap.lookup_erase_eq g.states key
  have hkeys : ∀ (other : ℕ) (state : RefreshState V), g.heap[other]? = some state →
      ∃ state', (g.drop key id).heap[other]? = some state' ∧ state'.key = state.key := by
    intro other state hstate
    rw [hget, hstate]
    split_ifs
    · exact ⟨_, rfl, rfl⟩
    · exact ⟨_, rfl, rfl⟩
  constructor
  · have hbound := h.bounded
    rw [hentr, length_cons] at hbound
    change (g.states.erase key).entries.length ≤ bound
    rw [length_erase_head hentr]
    omega
  · intro hclos
    exact absurd hclos (by simp [State.drop, State.modifyState, hopen])
  · intro other found hfound
    rw [hlook] at hfound
    split_ifs at hfound with hoth
    obtain ⟨state, hstate, hkey⟩ := h.held other found hfound
    obtain ⟨state', hstate', hkey'⟩ := hkeys found state hstate
    exact ⟨state', hstate', hkey'.trans hkey⟩
  · intro other state hstate harm
    rw [hget] at hstate
    split_ifs at hstate with heq
    · obtain ⟨old, _, rfl⟩ := map_eq_some_iff.mp hstate
      cases harm
    · have hheld := h.armed other state hstate harm
      rw [hlook]
      split_ifs with hkey
      · rw [hkey, hfirst] at hheld
        exact absurd (some.inj hheld) heq
      · exact hheld
  · intro other flight hflight
    have hoth : other ≠ key := by
      rintro rfl
      change g.inFlight.lookup other = some flight at hflight
      rw [hidle] at hflight
      cases hflight
    obtain ⟨state, hstate, hkey, hheld⟩ := h.flights other flight hflight
    obtain ⟨state', hstate', hkey'⟩ := hkeys flight.state state hstate
    refine ⟨state', hstate', hkey'.trans hkey, fun _ => ?_⟩
    rw [hlook, if_neg hoth]
    exact hheld hopen
  · exact h.calls

lemma Polled.addState (h : Polled bound g)
    (hnew : g.states.lookup key = none) (hopen : g.closed = false) (reader : ProjectReader)
    (read : Read) : Polled (bound + 1) (g.addState key reader read) := by
  have hget : ∀ {id : ℕ} {state : RefreshState V}, g.heap[id]? = some state →
      (g.addState key reader read).heap[id]? = some state := by
    intro id state hstate
    obtain ⟨hlt, _⟩ := List.getElem?_eq_some_iff.mp hstate
    exact (getElem?_append_left hlt).trans hstate
  have hold : ∀ {id : ℕ} {state : RefreshState V},
      (g.addState key reader read).heap[id]? = some state → state.armed = true →
      g.heap[id]? = some state := by
    intro id state hstate harm
    rcases lt_or_ge id g.heap.length with hlt | hge
    · exact (getElem?_append_left hlt).symm.trans hstate
    · change (g.heap ++ [_])[id]? = some state at hstate
      rw [getElem?_append_right hge, getElem?_singleton] at hstate
      split_ifs at hstate
      cases hstate
      cases harm
  have hlook : ∀ other, (g.addState key reader read).states.lookup other =
      if other = key then some g.heap.length else g.states.lookup other :=
    JsMap.lookup_set g.states key g.heap.length
  constructor
  · have hlength : (g.addState key reader read).states.entries.length =
        g.states.entries.length + 1 := by
      change (g.states.set key _).entries.length = _
      rw [JsMap.entries_set_of_none _ hnew, length_append, length_singleton]
    have hbound := h.bounded
    omega
  · exact fun hclos => absurd (hclos.symm.trans hopen) (by simp)
  · intro other id hfound
    rw [hlook] at hfound
    split_ifs at hfound with heq
    · cases hfound
      exact ⟨_, getElem?_concat_length, heq.symm⟩
    · obtain ⟨state, hstate, hkey⟩ := h.held other id hfound
      exact ⟨state, hget hstate, hkey⟩
  · intro id state hstate harm
    have hheld := h.armed id state (hold hstate harm) harm
    rw [hlook]
    split_ifs with heq
    · rw [heq, hnew] at hheld
      cases hheld
    · exact hheld
  · intro other flight hflight
    obtain ⟨state, hstate, hkey, hheld⟩ := h.flights other flight hflight
    refine ⟨state, hget hstate, hkey, fun _ => ?_⟩
    have hsome := hheld hopen
    rw [hlook]
    split_ifs with heq
    · rw [heq, hnew] at hsome
      cases hsome
    · exact hsome
  · exact h.calls

def Adds (options : GatewayOptions) (g : State V) (key now : Text) : Prop :=
  (g.cache.read options key now).isFresh = false ∧ g.inFlight.lookup key = none ∧
    g.states.lookup key = none

/-- The gateway is open, and if it is full its oldest state is not in flight. -/
def Spares (options : GatewayOptions) (g : State V) : Prop :=
  g.closed = false ∧ ∀ oldest ∈ g.states.entries.head?,
    g.states.entries.length = options.capacity → g.inFlight.lookup oldest.1 = none

lemma Polled.addTrimmed (h : Polled options.capacity g)
    (hnew : g.states.lookup key = none) (hspar : Spares options g) (reader : ProjectReader)
    (read : Read) :
    Polled options.capacity (g.addTrimmed options key reader read) ∧
      (g.addTrimmed options key reader read).Holds g.heap.length := by
  obtain ⟨hopen, hidle⟩ := hspar
  have hadd := h.addState hnew hopen reader read
  have hentr : (g.addState key reader read).states.entries =
      g.states.entries ++ [⟨key, g.heap.length⟩] := JsMap.entries_set_of_none _ hnew
  have hself : (g.addState key reader read).states.lookup key = some g.heap.length :=
    JsMap.lookup_set_self _ _ _
  unfold State.addTrimmed
  by_cases hfull : g.states.entries.length = options.capacity
  · cases hold : g.states.entries with
    | nil =>
      have hpos := options.capacity_pos
      rw [hold, length_nil] at hfull
      omega
    | cons oldest rest =>
      obtain ⟨first, id⟩ := oldest
      rw [hold, cons_append] at hentr
      have hlength : (rest ++ [(⟨key, g.heap.length⟩ : Σ _ : Text, ℕ)]).length = options.capacity := by
        rw [hold, length_cons] at hfull
        rw [length_append, length_singleton]
        exact hfull
      have hfirst : first ≠ key := by
        rintro rfl
        have hsome : g.states.lookup first = some id := by
          change dlookup first g.states.entries = some id
          rw [hold, dlookup_cons_eq]
        rw [hnew] at hsome
        cases hsome
      have hdropp := hadd.drop hentr (hidle ⟨first, id⟩ (by rw [hold]; rfl) hfull) hopen
      rw [hentr, length_cons, trimStates_of_succ hentr hlength]
      have hheld : ((g.addState key reader read).drop first id).states.lookup key =
          some g.heap.length := by
        change ((g.addState key reader read).states.erase first).lookup key = _
        rw [JsMap.lookup_erase_eq, if_neg hfirst.symm]
        exact hself
      exact ⟨hdropp, hdropp.holds hheld⟩
  · have hbound : (g.addState key reader read).states.entries.length ≤ options.capacity := by
      have hle := h.bounded
      rw [hentr, length_append, length_singleton]
      omega
    rw [trimStates_of_le hbound]
    have hpoll : Polled options.capacity (g.addState key reader read) :=
      { hadd with bounded := hbound }
    exact ⟨hpoll, hpoll.holds hself⟩

lemma Polled.readKey (h : Polled options.capacity g) {reader : ProjectReader}
    {read : Read} {now : Text} (hok : Adds options g key now → Spares options g) :
    Polled options.capacity (g.readKey options reader read key now) := by
  have hmissed (hmiss : (g.cache.read options key now).isFresh = false) :
      Polled options.capacity (g.readMissed options reader read key now) := by
    unfold State.readMissed
    cases hflight : g.inFlight.lookup key with
    | some flight => exact h.frame (samePolling_join g key reader read)
    | none =>
      cases hstate : g.states.lookup key with
      | some id =>
        exact (h.refreshState (h.holds hstate) _ now).frame (samePolling_join _ _ _ _)
      | none =>
        obtain ⟨hadd, hholds⟩ := h.addTrimmed hstate (hok ⟨hmiss, hflight, hstate⟩) reader
          read
        exact (hadd.refreshState hholds _ now).frame (samePolling_join _ _ _ _)
  unfold State.readKey
  cases hread : g.cache.read options key now with
  | fresh value => exact h.frame { SamePolling.refl g with }
  | _ => exact hmissed (by rw [hread]; rfl)

lemma Polled.wake (h : Polled bound g) (reader : ProjectReader)
    (deliveryId now : Text) : Polled bound (g.wake options reader deliveryId now) := by
  unfold State.wake
  split_ifs
  · exact h
  · exact h
  · apply Polled.refresh
    exact h.frame { SamePolling.refl g with }

lemma Polled.setArmed (h : Polled bound g) {armed : Bool}
    (hid : armed = true → ∀ state, g.heap[id]? = some state → g.states.lookup state.key = some id) :
    Polled bound (g.modifyState id fun state => { state with armed }) := by
  have hmod : ∀ other : ℕ, (g.modifyState id fun state => { state with armed }).heap[other]? =
      if id = other then (g.heap[other]?).map fun state => { state with armed }
      else g.heap[other]? := by
    intro other
    simp only [State.modifyState, getElem?_modify]
    split_ifs
    · rfl
    · simp
  have hkeys : ∀ (other : ℕ) (state : RefreshState V), g.heap[other]? = some state →
      ∃ state', (g.modifyState id fun state => { state with armed }).heap[other]? =
        some state' ∧ state'.key = state.key := by
    intro other state hstate
    rw [hmod, hstate]
    split_ifs
    · exact ⟨_, rfl, rfl⟩
    · exact ⟨_, rfl, rfl⟩
  refine { h with held := ?_, armed := ?_, flights := ?_ }
  · intro key other hlook
    obtain ⟨found, hfound, hkey⟩ := h.held key other hlook
    obtain ⟨found', hfound', hkey'⟩ := hkeys other found hfound
    exact ⟨found', hfound', hkey'.trans hkey⟩
  · intro other found hfound harm
    rw [hmod] at hfound
    split_ifs at hfound with heq
    · subst heq
      obtain ⟨old, hold, rfl⟩ := map_eq_some_iff.mp hfound
      exact hid harm old hold
    · exact h.armed other found hfound harm
  · intro key flight hflight
    obtain ⟨found, hfound, hkey, hheld⟩ := h.flights key flight hflight
    obtain ⟨found', hfound', hkey'⟩ := hkeys flight.state found hfound
    exact ⟨found', hfound', hkey'.trans hkey, hheld⟩

lemma Polled.timer (h : Polled bound g)
    (hget : g.heap[id]? = some state) (harm : state.armed = true) (now : Text) :
    Polled bound ((g.modifyState id fun state => { state with armed := false }).refreshState options
      id none now) := by
  apply (h.setArmed (by simp)).refreshState
  refine ⟨{ state with armed := false }, ?_, h.armed id state hget harm⟩
  simp [State.modifyState, hget]

lemma Polled.finish (h : Polled bound g)
    (hflight : g.inFlight.lookup key = some flight) (ending : Option V) :
    Polled bound (g.finish key flight ending) := by
  obtain ⟨state, hget, hkey, hheld⟩ := h.flights key flight hflight
  have htak : Polled bound { g with
      inFlight := g.inFlight.erase key
      resolved := g.resolved ++ State.answers flight ending } := by
    apply h.frame
    refine { SamePolling.refl g with flights := ?_ }
    intro other found hfound
    rw [JsMap.lookup_erase_eq] at hfound
    split_ifs at hfound
    exact ⟨found, hfound, rfl⟩
  unfold State.finish State.schedule
  split_ifs with hclos
  · exact htak
  · apply htak.setArmed
    intro _ found hfound
    obtain rfl : state = found := some.inj (hget.symm.trans hfound)
    rw [hkey]
    exact hheld (by simpa using hclos)

lemma Polled.close (h : Polled bound g) : Polled bound g.close := by
  have hget : ∀ id : ℕ, g.close.heap[id]? = (g.heap[id]?).map fun state =>
      if id ∈ g.states.values then { state with armed := false } else state := by
    intro id
    exact getElem?_mapIdx
  constructor
  · exact Nat.zero_le _
  · exact fun _ _ => rfl
  · intro key id hlook
    cases hlook
  · intro id state hstate harm
    rw [hget] at hstate
    obtain ⟨old, hold, hnew⟩ := map_eq_some_iff.mp hstate
    split_ifs at hnew with hmem
    · rw [← hnew] at harm
      cases harm
    · subst hnew
      have hheld := h.armed id old hold harm
      exact absurd (JsMap.mem_values.mpr ⟨_, hheld⟩) hmem
  · intro key flight hflight
    obtain ⟨state, hstate, hkey, _⟩ := h.flights key flight hflight
    refine ⟨if flight.state ∈ g.states.values then { state with armed := false } else state, ?_, ?_,
      fun hopen => nomatch hopen⟩
    · rw [hget, hstate]
      rfl
    · split_ifs
      · exact hkey
      · exact hkey
  · exact h.calls

/-- No state is dropped while its call is in flight, and a closed gateway adds none. -/
def SparesFlights (options : GatewayOptions) (g : State V) : GatewayStep V → Prop
  | .read reader request now =>
    match g.readers[reader]? with
    | none => True
    | some reader =>
      match validateRead options.toLowerCase reader.project request with
      | .error _ => True
      | .ok read => Adds options g (cacheKey reader.project read) now → Spares options g
  | _ => True

lemma polled_next [DecidableEq V] {step : GatewayStep V}
    (h : Polled options.capacity g) (hok : SparesFlights options g step)
    (hnext : g.next options step = some g') : Polled options.capacity g' := by
  cases step with
  | forProject authority credential =>
    obtain ⟨readers, rfl⟩ := forProject_cases hnext
    exact h.frame { SamePolling.refl g with }
  | read reader request now =>
    obtain ⟨r, hreader, rfl⟩ := map_eq_some_iff.mp hnext
    simp only [SparesFlights, hreader] at hok
    unfold State.read
    cases hread : validateRead options.toLowerCase r.project request with
    | error error => exact h
    | ok read =>
      simp only [hread] at hok
      exact h.readKey hok
  | refresh reader now =>
    obtain ⟨r, _, rfl⟩ := map_eq_some_iff.mp hnext
    exact h.refresh r now
  | wake reader deliveryId now =>
    obtain ⟨r, _, rfl⟩ := map_eq_some_iff.mp hnext
    exact h.wake r deliveryId now
  | subscribe reader =>
    obtain ⟨r, _, rfl⟩ := map_eq_some_iff.mp hnext
    exact h.frame (samePolling_subscribe g r)
  | unsubscribe id =>
    obtain ⟨subscription, _, rfl⟩ := map_eq_some_iff.mp hnext
    exact h.frame { SamePolling.refl g with }
  | timer id now =>
    obtain ⟨state, hget, harm, rfl⟩ := timer_cases hnext
    exact h.timer hget harm now
  | answered key outcome now throwing =>
    obtain ⟨flight, state, hflight, _, rfl⟩ := answered_cases hnext
    exact h.frame (samePolling_settle hflight)
  | finished key =>
    obtain ⟨flight, ending, hflight, _, rfl⟩ := finished_cases hnext
    exact h.finish hflight ending
  | close =>
    cases hnext
    exact h.close

lemma polled_start : Polled options.capacity ({} : State V) where
  bounded := Nat.zero_le _
  emptied := fun _ _ => rfl
  held := fun _ _ h => nomatch h
  armed := fun _ _ h => nomatch h
  flights := fun _ _ h => nomatch h
  calls := fun _ h => nomatch h

lemma polled_of_reach [DecidableEq V]
    (h : (gateway options).Reach (SparesFlights options) g) : Polled options.capacity g := by
  apply h.inv (Polled options.capacity)
  · rintro g rfl
    exact polled_start
  · exact fun _ _ _ hpoll hok hnext => polled_next hpoll hok hnext

lemma Polled.single (h : Polled bound g) {id' : ℕ}
    {state' : RefreshState V} (hget : g.heap[id]? = some state)
    (hget' : g.heap[id']? = some state') (harm : state.armed = true)
    (harm' : state'.armed = true) (hkey : state.key = state'.key) : id = id' := by
  have hheld := h.armed id state hget harm
  have hheld' := h.armed id' state' hget' harm'
  rw [hkey, hheld'] at hheld
  exact (some.inj hheld).symm

lemma Polled.countP_armed_le (h : Polled bound g) : g.heap.countP (·.armed) ≤ bound := by
  have hnod : ((g.heap.filter (·.armed)).map (·.key)).Nodup := by
    rw [List.Nodup, pairwise_map, pairwise_filter, pairwise_iff_getElem]
    intro i j hi hj hlt harm harm' hkey
    have hsame := h.single (getElem?_eq_getElem hi) (getElem?_eq_getElem hj) harm
      harm' hkey
    omega
  have hsubs : ((g.heap.filter (·.armed)).map (·.key)) ⊆ g.states.keys := by
    intro key hkey
    obtain ⟨state, hstate, rfl⟩ := mem_map.mp hkey
    obtain ⟨hmem, harm⟩ := mem_filter.mp hstate
    obtain ⟨id, hget⟩ := mem_iff_getElem?.mp hmem
    have hheld := h.armed id state hget harm
    exact AList.lookup_isSome.mp (by rw [hheld]; rfl)
  have hlength := (subperm_of_subset hnod hsubs).length_le
  have hkeys : g.states.keys.length = g.states.entries.length := by
    simp [AList.keys, keys]
  have hbound := h.bounded
  rw [length_map, ← countP_eq_length_filter] at hlength
  omega

/-- Once no call is in flight, every armed timer is that of a held state, no more timers are armed
than the gateway may hold states, and no two of them are for one key. -/
structure PollsBounded (options : GatewayOptions) (g : State V) : Prop where
  belongs : g.inFlight.entries = [] → ∀ id state, g.heap[id]? = some state →
    state.armed = true → g.states.lookup state.key = some id
  capacity : g.inFlight.entries = [] → g.heap.countP (·.armed) ≤ options.capacity
  single : g.inFlight.entries = [] → ∀ (id id' : ℕ) (state state' : RefreshState V),
    g.heap[id]? = some state → g.heap[id']? = some state' → state.armed = true →
    state'.armed = true → state.key = state'.key → id = id'
  closed : ∀ call ∈ g.calls, call.afterClose = false

/-- While no state is dropped in flight, states and timers stay within the capacity. -/
theorem polls_bounded [DecidableEq V] {g : State V}
    (h : (gateway options).Reach (SparesFlights options) g) : PollsBounded options g := by
  have hpoll := polled_of_reach h
  constructor
  · exact fun _ => hpoll.armed
  · exact fun _ => hpoll.countP_armed_le
  · intro _ id id' state state' hget hget' harm harm' hkey
    exact hpoll.single hget hget' harm harm' hkey
  · exact hpoll.calls

end

section

def start : Text := "1970-01-01T00:00:00.000Z".toList

def minuteLocale : Locale where
  dateParse t := if t = start then some 0 else none
  localeCompare a b := if Text.utf16Lt a b then .lt else if a = b then .eq else .gt

def roomForOne : GatewayOptions where
  locale := minuteLocale
  toLowerCase := asciiLower
  freshMs := 60000
  capacity := 1
  capacity_pos := Nat.one_pos

def token : Credential := ⟨"t".toList⟩

def issues : Read := .rest "issues".toList

def pulls : Read := .rest "pulls".toList

def answered (read : Read) : List (GatewayStep ℕ) :=
  [.answered (cacheKey octo read) (.value 7 none) start none, .finished (cacheKey octo read)]

def fliesNone (g : State ℕ) : GatewayStep ℕ → Bool
  | .read _ _ _ => !g.closed && g.inFlight.entries.isEmpty
  | _ => true

lemma sparesFlights_of_fliesNone {g : State ℕ} {step : GatewayStep ℕ}
    (h : fliesNone g step = true) : SparesFlights roomForOne g step := by
  cases step with
  | read reader request now =>
    simp only [fliesNone, Bool.and_eq_true, Bool.not_eq_true', List.isEmpty_iff] at h
    simp only [SparesFlights]
    cases g.readers[reader]? with
    | none => trivial
    | some r =>
      dsimp only
      cases validateRead roomForOne.toLowerCase r.project request with
      | error error => trivial
      | ok read =>
        intro _
        refine ⟨h.1, fun oldest _ _ => ?_⟩
        change List.dlookup oldest.1 g.inFlight.entries = none
        rw [h.2]
        rfl
  | _ => trivial

def timers (g : State ℕ) : ℕ × ℕ := (g.inFlight.entries.length, g.heap.countP (·.armed))

/-- The first read is idle when the second takes its place. -/
theorem one_read_is_polled : ∃ g : State ℕ, timers g = (0, 1) ∧ PollsBounded roomForOne g := by
  have hrun : ((gateway roomForOne).execIf fliesNone ({} : State ℕ)
      ([.forProject octo token, .read 0 issues start] ++ answered issues ++
        [.read 0 pulls start] ++ answered pulls)).map timers = some (0, 1) := by
    decide +kernel
  obtain ⟨g, hexec, htim⟩ := map_eq_some_iff.mp hrun
  have hguard := (Machine.run_of_execIf hexec).mono fun _ _ => sparesFlights_of_fliesNone
  exact ⟨g, htim, polls_bounded ⟨{}, _, rfl, hguard⟩⟩

/-- A gateway that holds one read drops a state whose call then arms its timer again. -/
theorem dropped_state_is_polled :
    ¬ ∀ g : State ℕ, (gateway roomForOne).Reach anyStep g → PollsBounded roomForOne g := by
  intro hall
  have hrun : ((gateway roomForOne).exec ({} : State ℕ)
      ([.forProject octo token, .read 0 issues start, .read 0 pulls start] ++ answered issues ++
        answered pulls)).map timers = some (0, 2) := by
    decide +kernel
  obtain ⟨g, hexec, htim⟩ := map_eq_some_iff.mp hrun
  have hreach := Machine.reach_of_exec (M := gateway roomForOne) rfl hexec
  have hidle : g.inFlight.entries = [] :=
    length_eq_zero_iff.mp (congrArg Prod.fst htim)
  have hcap := (hall g hreach).capacity hidle
  have htwo : g.heap.countP (·.armed) = 2 := congrArg Prod.snd htim
  rw [htwo] at hcap
  exact absurd hcap (by decide)

end

end Redskilled.Github.Gateway
