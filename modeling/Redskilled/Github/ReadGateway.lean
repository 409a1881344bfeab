import Redskilled.Foundation.JsMap
import Redskilled.Foundation.Locale
import Redskilled.Foundation.Machine
import Redskilled.Github.GatewayRead

/-!
# The gateway of GitHub reads

One gateway serves the readers of all projects. A read is answered from the cache, joins
the call that is in flight for its key, or starts one. Each key that is read has a refresh
state, which holds the credential of the reader that first asked, and a timer. When a call
has ended the timer of its state is armed, and when it fires the state is refreshed again.
The states are bounded in number, and the oldest is dropped.

A call that is answered is not at its end yet: its answer is kept and published first, and
only then is the call taken out of those in flight.

Values are compared by `isDeepStrictEqual`, which is their equality here. The observations
of the budget are left out.
-/
namespace Redskilled.Github.Gateway
open Foundation

structure Credential where
  secret : Text

structure Validators where
  etag : Option Text
  lastModified : Option Text

structure GatewayOptions where
  locale : Locale
  toLowerCase : Text → Text
  freshMs : ℤ
  capacity : ℕ
  capacity_pos : 0 < capacity

structure CacheEntry (V : Type*) where
  value : V
  fetchedAt : Text

inductive CacheRead (V : Type*) where
  | miss
  /-- Kept, without an age. -/
  | undated (value : V)
  | stale (value : V)
  | fresh (value : V)

namespace CacheRead
variable {V : Type*}

def value : CacheRead V → Option V
  | .miss => none
  | .undated value => some value
  | .stale value => some value
  | .fresh value => some value

def isFresh : CacheRead V → Bool
  | .fresh _ => true
  | _ => false

def dated : CacheRead V → Option V
  | .miss => none
  | .undated _ => none
  | .stale value => some value
  | .fresh value => some value

end CacheRead

abbrev Cache (V : Type*) := JsMap Text (CacheEntry V)

section
variable {V : Type*} (options : GatewayOptions)

def ageOf (fetchedAt now : Text) : Option ℤ :=
  match options.locale.dateParse fetchedAt, options.locale.dateParse now with
  | some fetchedMs, some nowMs => some (max 0 (nowMs - fetchedMs))
  | _, _ => none

def Cache.read (cache : Cache V) (key now : Text) : CacheRead V :=
  match cache.lookup key with
  | none => .miss
  | some entry =>
    match ageOf options entry.fetchedAt now with
    | none => .undated entry.value
    | some age => if age ≤ options.freshMs then .fresh entry.value else .stale entry.value

def rank (entry : CacheEntry V) : Option ℤ := options.locale.dateParse entry.fetchedAt

/-- What has no date is older than all that has one. -/
def older : Option ℤ → Option ℤ → Bool
  | none, some _ => true
  | some fetchedMs, some oldestMs => fetchedMs < oldestMs
  | _, none => false

def oldestKey (cache : Cache V) : Option Text :=
  (cache.entries.foldl (fun (oldest : Option (Option ℤ × Text)) e =>
    match oldest with
    | none => some (rank options e.2, e.1)
    | some (oldestMs, oldestKey) =>
      if older (rank options e.2) oldestMs then some (rank options e.2, e.1)
      else some (oldestMs, oldestKey)) none).map Prod.snd

def evictOldest : ℕ → Cache V → Cache V
  | 0, cache => cache
  | n + 1, cache =>
    if options.capacity < cache.entries.length then
      match oldestKey options cache with
      | none => cache
      | some key => evictOldest n (cache.erase key)
    else cache

def Cache.put (cache : Cache V) (key : Text) (entry : CacheEntry V) : Cache V :=
  let stored := JsMap.set (cache.erase key) key entry
  evictOldest options stored.entries.length stored

end

structure ProjectReader where
  project : ProjectAuthority
  credential : Credential

structure RefreshState (V : Type*) where
  key : Text
  scope : Text
  project : ProjectAuthority
  credential : Credential
  read : Read
  answer : Option V := none
  validators : Option Validators := none
  armed : Bool := false

structure UpstreamCall where
  project : ProjectAuthority
  credential : Credential
  read : Read
  conditional : Option Validators
  startedBy : Option ProjectReader
  afterClose : Bool

structure Flight (V : Type*) where
  state : ℕ
  /-- What the cache had when it was started. -/
  held : CacheRead V
  waiting : List (ProjectReader × Read) := []
  /-- The value it ends with, or that it fails. -/
  ending : Option (Option V) := none

structure Update (V : Type*) where
  sequence : ℕ
  projectId : Text
  credentialProfile : Text
  read : Read
  fetchedAt : Text
  value : V

structure Subscription (V : Type*) where
  project : ProjectAuthority
  /-- The set of observers it was put into. -/
  set : ℕ
  delivered : List (Update V) := []

structure Resolved (V : Type*) where
  reader : ProjectReader
  read : Read
  value : V

structure Answered (V : Type*) where
  project : ProjectAuthority
  read : Read
  value : V

/-- States and sets of observers are objects, and are found by their place in `heap` and
`sets`. The last three fields are what has happened. -/
structure State (V : Type*) where
  cache : Cache V := ∅
  heap : List (RefreshState V) := []
  states : JsMap Text ℕ := ∅
  inFlight : JsMap Text (Flight V) := ∅
  sets : List (List ℕ) := []
  observers : JsMap Text ℕ := ∅
  sequences : JsMap Text ℕ := ∅
  seenWakes : JsMap Text (List Text) := ∅
  closed : Bool := false
  readers : List ProjectReader := []
  subscriptions : List (Subscription V) := []
  calls : List UpstreamCall := []
  answered : List (Answered V) := []
  resolved : List (Resolved V) := []

inductive UpstreamOutcome (V : Type*) where
  | value (value : V) (validators : Option Validators)
  | notModified (validators : Option Validators)
  | backpressure
  | failure

inductive GatewayStep (V : Type*) where
  | forProject (authority : ProjectAuthority) (credential : Credential)
  | read (reader : ℕ) (request : Read) (now : Text)
  | refresh (reader : ℕ) (now : Text)
  | wake (reader : ℕ) (deliveryId now : Text)
  | subscribe (reader : ℕ)
  | unsubscribe (subscription : ℕ)
  | timer (state : ℕ) (now : Text)
  /-- The call in flight for a key is answered. `throwing` is an observer that throws when
  it is told. -/
  | answered (key : Text) (outcome : UpstreamOutcome V) (now : Text) (throwing : Option ℕ)
  | finished (key : Text)
  | close

namespace State
variable {V : Type*} [DecidableEq V] (options : GatewayOptions)

def modifyState (g : State V) (id : ℕ) (change : RefreshState V → RefreshState V) : State V :=
  { g with heap := g.heap.modify id change }

def schedule (g : State V) (id : ℕ) : State V :=
  if g.closed then g else g.modifyState id fun state => { state with armed := true }

def upstreamCall (g : State V) (state : RefreshState V) (startedBy : Option ProjectReader) :
    UpstreamCall where
  project := state.project
  credential := state.credential
  read := state.read
  conditional := match state.read with
    | .rest _ => state.validators
    | _ => none
  startedBy
  afterClose := g.closed

def startCall (g : State V) (id : ℕ) (state : RefreshState V) (startedBy : Option ProjectReader)
    (now : Text) : State V :=
  { g with
    calls := g.calls ++ [g.upstreamCall state startedBy]
    inFlight := g.inFlight.set state.key
      { state := id, held := g.cache.read options state.key now } }

def refreshState (g : State V) (id : ℕ) (startedBy : Option ProjectReader) (now : Text) : State V :=
  match g.heap[id]? with
  | none => g
  | some state =>
    match g.inFlight.lookup state.key with
    | some _ => g
    | none => g.startCall options id state startedBy now

def join (g : State V) (key : Text) (reader : ProjectReader) (read : Read) : State V :=
  match g.inFlight.lookup key with
  | none => g
  | some flight =>
    { g with
      inFlight := g.inFlight.set key
        { flight with waiting := flight.waiting ++ [(reader, read)] } }

def trimStates : ℕ → State V → State V
  | 0, g => g
  | n + 1, g =>
    if options.capacity < g.states.entries.length then
      match g.states.entries.head? with
      | none => g
      | some ⟨key, id⟩ =>
        trimStates n { (g.modifyState id fun state => { state with armed := false }) with
          states := g.states.erase key
          cache := g.cache.erase key }
    else g

def addState (g : State V) (key : Text) (reader : ProjectReader) (read : Read) : State V :=
  { g with
    heap := g.heap ++ [{
      key
      scope := scopeKey reader.project
      project := reader.project
      credential := reader.credential
      read }]
    states := g.states.set key g.heap.length }

def addTrimmed (g : State V) (key : Text) (reader : ProjectReader) (read : Read) : State V :=
  trimStates options (g.addState key reader read).states.entries.length (g.addState key reader read)

def resolve (g : State V) (reader : ProjectReader) (read : Read) (value : V) : State V :=
  { g with resolved := g.resolved ++ [⟨reader, read, value⟩] }

def readMissed (g : State V) (reader : ProjectReader) (read : Read) (key now : Text) : State V :=
  match g.inFlight.lookup key, g.states.lookup key with
  | some _, _ => g.join key reader read
  | none, some id => (g.refreshState options id (some reader) now).join key reader read
  | none, none =>
    ((g.addTrimmed options key reader read).refreshState options g.heap.length
      (some reader) now).join key reader read

def readKey (g : State V) (reader : ProjectReader) (read : Read) (key now : Text) : State V :=
  match g.cache.read options key now with
  | .fresh value => g.resolve reader read value
  | _ => g.readMissed options reader read key now

def read (g : State V) (reader : ProjectReader) (request : Read) (now : Text) : State V :=
  match validateRead options.toLowerCase reader.project request with
  | .error _ => g
  | .ok read => g.readKey options reader read (cacheKey reader.project read) now

def statesOf (g : State V) (scope : Text) : List ℕ :=
  g.states.values.filter fun id => (g.heap[id]?).any fun state => state.scope = scope

def refresh (g : State V) (reader : ProjectReader) (now : Text) : State V :=
  (g.statesOf (scopeKey reader.project)).foldl (fun g id => g.refreshState options id none now) g

def maxDeliveries : ℕ := 1024

def deliveries (g : State V) (reader : ProjectReader) : List Text :=
  (g.seenWakes.lookup (scopeKey reader.project)).getD []

def remember (deliveries : List Text) : List Text :=
  if maxDeliveries < deliveries.length then deliveries.tail else deliveries

def wake (g : State V) (reader : ProjectReader) (deliveryId now : Text) : State V :=
  if Text.trim deliveryId = [] ∨ 256 < utf16Length deliveryId then g
  else if deliveryId ∈ g.deliveries reader then g
  else
    { g with
      seenWakes := g.seenWakes.set (scopeKey reader.project)
        (remember (g.deliveries reader ++ [deliveryId])) }.refresh options reader now

def subscribe (g : State V) (reader : ProjectReader) : State V :=
  match g.observers.lookup (scopeKey reader.project) with
  | some set =>
    { g with
      sets := g.sets.modify set fun observers => observers ++ [g.subscriptions.length]
      subscriptions := g.subscriptions ++ [{ project := reader.project, set }] }
  | none =>
    { g with
      sets := g.sets ++ [[g.subscriptions.length]]
      observers := g.observers.set (scopeKey reader.project) g.sets.length
      subscriptions := g.subscriptions ++ [{ project := reader.project, set := g.sets.length }] }

def leave (g : State V) (id : ℕ) (subscription : Subscription V) : List (List ℕ) :=
  g.sets.modify subscription.set fun observers => observers.erase id

/-- An empty set takes with it whatever set its scope has by now. -/
def unsubscribe (g : State V) (id : ℕ) (subscription : Subscription V) : State V :=
  { g with
    sets := g.leave id subscription
    observers := if (g.leave id subscription)[subscription.set]? = some [] then
      g.observers.erase (scopeKey subscription.project) else g.observers }

def targets (g : State V) (scope : Text) : List ℕ :=
  ((g.observers.lookup scope).bind fun set => g.sets[set]?).getD []

/-- Those that are told before an observer throws, and the one that throws. -/
def reached (observers : List ℕ) : Option ℕ → List ℕ
  | none => observers
  | some throwing => observers.takeWhile (· ≠ throwing) ++ observers.filter (· = throwing)

def nextSequence (g : State V) (scope : Text) : ℕ := (g.sequences.lookup scope).getD 0 + 1

def update (g : State V) (state : RefreshState V) (value : V) (fetchedAt : Text) : Update V where
  sequence := g.nextSequence state.scope
  projectId := state.project.projectId
  credentialProfile := state.project.credentialProfile
  read := state.read
  fetchedAt
  value

def publish (g : State V) (state : RefreshState V) (value : V) (fetchedAt : Text)
    (throwing : Option ℕ) : State V :=
  { g with
    sequences := g.sequences.set state.scope (g.nextSequence state.scope)
    subscriptions := g.subscriptions.mapIdx fun id subscription =>
      if id ∈ reached (g.targets state.scope) throwing then
        { subscription with
          delivered := subscription.delivered ++ [g.update state value fetchedAt] }
      else subscription }

def endWith (g : State V) (key : Text) (flight : Flight V) (value : Option V) : State V :=
  { g with inFlight := g.inFlight.set key { flight with ending := some value } }

def keep (g : State V) (flight : Flight V) (state : RefreshState V) (value : V)
    (validators : Option Validators) (now : Text) : State V :=
  { (g.modifyState flight.state fun state => { state with answer := some value, validators }) with
    cache := g.cache.put options state.key ⟨value, now⟩ }

def keepAnswer (g : State V) (flight : Flight V) (state : RefreshState V) (value : V)
    (validators : Option Validators) (now : Text) : State V :=
  { g.keep options flight state value validators now with
    answered := g.answered ++ [⟨state.project, state.read, value⟩] }

def isFetch : Read → Bool
  | .repositoryFetch _ => true
  | _ => false

def settleValue (g : State V) (key : Text) (flight : Flight V) (state : RefreshState V)
    (value : V) (now : Text) (throwing : Option ℕ) : State V :=
  if state.answer = some value then g.endWith key flight (some value)
  else
    (g.publish state value now throwing).endWith key flight
      (if throwing.any fun id => id ∈ g.targets state.scope then none else some value)

def settle (g : State V) (key : Text) (flight : Flight V) (state : RefreshState V)
    (outcome : UpstreamOutcome V) (now : Text) (throwing : Option ℕ) : State V :=
  match outcome with
  | .value value validators =>
    (g.keepAnswer options flight state value validators now).settleValue key flight state value
      now throwing
  | .notModified validators =>
    match state.answer <|> flight.held.value with
    | none => g.endWith key flight none
    | some value =>
      (g.keep options flight state value (validators <|> state.validators) now).endWith key
        flight (some value)
  | .backpressure =>
    g.endWith key flight (if isFetch state.read then none else flight.held.dated)
  | .failure => g.endWith key flight none

def answers (flight : Flight V) : Option V → List (Resolved V)
  | none => []
  | some value => flight.waiting.map fun (reader, read) => ⟨reader, read, value⟩

def finish (g : State V) (key : Text) (flight : Flight V) (ending : Option V) : State V :=
  { g with
    inFlight := g.inFlight.erase key
    resolved := g.resolved ++ answers flight ending }.schedule flight.state

def close (g : State V) : State V :=
  { g with
    closed := true
    heap := g.heap.mapIdx fun id state =>
      if id ∈ g.states.values then { state with armed := false } else state
    states := ∅
    observers := ∅
    seenWakes := ∅ }

def next (g : State V) : GatewayStep V → Option (State V)
  | .forProject authority credential =>
    match validateAuthority authority with
    | .error _ => some g
    | .ok project =>
      if Text.trim credential.secret = [] then some g
      else some { g with readers := g.readers ++ [⟨project, credential⟩] }
  | .read reader request now => (g.readers[reader]?).map fun r => g.read options r request now
  | .refresh reader now => (g.readers[reader]?).map fun r => g.refresh options r now
  | .wake reader deliveryId now =>
    (g.readers[reader]?).map fun r => g.wake options r deliveryId now
  | .subscribe reader => (g.readers[reader]?).map g.subscribe
  | .unsubscribe id => (g.subscriptions[id]?).map (g.unsubscribe id)
  | .timer id now =>
    match g.heap[id]? with
    | none => none
    | some state =>
      if state.armed then
        some ((g.modifyState id fun state => { state with armed := false }).refreshState options
          id none now)
      else none
  | .answered key outcome now throwing =>
    match g.inFlight.lookup key with
    | none => none
    | some flight =>
      match flight.ending, g.heap[flight.state]? with
      | none, some state => some (g.settle options key flight state outcome now throwing)
      | _, _ => none
  | .finished key =>
    match g.inFlight.lookup key with
    | none => none
    | some flight => flight.ending.map (g.finish key flight)
  | .close => some g.close

end State

section
variable {V : Type*} {options : GatewayOptions} {g : State V} {id : ℕ} {state : RefreshState V}
  {startedBy : Option ProjectReader} {now : Text}

lemma refreshState_cases (options : GatewayOptions) (g : State V) (id : ℕ)
    (startedBy : Option ProjectReader) (now : Text) :
    g.refreshState options id startedBy now = g ∨
      ∃ state, g.heap[id]? = some state ∧ g.inFlight.lookup state.key = none ∧
        g.refreshState options id startedBy now = g.startCall options id state startedBy now := by
  unfold State.refreshState
  cases hget : g.heap[id]? with
  | none => exact Or.inl rfl
  | some state =>
    cases hflight : g.inFlight.lookup state.key with
    | some flight => exact Or.inl (by simp only [hflight])
    | none => exact Or.inr ⟨state, rfl, hflight, by simp only [hflight]⟩

@[simp] lemma heap_refreshState : (g.refreshState options id startedBy now).heap = g.heap := by
  rcases refreshState_cases options g id startedBy now with h | ⟨state, _, _, h⟩ <;> rw [h]
  rfl

@[simp] lemma states_refreshState :
    (g.refreshState options id startedBy now).states = g.states := by
  rcases refreshState_cases options g id startedBy now with h | ⟨state, _, _, h⟩ <;> rw [h]
  rfl

end

section
variable {V : Type*} [DecidableEq V] {options : GatewayOptions} {g g' : State V} {key now : Text}

lemma forProject_cases {authority : ProjectAuthority} {credential : Credential}
    (h : g.next options (.forProject authority credential) = some g') :
    ∃ readers, g' = { g with readers } := by
  simp only [State.next] at h
  cases hauth : validateAuthority authority with
  | error error =>
    simp only [hauth] at h
    exact ⟨g.readers, (Option.some.inj h).symm⟩
  | ok project =>
    simp only [hauth] at h
    split_ifs at h
    · exact ⟨g.readers, (Option.some.inj h).symm⟩
    · exact ⟨_, (Option.some.inj h).symm⟩

lemma timer_cases {id : ℕ} (h : g.next options (.timer id now) = some g') :
    ∃ state, g.heap[id]? = some state ∧ state.armed = true ∧
      g' = (g.modifyState id fun state => { state with armed := false }).refreshState options id
        none now := by
  simp only [State.next] at h
  cases hget : g.heap[id]? with
  | none => simp [hget] at h
  | some state =>
    simp only [hget] at h
    split_ifs at h with harm
    exact ⟨state, rfl, harm, (Option.some.inj h).symm⟩

lemma answered_cases {outcome : UpstreamOutcome V} {throwing : Option ℕ}
    (h : g.next options (.answered key outcome now throwing) = some g') :
    ∃ flight state, g.inFlight.lookup key = some flight ∧ g.heap[flight.state]? = some state ∧
      g' = g.settle options key flight state outcome now throwing := by
  simp only [State.next] at h
  cases hflight : g.inFlight.lookup key with
  | none => simp [hflight] at h
  | some flight =>
    simp only [hflight] at h
    split at h
    · next state _ hget => exact ⟨flight, state, rfl, hget, (Option.some.inj h).symm⟩
    · cases h

lemma finished_cases (h : g.next options (.finished key) = some g') :
    ∃ flight ending, g.inFlight.lookup key = some flight ∧ flight.ending = some ending ∧
      g' = g.finish key flight ending := by
  simp only [State.next] at h
  cases hflight : g.inFlight.lookup key with
  | none => simp [hflight] at h
  | some flight =>
    simp only [hflight] at h
    obtain ⟨ending, hend, rfl⟩ := Option.map_eq_some_iff.mp h
    exact ⟨flight, ending, rfl, hend, rfl⟩

end

def gateway {V : Type*} [DecidableEq V] (options : GatewayOptions) :
    Machine (State V) (GatewayStep V) where
  start g := g = {}
  next g step := g.next options step

end Redskilled.Github.Gateway
