import Redskilled.Github.SingleObject

/-!
# Each read settles once, and alone

Over a run the reads are only moved: from the groups to the requests, and from there to the
settled ones. Each call is in one place at a time, and all steps but a call bring the
client nearer to the state in which nothing is due.
-/
namespace Redskilled.Github
open Foundation List Function

section
variable {gated : Bool} {balance : Option GithubBalance} {etags etags' : GithubEtagStore Json}
  {group : List PendingSingleObjectRead} {s : Client}

variable (etags) in
lemma lookup_touchAll (reads : List PendingSingleObjectRead) (key : Text) :
    (touchAll reads etags).lookup key = etags.lookup key := by
  induction reads generalizing etags with
  | nil => rfl
  | cons read reads ih =>
    have htail := ih (etags.touch read.input.cacheKey)
    rw [Recency.lookup_touch] at htail
    exact htail

@[simp] lemma lookup_askedEtags (key : Text) :
    (askedEtags gated balance etags group).lookup key = etags.lookup key := by
  unfold askedEtags
  split
  · exact lookup_touchAll _ _ key
  · rw [lookup_touchAll, lookup_touchAll]
  · rw [lookup_touchAll, lookup_touchAll, lookup_touchAll]

lemma drained_congr (h : ∀ key, etags'.lookup key = etags.lookup key) :
    drained gated balance etags' group = drained gated balance etags group := by
  have hholds : holds etags' = holds etags := by
    funext key
    unfold holds
    rw [h key]
  unfold drained
  rw [hholds]
  simp only [h]

def Drained.taken (d : Drained) : List PendingSingleObjectRead :=
  d.batches.flatMap Batch.group ++ (d.rests.map RestFlight.read ++ d.settled.map Settled.read)

variable (gated balance etags group) in
lemma drained_taken : (drained gated balance etags group).taken = group := by
  unfold drained
  split
  · simp [Drained.taken, comp_def]
  · split
    · simp [Drained.taken, comp_def]
    · simp [Drained.taken]
  · simp [Drained.taken, comp_def]

def Batch.Built (batch : Batch) : Prop :=
  buildSingleObjectReadsQuery (batch.group.map (·.input)) = .ok batch.query

variable (gated balance etags group) in
lemma drained_built : ∀ batch ∈ (drained gated balance etags group).batches, batch.Built := by
  intro batch hbatch
  unfold drained at hbatch
  split at hbatch
  · cases hbatch
  · split at hbatch
    · cases hbatch
    · next hquery =>
        obtain rfl := mem_singleton.mp hbatch
        exact hquery
  · cases hbatch

lemma Batch.Built.ne_nil {batch : Batch} (h : batch.Built) : batch.group ≠ [] := by
  intro hnil
  unfold Batch.Built at h
  rw [hnil] at h
  cases h

lemma drained_rests : ∀ flight ∈ (drained gated balance etags group).rests,
    flight.read ∈ group ∧ flight.held = etags.lookup flight.read.input.cacheKey := by
  intro flight hflight
  unfold drained at hflight
  split at hflight
  · cases hflight
  · split at hflight
    · cases hflight
    · cases hflight
  · obtain ⟨read, hread, rfl⟩ := mem_map.mp hflight
    exact ⟨hread, rfl⟩

lemma drained_settled : ∀ e ∈ (drained gated balance etags group).settled,
    ∃ rejection, e.result = .error rejection := by
  intro e he
  unfold drained at he
  split at he
  · obtain ⟨read, -, rfl⟩ := mem_map.mp he
    exact ⟨_, rfl⟩
  · split at he
    · obtain ⟨read, -, rfl⟩ := mem_map.mp he
      exact ⟨_, rfl⟩
    · cases he
  · cases he

end

namespace Client

def taken (s : Client) : List PendingSingleObjectRead :=
  s.batches.flatMap Batch.group ++ (s.rests.map RestFlight.read ++ s.settled.map Settled.read)

def reads (s : Client) : List PendingSingleObjectRead := s.pending.values.flatten ++ s.taken

/-- No step lets this grow but a call. -/
def due (s : Client) : ℕ :=
  s.pending.values.flatten.length + s.batches.length + s.rests.length +
    (match s.flush with
    | .idle => 0
    | .reading => 1
    | .scheduled => 2)

end Client

def ClientStep.isCall : ClientStep → Bool
  | .singleObject _ => true
  | _ => false

def called (s : Client) : ClientStep → List PendingSingleObjectRead
  | .singleObject input => [⟨s.calls, input⟩]
  | _ => []

section
variable {gated : Bool} {reading : LimitReading} {balance : Option GithubBalance}
  {s t : Client} {a : ClientStep} {groups : List (List PendingSingleObjectRead)}

variable (gated balance) in
lemma drain_fold (groups : List (List PendingSingleObjectRead)) (s : Client) :
    ∃ etags, (∀ key, etags.lookup key = s.etags.lookup key) ∧
      groups.foldl (drainGroup gated balance) s =
        { s with
          etags
          settled := s.settled ++
            groups.flatMap fun group => (drained gated balance s.etags group).settled
          batches := s.batches ++
            groups.flatMap fun group => (drained gated balance s.etags group).batches
          rests := s.rests ++
            groups.flatMap fun group => (drained gated balance s.etags group).rests } := by
  induction groups generalizing s with
  | nil =>
    refine ⟨s.etags, fun _ => rfl, ?_⟩
    simp
  | cons group groups ih =>
    obtain ⟨etags, hsame, hfold⟩ := ih (drainGroup gated balance s group)
    have hlook : ∀ key, (drainGroup gated balance s group).etags.lookup key =
        s.etags.lookup key := fun key => lookup_askedEtags key
    refine ⟨etags, fun key => (hsame key).trans (hlook key), ?_⟩
    rw [List.foldl_cons, hfold]
    simp only [drained_congr hlook, List.flatMap_cons]
    simp [drainGroup]

variable (gated balance) in
lemma taken_drain (groups : List (List PendingSingleObjectRead)) (s : Client) :
    (groups.foldl (drainGroup gated balance) s).taken.Perm (groups.flatten ++ s.taken) := by
  induction groups generalizing s with
  | nil => exact List.Perm.refl _
  | cons group groups ih =>
    have hgroup : (drainGroup gated balance s group).taken.Perm (group ++ s.taken) := by
      have hd := drained_taken gated balance s.etags group
      conv_rhs => rw [← hd]
      classical
      apply perm_iff_count.mpr
      intro read
      simp only [Client.taken, Drained.taken, drainGroup, flatMap_append, map_append, count_append]
      omega
    rw [foldl_cons, flatten_cons]
    apply (ih _).trans
    apply (hgroup.append_left groups.flatten).trans
    rw [← append_assoc]
    apply List.Perm.append_right
    exact perm_append_comm

/-- Groups stand under the key of their reads, and none is empty. -/
structure Formed (s : Client) : Prop where
  keyed : ∀ key group, s.pending.lookup key = some group →
    group ≠ [] ∧ ∀ read ∈ group, singleObjectGroupKey read.input = key
  built : ∀ batch ∈ s.batches, batch.Built

lemma formed_opened (etags : GithubEtagStore Json) : Formed (opened etags) where
  keyed key group h := by cases h
  built batch h := by cases h

lemma Formed.next (h : Formed s) (hnext : nextClient gated reading s a = some t) : Formed t := by
  cases a with
  | singleObject input =>
    cases hnext
    refine ⟨?_, h.built⟩
    intro key group hgroup
    rw [JsMap.lookup_set] at hgroup
    split_ifs at hgroup with hkey
    · cases hgroup
      refine ⟨by simp, ?_⟩
      intro read hread
      rcases mem_append.mp hread with hread | hread
      · cases hold : s.pending.lookup (singleObjectGroupKey input) with
        | none =>
          rw [hold] at hread
          cases hread
        | some old =>
          rw [hold] at hread
          rw [hkey]
          exact (h.keyed _ old hold).2 read hread
      · obtain rfl := mem_singleton.mp hread
        exact hkey.symm
    · exact h.keyed key group hgroup
  | flush =>
    simp only [nextClient, Option.ite_none_right_eq_some, Option.some.injEq] at hnext
    obtain ⟨-, rfl⟩ := hnext
    exact ⟨h.keyed, h.built⟩
  | balance balance =>
    simp only [nextClient, Option.ite_none_right_eq_some, Option.some.injEq] at hnext
    obtain ⟨-, rfl⟩ := hnext
    obtain ⟨etags, -, hdrain⟩ := drain_fold gated balance s.pending.values
      { s with pending := ∅, flush := .idle }
    rw [hdrain]
    refine ⟨fun key group hgroup => (by cases hgroup), ?_⟩
    intro batch hbatch
    rcases mem_append.mp hbatch with hbatch | hbatch
    · exact h.built batch hbatch
    · obtain ⟨group, -, hbatch⟩ := mem_flatMap.mp hbatch
      exact drained_built _ _ _ _ batch hbatch
  | batchAnswer i answer =>
    obtain ⟨batch, -, rfl⟩ := Option.map_eq_some_iff.mp hnext
    exact ⟨h.keyed, fun batch hbatch => h.built batch (mem_of_mem_eraseIdx hbatch)⟩
  | restAnswer i turn =>
    obtain ⟨flight, -, rfl⟩ := Option.map_eq_some_iff.mp hnext
    exact ⟨h.keyed, h.built⟩

lemma length_aliasesFrom (index : ℕ) (reads : List GithubSingleObjectRequest) :
    (aliasesFrom index reads).length = reads.length := by
  induction reads generalizing index with
  | nil => rfl
  | cons read reads ih => simp [aliasesFrom, ih]

lemma Batch.Built.reads_aliased {batch : Batch} (h : batch.Built) :
    batch.aliased.map Prod.fst = batch.group := by
  unfold Batch.aliased
  apply map_fst_zip
  rw [(parts_of_build h).2]
  simp [length_aliasesFrom]

lemma reads_settleRows (routing : Option GithubRailRouting) (answer : BatchAnswer)
    (rows : List Row) : (settleRows routing answer rows).map Settled.read = rows.map Prod.fst := by
  induction rows with
  | nil => rfl
  | cons row rows ih =>
    obtain ⟨read, alias_, value⟩ := row
    cases value with
    | none => simp [settleRows, ih]
    | some value =>
      simp only [settleRows]
      split
      · simp [ih]
      · simp [comp_def]

lemma reads_settleBatch {batch : Batch} (h : batch.Built) (answer : BatchAnswer) :
    (settleBatch batch answer).map Settled.read = batch.group := by
  have hrej : ∀ rejection, (batch.reject answer rejection).map Settled.read = batch.group := by
    intro rejection
    rw [← h.reads_aliased]
    simp [Batch.reject, comp_def]
  unfold settleBatch
  split
  · exact hrej _
  · split_ifs
    · exact hrej _
    · exact hrej _
    · rw [reads_settleRows, ← h.reads_aliased]
      simp [Batch.rows, comp_def]

lemma flatten_set (pending : JsMap Text (List PendingSingleObjectRead)) (key : Text)
    (read : PendingSingleObjectRead) :
    (JsMap.set pending key ((pending.lookup key).getD [] ++ [read])).values.flatten.Perm
      (read :: pending.values.flatten) := by
  cases hgroup : pending.lookup key with
  | none =>
    rw [JsMap.values_set_of_none _ hgroup, flatten_append]
    simp only [Option.getD_none, nil_append, flatten_cons, flatten_nil, append_nil]
    exact perm_append_comm
  | some group =>
    obtain ⟨before, after, hold, hnew⟩ := JsMap.values_set_of_some (group ++ [read]) hgroup
    simp only [Option.getD_some]
    rw [hold, hnew]
    classical
    apply perm_iff_count.mpr
    intro other
    simp only [flatten_append, flatten_cons, count_append, count_cons, count_nil]
    omega

lemma reads_next (h : Formed s) (hnext : nextClient gated reading s a = some t) :
    t.reads.Perm (called s a ++ s.reads) ∧ t.calls = s.calls + (called s a).length := by
  cases a with
  | singleObject input =>
    cases hnext
    refine ⟨?_, rfl⟩
    exact (flatten_set s.pending _ ⟨s.calls, input⟩).append_right s.taken
  | flush =>
    simp only [nextClient, Option.ite_none_right_eq_some, Option.some.injEq] at hnext
    obtain ⟨-, rfl⟩ := hnext
    exact ⟨List.Perm.refl _, rfl⟩
  | balance balance =>
    simp only [nextClient, Option.ite_none_right_eq_some, Option.some.injEq] at hnext
    obtain ⟨-, rfl⟩ := hnext
    have htak := taken_drain gated balance s.pending.values
      { s with pending := ∅, flush := .idle }
    obtain ⟨etags, -, hdrain⟩ := drain_fold gated balance s.pending.values
      { s with pending := ∅, flush := .idle }
    rw [hdrain] at htak ⊢
    exact ⟨htak, rfl⟩
  | batchAnswer i answer =>
    obtain ⟨batch, hbatch, rfl⟩ := Option.map_eq_some_iff.mp hnext
    obtain ⟨hi, rfl⟩ := List.getElem?_eq_some_iff.mp hbatch
    refine ⟨?_, rfl⟩
    have hmove : (s.batches[i].group ++ (s.batches.eraseIdx i).flatMap Batch.group).Perm
        (s.batches.flatMap Batch.group) :=
      (getElem_cons_eraseIdx_perm hi).flatMap_right Batch.group
    have hread := reads_settleBatch (h.built _ (getElem_mem hi)) answer
    apply List.Perm.append_left
    simp only [Client.taken, map_append, hread]
    classical
    rw [perm_iff_count] at hmove ⊢
    intro read
    have hcount := hmove read
    simp only [count_append] at hcount ⊢
    omega
  | restAnswer i turn =>
    obtain ⟨flight, hflight, rfl⟩ := Option.map_eq_some_iff.mp hnext
    obtain ⟨hi, rfl⟩ := List.getElem?_eq_some_iff.mp hflight
    refine ⟨?_, rfl⟩
    have hmove : (s.rests[i].read :: (s.rests.eraseIdx i).map RestFlight.read).Perm
        (s.rests.map RestFlight.read) :=
      (getElem_cons_eraseIdx_perm hi).map RestFlight.read
    apply List.Perm.append_left
    simp only [Client.taken, map_append, map_cons, map_nil]
    classical
    rw [perm_iff_count] at hmove ⊢
    intro read
    have hcount := hmove read
    simp only [count_append, count_cons, count_nil] at hcount ⊢
    omega

variable (gated) in
lemma length_drained (balance : Option GithubBalance) (etags : GithubEtagStore Json)
    (group : List PendingSingleObjectRead) :
    (drained gated balance etags group).batches.length +
      (drained gated balance etags group).rests.length ≤ group.length := by
  have hbuilt := drained_built gated balance etags group
  unfold drained at hbuilt ⊢
  split
  · exact Nat.zero_le _
  · split
    · exact Nat.zero_le _
    · next hroute _ query hquery =>
        rw [hroute] at hbuilt
        simp only [hquery] at hbuilt
        have hne := (hbuilt ⟨group, query, _⟩ mem_cons_self).ne_nil
        exact length_pos_iff.mpr hne
  · simp

variable (gated) in
lemma length_drain (balance : Option GithubBalance) (etags : GithubEtagStore Json)
    (groups : List (List PendingSingleObjectRead)) :
    (groups.flatMap fun group => (drained gated balance etags group).batches).length +
      (groups.flatMap fun group => (drained gated balance etags group).rests).length ≤
        groups.flatten.length := by
  induction groups with
  | nil => exact Nat.le_refl 0
  | cons group groups ih =>
    have hgroup := length_drained gated balance etags group
    simp only [flatMap_cons, flatten_cons, length_append]
    omega

lemma due_next (hcall : a.isCall = false) (hnext : nextClient gated reading s a = some t) :
    t.due < s.due := by
  cases a with
  | singleObject input => cases hcall
  | flush =>
    simp only [nextClient, Option.ite_none_right_eq_some, Option.some.injEq] at hnext
    obtain ⟨hflush, rfl⟩ := hnext
    simp [Client.due, hflush]
  | balance balance =>
    simp only [nextClient, Option.ite_none_right_eq_some, Option.some.injEq] at hnext
    obtain ⟨hflush, rfl⟩ := hnext
    obtain ⟨etags, -, hdrain⟩ := drain_fold gated balance s.pending.values
      { s with pending := ∅, flush := .idle }
    have hlength := length_drain gated balance s.etags s.pending.values
    have hempty : (JsMap.values (∅ : JsMap Text (List PendingSingleObjectRead))) = [] := rfl
    rw [hdrain]
    simp only [Client.due, hflush, hempty, flatten_nil, length_nil, length_append]
    omega
  | batchAnswer i answer =>
    obtain ⟨batch, hbatch, rfl⟩ := Option.map_eq_some_iff.mp hnext
    obtain ⟨hi, rfl⟩ := List.getElem?_eq_some_iff.mp hbatch
    simp only [Client.due, length_eraseIdx_of_lt hi]
    omega
  | restAnswer i turn =>
    obtain ⟨flight, hflight, rfl⟩ := Option.map_eq_some_iff.mp hnext
    obtain ⟨hi, rfl⟩ := List.getElem?_eq_some_iff.mp hflight
    simp only [Client.due, length_eraseIdx_of_lt hi]
    omega

/-- A group waits for a flush. -/
def Waits (s : Client) : Prop := s.flush = .idle → s.pending.values.flatten = []

lemma waits_next (h : Waits s) (hnext : nextClient gated reading s a = some t) : Waits t := by
  cases a with
  | singleObject input =>
    cases hnext
    intro hidle
    dsimp only at hidle
    split_ifs at hidle with hflush
    exact absurd hidle hflush
  | flush =>
    simp only [nextClient, Option.ite_none_right_eq_some, Option.some.injEq] at hnext
    obtain ⟨-, rfl⟩ := hnext
    intro hidle
    cases hidle
  | balance balance =>
    simp only [nextClient, Option.ite_none_right_eq_some, Option.some.injEq] at hnext
    obtain ⟨-, rfl⟩ := hnext
    obtain ⟨etags, -, hdrain⟩ := drain_fold gated balance s.pending.values
      { s with pending := ∅, flush := .idle }
    rw [hdrain]
    intro _
    rfl
  | batchAnswer i answer =>
    obtain ⟨batch, -, rfl⟩ := Option.map_eq_some_iff.mp hnext
    exact h
  | restAnswer i turn =>
    obtain ⟨flight, -, rfl⟩ := Option.map_eq_some_iff.mp hnext
    exact h

lemma settled_of_stuck (h : Waits s)
    (hstuck : ∀ a, a.isCall = false → nextClient gated reading s a = none) :
    s.reads = s.settled.map Settled.read := by
  have hidle : s.flush = .idle := by
    cases hflush : s.flush with
    | idle => rfl
    | scheduled =>
      have hnone := hstuck .flush rfl
      simp [nextClient, hflush] at hnone
    | reading =>
      have hnone := hstuck (.balance none) rfl
      simp [nextClient, hflush] at hnone
  have hbatches : s.batches = [] := by
    have hnone := Option.map_eq_none_iff.mp (hstuck (.batchAnswer 0 (.answered .null false)) rfl)
    simpa using hnone
  have hrests : s.rests = [] := by
    have hnone := Option.map_eq_none_iff.mp
      (hstuck (.restAnswer 0 ⟨none, .ok .null ∅, none, []⟩) rfl)
    simpa using hnone
  simp [Client.reads, Client.taken, h hidle, hbatches, hrests]

/-- Each call settles at most once, at once where nothing else is left to come, and that
comes near with each step. -/
structure SettlesOnce (gated : Bool) (reading : LimitReading) (s : Client) : Prop where
  once : (s.settled.map fun e => e.read.id).Nodup
  falls : ∀ a t, a.isCall = false → nextClient gated reading s a = some t → t.due < s.due
  all : (∀ a, a.isCall = false → nextClient gated reading s a = none) →
    ∀ id < s.calls, ∃ e ∈ s.settled, e.read.id = id

/-- What runs keep: all calls are somewhere, each in one place. -/
structure Placed (s : Client) : Prop where
  formed : Formed s
  waits : Waits s
  ids : (s.reads.map (·.id)).Perm (List.range s.calls)

lemma Placed.next (h : Placed s) (hnext : nextClient gated reading s a = some t) : Placed t where
  formed := h.formed.next hnext
  waits := waits_next h.waits hnext
  ids := by
    obtain ⟨hreads, hcalls⟩ := reads_next h.formed hnext
    apply (hreads.map _).trans
    rw [hcalls, List.map_append]
    cases a with
    | singleObject input =>
      simp only [called, List.length_singleton, List.range_succ, List.map_cons, List.map_nil]
      exact List.perm_append_comm.trans (h.ids.append_right [s.calls])
    | _ => exact h.ids

lemma placed_opened (etags : GithubEtagStore Json) : Placed (opened etags) where
  formed := formed_opened etags
  waits _ := rfl
  ids := List.Perm.refl _

lemma Placed.run {as : List ClientStep} {ok : Client → ClientStep → Prop} (h : Placed s)
    (hrun : (clientMachine gated reading).Run ok s as t) : Placed t :=
  hrun.inv Placed (fun _ _ _ hs _ hnext => hs.next hnext) h

lemma Placed.settlesOnce (h : Placed s) : SettlesOnce gated reading s where
  once := by
    have hall : (s.reads.map (·.id)).Nodup := h.ids.nodup_iff.mpr (nodup_range)
    have hsub : (s.settled.map Settled.read).Sublist s.reads :=
      (sublist_append_right _ _).trans
        ((sublist_append_right _ _).trans (sublist_append_right _ _))
    have hids := hall.sublist (hsub.map (·.id))
    rwa [map_map] at hids
  falls _ _ hcall hnext := due_next hcall hnext
  all hstuck id hid := by
    have hmem : id ∈ s.reads.map (·.id) := h.ids.mem_iff.mpr (mem_range.mpr hid)
    rw [settled_of_stuck h.waits hstuck, map_map] at hmem
    exact mem_map.mp hmem

end

section

/-- The object that a cache key stands for, and what GitHub may answer for an object. -/
structure World where
  identity : Text → GithubObject
  Of : GithubObject → Json → Prop

variable {world : World} {gated : Bool} {reading : LimitReading} {s t : Client} {a : ClientStep}

def AliasedSelection.object (s : AliasedSelection) : GithubObject :=
  ⟨s.kind, s.owner, s.repo, some (s.number : ℚ)⟩

def BatchAnswer.data : BatchAnswer → Option Json
  | .thrown _ beside => beside
  | .answered data true => some data
  | .answered _ false => none

/-- The environment keeps to what is asked: a cache key names its object, an answer has under
an alias what its selection asks for, and a body is of the object of the request. -/
def Lawful (world : World) (s : Client) : ClientStep → Prop
  | .singleObject input => world.identity input.cacheKey = input.toGithubObject
  | .batchAnswer i answer => ∀ batch, s.batches[i]? = some batch → ∀ data, answer.data = some data →
      ∀ selection ∈ batch.query.selections, ∀ value,
        valueUnder data selection.alias_ = some value → world.Of selection.object value
  | .restAnswer i turn => ∀ flight, s.rests[i]? = some flight → ∀ body headers,
      turn.response = .ok body headers → world.Of flight.read.input.toGithubObject body
  | _ => True

/-- What resolves a read is its own projection of its own object. -/
def Own (world : World) (e : Settled) : Prop :=
  ∀ answer, e.result = .ok answer → ∃ value, world.Of e.read.input.toGithubObject value ∧
    e.read.input.project value answer.surface = some answer.data

/-- The store, and what is on its way, are of the objects that the keys stand for. -/
structure Held (world : World) (s : Client) : Prop where
  store : ∀ key entry, s.etags.lookup key = some entry → world.Of (world.identity key) entry.data
  named : ∀ read ∈ s.reads, world.identity read.input.cacheKey = read.input.toGithubObject
  rests : ∀ flight ∈ s.rests, ∀ entry, flight.held = some entry →
    world.Of flight.read.input.toGithubObject entry.data
  own : ∀ e ∈ s.settled, Own world e

lemma mem_zip_aliases {group : List PendingSingleObjectRead} {index : ℕ}
    {read : PendingSingleObjectRead} {alias_ : Text}
    (h : (read, alias_) ∈ group.zip ((aliasesFrom index (group.map (·.input))).map Prod.fst)) :
    (alias_, read.input) ∈ aliasesFrom index (group.map (·.input)) := by
  induction group generalizing index with
  | nil => cases h
  | cons head group ih =>
    simp only [map_cons, aliasesFrom, zip_cons_cons, mem_cons] at h ⊢
    rcases h with h | h
    · cases h
      exact .inl rfl
    · exact .inr (ih h)

lemma Batch.Built.selection {batch : Batch} (h : batch.Built) {read : PendingSingleObjectRead}
    {alias_ : Text} (hrow : (read, alias_) ∈ batch.aliased) :
    ∃ selection ∈ batch.query.selections, selection.alias_ = alias_ ∧
      selection.object = read.input.toGithubObject := by
  unfold Batch.aliased at hrow
  rw [(parts_of_build h).2] at hrow
  obtain ⟨selection, hmem, halias, hkind, howner, hrepo, hnumb⟩ :=
    asks_of_alias (parts_of_build h).1 _ (mem_zip_aliases hrow)
  refine ⟨selection, hmem, halias, ?_⟩
  unfold AliasedSelection.object
  rw [hkind, howner, hrepo, ← hnumb]

lemma settleRows_ok {routing : Option GithubRailRouting} {answer : BatchAnswer} {rows : List Row}
    {e : Settled} (he : e ∈ settleRows routing answer rows) {result : GithubSingleObjectAnswer}
    (hok : e.result = .ok result) :
    ∃ row ∈ rows, e.read = row.1 ∧ ∃ value, row.2.2 = some value ∧
      row.1.input.project value .graphql = some result.data ∧ result.surface = .graphql := by
  induction rows with
  | nil => cases he
  | cons row rows ih =>
    have hlat : e ∈ settleRows routing answer rows → ∃ later ∈ row :: rows, e.read = later.1 ∧
        ∃ value, later.2.2 = some value ∧ later.1.input.project value .graphql = some result.data ∧
          result.surface = .graphql := by
      intro hmem
      obtain ⟨later, hlat, hrest⟩ := ih hmem
      exact ⟨later, mem_cons_of_mem row hlat, hrest⟩
    obtain ⟨read, alias_, value⟩ := row
    cases value with
    | none =>
      rcases mem_cons.mp he with rfl | he
      · cases hok
      · exact hlat he
    | some value =>
      simp only [settleRows] at he
      split at he
      · next data hproj =>
          rcases mem_cons.mp he with rfl | he
          · cases hok
            exact ⟨_, mem_cons_self, rfl, value, rfl, hproj, rfl⟩
          · exact hlat he
      · rcases mem_cons.mp he with rfl | he
        · cases hok
        · obtain ⟨row, -, rfl⟩ := mem_map.mp he
          cases hok

lemma settleBatch_own {batch : Batch} (h : batch.Built) {answer : BatchAnswer}
    (hlaw : ∀ data, answer.data = some data → ∀ selection ∈ batch.query.selections, ∀ value,
      valueUnder data selection.alias_ = some value → world.Of selection.object value) :
    ∀ e ∈ settleBatch batch answer, Own world e := by
  intro e he result hok
  have hrej : ∀ rejection, e ∉ batch.reject answer rejection := by
    intro rejection hmem
    obtain ⟨row, -, rfl⟩ := mem_map.mp hmem
    cases hok
  cases answer with
  | thrown error beside => exact absurd he (hrej _)
  | answered data recorded =>
    simp only [settleBatch] at he
    split_ifs at he with hcost hrec
    · exact absurd he (hrej _)
    · exact absurd he (hrej _)
    · obtain ⟨row, hrow, hread, value, hvalue, hproj, hsurf⟩ := settleRows_ok he hok
      obtain ⟨⟨read, alias_⟩, haliased, rfl⟩ := mem_map.mp hrow
      obtain ⟨selection, hmem, halias, hobj⟩ := h.selection haliased
      have hdata : (BatchAnswer.answered data recorded).data = some data := by
        rw [Bool.not_eq_false] at hrec
        rw [hrec]
        rfl
      rw [hread, hsurf]
      refine ⟨value, ?_, hproj⟩
      rw [← hobj]
      apply hlaw data hdata selection hmem value
      rw [halias]
      exact hvalue

lemma written_of {turn : Turn Json} {held : Option (GithubEtagEntry Json)}
    {entry : GithubEtagEntry Json} {object : GithubObject} (h : Written turn held entry)
    (hheld : ∀ old, held = some old → world.Of object old.data)
    (hlaw : ∀ body headers, turn.response = .ok body headers → world.Of object body) :
    world.Of object entry.data := by
  unfold Written at h
  split at h
  · next body headers hresp =>
      obtain ⟨etag, -, rfl⟩ := h
      exact hlaw body headers hresp
  · obtain ⟨-, old, hold, rfl⟩ := h
    exact hheld old hold

lemma response_ungated (turn : Turn Json) : (ungated gated turn).response = turn.response := by
  unfold ungated
  split_ifs
  · rfl
  · rfl

lemma Held.next (h : Held world s) (hform : Formed s) (hlaw : Lawful world s a)
    (hnext : nextClient gated reading s a = some t) : Held world t := by
  have hnam : ∀ read ∈ t.reads, world.identity read.input.cacheKey = read.input.toGithubObject := by
    intro read hread
    have hmem := (reads_next hform hnext).1.mem_iff.mp hread
    rcases mem_append.mp hmem with hcalled | hold
    · cases a with
      | singleObject input =>
        obtain rfl := mem_singleton.mp hcalled
        exact hlaw
      | _ => cases hcalled
    · exact h.named read hold
  cases a with
  | singleObject input =>
    cases hnext
    exact ⟨h.store, hnam, h.rests, h.own⟩
  | flush =>
    simp only [nextClient, Option.ite_none_right_eq_some, Option.some.injEq] at hnext
    obtain ⟨-, rfl⟩ := hnext
    exact ⟨h.store, hnam, h.rests, h.own⟩
  | balance balance =>
    simp only [nextClient, Option.ite_none_right_eq_some, Option.some.injEq] at hnext
    obtain ⟨-, rfl⟩ := hnext
    obtain ⟨etags, hsame, hdrain⟩ := drain_fold gated balance s.pending.values
      { s with pending := ∅, flush := .idle }
    rw [hdrain] at hnam ⊢
    refine ⟨?_, hnam, ?_, ?_⟩
    · intro key entry hentry
      exact h.store key entry ((hsame key).symm.trans hentry)
    · intro flight hflight entry hentry
      rcases mem_append.mp hflight with hflight | hflight
      · exact h.rests flight hflight entry hentry
      · obtain ⟨group, hgroup, hflight⟩ := mem_flatMap.mp hflight
        obtain ⟨hread, hheld⟩ := drained_rests flight hflight
        have hpend : flight.read ∈ s.reads :=
          mem_append_left _ (mem_flatten.mpr ⟨group, hgroup, hread⟩)
        rw [← h.named _ hpend]
        exact h.store _ entry (hheld.symm.trans hentry)
    · intro e he
      rcases mem_append.mp he with he | he
      · exact h.own e he
      · obtain ⟨group, -, he⟩ := mem_flatMap.mp he
        obtain ⟨rejection, hrejec⟩ := drained_settled e he
        intro answer hok
        rw [hrejec] at hok
        cases hok
  | batchAnswer i answer =>
    obtain ⟨batch, hbatch, rfl⟩ := Option.map_eq_some_iff.mp hnext
    refine ⟨h.store, hnam, h.rests, ?_⟩
    intro e he
    rcases mem_append.mp he with he | he
    · exact h.own e he
    · have hbuilt := hform.built batch (mem_of_getElem? hbatch)
      exact settleBatch_own hbuilt (hlaw batch hbatch) e he
  | restAnswer i turn =>
    obtain ⟨flight, hflight, rfl⟩ := Option.map_eq_some_iff.mp hnext
    have hmem : flight ∈ s.rests := mem_of_getElem? hflight
    have hbody : ∀ body headers, (ungated gated turn).response = .ok body headers →
        world.Of flight.read.input.toGithubObject body := by
      rw [response_ungated]
      exact hlaw flight hflight
    have hread : flight.read ∈ s.reads := by
      apply mem_append_right
      apply mem_append_right
      exact mem_append_left _ (mem_map_of_mem hmem)
    refine ⟨?_, hnam, ?_, ?_⟩
    · intro key entry hentry
      rcases lookup_answered hentry with hold | ⟨rfl, hwritt⟩
      · exact h.store key entry hold
      · change world.Of (world.identity flight.read.input.cacheKey) entry.data
        rw [h.named _ hread]
        exact written_of hwritt (h.rests flight hmem) hbody
    · intro other hoth
      exact h.rests other (mem_of_mem_eraseIdx hoth)
    · intro e he
      rcases mem_append.mp he with he | he
      · exact h.own e he
      · obtain rfl := mem_singleton.mp he
        intro answer hok
        dsimp only [settleRest] at hok
        split at hok
        · cases hok
        · next rest hrest =>
            split at hok
            · cases hok
            · next data hproj =>
                cases hok
                refine ⟨rest.data, ?_, hproj⟩
                rcases answered_data hrest with ⟨-, headers, hresp⟩ | ⟨entry, hentry, hdata⟩
                · exact hbody rest.data headers hresp
                · rw [hdata]
                  exact h.rests flight hmem entry hentry

end

section
variable {gated : Bool} {reading : LimitReading} {s t : Client} {a : ClientStep}

def aloneData (read : PendingSingleObjectRead) (alias_ : Text) (data : Json) : Option Json :=
  (valueUnder data alias_).bind fun value => read.input.project value .graphql

def Settled.data (e : Settled) : Option Json :=
  match e.result with
  | .ok answer => some answer.data
  | .error _ => none

/-- The read is settled as it would be had all others of its query been valid, answered, and
projected. -/
def Alone (e : Settled) : Prop :=
  match e.met with
  | .unsent => ¬ Valid e.read.input
  | .batch alias_ answer => e.data = answer.data.bind fun data =>
    if graphqlPointCost data = none then none else aloneData e.read alias_ data
  | _ => True

def Row.alone (row : Row) : Option Json :=
  row.2.2.bind fun value => row.1.input.project value .graphql

def Row.throws (row : Row) : Prop := row.2.2.isSome = true ∧ row.alone = none

/-- No read of the query suffers from another one. -/
def IsolatedAnswer (batch : Batch) : BatchAnswer → Prop
  | .thrown _ none => True
  | .thrown _ (some data) =>
    graphqlPointCost data = none ∨ ∀ row ∈ batch.rows data, row.alone = none
  | .answered data recorded => graphqlPointCost data = none ∨ recorded = false ∨
      (batch.rows data).Pairwise fun row later => row.throws → later.alone = none

/-- No valid read is in one query with an invalid one. -/
def IsolatedGroup (gated : Bool) (balance : Option GithubBalance) (etags : GithubEtagStore Json)
    (group : List PendingSingleObjectRead) : Prop :=
  ∀ routing, routeGroup gated balance (holds etags) group = .batch routing →
    (∀ read ∈ group, Valid read.input) ∨ ∀ read ∈ group, ¬ Valid read.input

def Isolated (gated : Bool) (s : Client) : ClientStep → Prop
  | .balance balance => ∀ group ∈ s.pending.values, IsolatedGroup gated balance s.etags group
  | .batchAnswer i answer => ∀ batch, s.batches[i]? = some batch → IsolatedAnswer batch answer
  | _ => True

lemma alone_drained {balance : Option GithubBalance} {etags : GithubEtagStore Json}
    {group : List PendingSingleObjectRead} (hne : group ≠ []) {kind : GithubSingleObjectKind}
    (hkind : ∀ read ∈ group, read.input.kind = kind) :
    (∀ e ∈ (drained gated balance etags group).settled, Alone e) ↔
      IsolatedGroup gated balance etags group := by
  have hinputs : group.map (·.input) ≠ [] := by simpa using hne
  have hbuild := build_ok hinputs (by simpa using hkind)
  unfold drained IsolatedGroup
  cases hroute : routeGroup gated balance (holds etags) group with
  | refuse pool resetAt =>
    constructor
    · intro _ routing hbatch
      cases hbatch
    · intro _ e he
      obtain ⟨read, -, rfl⟩ := mem_map.mp he
      trivial
  | batch routing =>
    dsimp only
    cases hquery : buildSingleObjectReadsQuery (group.map (·.input)) with
    | error error =>
      have hinv : ¬ ∀ read ∈ group, Valid read.input := by
        intro hall
        have hsome := hbuild.mpr (by simpa using hall)
        rw [hquery] at hsome
        obtain ⟨query, hcas⟩ := hsome
        cases hcas
      constructor
      · intro halone _ _
        apply Or.inr
        intro read hread
        exact halone _ (mem_map_of_mem hread)
      · intro hisol e he
        obtain ⟨read, hread, rfl⟩ := mem_map.mp he
        exact (hisol routing rfl).resolve_left hinv read hread
    | ok query =>
      constructor
      · intro _ _ _
        apply Or.inl
        have hall := hbuild.mp ⟨query, hquery⟩
        simpa using hall
      · intro _ e he
        cases he
  | rest routing =>
    constructor
    · intro _ _ hbatch
      cases hbatch
    · intro _ e he
      cases he

lemma alone_settleRows {routing : Option GithubRailRouting} {data : Json} {rows : List Row}
    (hcost : graphqlPointCost data ≠ none)
    (hrows : ∀ row ∈ rows, row.2.2 = valueUnder data row.2.1) :
    (∀ e ∈ settleRows routing (.answered data true) rows, Alone e) ↔
      rows.Pairwise fun row later => row.throws → later.alone = none := by
  have halone : ∀ row ∈ rows, ∀ result, Alone ⟨row.1, result, .batch row.2.1 (.answered data true)⟩ ↔
      Settled.data ⟨row.1, result, .refused⟩ = row.alone := by
    intro row hrow result
    unfold Alone aloneData Row.alone
    rw [hrows row hrow]
    simp [BatchAnswer.data, hcost, Settled.data]
  induction rows with
  | nil => simp [settleRows]
  | cons row rows ih =>
    have htail : (∀ e ∈ settleRows routing (.answered data true) rows, Alone e) ↔
        rows.Pairwise fun row later => row.throws → later.alone = none :=
      ih (fun later hlat => hrows later (mem_cons_of_mem row hlat))
        fun later hlat => halone later (mem_cons_of_mem row hlat)
    have hhead := halone row mem_cons_self
    obtain ⟨read, alias_, value⟩ := row
    rw [pairwise_cons, ← htail]
    cases value with
    | none =>
      have hquiet : ¬ Row.throws (read, alias_, none) := fun h => Bool.false_ne_true h.1
      simp only [settleRows, forall_mem_cons]
      rw [hhead]
      simp [hquiet, Settled.data, Row.alone]
    | some value =>
      simp only [settleRows]
      cases hproj : read.input.project value .graphql with
      | some projected =>
        have hquiet : ¬ Row.throws (read, alias_, some value) := by
          intro h
          have hnone := h.2
          simp [Row.alone, hproj] at hnone
        simp only [forall_mem_cons]
        rw [hhead]
        simp [hquiet, Settled.data, Row.alone, hproj]
      | none =>
        have hthr : Row.throws (read, alias_, some value) := by
          refine ⟨rfl, ?_⟩
          simp [Row.alone, hproj]
        have hlat : (∀ later ∈ rows, later.alone = none) →
            ∀ e ∈ settleRows routing (.answered data true) rows, Alone e := by
          intro hnone
          apply htail.mpr
          apply pairwise_of_forall_mem_list
          intro _ _ later hmem _
          exact hnone later hmem
        have hrest : (∀ e ∈ rows.map fun row => (⟨row.1, .error .projection,
              .batch row.2.1 (.answered data true)⟩ : Settled), Alone e) ↔
            ∀ later ∈ rows, later.alone = none := by
          rw [forall_mem_map]
          apply forall₂_congr
          intro later hmem
          rw [halone later (mem_cons_of_mem _ hmem)]
          exact eq_comm
        simp only [forall_mem_cons, hthr, true_implies]
        rw [hhead, hrest]
        constructor
        · exact fun h => ⟨h.2, hlat h.2⟩
        · refine fun h => ⟨?_, h.1⟩
          simp [Settled.data, Row.alone, hproj]

lemma alone_settleBatch {batch : Batch} (answer : BatchAnswer) :
    (∀ e ∈ settleBatch batch answer, Alone e) ↔ IsolatedAnswer batch answer := by
  have hrej : ∀ rejection, (∀ e ∈ batch.reject answer rejection, Alone e) ↔
      ∀ row ∈ batch.aliased, (answer.data.bind fun data =>
        if graphqlPointCost data = none then none else aloneData row.1 row.2 data) = none := by
    intro rejection
    unfold Batch.reject
    rw [forall_mem_map]
    apply forall₂_congr
    intro row _
    exact eq_comm
  cases answer with
  | thrown error beside =>
    simp only [settleBatch, hrej]
    cases beside with
    | none => simp [IsolatedAnswer, BatchAnswer.data]
    | some data =>
      simp only [IsolatedAnswer, BatchAnswer.data, Option.bind_some, Batch.rows, forall_mem_map]
      by_cases hcost : graphqlPointCost data = none
      · simp [hcost]
      · simp [hcost, aloneData, Row.alone]
  | answered data recorded =>
    simp only [settleBatch, IsolatedAnswer]
    by_cases hcost : graphqlPointCost data = none
    · simp only [hcost, if_true, true_or, iff_true]
      rw [hrej]
      intro row _
      cases recorded with
      | false => rfl
      | true => simp [BatchAnswer.data, hcost]
    · cases recorded with
      | false =>
        simp only [hcost, if_false, if_true, true_or, or_true, iff_true]
        rw [hrej]
        intro row _
        rfl
      | true =>
        simp only [hcost, Bool.true_eq_false, if_false, false_or]
        apply alone_settleRows hcost
        intro row hrow
        obtain ⟨aliased, -, rfl⟩ := mem_map.mp hrow
        rfl

lemma kind_of_groupKey {input other : GithubSingleObjectRequest}
    (h : singleObjectGroupKey input = singleObjectGroupKey other) : input.kind = other.kind := by
  have hhead := congrArg head? h
  unfold singleObjectGroupKey at hhead
  cases hinp : input.kind with
  | issue =>
    cases hoth : other.kind with
    | issue => rfl
    | pr =>
      rw [hinp, hoth] at hhead
      exact absurd (Option.some.inj hhead) (by decide)
  | pr =>
    cases hoth : other.kind with
    | pr => rfl
    | issue =>
      rw [hinp, hoth] at hhead
      exact absurd (Option.some.inj hhead) (by decide)

lemma Formed.group_kind (h : Formed s) {group : List PendingSingleObjectRead}
    (hgroup : group ∈ s.pending.values) :
    group ≠ [] ∧ ∃ kind, ∀ read ∈ group, read.input.kind = kind := by
  obtain ⟨key, hlook⟩ := JsMap.mem_values.mp hgroup
  obtain ⟨hne, hkeyed⟩ := h.keyed key group hlook
  refine ⟨hne, ?_⟩
  cases group with
  | nil => exact absurd rfl hne
  | cons first rest =>
    refine ⟨first.input.kind, ?_⟩
    intro read hread
    exact kind_of_groupKey ((hkeyed read hread).trans (hkeyed first mem_cons_self).symm)

lemma alone_next (h : Formed s) (hnext : nextClient gated reading s a = some t) :
    (∀ e ∈ t.settled, Alone e) ↔ (∀ e ∈ s.settled, Alone e) ∧ Isolated gated s a := by
  cases a with
  | singleObject input =>
    cases hnext
    exact (and_iff_left trivial).symm
  | flush =>
    simp only [nextClient, Option.ite_none_right_eq_some, Option.some.injEq] at hnext
    obtain ⟨-, rfl⟩ := hnext
    exact (and_iff_left trivial).symm
  | balance balance =>
    simp only [nextClient, Option.ite_none_right_eq_some, Option.some.injEq] at hnext
    obtain ⟨-, rfl⟩ := hnext
    obtain ⟨etags, -, hdrain⟩ := drain_fold gated balance s.pending.values
      { s with pending := ∅, flush := .idle }
    rw [hdrain]
    simp only [forall_mem_append, forall_mem_flatMap]
    apply and_congr_right'
    apply forall₂_congr
    intro group hgroup
    obtain ⟨hne, kind, hkind⟩ := h.group_kind hgroup
    exact alone_drained hne hkind
  | batchAnswer i answer =>
    obtain ⟨batch, hbatch, rfl⟩ := Option.map_eq_some_iff.mp hnext
    rw [forall_mem_append, alone_settleBatch]
    apply and_congr_right'
    constructor
    · intro hisol other hoth
      rw [hbatch] at hoth
      cases hoth
      exact hisol
    · exact fun hisol => hisol batch hbatch
  | restAnswer i turn =>
    obtain ⟨flight, -, rfl⟩ := Option.map_eq_some_iff.mp hnext
    rw [forall_mem_append]
    apply and_congr_right'
    constructor
    · exact fun _ => trivial
    · intro _ e he
      obtain rfl := mem_singleton.mp he
      trivial

lemma alone_run {as : List ClientStep} (h : Formed s)
    (hrun : (clientMachine gated reading).Run anyStep s as t) :
    (∀ e ∈ t.settled, Alone e) ↔
      (∀ e ∈ s.settled, Alone e) ∧ (clientMachine gated reading).Run (Isolated gated) s as t := by
  induction hrun with
  | nil s => exact (and_iff_left (.nil s)).symm
  | cons _ hnext _ ih =>
    rw [ih (h.next hnext), alone_next h hnext, and_assoc]
    apply and_congr_right'
    constructor
    · rintro ⟨hisol, hrest⟩
      exact .cons hisol hnext hrest
    · intro hrun
      cases hrun with
      | cons hisol hnext' hrest =>
        rw [hnext] at hnext'
        cases hnext'
        exact ⟨hisol, hrest⟩

end

/-- Each call settles once, and with its own projection of its own object. -/
theorem settles_alone_iff_isolated {gated : Bool} {reading : LimitReading}
    {etags : GithubEtagStore Json} {as : List ClientStep} {s : Client}
    (h : (clientMachine gated reading).Run anyStep (opened etags) as s) :
    SettlesOnce gated reading s ∧ (∀ world : World,
        (∀ key entry, etags.lookup key = some entry → world.Of (world.identity key) entry.data) →
        (clientMachine gated reading).Run (Lawful world) (opened etags) as s →
          ∀ e ∈ s.settled, Own world e) ∧
      ((∀ e ∈ s.settled, Alone e) ↔
        (clientMachine gated reading).Run (Isolated gated) (opened etags) as s) := by
  refine ⟨((placed_opened etags).run h).settlesOnce, ?_, ?_⟩
  · intro world hstore hrun
    have hstart : Formed (opened etags) ∧ Held world (opened etags) := by
      refine ⟨formed_opened etags, hstore, ?_, ?_, ?_⟩
      · intro read hread
        cases hread
      · intro flight hflight
        cases hflight
      · intro e he
        cases he
    have hend := hrun.inv (fun s => Formed s ∧ Held world s)
      (fun _ _ _ hs hlaw hnext => ⟨hs.1.next hnext, hs.2.next hs.1 hlaw hnext⟩) hstart
    exact hend.2.own
  · rw [alone_run (formed_opened etags) h]
    apply and_iff_right
    intro e he
    cases he

section

def whole : Json → GithubApiSurface → Option Json := fun value _ => some value

def pull (n : ℕ) (project : Json → GithubApiSurface → Option Json) : GithubSingleObjectRequest where
  kind := .pr
  owner := "o".toList
  repo := "r".toList
  number := some (n : ℚ)
  selection := "title".toList
  cacheKey := "merge:pr:o/r:".toList ++ Text.number n ++ ":title".toList
  operationKey := "merge".toList
  budget := .rest
  rail := some .graphql
  project

def titled (title : Text) : Json := .object [("title".toList, .string title)]

def twoTitles : Json :=
  .object [("r0".toList, .object [("object".toList, titled "one".toList)]),
    ("r1".toList, .object [("object".toList, titled "two".toList)]),
    ("rateLimit".toList, .object [("cost".toList, .number ⟨"1".toList, by decide⟩)])]

lemma cost_twoTitles : graphqlPointCost twoTitles = some 1 := by
  have hnumb : Text.toNumber "1".toList = some ⟨false, ((1 : ℕ) : ℚ≥0)⟩ := by
    rw [Text.toNumber_digits (by decide) (by decide), ← JsNumber.nearest_natCast (by decide)]
    rfl
  have hcost : graphqlPointCost twoTitles = safeCount (.number ⟨"1".toList, by decide⟩) := rfl
  rw [hcost]
  simp only [safeCount, hnumb]
  simp

def coldClient : Client := opened (Recency.create githubEtagStoreCapacity)

def twoPulls (project : Json → GithubApiSurface → Option Json) : List PendingSingleObjectRead :=
  [⟨0, pull 1 project⟩, ⟨1, pull 2 whole⟩]

def twoPullsBatch (project : Json → GithubApiSurface → Option Json) : Batch where
  group := twoPulls project
  query := {
    selections := [⟨aliasFor 0, .pr, "o".toList, "r".toList, 1, "title".toList⟩,
      ⟨aliasFor 1, .pr, "o".toList, "r".toList, 2, "title".toList⟩]
    aliases := [(aliasFor 0, pull 1 project), (aliasFor 1, pull 2 whole)] }
  routing := some {
    requestedRail := .graphql
    selectedRail := .graphql
    rerouted := false
    pool := .graphql
    resetAt := none
    reason := GithubApiSurface.graphql.text ++
      " pool balance is unknown, so the explicit rail is honored reactively".toList }

def twoPullsAsked (project : Json → GithubApiSurface → Option Json) : Client :=
  { coldClient with batches := [twoPullsBatch project], calls := 2 }

def noLimits : LimitReading := ⟨fun _ => false, fun _ _ _ => none, fun _ => none⟩

def onePullCalled (project : Json → GithubApiSurface → Option Json) : Client :=
  { coldClient with
    pending := JsMap.set ∅ "pr:graphql".toList [⟨0, pull 1 project⟩]
    flush := .scheduled
    calls := 1 }

def twoPullsCalled (project : Json → GithubApiSurface → Option Json) : Client :=
  { coldClient with
    pending := JsMap.set ∅ "pr:graphql".toList (twoPulls project)
    flush := .scheduled
    calls := 2 }

def twoPullsReading (project : Json → GithubApiSurface → Option Json) : Client :=
  { twoPullsCalled project with flush := .reading }

def twoPullsAnswer : ClientStep := .batchAnswer 0 (.answered twoTitles true)

def twoPullsSettled (project : Json → GithubApiSurface → Option Json) : Client :=
  { coldClient with
    calls := 2
    settled := settleBatch (twoPullsBatch project) (.answered twoTitles true) }

def twoPullsSteps (project : Json → GithubApiSurface → Option Json) : List ClientStep :=
  [.singleObject (pull 1 project), .singleObject (pull 2 whole), .flush, .balance none,
    twoPullsAnswer]

lemma next_twoPullsReading (project : Json → GithubApiSurface → Option Json) :
    nextClient false noLimits (twoPullsReading project) (.balance none) =
      some (twoPullsAsked project) := by
  rfl

lemma run_twoPulls (project : Json → GithubApiSurface → Option Json)
    {ok : Client → ClientStep → Prop}
    (hcall : ∀ s input, input = pull 1 project ∨ input = pull 2 whole → ok s (.singleObject input))
    (hflush : ∀ s, ok s .flush) (hbal : ok (twoPullsReading project) (.balance none))
    (hansw : ok (twoPullsAsked project) twoPullsAnswer) :
    (clientMachine false noLimits).Run ok coldClient (twoPullsSteps project)
      (twoPullsSettled project) := by
  have hfirst : (clientMachine false noLimits).next coldClient (.singleObject (pull 1 project)) =
      some (onePullCalled project) := rfl
  have hsec : (clientMachine false noLimits).next (onePullCalled project)
      (.singleObject (pull 2 whole)) = some (twoPullsCalled project) := rfl
  refine .cons (hcall _ _ (.inl rfl)) hfirst (.cons (hcall _ _ (.inr rfl)) hsec ?_)
  exact .cons (hflush _) rfl (.cons hbal (next_twoPullsReading project) (.single hansw rfl))

lemma anyRun_twoPulls (project : Json → GithubApiSurface → Option Json) :
    (clientMachine false noLimits).Run anyStep coldClient (twoPullsSteps project)
      (twoPullsSettled project) :=
  run_twoPulls project (fun _ _ _ => trivial) (fun _ => trivial) trivial trivial

lemma rows_twoPulls (project : Json → GithubApiSurface → Option Json) :
    (twoPullsBatch project).rows twoTitles =
      [(⟨0, pull 1 project⟩, aliasFor 0, some (titled "one".toList)),
        (⟨1, pull 2 whole⟩, aliasFor 1, some (titled "two".toList))] := by
  rfl

/-- The projection of the first read throws, and the second one is rejected with it. -/
theorem neighbour_throws :
    ¬ ∀ s, (clientMachine false noLimits).Reach anyStep s → ∀ e ∈ s.settled, Alone e := by
  intro h
  have halone := h _ ⟨coldClient, _, ⟨_, rfl⟩, anyRun_twoPulls fun _ _ => none⟩
  rcases (alone_settleBatch (.answered twoTitles true)).mp halone with hcost | hrec | hpairs
  · rw [cost_twoTitles] at hcost
    cases hcost
  · cases hrec
  · rw [rows_twoPulls, pairwise_cons] at hpairs
    have hlat := hpairs.1 _ (mem_singleton.mpr rfl) ⟨rfl, rfl⟩
    cases hlat

def twoPullsWorld : World where
  identity key :=
    if key = (pull 1 whole).cacheKey then (pull 1 whole).toGithubObject
    else (pull 2 whole).toGithubObject
  Of object value :=
    object = (pull 1 whole).toGithubObject ∧ value = titled "one".toList ∨
      object = (pull 2 whole).toGithubObject ∧ value = titled "two".toList

lemma lawful_twoPulls : (clientMachine false noLimits).Run (Lawful twoPullsWorld) coldClient
    (twoPullsSteps whole) (twoPullsSettled whole) := by
  refine run_twoPulls whole ?_ (fun _ => trivial) trivial ?_
  · rintro s input (rfl | rfl)
    · rfl
    · rfl
  · intro batch hbatch data hdata selection hsel value hvalue
    cases hbatch
    cases hdata
    rcases mem_cons.mp hsel with rfl | hsel
    · cases hvalue
      exact .inl ⟨rfl, rfl⟩
    · obtain rfl := mem_singleton.mp hsel
      cases hvalue
      exact .inr ⟨rfl, rfl⟩

lemma isolated_twoPulls : (clientMachine false noLimits).Run (Isolated false) coldClient
    (twoPullsSteps whole) (twoPullsSettled whole) := by
  refine run_twoPulls whole (fun _ _ _ => trivial) (fun _ => trivial) ?_ ?_
  · intro group hgroup routing _
    obtain rfl := mem_singleton.mp hgroup
    apply Or.inl
    intro read hread
    rcases mem_cons.mp hread with rfl | hread
    · exact ⟨rfl, by decide⟩
    · obtain rfl := mem_singleton.mp hread
      exact ⟨rfl, by decide⟩
  · intro batch hbatch
    cases hbatch
    refine .inr (.inr ?_)
    rw [rows_twoPulls]
    refine .cons ?_ (pairwise_singleton _ _)
    intro later _ hthr
    cases hthr.2

theorem two_titles_settle_alone : SettlesOnce false noLimits (twoPullsSettled whole) ∧
      (∀ e ∈ (twoPullsSettled whole).settled, Own twoPullsWorld e) ∧
      ∀ e ∈ (twoPullsSettled whole).settled, Alone e := by
  obtain ⟨honce, hown, halone⟩ := settles_alone_iff_isolated (anyRun_twoPulls whole)
  refine ⟨honce, hown twoPullsWorld ?_ lawful_twoPulls, halone.mpr isolated_twoPulls⟩
  intro key entry hentry
  cases hentry

end
end Redskilled.Github
