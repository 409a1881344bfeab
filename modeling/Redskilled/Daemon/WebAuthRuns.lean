import Redskilled.Daemon.WebAuthSerial
import Redskilled.Foundation.SoleOwner

/-!
# Interleaved calls

Only the call that created the lock file is between its read and its rename, so as long as
no read of a file that is there fails, the changes of all calls are serial in the order in
which their files were put in place.
-/
namespace Redskilled.Daemon.WebAuth
open Foundation List Option Function

def Phase.inside : Phase → Bool
  | .reading _ => true
  | .writing _ _ => true
  | .renaming _ _ => true
  | .closing _ _ => true
  | .removing _ _ => true
  | _ => false

def Phase.draft : Phase → Option Commit
  | .writing _ draft => some draft
  | .renaming _ draft => some draft
  | _ => none

def Phase.early : Phase → Bool
  | .making => true
  | .opening _ => true
  | .reading _ => true
  | _ => false

def Phase.late : Phase → Bool
  | .closing _ none => true
  | .removing _ none => true
  | .failed => true
  | _ => false

def Phase.done : Phase → Bool
  | .closing _ none => true
  | .removing _ none => true
  | .returned => true
  | _ => false

def Phase.error : Phase → Option Fault
  | .closing _ error => error
  | .removing _ error => error
  | _ => none

def isInside (call : Option Call) : Bool := call.any fun call => call.phase.inside

/-- A file that is there is read, and nothing that is done inside the lock fails as if the
lock existed. -/
def ReadsAll (g : State) : Step → Prop
  | .read _ fails _ _ => fails = true → g.file = none
  | .write _ fault => fault ≠ some .eexist
  | .rename _ fault => fault ≠ some .eexist
  | .close _ fault => fault ≠ some .eexist
  | .remove _ fault => fault ≠ some .eexist
  | _ => True

structure Drafted (hash : Text → Text) (g : State) (i : ℕ) (call : Call) (draft : Commit) :
    Prop where
  own : draft.call = i
  request : draft.request = call.request
  captured : call.captured = draft.captured hash
  id : draft.draws.deviceId ∈ g.ids
  follows : Follows hash g.commits draft

/-- The tokens of new invitations have hashes of their own. -/
structure Requests (hash : Text → Text) (calls : ℕ → Option Call) (hashes ids : List Text) :
    Prop where
  tokens : ∀ i call, calls i = some call → hashesOf hash call.request ⊆ hashes
  apart : ∀ i j call call', calls i = some call → calls j = some call' →
    ∀ h ∈ hashesOf hash call.request, h ∈ hashesOf hash call'.request → i = j
  named : ∀ i call, calls i = some call → idsOf call.request ⊆ ids

structure Inv (hash : Text → Text) (g : State) : Prop where
  lock : Backed g.lock (fun a p => a = p) (insiders isInside g.calls)
  serial : Serial hash g.commits
  file : g.file = g.commits.getLast?.map (Commit.next hash)
  drafts : ∀ i call draft, g.calls i = some call → call.phase.draft = some draft →
    Drafted hash g i call draft
  early : ∀ i call, g.calls i = some call → call.phase.early = true → call.captured = {}
  errors : ∀ i call, g.calls i = some call → call.phase.error ≠ some .eexist
  requests : Requests hash g.calls g.hashes g.ids
  ids : ∀ c ∈ g.commits, c.ids ⊆ g.ids
  settled : ∀ c ∈ g.commits, ∃ call, g.calls c.call = some call ∧ c.request = call.request ∧
    call.captured = c.captured hash ∧
      (call.phase = .returned ∨ call.phase.late = true ∧ g.lock = some c.call)
  completed : ∀ c ∈ g.commits.dropLast, ∃ call, g.calls c.call = some call ∧ call.phase = .returned
  single : (g.commits.map (·.call)).Nodup
  done : ∀ i call, g.calls i = some call → call.phase.done = true →
    call.request = .authenticateWebSession [] ∧ call.captured = {} ∨ ∃ c ∈ g.commits, c.call = i

section
variable {hash : Text → Text} {g : State} {i : ℕ} {call call' : Call}

def State.moved (g : State) (i : ℕ) (call : Call) (lock : Option ℕ) (ids : List Text) : State :=
  { g with calls := Function.update g.calls i (some call), lock, ids }

variable {attempt : ℕ} {calls : ℕ → Option Call}

lemma calls_update {j : ℕ} {found : Call} (h : Function.update calls i (some call) j = some found) :
    j = i ∧ found = call ∨ j ≠ i ∧ calls j = some found := by
  by_cases hj : j = i
  · subst hj
    rw [update_self] at h
    exact .inl ⟨rfl, (some.inj h).symm⟩
  · rw [update_of_ne hj] at h
    exact .inr ⟨hj, h⟩

lemma Requests.update {hashes ids ids' : List Text}
    (h : Requests hash calls hashes ids) (hcall : calls i = some call)
    (hreq : call'.request = call.request) (hids : ids ⊆ ids') :
    Requests hash (Function.update calls i (some call')) hashes ids' := by
  have hold : ∀ {j : ℕ} {found : Call}, Function.update calls i (some call') j = some found →
      ∃ old, calls j = some old ∧ found.request = old.request := by
    intro j found hfound
    rcases calls_update hfound with ⟨rfl, rfl⟩ | ⟨_, hold⟩
    · exact ⟨call, hcall, hreq⟩
    · exact ⟨found, hold, rfl⟩
  constructor
  · intro j found hfound
    obtain ⟨old, hj, hsame⟩ := hold hfound
    rw [hsame]
    exact h.tokens j old hj
  · intro j k found found' hfound hfound' x hx hx'
    obtain ⟨old, hj, hsame⟩ := hold hfound
    obtain ⟨old', hk, hsame'⟩ := hold hfound'
    rw [hsame] at hx
    rw [hsame'] at hx'
    exact h.apart j k old old' hj hk x hx hx'
  · intro j found hfound
    obtain ⟨old, hj, hsame⟩ := hold hfound
    rw [hsame]
    exact List.Subset.trans (h.named j old hj) hids

lemma Requests.called {hashes ids : List Text}
    (h : Requests hash calls hashes ids) (hfresh : isFresh hash hashes call.request = true) :
    Requests hash (Function.update calls i (some call)) (hashesOf hash call.request ++ hashes)
      (idsOf call.request ++ ids) := by
  have hother : ∀ {j : ℕ} {found : Call}, calls j = some found →
      ∀ x ∈ hashesOf hash call.request, x ∉ hashesOf hash found.request := by
    intro j found hfound x hx hx'
    have hmem := h.tokens j found hfound hx'
    cases hreq : call.request with
    | createWebInvitation token calledAt name =>
      rw [hreq] at hx hfresh
      obtain rfl := mem_singleton.mp hx
      simp only [isFresh, decide_eq_true_eq] at hfresh
      exact hfresh hmem
    | _ =>
      rw [hreq] at hx
      cases hx
  constructor
  · intro j found hfound
    rcases calls_update hfound with ⟨rfl, rfl⟩ | ⟨_, hold⟩
    · exact subset_append_left _ _
    · exact List.Subset.trans (h.tokens j found hold) (subset_append_right _ _)
  · intro j k found found' hfound hfound' x hx hx'
    rcases calls_update hfound with ⟨rfl, rfl⟩ | ⟨_, hold⟩
    · rcases calls_update hfound' with ⟨rfl, _⟩ | ⟨_, hold'⟩
      · rfl
      · exact absurd hx' (hother hold' x hx)
    · rcases calls_update hfound' with ⟨rfl, rfl⟩ | ⟨_, hold'⟩
      · exact absurd hx (hother hold x hx')
      · exact h.apart j k found found' hold hold' x hx hx'
  · intro j found hfound
    rcases calls_update hfound with ⟨rfl, rfl⟩ | ⟨_, hold⟩
    · exact subset_append_left _ _
    · exact List.Subset.trans (h.named j found hold) (subset_append_right _ _)

lemma Inv.moved (h : Inv hash g) (hcall : g.calls i = some call) {lock : Option ℕ}
    {ids : List Text} (hreq : call'.request = call.request) (hids : g.ids ⊆ ids)
    (hlock : Backed lock (fun a p => a = p)
      (insiders isInside (Function.update g.calls i (some call'))))
    (hdraft : ∀ draft, call'.phase.draft = some draft →
      Drafted hash (g.moved i call' lock ids) i call' draft)
    (hearly : call'.phase.early = true → call'.captured = {})
    (herr : call'.phase.error ≠ some .eexist)
    (hsettl : ∀ c ∈ g.commits, c.call = i → call'.captured = c.captured hash ∧
      (call'.phase = .returned ∨ call'.phase.late = true ∧ lock = some i))
    (hoth : ∀ j, j ≠ i → g.lock = some j → lock = some j) (hopen : call.phase ≠ .returned)
    (hdone : call'.phase.done = true →
      call'.request = .authenticateWebSession [] ∧ call'.captured = {} ∨
        ∃ c ∈ g.commits, c.call = i) : Inv hash (g.moved i call' lock ids) where
  lock := hlock
  serial := h.serial
  file := h.file
  drafts := by
    intro j found draft hfound hphase
    rcases calls_update hfound with ⟨rfl, rfl⟩ | ⟨_, hold⟩
    · exact hdraft draft hphase
    · have hdrafted := h.drafts j found draft hold hphase
      exact { hdrafted with id := hids hdrafted.id }
  early := by
    intro j found hfound hphase
    rcases calls_update hfound with ⟨rfl, rfl⟩ | ⟨_, hold⟩
    · exact hearly hphase
    · exact h.early j found hold hphase
  errors := by
    intro j found hfound
    rcases calls_update hfound with ⟨rfl, rfl⟩ | ⟨_, hold⟩
    · exact herr
    · exact h.errors j found hold
  requests := h.requests.update hcall hreq hids
  ids := fun c hc => List.Subset.trans (h.ids c hc) hids
  settled := by
    intro c hc
    obtain ⟨found, hfound, hsame, hcapt, hphase⟩ := h.settled c hc
    by_cases hi : c.call = i
    · obtain ⟨hcapt', hphase'⟩ := hsettl c hc hi
      refine ⟨call', ?_, ?_, hcapt', ?_⟩
      · change Function.update _ _ _ _ = _
        rw [hi, Function.update_self]
      · rw [hi, hcall] at hfound
        cases hfound
        exact hsame.trans hreq.symm
      · rw [hi]
        exact hphase'
    · refine ⟨found, ?_, hsame, hcapt, ?_⟩
      · change Function.update _ _ _ _ = _
        rw [Function.update_of_ne hi]
        exact hfound
      · exact hphase.imp_right fun hlate => ⟨hlate.1, hoth _ hi hlate.2⟩
  completed := by
    intro c hc
    obtain ⟨found, hfound, hphase⟩ := h.completed c hc
    have hi : c.call ≠ i := by
      intro hi
      rw [hi, hcall] at hfound
      cases hfound
      exact hopen hphase
    refine ⟨found, ?_, hphase⟩
    change Function.update _ _ _ _ = _
    rw [Function.update_of_ne hi]
    exact hfound
  single := h.single
  done := by
    intro j found hfound hphase
    rcases calls_update hfound with ⟨rfl, rfl⟩ | ⟨_, hold⟩
    · exact hdone hphase
    · exact h.done j found hold hphase

lemma Inv.goto (h : Inv hash g) (hcall : g.calls i = some call) {phase : Phase}
    (hins : phase.inside = true → call.phase.inside = true)
    (hdraft : ∀ draft, phase.draft = some draft → call.phase.draft = some draft)
    (hearly : phase.early = true → call.phase.early = true)
    (herr : phase.error ≠ some .eexist)
    (hlate : call.phase.late = true → phase.late = true) (hopen : call.phase ≠ .returned)
    (hdone : phase.done = true → call.phase.done = true) : Inv hash (g.goto i call phase) := by
  apply @Inv.moved hash g i call { call with phase } h hcall _ _ rfl (List.Subset.refl _)
  · apply h.lock.stay
    intro hin
    rw [hcall]
    exact hins hin
  · intro draft hphase
    have hdrafted := h.drafts i call draft hcall (hdraft draft hphase)
    exact { hdrafted with }
  · exact fun hphase => h.early i call hcall (hearly hphase)
  · exact herr
  · intro c hc hi
    obtain ⟨found, hfound, _, hcapt, hphase⟩ := h.settled c hc
    rw [hi, hcall] at hfound
    cases hfound
    refine ⟨hcapt, ?_⟩
    rcases hphase with hret | ⟨hisl, hlocked⟩
    · exact absurd hret hopen
    · exact .inr ⟨hlate hisl, hi ▸ hlocked⟩
  · exact fun _ _ hlocked => hlocked
  · exact hopen
  · exact fun hphase => h.done i call hcall (hdone hphase)

lemma Inv.unsettled (h : Inv hash g) (hcall : g.calls i = some call)
    (hlate : call.phase.late = false) (hopen : call.phase ≠ .returned) {c : Commit}
    (hc : c ∈ g.commits) : c.call ≠ i := by
  intro hi
  obtain ⟨found, hfound, _, _, hphase⟩ := h.settled c hc
  rw [hi, hcall] at hfound
  cases hfound
  rcases hphase with hret | ⟨hisl, _⟩
  · exact hopen hret
  · rw [hlate] at hisl
    cases hisl

lemma Inv.locked (h : Inv hash g) (hcall : g.calls i = some call)
    (hins : call.phase.inside = true) : g.lock = some i := by
  have hin : i ∈ insiders isInside g.calls := by
    rw [mem_insiders, hcall]
    exact hins
  obtain ⟨a, ha, rfl⟩ := h.lock i hin
  exact ha

lemma Inv.called (h : Inv hash g) {request : Request} (hnone : g.calls i = none)
    (hfresh : isFresh hash g.hashes request = true) : Inv hash (g.called hash i request) := by
  have hnew : ∀ c ∈ g.commits, c.call ≠ i := by
    intro c hc hi
    obtain ⟨found, hfound, _⟩ := h.settled c hc
    rw [hi, hnone] at hfound
    cases hfound
  have hphase : firstPhase request = .returned ∧ request = .authenticateWebSession [] ∨
      firstPhase request = .making := by
    unfold firstPhase
    split
    · exact .inl ⟨rfl, rfl⟩
    · exact .inr rfl
  have hkept : ∀ {c : Commit} {found : Call}, c ∈ g.commits → g.calls c.call = some found →
      (g.called hash i request).calls c.call = some found := by
    intro c found hc hfound
    change update _ _ _ _ = _
    rw [update_of_ne (hnew c hc)]
    exact hfound
  constructor
  · apply h.lock.stay
    intro hin
    rcases hphase with ⟨hret, _⟩ | hmak
    · simp [isInside, hret, Phase.inside] at hin
    · simp [isInside, hmak, Phase.inside] at hin
  · exact h.serial
  · exact h.file
  · intro j found draft hfound hdraft
    rcases calls_update hfound with ⟨rfl, rfl⟩ | ⟨_, hold⟩
    · rcases hphase with ⟨hret, _⟩ | hmak
      · simp [hret, Phase.draft] at hdraft
      · simp [hmak, Phase.draft] at hdraft
    · have hdrafted := h.drafts j found draft hold hdraft
      exact { hdrafted with id := mem_append_right _ hdrafted.id }
  · intro j found hfound hearly
    rcases calls_update hfound with ⟨rfl, rfl⟩ | ⟨_, hold⟩
    · rfl
    · exact h.early j found hold hearly
  · intro j found hfound
    rcases calls_update hfound with ⟨rfl, rfl⟩ | ⟨_, hold⟩
    · rcases hphase with ⟨hret, _⟩ | hmak
      · simp [hret, Phase.error]
      · simp [hmak, Phase.error]
    · exact h.errors j found hold
  · exact h.requests.called hfresh
  · exact fun c hc => List.Subset.trans (h.ids c hc) (subset_append_right _ _)
  · intro c hc
    obtain ⟨found, hfound, hrest⟩ := h.settled c hc
    exact ⟨found, hkept hc hfound, hrest⟩
  · intro c hc
    obtain ⟨found, hfound, hret⟩ := h.completed c hc
    exact ⟨found, hkept ((dropLast_sublist _).subset hc) hfound, hret⟩
  · exact h.single
  · intro j found hfound hdone
    rcases calls_update hfound with ⟨rfl, rfl⟩ | ⟨_, hold⟩
    · rcases hphase with ⟨_, hreq⟩ | hmak
      · exact .inl ⟨hreq, rfl⟩
      · simp [hmak, Phase.done] at hdone
    · exact h.done j found hold hdone

lemma Inv.opened (h : Inv hash g) (hcall : g.calls i = some call)
    (hphase : call.phase = .opening attempt) (fault : Option Fault) :
    Inv hash (g.opened i call attempt fault) := by
  have hwaits : ∀ fault, Inv hash (g.goto i call (caught attempt fault)) := by
    intro fault
    have hcaught : caught attempt fault = .opening (attempt + 1) ∨ caught attempt fault = .failed := by
      unfold caught
      cases fault with
      | eexist =>
        split_ifs
        · exact .inl rfl
        · exact .inr rfl
      | other => exact .inr rfl
    rcases hcaught with hagain | hfail
    · rw [hagain]
      apply h.goto hcall <;> simp [hphase, Phase.inside, Phase.draft, Phase.early, Phase.late,
        Phase.done, Phase.error]
    · rw [hfail]
      apply h.goto hcall <;> simp [hphase, Phase.inside, Phase.draft, Phase.early, Phase.late,
        Phase.done, Phase.error]
  unfold State.opened
  cases fault with
  | some fault => exact hwaits fault
  | none =>
    cases hlock : g.lock with
    | some holder => exact hwaits .eexist
    | none =>
      have hnone : Backed none (fun a p => a = p) (insiders isInside g.calls) := hlock ▸ h.lock
      apply @Inv.moved hash g i call { call with phase := .reading attempt } h hcall _ _ rfl
        (List.Subset.refl _)
      · exact hnone.enter rfl
      · intro draft hdraft
        cases hdraft
      · exact fun _ => h.early i call hcall (by rw [hphase]; rfl)
      · simp [Phase.error]
      · intro c hc hi
        exact absurd hi (h.unsettled hcall (by rw [hphase]; rfl) (by simp [hphase]) hc)
      · intro j _ hlocked
        rw [hlock] at hlocked
        cases hlocked
      · simp [hphase]
      · intro hdone
        cases hdone

lemma Inv.readState (h : Inv hash g) {fails : Bool} (hok : fails = true → g.file = none) :
    g.readState fails = stateAfter hash g.commits := by
  unfold State.readState stateAfter
  rw [← h.file]
  cases fails with
  | true =>
    rw [hok rfl]
    rfl
  | false => rfl

lemma Inv.drafted (h : Inv hash g) (hcall : g.calls i = some call)
    (hphase : call.phase = .reading attempt) {fails : Bool} (hok : fails = true → g.file = none)
    (moment : Moment) {draws : Draws} (hfresh : draws.deviceId ∉ g.ids) :
    Inv hash (g.drafted hash i call attempt (g.draft i call fails moment draws)) := by
  have huns : ∀ c ∈ g.commits, c.call ≠ i := fun c hc =>
    h.unsettled hcall (by rw [hphase]; rfl) (by simp [hphase]) hc
  have hfoll : Follows hash g.commits (g.draft i call fails moment draws) := by
    constructor
    · exact h.readState hok
    · exact h.early i call hcall (by rw [hphase]; rfl)
    · intro c hc x hx hx'
      obtain ⟨found, hfound, hreq, _⟩ := h.settled c hc
      rw [Commit.issues, hreq] at hx'
      exact huns c hc (h.requests.apart c.call i found call hfound hcall x hx' hx)
    · exact fun c hc hmem => hfresh (h.ids c hc hmem)
  apply @Inv.moved hash g i call {
      request := call.request
      captured := (g.draft i call fails moment draws).captured hash
      phase := .writing attempt (g.draft i call fails moment draws) } h hcall _ _ rfl
    (subset_cons_self _ _)
  · apply h.lock.stay
    intro _
    rw [hcall]
    simp [isInside, hphase, Phase.inside]
  · intro draft hdraft
    cases hdraft
    exact ⟨rfl, rfl, rfl, mem_cons_self, { hfoll with }⟩
  · intro hearly
    cases hearly
  · simp [Phase.error]
  · exact fun c hc hi => absurd hi (huns c hc)
  · exact fun _ _ hlocked => hlocked
  · simp [hphase]
  · intro hdone
    cases hdone

/-- Whoever has put a file in place before has returned, once another call holds the lock. -/
lemma Inv.returned (h : Inv hash g) (hlocked : g.lock = some i) {c : Commit}
    (hc : c ∈ g.commits) (hi : c.call ≠ i) :
    ∃ call, g.calls c.call = some call ∧ call.phase = .returned := by
  obtain ⟨found, hfound, _, _, hphase⟩ := h.settled c hc
  rcases hphase with hret | ⟨_, hlock⟩
  · exact ⟨found, hfound, hret⟩
  · rw [hlocked] at hlock
    exact absurd (some.inj hlock).symm hi

lemma Inv.renamed (h : Inv hash g) {draft : Commit} (hcall : g.calls i = some call)
    (hphase : call.phase = .renaming attempt draft) :
    Inv hash (g.renamed hash i call attempt draft) := by
  obtain ⟨hown, hreq, hcapt, hid, hfoll⟩ :=
    h.drafts i call draft hcall (by rw [hphase]; rfl)
  have hlocked : g.lock = some i := h.locked hcall (by rw [hphase]; rfl)
  have huns : ∀ c ∈ g.commits, c.call ≠ i := fun c hc =>
    h.unsettled hcall (by rw [hphase]; rfl) (by simp [hphase]) hc
  have hself : (g.renamed hash i call attempt draft).calls i =
      some { call with phase := .closing attempt none } := update_self ..
  have hkept : ∀ {c : Commit} {found : Call}, c ∈ g.commits → g.calls c.call = some found →
      (g.renamed hash i call attempt draft).calls c.call = some found := by
    intro c found hc hfound
    change update _ _ _ _ = _
    rw [update_of_ne (huns c hc)]
    exact hfound
  constructor
  · apply h.lock.stay
    intro _
    rw [hcall]
    simp [isInside, hphase, Phase.inside]
  · exact h.serial.snoc hfoll
  · simp [State.renamed]
  · intro j found other hfound hdraft
    rcases calls_update hfound with ⟨rfl, rfl⟩ | ⟨hj, hold⟩
    · cases hdraft
    · -- who has a draft is inside the lock
      have hins : found.phase.inside = true := by
        cases hfoundPh : found.phase <;> simp [hfoundPh, Phase.draft] at hdraft <;> rfl
      have hsame := h.locked hold hins
      rw [hlocked] at hsame
      exact absurd (some.inj hsame).symm hj
  · intro j found hfound hearly
    rcases calls_update hfound with ⟨rfl, rfl⟩ | ⟨_, hold⟩
    · cases hearly
    · exact h.early j found hold hearly
  · intro j found hfound
    rcases calls_update hfound with ⟨rfl, rfl⟩ | ⟨_, hold⟩
    · simp [Phase.error]
    · exact h.errors j found hold
  · exact h.requests.update hcall rfl (List.Subset.refl _)
  · intro c hc
    rcases mem_snoc hc with hold | rfl
    · exact h.ids c hold
    · apply cons_subset.mpr
      refine ⟨hid, ?_⟩
      rw [hreq]
      exact h.requests.named i call hcall
  · intro c hc
    rcases mem_snoc hc with hold | rfl
    · obtain ⟨found, hfound, hrest⟩ := h.settled c hold
      exact ⟨found, hkept hold hfound, hrest⟩
    · rw [hown]
      exact ⟨_, hself, hreq, hcapt, .inr ⟨rfl, hlocked⟩⟩
  · intro c hc
    have hold : c ∈ g.commits := by
      simpa [State.renamed] using hc
    obtain ⟨found, hfound, hret⟩ := h.returned hlocked hold (huns c hold)
    exact ⟨found, hkept hold hfound, hret⟩
  · change ((g.commits ++ [draft]).map _).Nodup
    rw [map_append, nodup_append]
    refine ⟨h.single, nodup_singleton _, ?_⟩
    intro a ha b hb heq
    obtain ⟨c, hc, rfl⟩ := mem_map.mp ha
    obtain rfl := mem_singleton.mp hb
    exact huns c hc (heq.trans hown)
  · intro j found hfound hdone
    rcases calls_update hfound with ⟨rfl, rfl⟩ | ⟨_, hold⟩
    · exact .inr ⟨draft, by simp [State.renamed], hown⟩
    · refine (h.done j found hold hdone).imp_right ?_
      intro hcommitt
      obtain ⟨c, hc, hj⟩ := hcommitt
      exact ⟨c, mem_append_left _ hc, hj⟩

lemma Inv.released (h : Inv hash g) {error : Option Fault}
    (hcall : g.calls i = some call) (hphase : call.phase = .removing attempt error) : Inv hash (g.released i call attempt error) := by
  have hlocked : g.lock = some i := h.locked hcall (by rw [hphase]; rfl)
  have hoth : ∀ q ∈ insiders isInside g.calls, q = i := by
    intro q hq
    obtain ⟨a, ha, rfl⟩ := h.lock q hq
    rw [hlocked] at ha
    exact (some.inj ha).symm
  have hfree : ∀ j, j ≠ i → g.lock = some j → (none : Option ℕ) = some j := by
    intro j hj hlock
    rw [hlocked] at hlock
    exact absurd (some.inj hlock).symm hj
  have hopen : call.phase ≠ .returned := by simp [hphase]
  have herr := h.errors i call hcall
  rw [hphase] at herr
  cases error with
  | none =>
    apply @Inv.moved hash g i call { call with phase := .returned } h hcall _ _ rfl
      (List.Subset.refl _)
    · exact Backed.clear hoth rfl
    · intro draft hdraft
      cases hdraft
    · intro hearly
      cases hearly
    · simp [Phase.error]
    · intro c hc hi
      obtain ⟨found, hfound, _, hcapt, _⟩ := h.settled c hc
      rw [hi, hcall] at hfound
      cases hfound
      exact ⟨hcapt, .inl rfl⟩
    · exact hfree
    · exact hopen
    · exact fun _ => h.done i call hcall (by rw [hphase]; rfl)
  | some fault =>
    cases fault with
    | eexist => exact absurd rfl herr
    | other =>
      apply @Inv.moved hash g i call { call with phase := .failed } h hcall _ _ rfl
        (List.Subset.refl _)
      · exact Backed.clear hoth rfl
      · intro draft hdraft
        cases hdraft
      · intro hearly
        cases hearly
      · simp [Phase.error]
      · intro c hc hi
        exact absurd hi (h.unsettled hcall (by rw [hphase]; rfl) hopen hc)
      · exact hfree
      · exact hopen
      · intro hdone
        cases hdone

lemma other_of_ne {fault : Option Fault} (h : fault ≠ some .eexist) :
    fault = none ∨ fault = some .other := by
  rcases fault with _ | ⟨_ | _⟩
  · exact .inl rfl
  · exact absurd rfl h
  · exact .inr rfl

lemma inv_next {g' : State} {step : Step} (h : Inv hash g) (hok : ReadsAll g step)
    (hnext : g.next hash step = some g') : Inv hash g' := by
  cases step with
  | call i request =>
    simp only [State.next] at hnext
    split_ifs at hnext with hnew
    cases hnext
    exact h.called (isNone_iff_eq_none.mp hnew.1) hnew.2
  | mkdir i fault =>
    simp only [State.next] at hnext
    split at hnext
    · next request captured hcall =>
        cases hnext
        split_ifs <;> apply h.goto hcall <;>
          simp [Phase.inside, Phase.draft, Phase.early, Phase.late, Phase.done, Phase.error]
    · cases hnext
  | openLock i fault =>
    simp only [State.next] at hnext
    split at hnext
    · next request captured attempt hcall =>
        cases hnext
        exact h.opened hcall rfl fault
    · cases hnext
  | read i fails moment draws =>
    simp only [State.next] at hnext
    split at hnext
    · next request captured attempt hcall =>
        split_ifs at hnext with hknown
        cases hnext
        exact h.drafted hcall rfl hok moment hknown
    · cases hnext
  | write i fault =>
    simp only [State.next] at hnext
    split at hnext
    · next request captured attempt draft hcall =>
        cases hnext
        rcases other_of_ne hok with rfl | rfl
        · apply h.goto hcall <;>
            simp [Phase.inside, Phase.draft, Phase.early, Phase.late, Phase.done, Phase.error]
        · apply h.goto hcall <;>
            simp [Phase.inside, Phase.draft, Phase.early, Phase.late, Phase.done, Phase.error]
    · cases hnext
  | rename i fault =>
    simp only [State.next] at hnext
    split at hnext
    · next request captured attempt draft hcall =>
        cases hnext
        rcases other_of_ne hok with rfl | rfl
        · exact h.renamed hcall rfl
        · apply h.goto hcall <;>
            simp [Phase.inside, Phase.draft, Phase.early, Phase.late, Phase.done, Phase.error]
    · cases hnext
  | close i fault =>
    simp only [State.next] at hnext
    split at hnext
    · next request captured attempt error hcall =>
        cases hnext
        have herr : error ≠ some .eexist := h.errors i _ hcall
        rcases other_of_ne herr with rfl | rfl <;> rcases other_of_ne hok with rfl | rfl <;>
          apply h.goto hcall <;>
          simp [caught, Phase.inside, Phase.draft, Phase.early, Phase.late, Phase.done, Phase.error]
    · cases hnext
  | remove i fault =>
    simp only [State.next] at hnext
    split at hnext
    · next request captured attempt error hcall =>
        cases hnext
        rcases other_of_ne hok with rfl | rfl
        · exact h.released hcall rfl
        · apply h.goto hcall <;>
            simp [caught, Phase.inside, Phase.draft, Phase.early, Phase.late, Phase.done,
              Phase.error]
    · cases hnext

lemma requests_start : Requests hash (fun _ => none) [] [] := by
  constructor
  · exact fun _ _ hcall => nomatch hcall
  · exact fun _ _ _ _ hcall => nomatch hcall
  · exact fun _ _ hcall => nomatch hcall

lemma inv_start : Inv hash {} where
  lock := fun _ hin => nomatch hin
  serial := .nil
  file := rfl
  drafts := fun _ _ _ hcall => nomatch hcall
  early := fun _ _ hcall => nomatch hcall
  errors := fun _ _ hcall => nomatch hcall
  requests := requests_start
  ids := fun _ hc => nomatch hc
  settled := fun _ hc => nomatch hc
  completed := fun _ hc => nomatch hc
  single := List.nodup_nil
  done := fun _ _ hcall => nomatch hcall

lemma inv_of_reach (h : (webAuth hash).Reach ReadsAll g) : Inv hash g := by
  apply h.inv (Inv hash)
  · rintro g rfl
    exact inv_start
  · exact fun _ _ _ hinv hok hnext => inv_next hinv hok hnext

structure Later (g g' : State) : Prop where
  commits : g.commits <+: g'.commits
  calls : ∀ i call, g.calls i = some call → ∃ call', g'.calls i = some call' ∧
    call'.request = call.request

lemma Later.refl (g : State) : Later g g := ⟨List.prefix_rfl, fun _ call h => ⟨call, h, rfl⟩⟩

lemma Later.trans {g g' g'' : State} (h : Later g g') (h' : Later g' g'') : Later g g'' where
  commits := h.commits.trans h'.commits
  calls := by
    intro i call hcall
    obtain ⟨call', hcall', hsame⟩ := h.calls i call hcall
    obtain ⟨call'', hcall'', hsame'⟩ := h'.calls i call' hcall'
    exact ⟨call'', hcall'', hsame'.trans hsame⟩

lemma later_update {g' : State} (hcomm : g.commits <+: g'.commits)
    (hcalls : g'.calls = Function.update g.calls i (some call'))
    (hold : ∀ old, g.calls i = some old → call'.request = old.request) : Later g g' := by
  refine ⟨hcomm, ?_⟩
  intro j found hfound
  rw [hcalls]
  by_cases hj : j = i
  · subst hj
    exact ⟨call', update_self .., hold found hfound⟩
  · exact ⟨found, (update_of_ne hj ..).trans hfound, rfl⟩

lemma later_goto (hcall : g.calls i = some call) (phase : Phase) : Later g (g.goto i call phase) := by
  apply later_update
  · exact prefix_rfl
  · rfl
  · intro old hold
    rw [hcall] at hold
    cases hold
    rfl

lemma later_next {g' : State} {step : Step} (hnext : g.next hash step = some g') : Later g g' := by
  cases step with
  | call i request =>
    simp only [State.next] at hnext
    split_ifs at hnext with hnew
    cases hnext
    apply later_update
    · exact prefix_rfl
    · rfl
    · intro old hold
      rw [isNone_iff_eq_none.mp hnew.1] at hold
      cases hold
  | openLock i fault =>
    simp only [State.next] at hnext
    split at hnext
    · next hcall =>
        cases hnext
        unfold State.opened
        split
        · exact later_goto hcall _
        · split
          · exact later_goto hcall _
          · exact { later_goto hcall _ with }
    · cases hnext
  | read i fails moment draws =>
    simp only [State.next] at hnext
    split at hnext
    · next hcall =>
        split_ifs at hnext
        cases hnext
        apply later_update
        · exact prefix_rfl
        · rfl
        · intro old hold
          rw [hcall] at hold
          cases hold
          rfl
    · cases hnext
  | rename i fault =>
    simp only [State.next] at hnext
    split at hnext
    · next attempt draft hcall =>
        cases hnext
        split_ifs
        · exact later_goto hcall _
        · exact { later_goto hcall (.closing attempt none) with
            commits := prefix_append _ _ }
    · cases hnext
  | remove i fault =>
    simp only [State.next] at hnext
    split at hnext
    · next hcall =>
        cases hnext
        split
        · exact { later_goto hcall _ with }
        · exact later_goto hcall _
    · cases hnext
  | _ =>
    simp only [State.next] at hnext
    split at hnext
    · next hcall =>
        cases hnext
        exact later_goto hcall _
    · cases hnext

lemma later_run {g' : State} {steps : List Step} {ok : State → Step → Prop}
    (h : (webAuth hash).Run ok g steps g') : Later g g' :=
  h.inv (Later g) (fun _ _ _ hlat _ hnext => hlat.trans (later_next hnext)) (Later.refl g)

end

section
variable {hash : Text → Text} {g g' : State}

/-- Each call that has returned has made its change of the state that was left by the call before
it. -/
structure Serialised (hash : Text → Text) (g : State) : Prop where
  applied : ∀ before c after, g.commits = before ++ c :: after → c.base = stateAfter hash before
  returned : ∀ i call, g.calls i = some call → call.phase = .returned →
    call.request = .authenticateWebSession [] ∧ call.captured = {} ∨
      ∃ c ∈ g.commits, c.call = i ∧ c.request = call.request ∧ call.captured = c.captured hash
  previous : ∀ before c c' after, g.commits = before ++ c :: c' :: after →
    ∃ call, g.calls c.call = some call ∧ call.phase = .returned
  single : (g.commits.map (·.call)).Nodup
  kept : ∀ c ∈ g.commits, KeepsAll hash c
  once : ∀ i j call call' token token', g.calls i = some call → g.calls j = some call' →
    call.phase = .returned → call'.phase = .returned →
    call.request = .redeemWebInvitation token → call'.request = .redeemWebInvitation token' →
    hash token = hash token' → call.captured.identity ≠ none →
    call'.captured.identity ≠ none → i = j

/-- And once a revocation has returned, nobody authenticates as the device any more. -/
structure ShrinksAuthority (hash : Text → Text) (g g' : State) : Prop where
  serialised : Serialised hash g'
  revoked : ∀ i call id, g.calls i = some call → call.phase = .returned →
    call.request = .revokeWebDevice id → ∀ j call' token identity, g.calls j = none →
    g'.calls j = some call' → call'.request = .authenticateWebSession token →
    call'.phase = .returned → call'.captured.identity = some identity → identity.device.id ≠ id

lemma Inv.committed (h : Inv hash g) {i : ℕ} {call : Call} (hcall : g.calls i = some call)
    (hphase : call.phase = .returned) :
    call.request = .authenticateWebSession [] ∧ call.captured = {} ∨
      ∃ c ∈ g.commits, c.call = i ∧ c.request = call.request ∧ call.captured = c.captured hash := by
  refine (h.done i call hcall (by rw [hphase]; rfl)).imp_right ?_
  intro hdone
  obtain ⟨c, hc, rfl⟩ := hdone
  obtain ⟨found, hfound, hreq, hcapt, _⟩ := h.settled c hc
  rw [hcall] at hfound
  cases hfound
  exact ⟨c, hc, rfl, hreq, hcapt⟩

lemma Inv.redeems (h : Inv hash g) {i : ℕ} {call : Call} {token : Text}
    (hcall : g.calls i = some call) (hphase : call.phase = .returned)
    (hreq : call.request = .redeemWebInvitation token)
    (hident : call.captured.identity ≠ none) :
    ∃ c ∈ g.commits, c.call = i ∧ c.redeems hash = some (hash token) := by
  rcases h.committed hcall hphase with ⟨hempty, _⟩ | ⟨c, hc, hi, hsame, hcapt⟩
  · rw [hreq] at hempty
    cases hempty
  · refine ⟨c, hc, hi, ?_⟩
    rw [hcapt] at hident
    obtain ⟨identity, hsome⟩ := ne_none_iff_exists'.mp hident
    unfold Commit.redeems
    rw [hsame, hreq, hsome]
    rfl

lemma Inv.serialised (h : Inv hash g) : Serialised hash g where
  applied := fun before c after hspl => (h.serial.split hspl).2.base
  returned := fun i call hcall hphase => h.committed hcall hphase
  previous := by
    intro before c c' after hspl
    apply h.completed
    rw [hspl, List.dropLast_append_of_ne_nil (by simp)]
    simp
  single := h.single
  kept := fun c hc => h.serial.keepsAll hc
  once := by
    intro i j call call' token token' hi hj hphase hphase' hreq hreq' hsame hsome hsome'
    obtain ⟨c, hc, rfl, hred⟩ := h.redeems hi hphase hreq hsome
    obtain ⟨c', hc', rfl, hred'⟩ := h.redeems hj hphase' hreq' hsome'
    rw [hsame] at hred
    rw [h.serial.once hc hc' hred hred']

/-- While no read of the file fails, what is revoked or redeemed is not accepted again. -/
theorem authority_shrinks {steps : List Step} (h : (webAuth hash).Reach ReadsAll g)
    (hrun : (webAuth hash).Run ReadsAll g steps g') : ShrinksAuthority hash g g' := by
  have hinv := inv_of_reach h
  have hinv' := inv_of_reach (h.trans hrun)
  have hlat := later_run hrun
  refine ⟨hinv'.serialised, ?_⟩
  intro i call id hcall hphase hreq j call' token identity hnone hcall' hreq' hphase' hsome
  obtain ⟨c, hc, _, hsame, _⟩ := (hinv.committed hcall hphase).resolve_left (by simp [hreq])
  rcases hinv'.committed hcall' hphase' with ⟨_, hempty⟩ | ⟨c', hc', hj, hsame', hcapt⟩
  · rw [hempty] at hsome
    cases hsome
  · -- the authentication was asked for later, so its change comes later
    have haft : c' ∉ g.commits := by
      intro hmem
      obtain ⟨found, hfound, _⟩ := hinv.settled c' hmem
      rw [hj, hnone] at hfound
      cases hfound
    obtain ⟨more, hmore⟩ := hlat.commits
    rw [← hmore] at hc'
    obtain ⟨between, after, hspl⟩ :=
      append_of_mem ((mem_append.mp hc').resolve_left haft)
    have hall : g'.commits = (g.commits ++ between) ++ c' :: after := by
      rw [← hmore, hspl, append_assoc]
    rw [hcapt] at hsome
    exact hinv'.serial.authenticates hall (mem_append_left _ hc) (hsame.trans hreq)
      (hsame'.trans hreq') hsome

end

section

def whole (i : ℕ) (request : Request) (fails : Bool) : List Step :=
  [.call i request, .mkdir i none, .openLock i none,
    .read i fails ⟨0, 0, 0⟩ ⟨"s".toList, "x".toList, Text.number i⟩, .write i none, .rename i none,
    .close i none, .remove i none]

def noFault : Step → Bool
  | .read _ fails _ _ => !fails
  | .write _ fault => fault.isNone
  | .rename _ fault => fault.isNone
  | .close _ fault => fault.isNone
  | .remove _ fault => fault.isNone
  | _ => true

lemma readsAll_of_noFault (g : State) (step : Step) (h : noFault step = true) :
    ReadsAll g step := by
  cases step <;> simp_all [noFault, ReadsAll]

def pairing : List Step :=
  whole 0 (.createWebInvitation "t".toList 0 "Phone".toList) false ++
    whole 1 (.redeemWebInvitation "t".toList) false ++ whole 2 (.revokeWebDevice "1".toList) false

/-- Who is identified by a call. -/
def identified (g : State) (i : ℕ) : Option Text :=
  (g.calls i).bind fun call => call.captured.identity.map (·.device.id)

theorem pairing_is_revoked : ∃ g g' : State, identified g 1 = some "1".toList ∧
    identified g' 3 = none ∧ ShrinksAuthority id g g' := by
  have hrun : (((webAuth id).execIf (fun _ => noFault) {} pairing).bind fun g =>
      ((webAuth id).execIf (fun _ => noFault) g
        (whole 3 (.authenticateWebSession "s".toList) false)).map fun g' =>
          (identified g 1, identified g' 3)) = some (some "1".toList, none) := by
    decide +kernel
  obtain ⟨g, hexec, hmore⟩ := bind_eq_some_iff.mp hrun
  obtain ⟨g', hexec', hidentif⟩ := map_eq_some_iff.mp hmore
  obtain ⟨hone, hthr⟩ := Prod.mk.inj hidentif
  have hguard := (Machine.run_of_execIf hexec).mono readsAll_of_noFault
  have hguard' := (Machine.run_of_execIf hexec').mono readsAll_of_noFault
  exact ⟨g, g', hone, hthr, authority_shrinks ⟨{}, _, rfl, hguard⟩ hguard'⟩

def counted (c : Commit) : ℕ × ℕ := (c.base.invitations.length, (c.next id).invitations.length)

/-- A read that fails counts as an empty file, and the invitation is overwritten. -/
theorem failed_read_loses : ¬ ∀ (g g' : State) (steps : List Step), (webAuth id).Reach anyStep g →
      (webAuth id).Run anyStep g steps g' → ShrinksAuthority id g g' := by
  intro hall
  have hrun : (((webAuth id).exec {} (whole 0 (.createWebInvitation "t".toList 0 "Phone".toList) false ++
      whole 1 (.createWebInvitation "u".toList 0 "Laptop".toList) true)).map
        fun g => g.commits.map counted) = some [(0, 1), (0, 1)] := by
    decide +kernel
  obtain ⟨g, hexec, hcount⟩ := map_eq_some_iff.mp hrun
  have hreach := Machine.reach_of_exec (M := webAuth id) rfl hexec
  have happl := (hall g g [] hreach (.nil g)).serialised.applied
  have hlength : g.commits.length = 2 := by
    have hmapp := congrArg length hcount
    simpa using hmapp
  obtain ⟨c, c', hcomm⟩ := length_eq_two.mp hlength
  have hbase := happl [c] c' [] hcomm
  rw [hcomm] at hcount
  obtain ⟨hfirst, hsec⟩ := cons.inj hcount
  have hwritt : (c.next id).invitations.length = 1 := congrArg Prod.snd hfirst
  have hread : c'.base.invitations.length = 0 := congrArg Prod.fst (cons.inj hsec).1
  have hleft : stateAfter id [c] = c.next id := rfl
  rw [hbase, hleft, hwritt] at hread
  cases hread

end

end Redskilled.Daemon.WebAuth
