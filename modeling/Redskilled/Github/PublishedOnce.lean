import Redskilled.Github.Publication

/-!
# Published once

A call of the upstream that follows one whose answer was lost finds what that one has
published, as long as GitHub lists it among the first items and lists no mention of the
marker by others before it. Then there is never a second publication of a key, and what
is recorded is the one there is.
-/
namespace Redskilled.Github.Publication
open Foundation Daemon List Option

def Sole (forge : List Item) (key : Text) (item : Item) : Prop :=
  forge.filter (Item.carries key) = [item]

instance (forge : List Item) (key : Text) (item : Item) : Decidable (Sole forge key item) :=
  inferInstanceAs (Decidable (_ = _))

/-- The value is the one item that was published for the write, and a summary for a transition. -/
def Published (forge : List Item) (key : Text) (value : Value) (write : Write) : Prop :=
  match write with
  | .repositoryPush ref sha => value = .pushed ref sha
  | .issueTransition issue add remove none => value = .transition issue add remove false
  | _ => ∃ item, Sole forge key item ∧ value = write.answer item

/-- The first item of the page that mentions the marker is the outbox's own, and the page
has what the outbox published under the key. -/
structure Tells (key : Text) (forge page : List Item) : Prop where
  own : ∀ item, findMarkedPublication page (githubOutboxMarker key) = some item →
    item.carries key = true
  listed : ∀ item ∈ forge, item.carries key = true → item ∈ page

instance (key : Text) (forge page : List Item) : Decidable (Tells key forge page) :=
  decidable_of_iff
    ((∀ item ∈ findMarkedPublication page (githubOutboxMarker key), item.carries key = true) ∧
      ∀ item ∈ forge, item.carries key = true → item ∈ page)
    ⟨fun h => ⟨h.1, h.2⟩, fun h => ⟨h.own, h.listed⟩⟩

def State.page? (s : State) : Option (Text × List Item) :=
  match s.request?, s.trip with
  | some request, .lookup repository =>
    (request.write.publication? repository (marker request)).map fun publication =>
      (request.key.idempotencyKey, publication.lookup.page s.forge)
  | _, _ => none

/-- Every lookup tells what there is. -/
def Clear (s : State) : Step → Prop
  | .lookedUp => ∀ found ∈ s.page?, Tells found.1 s.forge found.2
  | _ => True

instance (s : State) (a : Step) : Decidable (Clear s a) :=
  match a with
  | .lookedUp => inferInstanceAs (Decidable (∀ _ ∈ _, _))
  | .outbox _ | .contact _ | .pushed | .labelled _ | .posted | .answered _ | .failed
  | .others _ _ => isTrue trivial

section
variable {forge : List Item} {key key' : Text} {item : Item} {value : Value} {write : Write}
  {repository : Repository} {publication : ApiRequest}

lemma published_iff {text : Text} (h : write.publication? repository text = some publication) :
    Published forge key value write ↔ ∃ item, Sole forge key item ∧ value = write.answer item := by
  cases write with
  | repositoryPush ref sha => cases h
  | issueTransition issue add remove comment =>
    cases comment with
    | none => cases h
    | some text => exact Iff.rfl
  | _ => exact Iff.rfl

lemma published_afterLabels (h : afterLabels repository write = .done value) :
    Published forge key value write := by
  cases write with
  | issueTransition issue add remove comment =>
    cases comment with
    | none => exact (Trip.done.inj h).symm
    | some text => cases h
  | _ => cases h

lemma filter_append_single (h : item.carries key = false) :
    (forge ++ [item]).filter (Item.carries key) = forge.filter (Item.carries key) := by
  simp [filter_append, h]

lemma Published.append (h : Published forge key value write) (hitem : item.carries key = false) :
    Published (forge ++ [item]) key value write := by
  unfold Published Sole at h ⊢
  rw [filter_append_single hitem]
  exact h

lemma Published.post (h : Published forge key value write)
    (hfresh : ∀ other ∈ forge, other.carries key' = false)
    (hoth : key ≠ key' → item.carries key = false) :
    Published (forge ++ [item]) key value write := by
  by_cases hkey : key = key'
  · subst hkey
    have hnone : forge.filter (Item.carries key) = [] := by
      rw [filter_eq_nil_iff]
      intro other hmem
      simp [hfresh other hmem]
    unfold Published Sole at h
    split at h
    · exact h
    · exact h
    · obtain ⟨sole, hsole, -⟩ := h
      rw [hnone] at hsole
      cases hsole
  · exact h.append (hoth hkey)

lemma carries_of_posted (hkey : isPublishable key = true) (hkey' : isPublishable key' = true)
    (hne : key ≠ key') {body : Text} (hbody : item.body = some body)
    (hsuff : githubOutboxMarker key' <:+ body) : item.carries key = false := by
  by_contra hcarr
  rw [Bool.not_eq_false, Item.carries, Bool.and_eq_true, hbody] at hcarr
  have hown : githubOutboxMarker key <:+ body := isSuffixOf_iff_suffix.mp hcarr.2
  exact hne (key_eq_of_suffix hkey hkey' hown hsuff)

lemma sole_of_mem (hone : (forge.filter (Item.carries key)).length ≤ 1) (hmem : item ∈ forge)
    (hcarr : item.carries key = true) : Sole forge key item := by
  have hfound : item ∈ forge.filter (Item.carries key) := mem_filter.mpr ⟨hmem, hcarr⟩
  have hpos := length_pos_of_mem hfound
  have hlength : (forge.filter (Item.carries key)).length = 1 := by omega
  obtain ⟨only, honly⟩ := length_eq_one_iff.mp hlength
  rw [honly, mem_singleton] at hfound
  rw [Sole, honly, hfound]

end

/-- An entry with a receipt is published. -/
def Vouched (forge : List Item) (entry : GithubOutbox.Entry Write Value) : Prop :=
  isPublishable entry.key.idempotencyKey = true ∧ ∀ receipt, entry.receipt = some receipt →
      Published forge entry.key.idempotencyKey receipt.value entry.write

structure Sound (s : State) : Prop where
  outbox : GithubOutbox.Sound s.outbox
  agrees : GithubOutbox.Agrees s.outbox
  holds : GithubOutbox.Holds (Vouched s.forge) s.outbox
  once : ∀ key, isPublishable key = true → (s.forge.filter (Item.carries key)).length ≤ 1
  post : ∀ repository request, s.trip = .post repository → s.request? = some request →
    ∀ item ∈ s.forge, item.carries request.key.idempotencyKey = false
  done : ∀ value request, s.trip = .done value → s.request? = some request →
    Published s.forge request.key.idempotencyKey value request.write

section
variable {s t : State} {request : Request}

lemma stage_of_request (h : s.request? = some request) :
    ∃ call, s.outbox.stage = .upstream call ∧ call.request = request := by
  unfold State.request? at h
  split at h
  · next call hstage => exact ⟨call, hstage, some.inj h⟩
  · cases h

lemma Sound.publishable (h : Sound s) (hreq : s.request? = some request) :
    isPublishable request.key.idempotencyKey = true := by
  obtain ⟨call, hstage, rfl⟩ := stage_of_request hreq
  refine (h.holds.requests call.request ?_ []).1
  simp [GithubOutbox.State.requests, hstage, GithubOutbox.Stage.requests]

lemma Sound.travel (h : Sound s) {trip : Trip}
    (hpost : ∀ repository request, trip = .post repository → s.request? = some request →
      ∀ item ∈ s.forge, item.carries request.key.idempotencyKey = false)
    (hdone : ∀ value request, trip = .done value → s.request? = some request →
      Published s.forge request.key.idempotencyKey value request.write) :
    Sound { s with trip := trip } :=
  ⟨h.outbox, h.agrees, h.holds, h.once, hpost, hdone⟩

lemma Sound.labelTrip (h : Sound s) (hreq : s.request? = some request)
    (repository : Repository) (left : List LabelRequest) :
    Sound { s with trip := labelTrip repository request.write left } := by
  apply h.travel
  · intro repository' request' htrip
    unfold Publication.labelTrip afterLabels at htrip
    split_ifs at htrip
    split at htrip <;> cases htrip
  · intro value request' htrip hreq'
    obtain rfl := some.inj (hreq.symm.trans hreq')
    unfold Publication.labelTrip at htrip
    split_ifs at htrip
    exact published_afterLabels htrip

lemma Sound.begin (h : Sound s) (hreq : s.request? = some request)
    (repository : Repository) : Sound { s with trip := begin repository request.write } := by
  unfold Publication.begin
  split
  · exact h.travel (fun _ _ htrip => nomatch htrip) fun _ _ htrip => nomatch htrip
  · exact h.labelTrip hreq repository _
  · exact h.travel (fun _ _ htrip => nomatch htrip) fun _ _ htrip => nomatch htrip

lemma Sound.outboxStep (h : Sound s) {a : GithubOutbox.Step Write Value}
    {outbox : GithubOutbox.State Write Value} (hnext : GithubOutbox.next s.outbox a = some outbox)
    (hreque : ∀ request ∈ a.requests, isPublishable request.key.idempotencyKey = true)
    (hreceipt : ∀ receipt, a = .answered receipt → ∃ request, s.request? = some request ∧
      Published s.forge request.key.idempotencyKey receipt.value request.write) :
    Sound { s with outbox := outbox, trip := .idle } := by
  constructor
  · exact h.outbox.step hnext
  · exact h.agrees.step h.outbox hnext
  · apply h.holds.step hnext
    · intro entry hentry now
      exact ⟨hentry.1, fun receipt hnone => nomatch hnone⟩
    · intro request hmem now
      exact ⟨hreque request hmem, fun receipt hnone => nomatch hnone⟩
    · intro call receipt hstage ha entry hmem hkey
      obtain ⟨request, hreq, hpublish⟩ := hreceipt receipt ha
      obtain rfl : call.request = request := by
        simpa [State.request?, hstage] using hreq
      have hwrite := h.agrees call (by rw [hstage]; rfl) entry hmem hkey
      have hentry := h.holds.entry hmem
      unfold GithubOutbox.Entry.publish
      split_ifs with hpend
      · refine ⟨hentry.1, fun receipt' hrec' => ?_⟩
        cases hrec'
        rw [hkey, hwrite]
        exact hpublish
      · exact hentry
  · exact h.once
  · intro repository request htrip
    cases htrip
  · intro value request htrip
    cases htrip

lemma Sound.fail (h : Sound s) (hnext : s.fail = some t) : Sound t := by
  obtain ⟨outbox, houtb, rfl⟩ := map_eq_some_iff.mp hnext
  apply h.outboxStep houtb
  · intro request hmem
    cases hmem
  · intro receipt ha
    cases ha

lemma Sound.look (h : Sound s) (hreq : s.request? = some request) {repository : Repository}
    {publication : ApiRequest}
    (hpubl : request.write.publication? repository (marker request) = some publication)
    (htells : Tells request.key.idempotencyKey s.forge (publication.lookup.page s.forge)) :
    Sound (s.look repository request.write
      (findMarkedPublication (publication.lookup.page s.forge) (marker request))) := by
  cases hfound : findMarkedPublication (publication.lookup.page s.forge) (marker request) with
  | some existing =>
    have hcarr := htells.own existing hfound
    have hmem := page_subset (mem_of_find?_eq_some hfound)
    apply h.travel
    · intro repository' request' htrip
      cases htrip
    · intro value request' htrip hreq'
      obtain rfl := some.inj (hreq.symm.trans hreq')
      cases htrip
      apply (published_iff hpubl).mpr
      exact ⟨existing, sole_of_mem (h.once _ (h.publishable hreq)) hmem hcarr, rfl⟩
  | none =>
    apply h.travel
    · intro repository' request' htrip hreq' item hmem
      obtain rfl := some.inj (hreq.symm.trans hreq')
      by_contra hcarr
      rw [Bool.not_eq_false] at hcarr
      have hlist := htells.listed item hmem hcarr
      have hunm := find?_eq_none.mp hfound item hlist
      exact hunm (Item.mentions_of_carries hcarr)
    · intro value request' htrip
      cases htrip

lemma Sound.posted (h : Sound s) (hreq : s.request? = some request) {repository : Repository}
    {publication : ApiRequest} (htrip : s.trip = .post repository)
    (hpubl : request.write.publication? repository (marker request) = some publication) :
    Sound (s.post request.write publication) := by
  have hfresh := h.post repository request htrip hreq
  have hkey := h.publishable hreq
  have hsuff : githubOutboxMarker request.key.idempotencyKey <:+ publication.body :=
    suffix_publication hpubl
  have hoth : ∀ key, isPublishable key = true → key ≠ request.key.idempotencyKey →
      (s.item publication).carries key = false :=
    fun key hkey' hne => carries_of_posted hkey' hkey hne rfl hsuff
  have hcarr : (s.item publication).carries request.key.idempotencyKey = true := by
    simpa [Item.carries, State.item] using hsuff
  have hsole : Sole (s.forge ++ [s.item publication]) request.key.idempotencyKey
      (s.item publication) := by
    have hnone : s.forge.filter (Item.carries request.key.idempotencyKey) = [] := by
      rw [filter_eq_nil_iff]
      intro item hmem
      simp [hfresh item hmem]
    rw [Sole, filter_append, hnone]
    simp [hcarr]
  constructor
  · exact h.outbox
  · exact h.agrees
  · apply h.holds.imp
    intro entry hentry
    refine ⟨hentry.1, fun receipt hreceipt => ?_⟩
    exact (hentry.2 receipt hreceipt).post hfresh (hoth _ hentry.1)
  · intro key hkey'
    by_cases heq : key = request.key.idempotencyKey
    · rw [heq]
      exact (congrArg length hsole).le
    · exact (congrArg length (filter_append_single (hoth key hkey' heq))).trans_le
        (h.once key hkey')
  · intro repository' request' htrip'
    cases htrip'
  · intro value request' htrip' hreq'
    obtain rfl := some.inj (hreq.symm.trans hreq')
    cases htrip'
    exact (published_iff hpubl).mpr ⟨_, hsole, rfl⟩

lemma Sound.others (h : Sound s) (place : Place) (body : Option Text) :
    Sound { s with forge := s.forge ++ [⟨s.forge.length, place, body, false⟩] } := by
  constructor
  · exact h.outbox
  · exact h.agrees
  · apply h.holds.imp
    intro entry hentry
    exact ⟨hentry.1, fun receipt hreceipt => (hentry.2 receipt hreceipt).append rfl⟩
  · intro key hkey
    rw [filter_append_single rfl]
    exact h.once key hkey
  · intro repository request htrip hreq item hmem
    rcases mem_append.mp hmem with hmem | hmem
    · exact h.post repository request htrip hreq item hmem
    · obtain rfl := mem_singleton.mp hmem
      rfl
  · intro value request htrip hreq
    exact (h.done value request htrip hreq).append rfl

lemma Sound.step (h : Sound s) {a : Step} (hclear : Clear s a) (hnext : next s a = some t) :
    Sound t := by
  cases a with
  | outbox a =>
    simp only [next] at hnext
    split_ifs at hnext with hown
    obtain ⟨outbox, houtb, rfl⟩ := map_eq_some_iff.mp hnext
    apply h.outboxStep houtb
    · intro request hmem
      cases a with
      | publish other now =>
        obtain rfl := mem_singleton.mp hmem
        exact hown
      | _ => cases hmem
    · intro receipt ha
      subst ha
      cases hown
  | contact repository =>
    simp only [next] at hnext
    split at hnext
    · next request hreq htrip =>
        cases hnext
        exact h.begin hreq repository
    · cases hnext
  | pushed =>
    simp only [next] at hnext
    split at hnext
    · next key ref sha hreq htrip =>
        cases hnext
        apply h.travel
        · intro repository request htrip'
          cases htrip'
        · intro value request htrip' hreq'
          obtain rfl := some.inj (hreq.symm.trans hreq')
          exact (Trip.done.inj htrip').symm
    · cases hnext
  | labelled status =>
    simp only [next] at hnext
    split at hnext
    · next request repository first left hreq htrip =>
        split_ifs at hnext
        · cases hnext
          exact h.labelTrip hreq repository left
        · exact h.fail hnext
    · cases hnext
  | lookedUp =>
    simp only [next] at hnext
    split at hnext
    · next request repository hreq htrip =>
        obtain ⟨publication, hpubl, rfl⟩ := map_eq_some_iff.mp hnext
        apply h.look hreq hpubl
        apply hclear (request.key.idempotencyKey, publication.lookup.page s.forge)
        simp [State.page?, hreq, htrip, hpubl]
    · cases hnext
  | posted =>
    simp only [next] at hnext
    split at hnext
    · next request repository hreq htrip =>
        obtain ⟨publication, hpubl, rfl⟩ := map_eq_some_iff.mp hnext
        exact h.posted hreq htrip hpubl
    · cases hnext
  | answered now =>
    simp only [next] at hnext
    split at hnext
    · next value htrip =>
        obtain ⟨outbox, houtb, rfl⟩ := map_eq_some_iff.mp hnext
        apply h.outboxStep houtb
        · intro request hmem
          cases hmem
        · intro receipt ha
          obtain rfl := GithubOutbox.Step.answered.inj ha
          cases hstage : s.outbox.stage with
          | upstream call =>
            have hreq : s.request? = some call.request := by simp [State.request?, hstage]
            exact ⟨call.request, hreq, h.done value call.request htrip hreq⟩
          | _ => simp [GithubOutbox.next, hstage] at houtb
    · cases hnext
  | failed => exact h.fail hnext
  | others place body =>
    cases hnext
    exact h.others place body

lemma sound_fresh {forge : List Item} (h : ∀ item ∈ forge, item.own = false) :
    Sound (fresh forge) := by
  constructor
  · exact GithubOutbox.sound_of_reach
      (.of_start GithubOutbox.start_fresh : GithubOutbox.outbox.Reach anyStep _)
  · exact GithubOutbox.agrees_of_none rfl
  · exact GithubOutbox.holds_fresh fun entry hentry => nomatch hentry
  · intro key hkey
    have hnone : forge.filter (Item.carries key) = [] := by
      rw [filter_eq_nil_iff]
      intro item hmem
      simp [Item.carries, h item hmem]
    simp [fresh, hnone]
  · intro repository request htrip
    cases htrip
  · intro value request htrip
    cases htrip

lemma sound_of_reach (h : publication.Reach Clear s) : Sound s := by
  apply h.inv Sound
  · intro s hstart
    rw [hstart.1]
    exact sound_fresh hstart.2
  · intro s a t hs hclear hnext
    exact hs.step hclear hnext

/-- In a run whose lookups tell what there is: where a write is recorded as published, there is one
item that the outbox published under its key, and the record has it. -/
theorem published_once (h : publication.Reach Clear s)
    {entry : GithubOutbox.Entry Write Value} {receipt : GithubOutbox.Receipt Value}
    (hentry : entry ∈ s.outbox.records) (hreceipt : entry.receipt = some receipt) :
    Published s.forge entry.key.idempotencyKey receipt.value entry.write :=
  ((sound_of_reach h).holds.records entry hentry).2 receipt hreceipt

end

section

def sampleRepository : Repository := ⟨['o'], ['r']⟩

def sampleComment : Request := ⟨⟨['p'], ['c'], ['k']⟩, .issueComment 5 ['x']⟩

def sampleTransition : Request := ⟨⟨['p'], ['c'], ['k']⟩, .issueTransition 5 [['l']] [] (some ['x'])⟩

def remark (id : ℕ) : Item := ⟨id, .comment sampleRepository 5, some ['y'], false⟩

def posted (id : ℕ) : Item :=
  ⟨id, .comment sampleRepository 5, some (marked (marker sampleComment) ['x']), true⟩

def firstCall (request : Request) : List Step :=
  [.outbox (.publish request []), .outbox .persisted, .contact sampleRepository, .lookedUp, .posted]

def secondCall (request : Request) : List Step :=
  [.outbox .restart, .outbox (.publish request []), .contact sampleRepository, .lookedUp]

def finish : List Step := [.answered [], .outbox .persisted]

theorem published_once_after_crash :
    ∃ s : State, publication.execIf (fun s a => decide (Clear s a)) (fresh [remark 0])
        (firstCall sampleComment ++ .others (.comment sampleRepository 5) (some ['y']) ::
          secondCall sampleComment ++ finish) = some s ∧
      s.outbox.answers =
        [⟨sampleComment.key, sampleComment.write, [], some ⟨[], .item (posted 1)⟩⟩] ∧
      Published s.forge ['k'] (.item (posted 1)) sampleComment.write := by
  have hrun : (publication.execIf (fun s a => decide (Clear s a)) (fresh [remark 0])
      (firstCall sampleComment ++ .others (.comment sampleRepository 5) (some ['y']) ::
        secondCall sampleComment ++ finish)).map (·.outbox.answers) =
      some [⟨sampleComment.key, sampleComment.write, [], some ⟨[], .item (posted 1)⟩⟩] := by
    decide +kernel
  obtain ⟨s, hs, hansw⟩ := map_eq_some_iff.mp hrun
  have hguard := (Machine.run_of_execIf hs).mono fun s a h => of_decide_eq_true h
  have hstart : publication.start (fresh [remark 0]) := ⟨rfl, by decide⟩
  have hrec : ⟨sampleComment.key, sampleComment.write, [], some ⟨[], .item (posted 1)⟩⟩ ∈
      s.outbox.records := by
    simp [GithubOutbox.mem_records, hansw]
  exact ⟨s, hs, hansw, published_once ⟨_, _, hstart, hguard⟩ hrec rfl⟩

/-- Whatever is recorded as published, but for a push, is one item, and the record has
it. -/
def AllOnce (s : State) : Prop :=
  ∀ entry ∈ s.outbox.records, ∀ receipt, entry.receipt = some receipt →
    (∀ ref sha, entry.write ≠ .repositoryPush ref sha) →
      ∃ item, Sole s.forge entry.key.idempotencyKey item ∧ receipt.value = .item item

def remarks : List Item := (List.range perPage).map remark

/-- The issue has as many comments as a page before the first call. -/
lemma published_twice : ∃ s : State, publication.Reach anyStep s ∧ s.outbox.answers =
        [⟨sampleComment.key, sampleComment.write, [], some ⟨[], .item (posted 101)⟩⟩] ∧
      s.forge = remarks ++ [posted 100, posted 101] := by
  have hrun : (publication.exec (fresh remarks)
      (firstCall sampleComment ++ secondCall sampleComment ++ .posted :: finish)).map
        (fun s => (s.outbox.answers, s.forge)) =
      some ([⟨sampleComment.key, sampleComment.write, [], some ⟨[], .item (posted 101)⟩⟩],
        remarks ++ [posted 100, posted 101]) := by
    decide +kernel
  obtain ⟨s, hs, hview⟩ := map_eq_some_iff.mp hrun
  obtain ⟨hansw, hforge⟩ := Prod.mk.inj hview
  have hstart : publication.start (fresh remarks) := ⟨rfl, by decide +kernel⟩
  exact ⟨s, Machine.reach_of_exec hstart hs, hansw, hforge⟩

lemma transition_summarised : ∃ s : State, publication.Reach Clear s ∧
      s.outbox.answers = [⟨sampleTransition.key, sampleTransition.write, [],
        some ⟨[], .transition 5 [['l']] [] true⟩⟩] := by
  have hrun : (publication.execIf (fun s a => decide (Clear s a)) (fresh [])
      ([.outbox (.publish sampleTransition []), .outbox .persisted, .contact sampleRepository,
        .labelled 200, .lookedUp, .posted] ++ finish)).map (·.outbox.answers) =
      some [⟨sampleTransition.key, sampleTransition.write, [],
        some ⟨[], .transition 5 [['l']] [] true⟩⟩] := by
    decide +kernel
  obtain ⟨s, hs, hansw⟩ := map_eq_some_iff.mp hrun
  have hguard := (Machine.run_of_execIf hs).mono fun s a h => of_decide_eq_true h
  have hstart : publication.start (fresh []) := ⟨rfl, by decide⟩
  exact ⟨s, ⟨_, _, hstart, hguard⟩, hansw⟩

lemma AllOnce.of_answer {s : State} (h : AllOnce s)
    {entry : GithubOutbox.Entry Write Value} {receipt : GithubOutbox.Receipt Value}
    (hansw : s.outbox.answers = [entry]) (hreceipt : entry.receipt = some receipt)
    (hpush : ∀ ref sha, entry.write ≠ .repositoryPush ref sha) :
    ∃ item, Sole s.forge entry.key.idempotencyKey item ∧ receipt.value = .item item := by
  apply h entry _ receipt hreceipt hpush
  simp [GithubOutbox.mem_records, hansw]

/-- A comment behind a full page is posted twice, and the record of a transition is no
item. -/
theorem recorded_otherwise :
    (∃ s : State, publication.Reach anyStep s ∧ s.forge = remarks ++ [posted 100, posted 101] ∧
      ¬AllOnce s) ∧
    ∃ s : State, publication.Reach Clear s ∧ ¬AllOnce s := by
  constructor
  · obtain ⟨s, hreach, hansw, hforge⟩ := published_twice
    refine ⟨s, hreach, hforge, fun honce => ?_⟩
    obtain ⟨item, hsole, -⟩ := honce.of_answer hansw rfl (fun _ _ hpush => nomatch hpush)
    have htwo : (s.forge.filter (Item.carries sampleComment.key.idempotencyKey)).length = 2 := by
      rw [hforge]
      decide +kernel
    rw [show s.forge.filter _ = [item] from hsole] at htwo
    cases htwo
  · obtain ⟨s, hreach, hansw⟩ := transition_summarised
    refine ⟨s, hreach, fun honce => ?_⟩
    obtain ⟨item, -, hvalue⟩ := honce.of_answer hansw rfl (fun _ _ hpush => nomatch hpush)
    cases hvalue

end
end Redskilled.Github.Publication
