import Redskilled.Landing.MergeDriver

/-!
# Arms and releases beside a pass

What a call settles for its pull request stands until another one is settled or a pass
observes the forge. The calls that write back a copy of the store keep this where no
other call was settled since their copy was made: what they write for the other pull
requests is then what these stand with.
-/
namespace Redskilled.Landing.MergeDriver
open Foundation LastWord List Option

/-- Each armed record stands under its own number. -/
def Keyed (prs : Prs) : Prop := ∀ e ∈ prs.entries, e.2.status = .armed → e.2.pr = e.1

instance (prs : Prs) : Decidable (Keyed prs) :=
  inferInstanceAs (Decidable (∀ e ∈ prs.entries, e.2.status = .armed → e.2.pr = e.1))

def Kept (s : State) (prs : Prs) (pr : ℕ) : Prop :=
  statuses prs pr = statuses s.store pr ∨ statuses prs pr ∈ observedSince s.log pr

instance (s : State) (prs : Prs) (pr : ℕ) : Decidable (Kept s prs pr) :=
  inferInstanceAs (Decidable (_ ∨ _))

def Released : Option Word → Prop
  | none => False
  | some word => word ≠ some .armed

instance (word : Option Word) : Decidable (Released word) :=
  match word with
  | none => isFalse id
  | some word => inferInstanceAs (Decidable (word ≠ some .armed))

def ReadsKeyed (s : State) : Option Call → Prop
  | some (.starting _) => Keyed s.store
  | _ => True

instance (s : State) (call : Option Call) : Decidable (ReadsKeyed s call) :=
  match call with
  | some (.starting _) => inferInstanceAs (Decidable (Keyed s.store))
  | none | some (.arming _ _) | some (.releasing _ _) | some (.writing _ _ _) | some (.passing _) =>
    isTrue trivial

/-- A write undoes nothing that was settled since its copy was made. -/
def WritesKept (s : State) : Option Call → Prop
  | some (.writing seen pr prs) =>
    ∀ other ∈ touched (since s.log seen), other ≠ pr → Kept s prs other
  | some (.passing p) => ∀ pr ∈ touched (since s.log p.seen), Kept s p.next pr
  | _ => True

instance (s : State) (call : Option Call) : Decidable (WritesKept s call) :=
  match call with
  | some (.writing seen pr prs) => inferInstanceAs
      (Decidable (∀ other ∈ touched (since s.log seen), other ≠ pr → Kept s prs other))
  | some (.passing p) =>
    inferInstanceAs (Decidable (∀ pr ∈ touched (since s.log p.seen), Kept s p.next pr))
  | none | some (.arming _ _) | some (.releasing _ _) | some (.starting _) => isTrue trivial

/-- What is judged was not released since the copy was made. -/
def JudgesOwned (s : State) (seen : ℕ) : Stage → Prop
  | .judging record => ¬Released (lastSettled (since s.log seen) record.pr)
  | _ => True

instance (s : State) (seen : ℕ) (stage : Stage) : Decidable (JudgesOwned s seen stage) :=
  match stage with
  | .judging record =>
    inferInstanceAs (Decidable (¬Released (lastSettled (since s.log seen) record.pr)))
  | .viewing _ | .updating _ | .merging _ | .writing => isTrue trivial

/-- A merge is sent to no pull request that was released since. -/
def MergesOwned (s : State) : Option Call → Prop
  | some (.passing p) => JudgesOwned s p.seen p.stage
  | _ => True

instance (s : State) (call : Option Call) : Decidable (MergesOwned s call) :=
  match call with
  | some (.passing p) => inferInstanceAs (Decidable (JudgesOwned s p.seen p.stage))
  | none | some (.arming _ _) | some (.releasing _ _) | some (.writing _ _ _) |
      some (.starting _) => isTrue trivial

/-- The store can be read, and no call goes on from a copy that is out of date. -/
def Undisturbed (s : State) : Step → Prop
  | .read i readable => readable = true ∧ ReadsKeyed s s.calls[i]?
  | .write i written => written = true → WritesKept s s.calls[i]?
  | .judged i _ => MergesOwned s s.calls[i]?
  | _ => True

instance (s : State) (a : Step) : Decidable (Undisturbed s a) :=
  match a with
  | .read i readable => inferInstanceAs (Decidable (readable = true ∧ ReadsKeyed s s.calls[i]?))
  | .write i written => inferInstanceAs (Decidable (written = true → WritesKept s s.calls[i]?))
  | .judged i _ => inferInstanceAs (Decidable (MergesOwned s s.calls[i]?))
  | .armPr _ _ | .releasePr _ _ | .runPass _ | .viewed _ _ | .updated _ _ | .judgeThrew _ |
      .merged _ _ => isTrue trivial

/-- What the arms and releases have settled is not lost. -/
structure Lossless (s : State) : Prop where
  stored : ∀ pr, statuses s.store pr ∈ words (statuses s.initial) s.log pr
  armed : ∀ pr, lastSettled s.log pr = some (some .armed) → statuses s.store pr ≠ none
  released : ∀ pr, Released (lastSettled s.log pr) → statuses s.store pr ≠ some .armed
  merges : ∀ m ∈ s.merges, ¬Released m.2

def Final (log : Log) : Prop := ∀ pr, ∀ word ∈ observedSince log pr, word ≠ none ∧ word ≠ some .armed

/-- Armed, as far as nothing was settled since. -/
def Owned (initial : ℕ → Word) (log : Log) (seen : ℕ) (record : PrRecord) : Prop :=
  record.status = .armed ∧
    (lastSettled (since log seen) record.pr = none → some .armed ∈ words initial log record.pr)

def Stage.record? : Stage → Option PrRecord
  | .viewing record | .updating record | .judging record | .merging record => some record
  | .writing => none

structure PassInv (initial : ℕ → Word) (log : Log) (p : Pass) : Prop where
  copied : Copied initial log p.seen (statuses p.next)
  todo : ∀ record ∈ p.todo, Owned initial log p.seen record
  record : ∀ record, p.stage.record? = some record → Owned initial log p.seen record

def CallInv (initial : ℕ → Word) (log : Log) : Call → Prop
  | .arming _ _ | .releasing _ _ | .starting _ => True
  | .writing seen pr prs =>
    ∃ copy, Copied initial log seen copy ∧ ∀ other, other ≠ pr → statuses prs other = copy other
  | .passing p => PassInv initial log p

structure Inv (s : State) : Prop where
  stored : ∀ pr, statuses s.store pr ∈ words (statuses s.initial) s.log pr
  final : Final s.log
  calls : ∀ call ∈ s.calls, CallInv (statuses s.initial) s.log call
  merges : ∀ m ∈ s.merges, ¬Released m.2

variable {initial : ℕ → Word} {log new : Log} {s t : State} {p : Pass} {record : PrRecord}
  {seen i pr : ℕ}

lemma statuses_set (prs : Prs) (pr : ℕ) (record : PrRecord) :
    statuses (prs.set pr record) = Function.update (statuses prs) pr (some record.status) := by
  funext other
  rw [statuses, JsMap.lookup_set, Function.update_apply]
  split_ifs
  · rfl
  · rfl

lemma Owned.append (h : Owned initial log seen record) (hseen : seen ≤ log.length) (new : Log) :
    Owned initial (new ++ log) seen record := by
  refine ⟨h.1, fun hnone => ?_⟩
  rw [lastSettled_since hseen new] at hnone
  obtain ⟨hnew, hold⟩ := or_eq_none_iff.mp hnone
  exact mem_words_append (h.2 hold) hnew

lemma PassInv.append (h : PassInv initial log p) (new : Log) : PassInv initial (new ++ log) p := by
  constructor
  · exact h.copied.append new
  · intro record hrec
    exact (h.todo record hrec).append h.copied.made new
  · intro record hrec
    exact (h.record record hrec).append h.copied.made new

lemma CallInv.append {call : Call} (h : CallInv initial log call) (new : Log) :
    CallInv initial (new ++ log) call := by
  cases call with
  | writing seen pr prs =>
    obtain ⟨copy, hcopy, hprs⟩ := h
    exact ⟨copy, hcopy.append new, hprs⟩
  | passing p => exact PassInv.append h new
  | _ => trivial

def Observations (new : Log) : Prop :=
  ∀ entry ∈ new, ∃ pr status, entry = .observed pr (some status) ∧ status ≠ Status.armed

lemma Observations.lastSettled (h : Observations new) (pr : ℕ) : lastSettled new pr = none := by
  rw [lastSettled_eq_none]
  intro hmem
  obtain ⟨entry, hentry, hpr⟩ := mem_filterMap.mp hmem
  obtain ⟨other, status, rfl, -⟩ := h entry hentry
  cases hpr

lemma Observations.observedSince (h : Observations new) {word : Word}
    (hword : word ∈ observedSince new pr) : word ≠ none ∧ word ≠ some .armed := by
  induction new with
  | nil => cases hword
  | cons entry new ih =>
    obtain ⟨other, status, rfl, hstat⟩ := h entry mem_cons_self
    have htail : Observations new := fun e he => h e (mem_cons_of_mem _ he)
    simp only [LastWord.observedSince] at hword
    split_ifs at hword
    · rcases mem_cons.mp hword with rfl | hword
      · exact ⟨some_ne_none status, fun harm => hstat (some.inj harm)⟩
      · exact ih htail hword
    · exact ih htail hword

lemma Observations.append (h : Observations new) (hlog : Observations log) :
    Observations (new ++ log) := by
  intro entry hentry
  rcases mem_append.mp hentry with hentry | hentry
  · exact h entry hentry
  · exact hlog entry hentry

lemma Observations.final (h : Observations new) (hlog : Final log) : Final (new ++ log) := by
  intro pr word hword
  rw [observedSince_append (h.lastSettled pr)] at hword
  rcases mem_append.mp hword with hword | hword
  · exact h.observedSince hword
  · exact hlog pr word hword

lemma observations_nil : Observations [] := fun entry hentry => by cases hentry

lemma observation_eq (record : PrRecord) : record.status = .armed ∧ observation record = [] ∨
      record.status ≠ .armed ∧ observation record = [.observed record.pr (some record.status)] := by
  cases hstat : record.status with
  | armed => simp [observation, hstat]
  | _ => simp [observation, hstat]

lemma observations_observation (record : PrRecord) : Observations (observation record) := by
  rcases observation_eq record with ⟨-, hnil⟩ | ⟨hstat, hone⟩
  · rw [hnil]
    exact observations_nil
  · rw [hone]
    intro entry hentry
    exact ⟨record.pr, record.status, mem_singleton.mp hentry, hstat⟩

structure TurnInv (initial : ℕ → Word) (log : Log) (p : Pass) (todo : List PrRecord) : Prop where
  copied : Copied initial log p.seen (statuses p.next)
  todo : ∀ record ∈ todo, Owned initial log p.seen record

/-- The pass after a step of an iteration, with what it observed. -/
def Follows (initial : ℕ → Word) (log : Log) (r : Pass × Log) : Prop :=
  PassInv initial (r.2 ++ log) r.1 ∧ Observations r.2

lemma exhausted_pr (p : Pass) (record : PrRecord) : (p.exhausted record).pr = record.pr := rfl

lemma TurnInv.stamp {todo : List PrRecord} (h : TurnInv initial log p todo)
    {before : PrRecord} (hbef : Owned initial log p.seen before) (hpr : record.pr = before.pr)
    (action : Action) (note : Option Text) :
    TurnInv initial (observation record ++ log) (p.stamp record action note) todo := by
  constructor
  · have hcop := h.copied.append (observation record)
    rw [Pass.stamp, statuses_set]
    apply hcop.put
    intro hnone
    rcases observation_eq record with ⟨harm, hnil⟩ | ⟨-, hone⟩
    · rw [hnil, nil_append] at hnone ⊢
      rw [hpr] at hnone ⊢
      rw [harm]
      exact hbef.2 hnone
    · rw [hone]
      apply mem_words_of_observed
      simp [observedSince]
  · intro other hoth
    exact (h.todo other hoth).append h.copied.made _

lemma TurnInv.turn {todo : List PrRecord} (h : TurnInv initial log p todo) :
    Follows initial log (p.turn todo) := by
  induction todo generalizing p log with
  | nil =>
    refine ⟨⟨h.copied, ?_, ?_⟩, observations_nil⟩
    · intro record hrec
      cases hrec
    · intro record hrec
      cases hrec
  | cons record todo ih =>
    have hrec := h.todo record mem_cons_self
    have htodo : TurnInv initial log p todo :=
      ⟨h.copied, fun other hoth => h.todo other (mem_cons_of_mem _ hoth)⟩
    simp only [Pass.turn]
    split_ifs with hexh
    · obtain ⟨hpass, hobs⟩ :=
        ih (htodo.stamp hrec (exhausted_pr p record) .terminalHuman _)
      refine ⟨?_, hobs.append (observations_observation _)⟩
      rw [append_assoc]
      exact hpass
    · refine ⟨⟨h.copied, htodo.todo, fun other hoth => ?_⟩, observations_nil⟩
      cases hoth
      exact hrec

lemma PassInv.settle (h : PassInv initial log p) {before : PrRecord}
    (hbef : p.stage.record? = some before) (hpr : record.pr = before.pr) (action : Action)
    (note : Option Text) :
    Follows initial log (p.settle record action note) := by
  have hturn : TurnInv initial log p p.todo := ⟨h.copied, h.todo⟩
  have hstamp := hturn.stamp (h.record before hbef) hpr action note
  obtain ⟨hpass, hobs⟩ := hstamp.turn
  refine ⟨?_, hobs.append (observations_observation record)⟩
  rw [← append_assoc] at hpass
  exact hpass

lemma PassInv.await (h : PassInv initial log p) {before : PrRecord}
    (hbef : p.stage.record? = some before) {stage : Stage} (hstage : stage.record? = some record)
    (hpr : record.pr = before.pr) (hstat : record.status = before.status) :
    PassInv initial log (p.await stage).1 := by
  refine ⟨h.copied, h.todo, fun other hoth => ?_⟩
  obtain rfl := some.inj (hstage.symm.trans hoth)
  have hown := h.record before hbef
  exact ⟨hstat.trans hown.1, hpr ▸ hown.2⟩

lemma PassInv.viewed (h : PassInv initial log p) (hstage : p.stage = .viewing record)
    (toUpperCase : Text → Text) (view : View) :
    Follows initial log (p.viewed toUpperCase record view) := by
  have hrec : p.stage.record? = some record := by rw [hstage]; rfl
  simp only [Pass.viewed]
  split
  · exact h.settle hrec (by rfl) _ _
  · exact ⟨h.await hrec rfl rfl rfl, observations_nil⟩
  · exact ⟨h.await hrec rfl rfl rfl, observations_nil⟩

lemma PassInv.viewFailed (h : PassInv initial log p) (hstage : p.stage = .viewing record)
    (message : Text) : Follows initial log (p.viewFailed record message) := by
  have hrec : p.stage.record? = some record := by rw [hstage]; rfl
  exact h.settle hrec (by rfl) _ _

lemma PassInv.updated (h : PassInv initial log p) (hstage : p.stage = .updating record)
    (failure : Option Text) : Follows initial log (p.updated record failure) := by
  have hrec : p.stage.record? = some record := by rw [hstage]; rfl
  cases failure with
  | none => exact h.settle hrec (by rfl) _ _
  | some message => exact h.settle hrec (by rfl) _ _

lemma PassInv.refused (h : PassInv initial log p) (hstage : p.stage = .judging record)
    (message : Text) : Follows initial log (p.refused record message) := by
  have hrec : p.stage.record? = some record := by rw [hstage]; rfl
  exact h.settle hrec (by rfl) _ _

lemma PassInv.merged (h : PassInv initial log p) (hstage : p.stage = .merging record)
    (failure : Option Text) : Follows initial log (p.merged record failure) := by
  have hrec : p.stage.record? = some record := by rw [hstage]; rfl
  cases failure with
  | none => exact h.settle hrec (by rfl) _ _
  | some message => exact h.settle hrec (by rfl) _ _

lemma mem_values {prs : Prs} (h : record ∈ values prs) : ∃ e ∈ prs.entries, e.2 = record := by
  obtain ⟨e, he, rfl⟩ := mem_map.mp h
  refine ⟨e, ?_, rfl⟩
  rcases mem_append.mp he with he | he
  · exact mem_of_mem_filter ((mem_insertionSort _).mp he)
  · exact mem_of_mem_filter he

lemma follows_start (options : PassOptions) {prs : Prs} (hkeyed : Keyed prs)
    (hstor : ∀ pr, statuses prs pr ∈ words initial log pr) :
    Follows initial log (Pass.start options log.length prs) := by
  apply TurnInv.turn
  refine ⟨Copied.now hstor, fun record hrec => ?_⟩
  obtain ⟨hvalue, harm⟩ := mem_filter.mp hrec
  have harm : record.status = .armed := of_decide_eq_true harm
  obtain ⟨e, he, rfl⟩ := mem_values hvalue
  refine ⟨harm, fun _ => ?_⟩
  have hlook : prs.lookup e.2.pr = some e.2 := by
    rw [hkeyed e he harm]
    exact (AList.mem_lookup_iff (s := prs)).mpr he
  have hstat : statuses prs e.2.pr = some .armed := by
    rw [statuses, hlook, map_some, harm]
  exact hstat ▸ hstor e.2.pr

lemma released_of_word (hfin : Final log) (h : some .armed ∈ words initial log pr) :
    ¬Released (lastSettled log pr) := by
  rcases mem_words.mp h with hobserv | hlast
  · exact absurd rfl (hfin pr _ hobserv).2
  · cases hsettl : lastSettled log pr with
    | none => exact id
    | some word =>
      rw [hsettl, getD_some] at hlast
      exact fun hne => hne hlast.symm

lemma Inv.lossless (h : Inv s) : Lossless s := by
  constructor
  · exact h.stored
  · intro pr hsettl hnone
    rcases mem_words.mp (h.stored pr) with hobserv | hlast
    · exact (h.final pr _ hobserv).1 hnone
    · rw [hnone, hsettl] at hlast
      cases hlast
  · intro pr hrel harm
    exact released_of_word h.final (harm ▸ h.stored pr) hrel
  · exact h.merges

lemma Inv.begin (h : Inv s) {call : Call} (hcall : CallInv (statuses s.initial) s.log call) :
    Inv (s.begin call) := by
  refine ⟨h.stored, h.final, fun other hoth => ?_, h.merges⟩
  rcases mem_append.mp hoth with hoth | hoth
  · exact h.calls other hoth
  · obtain rfl := mem_singleton.mp hoth
    exact hcall

lemma Inv.goto (h : Inv s) {call : Call} (hcall : CallInv (statuses s.initial) s.log call) :
    Inv (s.goto i call) := by
  refine ⟨h.stored, h.final, fun other hoth => ?_, h.merges⟩
  rcases mem_or_eq_of_mem_set hoth with hoth | rfl
  · exact h.calls other hoth
  · exact hcall

lemma Inv.finish (h : Inv s) : Inv (s.finish i) :=
  ⟨h.stored, h.final, fun other hoth => h.calls other (mem_of_mem_eraseIdx hoth), h.merges⟩

lemma Inv.advance (h : Inv s) {r : Pass × Log} (hr : Follows (statuses s.initial) s.log r) :
    Inv (s.advance i r) := by
  obtain ⟨hpass, hobs⟩ := hr
  constructor
  · intro pr
    exact mem_words_append (h.stored pr) (hobs.lastSettled pr)
  · exact hobs.final h.final
  · intro other hoth
    rcases mem_or_eq_of_mem_set hoth with hoth | rfl
    · exact (h.calls other hoth).append r.2
    · exact hpass
  · exact h.merges

lemma Inv.sendMerge (h : Inv s) (hpass : PassInv (statuses s.initial) s.log p)
    (hstage : p.stage = .judging record)
    (hrel : ¬Released (lastSettled (since s.log p.seen) record.pr)) :
    Inv (s.sendMerge i p record) := by
  have hrec : p.stage.record? = some record := by rw [hstage]; rfl
  have hawait : PassInv _ s.log (p.await (.merging record)).1 := hpass.await hrec rfl rfl rfl
  have hadv : Inv (s.advance i (p.await (.merging record))) :=
    h.advance ⟨hawait, observations_nil⟩
  refine ⟨hadv.stored, hadv.final, hadv.calls, fun m hm => ?_⟩
  rcases mem_append.mp hm with hm | hm
  · exact h.merges m hm
  · obtain rfl := mem_singleton.mp hm
    cases hsince : lastSettled (since s.log p.seen) record.pr with
    | none =>
      exact released_of_word h.final ((hpass.record record hrec).2 hsince)
    | some word =>
      -- the log is what was there at the read, behind what came since
      have hspl : s.log = since s.log p.seen ++ s.log.drop (s.log.length - p.seen) :=
        (take_append_drop _ _).symm
      have hlast : lastSettled s.log record.pr = some word := by
        rw [hspl, lastSettled_append, hsince]
        rfl
      simpa [hlast, hsince] using hrel

lemma Inv.settle (h : Inv s) {prs : Prs}
    (hoth : ∀ other, other ≠ pr → statuses prs other ∈ words (statuses s.initial) s.log other) :
    Inv { s.settle pr (statuses prs pr) with store := prs } := by
  constructor
  · intro other
    change _ ∈ words _ (.settled pr (statuses prs pr) :: s.log) other
    rw [words_settled]
    split_ifs with heq
    · subst heq
      exact mem_singleton_self _
    · exact hoth other (Ne.symm heq)
  · intro other word hword
    simp only [State.settle, observedSince] at hword
    split_ifs at hword
    · cases hword
    · exact h.final other word hword
  · intro call hcall
    exact (h.calls call hcall).append [.settled pr (statuses prs pr)]
  · exact h.merges

lemma mem_words_of_kept (h : Inv s) {prs : Prs} (hkept : Kept s prs pr) :
    statuses prs pr ∈ words (statuses s.initial) s.log pr := by
  rcases hkept with hstor | hobserv
  · rw [hstor]
    exact h.stored pr
  · exact mem_words_of_observed hobserv

lemma mem_words_of_copied (h : Inv s) {prs : Prs} {copy : ℕ → Word}
    (hcop : Copied (statuses s.initial) s.log seen copy) (hcopy : statuses prs pr = copy pr)
    (hkept : pr ∈ touched (since s.log seen) → Kept s prs pr) :
    statuses prs pr ∈ words (statuses s.initial) s.log pr := by
  by_cases htouch : pr ∈ touched (since s.log seen)
  · exact mem_words_of_kept h (hkept htouch)
  · rw [hcopy]
    exact hcop.word pr (lastSettled_eq_none.mpr htouch)

lemma statuses_armPr (prs : Prs) (nowEpoch : ℕ) {other : ℕ} (h : other ≠ pr) :
    statuses (armPr pr nowEpoch prs) other = statuses prs other := by
  rw [armPr, statuses_set, Function.update_of_ne h]

lemma statuses_releasePr {prs prs' : Prs} {nowEpoch other : ℕ} (h : other ≠ pr)
    (hrelease : releasePr pr nowEpoch prs = some prs') : statuses prs' other = statuses prs other := by
  obtain ⟨existing, -, rfl⟩ := map_eq_some_iff.mp hrelease
  rw [statuses_set, Function.update_of_ne h]

lemma Inv.read (h : Inv s) (hkeyed : ∀ options, s.calls[i]? = some (.starting options) →
    Keyed s.store) (hn : s.read i s.store = some t) : Inv t := by
  have hcop := Copied.now h.stored
  unfold State.read at hn
  split at hn
  · next pr nowEpoch hcall =>
      cases hn
      exact h.goto ⟨_, hcop, fun other hne => statuses_armPr s.store nowEpoch hne⟩
  · next pr nowEpoch hcall =>
      split at hn
      · next prs hrelease =>
          cases hn
          exact h.goto ⟨_, hcop, fun other hne => statuses_releasePr hne hrelease⟩
      · next hrelease =>
          cases hn
          have hnone : statuses s.store pr = none := by
            rw [statuses, map_eq_none_iff.mp hrelease]
            rfl
          have hfinish : Inv (s.finish i) := h.finish
          have hsettle : Inv { (s.finish i).settle pr (statuses s.store pr) with store := s.store } :=
            hfinish.settle fun other _ => h.stored other
          rw [hnone] at hsettle
          exact hsettle
  · next options hcall =>
      cases hn
      exact h.advance (follows_start options (hkeyed options hcall) h.stored)
  · cases hn

lemma Inv.write (h : Inv s) {written : Bool} (hguard : Undisturbed s (.write i written))
    (hn : s.write i written = some t) : Inv t := by
  unfold State.write at hn
  split at hn
  · next seen pr prs hcall =>
      cases hn
      have hmem := mem_of_getElem? hcall
      obtain ⟨copy, hcop, hcopy⟩ := h.calls _ hmem
      split_ifs with hwritt
      · have hkept := hguard hwritt
        rw [hcall] at hkept
        apply (h.finish (i := i)).settle
        intro other hne
        exact mem_words_of_copied h hcop (hcopy other hne)
          fun htouch => hkept other htouch hne
      · exact h.finish
  · next options seen prs todo entries hcall =>
      cases hn
      have hpass : PassInv _ _ _ := h.calls _ (mem_of_getElem? hcall)
      split_ifs with hwritt
      · have hkept := hguard hwritt
        rw [hcall] at hkept
        refine ⟨fun pr => ?_, h.final, (h.finish (i := i)).calls, h.merges⟩
        exact mem_words_of_copied h hpass.copied rfl (hkept pr)
      · exact h.finish
  · cases hn

section
variable {toUpperCase : Text → Text}

lemma Inv.step (h : Inv s) {a : Step} (hguard : Undisturbed s a)
    (hn : next toUpperCase s a = some t) : Inv t := by
  have hpass : ∀ {i : ℕ} {p : Pass}, s.calls[i]? = some (.passing p) →
      PassInv (statuses s.initial) s.log p :=
    fun hcall => h.calls _ (mem_of_getElem? hcall)
  cases a with
  | read i readable =>
    obtain ⟨rfl, hkeyed⟩ := hguard
    apply h.read _ hn
    intro options hcall
    rw [hcall] at hkeyed
    exact hkeyed
  | write i written => exact h.write hguard hn
  | viewed i view =>
    simp only [next] at hn
    split at hn
    · next p hcall =>
        split at hn
        · next record hstage =>
            cases view with
            | ok view =>
              cases hn
              exact h.advance ((hpass hcall).viewed hstage toUpperCase view)
            | error message =>
              cases hn
              exact h.advance ((hpass hcall).viewFailed hstage message)
        · cases hn
    · cases hn
  | updated i failure =>
    simp only [next] at hn
    split at hn
    · next p hcall =>
        split at hn
        · next record hstage =>
            cases hn
            exact h.advance ((hpass hcall).updated hstage failure)
        · cases hn
    · cases hn
  | judged i decision =>
    simp only [next] at hn
    split at hn
    · next p hcall =>
        split at hn
        · next record hstage =>
            simp only [Undisturbed, hcall, MergesOwned, hstage, JudgesOwned] at hguard
            split_ifs at hn
            split at hn
            · next _ message _ =>
                cases hn
                exact h.advance ((hpass hcall).refused hstage message)
            · cases hn
              exact h.sendMerge (hpass hcall) hstage hguard
        · cases hn
    · cases hn
  | judgeThrew i =>
    simp only [next] at hn
    split at hn
    · split at hn
      · split_ifs at hn
        cases hn
        exact h.finish
      · cases hn
    · cases hn
  | merged i failure =>
    simp only [next] at hn
    split at hn
    · next p hcall =>
        split at hn
        · next record hstage =>
            cases hn
            exact h.advance ((hpass hcall).merged hstage failure)
        · cases hn
    · cases hn
  | _ =>
    cases hn
    exact h.begin trivial

lemma inv_start (h : Start s) : Inv s := by
  obtain ⟨hcalls, hinit, hlog, hmerg, -⟩ := h
  constructor
  · intro pr
    simp [hinit, hlog, words, observedSince, lastSettled]
  · intro pr word hword
    rw [hlog] at hword
    cases hword
  · intro call hcall
    rw [hcalls] at hcall
    cases hcall
  · intro m hm
    rw [hmerg] at hm
    cases hm

/-- In a run whose steps are undisturbed no arm and no release is lost. -/
theorem arms_and_releases_stand (toUpperCase : Text → Text) (s : State)
    (h : (driver toUpperCase).Reach Undisturbed s) : Lossless s := by
  have hinv : Inv s := Machine.Reach.inv Inv (fun _ hstart => inv_start hstart)
    (fun _ _ _ hi hok hn => hi.step hok hn) h
  exact hinv.lossless

end

section

def ascii (text : Text) : Text := text.map Char.toUpper

def armedAt (pr : ℕ) : PrRecord := ⟨pr, .armed, 1, 0, 1, none, none, none⟩

def armedStore (prs : List ℕ) : State :=
  let store : Prs := prs.foldl (fun store pr => store.set pr (armedAt pr)) ∅
  ⟨store, [], store, [], [], []⟩

lemma armedStore_start (prs : List ℕ) : Start (armedStore prs) := ⟨rfl, rfl, rfl, rfl, rfl⟩

def green : View := ⟨.OPEN, "CLEAN".toList, none, .green, none, none, none⟩

def pending : View := ⟨.OPEN, "UNKNOWN".toList, none, .pending, none, none, none⟩

/-- A pass merges one pull request, while another is armed anew and released behind it. -/
theorem stand_beside_a_pass :
    ∃ s, (driver ascii).execIf (fun s a => decide (Undisturbed s a)) (armedStore [1, 2])
        [.armPr 3 5, .runPass ⟨7, 25, true⟩, .read 0 true, .write 0 true, .read 0 true,
          .viewed 0 (.ok green), .judged 0 (some .allowed), .merged 0 none,
          .viewed 0 (.ok pending), .viewed 0 (.error []), .armPr 2 8, .read 1 true, .write 1 true,
          .write 0 true, .releasePr 2 9, .read 0 true, .write 0 true] = some s ∧
      [1, 2, 3].map (statuses s.store) = [some .merged, some .released, some .armed] ∧
        Lossless s := by
  have hrun : ((driver ascii).execIf (fun s a => decide (Undisturbed s a)) (armedStore [1, 2])
      [.armPr 3 5, .runPass ⟨7, 25, true⟩, .read 0 true, .write 0 true, .read 0 true,
        .viewed 0 (.ok green), .judged 0 (some .allowed), .merged 0 none,
        .viewed 0 (.ok pending), .viewed 0 (.error []), .armPr 2 8, .read 1 true, .write 1 true,
        .write 0 true, .releasePr 2 9, .read 0 true, .write 0 true]).map
          (fun s => [1, 2, 3].map (statuses s.store)) =
        some [some .merged, some .released, some .armed] := by
    decide +kernel
  obtain ⟨s, hs, hview⟩ := map_eq_some_iff.mp hrun
  have hguarded := (Machine.run_of_execIf hs).mono fun s a h => of_decide_eq_true h
  exact ⟨s, hs, hview, arms_and_releases_stand ascii s ⟨armedStore [1, 2], _, armedStore_start _, hguarded⟩⟩

def whileViewing (call : Step) : List Step :=
  [.runPass ⟨7, 25, false⟩, .read 0 true, call, .read 1 true, .write 1 true,
    .viewed 0 (.ok pending), .write 0 true]

lemma arm_run : ((driver ascii).exec (armedStore [1]) (whileViewing (.armPr 2 8))).map
      (fun s => (s.calls.length, lastSettled s.log 2, statuses s.store 2)) =
        some (0, some (some .armed), none) := by
  decide +kernel

lemma release_run : ((driver ascii).exec (armedStore [1]) (whileViewing (.releasePr 1 8))).map
      (fun s => (s.calls.length, lastSettled s.log 1, statuses s.store 1)) =
        some (0, some (some .released), some .armed) := by
  decide +kernel

lemma merge_run : ((driver ascii).exec (armedStore [1])
      [.runPass ⟨7, 25, false⟩, .read 0 true, .viewed 0 (.ok green), .releasePr 1 8, .read 1 true,
        .write 1 true, .judged 0 none, .merged 0 none, .write 0 true]).map
      (fun s => (s.calls.length, s.merges)) = some (0, [(1, some (some .released))]) := by
  decide +kernel

/-- With all calls at their end, an arm is not in the store, a release is stored as armed,
and a merge was sent behind a release. -/
theorem calls_beside_a_pass_are_lost : (∃ s, (driver ascii).Reach anyStep s ∧ s.calls.length = 0 ∧
      lastSettled s.log 2 = some (some .armed) ∧ statuses s.store 2 = none ∧ ¬Lossless s) ∧
    (∃ s, (driver ascii).Reach anyStep s ∧ s.calls.length = 0 ∧
      lastSettled s.log 1 = some (some .released) ∧ statuses s.store 1 = some .armed ∧
        ¬Lossless s) ∧
    ∃ s, (driver ascii).Reach anyStep s ∧ s.calls.length = 0 ∧
      s.merges = [(1, some (some .released))] ∧ ¬Lossless s := by
  have hrel : Released (some (some .released)) := by
    intro harm
    cases harm
  refine ⟨?_, ?_, ?_⟩
  · obtain ⟨s, hs, hview⟩ := map_eq_some_iff.mp arm_run
    obtain ⟨hcalls, hview⟩ := Prod.ext_iff.mp hview
    obtain ⟨hsettl, hstor⟩ := Prod.ext_iff.mp hview
    exact ⟨s, Machine.reach_of_exec (armedStore_start _) hs, hcalls, hsettl, hstor,
      fun h => h.armed 2 hsettl hstor⟩
  · obtain ⟨s, hs, hview⟩ := map_eq_some_iff.mp release_run
    obtain ⟨hcalls, hview⟩ := Prod.ext_iff.mp hview
    obtain ⟨hsettl, hstor⟩ := Prod.ext_iff.mp hview
    have hsettl : lastSettled s.log 1 = some (some .released) := hsettl
    exact ⟨s, Machine.reach_of_exec (armedStore_start _) hs, hcalls, hsettl, hstor,
      fun h => h.released 1 (hsettl ▸ hrel) hstor⟩
  · obtain ⟨s, hs, hview⟩ := map_eq_some_iff.mp merge_run
    obtain ⟨hcalls, hmerg⟩ := Prod.ext_iff.mp hview
    have hmem : (1, some (some .released)) ∈ s.merges := by
      rw [show s.merges = _ from hmerg]
      exact mem_cons_self
    exact ⟨s, Machine.reach_of_exec (armedStore_start _) hs, hcalls, hmerg,
      fun h => h.merges _ hmem hrel⟩

end
end Redskilled.Landing.MergeDriver
