import Mathlib.Algebra.GroupWithZero.Nat
import Mathlib.Data.List.Basic
import Redskilled.Foundation.Machine

/-!
# The lane follower

Lane files are appended to. A poll lists the files, reads them one after the other, and
tells each subscriber the records behind those it was told before. What a subscriber was
told is kept as a count for each file, set to the length of what was read. A subscriber
starts with the counts of a read of its own.

A read returns the records of the file at that moment, and the poll goes on later. Polls
do not wait for each other: the read that is gone on with may be older than one whose
records were told already. The count is then set back, and the next poll tells records a
second time.
-/
namespace Redskilled.Lane
open Foundation List Function

structure LaneEvent (Path Record : Type) where
  path : Path
  record : Record

/-- A subscriber of the follower. What its listener was told, the counts it started with
and the longest read it was told of are only observed. -/
structure Subscription (Path Record : Type) where
  delivered : Path → ℕ
  received : List (LaneEvent Path Record)
  baseline : Path → ℕ
  newest : Path → ℕ

inductive SubscribeCall (Path Record : Type) where
  | listing
  | counting (files : List Path) (counts : Path → ℕ)
  | counted (file : Path) (length : ℕ) (files : List Path) (counts : Path → ℕ)
  | subscribed (subscription : Subscription Path Record)
  | unsubscribed (subscription : Subscription Path Record)
  | rejected

inductive PollCall (Path Record : Type) where
  | listing
  | reading (files : List Path) (delivered : ℕ)
  | read (file : Path) (records : List Record) (files : List Path) (delivered : ℕ)
  | returned (delivered : ℕ)
  | rejected

structure Follower (Path Record : Type) where
  files : Path → List Record
  subscribes : List (SubscribeCall Path Record)
  polls : List (PollCall Path Record)

inductive FollowerStep (Path Record : Type) where
  | append (path : Path) (record : Record)
  | subscribe
  | listForSubscribe (call : ℕ) (files : List Path)
  | countRecords (call : ℕ)
  | setCount (call : ℕ)
  | addSubscription (call : ℕ)
  | rejectSubscribe (call : ℕ)
  | unsubscribe (call : ℕ)
  | poll
  | listForPoll (call : ℕ) (files : List Path)
  | readRecords (call : ℕ)
  | fanOut (call : ℕ)
  | returnPoll (call : ℕ)
  | rejectPoll (call : ℕ)

variable {Path Record : Type} [DecidableEq Path]

namespace Subscription

def start (counts : Path → ℕ) : Subscription Path Record where
  delivered := counts
  received := []
  baseline := counts
  newest := counts

/-- The records of a read that are told. -/
def slice (subscription : Subscription Path Record) (file : Path) (records : List Record) :
    List Record :=
  records.drop (min (subscription.delivered file) records.length)

def fanOut (subscription : Subscription Path Record) (file : Path) (records : List Record) :
    Subscription Path Record where
  delivered := Function.update subscription.delivered file records.length
  received := subscription.received ++ (subscription.slice file records).map (⟨file, ·⟩)
  baseline := subscription.baseline
  newest := Function.update subscription.newest file
    (max (subscription.newest file) records.length)

def fromFile (subscription : Subscription Path Record) (file : Path) : List Record :=
  (subscription.received.filter (·.path = file)).map (·.record)

end Subscription

namespace SubscribeCall

def fanOut (file : Path) (records : List Record) :
    SubscribeCall Path Record → SubscribeCall Path Record
  | .subscribed subscription => .subscribed (subscription.fanOut file records)
  | call => call

def gain (file : Path) (records : List Record) : SubscribeCall Path Record → ℕ
  | .subscribed subscription => (subscription.slice file records).length
  | _ => 0

def isSubscribed : SubscribeCall Path Record → Bool
  | .subscribed _ => true
  | _ => false

/-- The subscription of a call, also once it has ended. -/
def subscription? : SubscribeCall Path Record → Option (Subscription Path Record)
  | .subscribed subscription => some subscription
  | .unsubscribed subscription => some subscription
  | _ => none

end SubscribeCall

namespace Follower

def setSubscribe (s : Follower Path Record) (i : ℕ) (call : SubscribeCall Path Record) :
    Follower Path Record :=
  { s with subscribes := s.subscribes.set i call }

def setPoll (s : Follower Path Record) (i : ℕ) (call : PollCall Path Record) :
    Follower Path Record :=
  { s with polls := s.polls.set i call }

def next (s : Follower Path Record) : FollowerStep Path Record → Option (Follower Path Record)
  | .append path record =>
    some { s with files := Function.update s.files path (s.files path ++ [record]) }
  | .subscribe => some { s with subscribes := s.subscribes ++ [.listing] }
  | .listForSubscribe i files =>
    match s.subscribes[i]? with
    | some .listing => some (s.setSubscribe i (.counting files fun _ => 0))
    | _ => none
  | .countRecords i =>
    match s.subscribes[i]? with
    | some (.counting (file :: files) counts) =>
      some (s.setSubscribe i (.counted file (s.files file).length files counts))
    | _ => none
  | .setCount i =>
    match s.subscribes[i]? with
    | some (.counted file length files counts) =>
      some (s.setSubscribe i (.counting files (Function.update counts file length)))
    | _ => none
  | .addSubscription i =>
    match s.subscribes[i]? with
    | some (.counting [] counts) => some (s.setSubscribe i (.subscribed (.start counts)))
    | _ => none
  | .rejectSubscribe i =>
    match s.subscribes[i]? with
    | some .listing => some (s.setSubscribe i .rejected)
    | some (.counting (_ :: _) _) => some (s.setSubscribe i .rejected)
    | _ => none
  | .unsubscribe i =>
    match s.subscribes[i]? with
    | some (.subscribed subscription) => some (s.setSubscribe i (.unsubscribed subscription))
    | _ => none
  | .poll =>
    if s.subscribes.any (·.isSubscribed) then some { s with polls := s.polls ++ [.listing] }
    else some { s with polls := s.polls ++ [.returned 0] }
  | .listForPoll i files =>
    match s.polls[i]? with
    | some .listing => some (s.setPoll i (.reading files 0))
    | _ => none
  | .readRecords i =>
    match s.polls[i]? with
    | some (.reading (file :: files) delivered) =>
      some (s.setPoll i (.read file (s.files file) files delivered))
    | _ => none
  | .fanOut i =>
    match s.polls[i]? with
    | some (.read file records files delivered) =>
      some { s with
        subscribes := s.subscribes.map (·.fanOut file records)
        polls := s.polls.set i
          (.reading files (delivered + (s.subscribes.map (·.gain file records)).sum)) }
    | _ => none
  | .returnPoll i =>
    match s.polls[i]? with
    | some (.reading [] delivered) => some (s.setPoll i (.returned delivered))
    | _ => none
  | .rejectPoll i =>
    match s.polls[i]? with
    | some .listing => some (s.setPoll i .rejected)
    | some (.reading (_ :: _) _) => some (s.setPoll i .rejected)
    | _ => none

def follower (Path Record : Type) [DecidableEq Path] :
    Machine (Follower Path Record) (FollowerStep Path Record) where
  start s := s.subscribes = [] ∧ s.polls = []
  next := next

/-- Each subscriber was told, of each file, the records behind its baseline up to the
longest read. -/
def ToldOnce (s : Follower Path Record) : Prop :=
  ∀ call ∈ s.subscribes, ∀ subscription ∈ call.subscription?, ∀ file, subscription.fromFile file =
      ((s.files file).take (subscription.newest file)).drop (subscription.baseline file)

/-- No poll goes on with a read that is older than one a subscriber was told of. -/
def InOrder (s : Follower Path Record) : FollowerStep Path Record → Prop
  | .fanOut i => ∀ file records files delivered,
      s.polls[i]? = some (.read file records files delivered) →
        ∀ subscription, .subscribed subscription ∈ s.subscribes →
          subscription.newest file ≤ records.length
  | _ => True

end Follower

/-! The invariant of runs in order: a subscriber's counts are those of the longest read,
and what is under way was read from a start of the file as it is now. -/

def Subscription.Ok (files : Path → List Record) (subscription : Subscription Path Record) : Prop :=
  ∀ file, subscription.baseline file ≤ subscription.newest file ∧
    subscription.newest file ≤ (files file).length ∧
    subscription.fromFile file =
      ((files file).take (subscription.newest file)).drop (subscription.baseline file)

/-- What is kept of a call of `subscribe`: `told` of a subscription that is on, `ended` of one
that is over. -/
def SubscribeCall.Keeps (told ended : (Path → List Record) → Subscription Path Record → Prop)
    (files : Path → List Record) : SubscribeCall Path Record → Prop
  | .counting _ counts => ∀ file, counts file ≤ (files file).length
  | .counted file length _ counts =>
    length ≤ (files file).length ∧ ∀ file, counts file ≤ (files file).length
  | .subscribed subscription => told files subscription
  | .unsubscribed subscription => ended files subscription
  | _ => True

def PollCall.Ok (files : Path → List Record) : PollCall Path Record → Prop
  | .read file records _ _ => records <+: files file
  | _ => True

structure Follower.Keeps (told ended : (Path → List Record) → Subscription Path Record → Prop)
    (s : Follower Path Record) : Prop where
  subscribes : ∀ call ∈ s.subscribes, call.Keeps told ended s.files
  polls : ∀ call ∈ s.polls, call.Ok s.files

/-- In a run in order the counts of a subscriber are those of the longest read. -/
def Follower.Sound (s : Follower Path Record) : Prop :=
  s.Keeps (fun files subscription => subscription.Ok files ∧
    subscription.delivered = subscription.newest) fun files subscription => subscription.Ok files

/-- The files grow at their ends. -/
def Grows (files files' : Path → List Record) : Prop := ∀ file, files file <+: files' file

omit [DecidableEq Path] in
lemma Grows.length_le {files files' : Path → List Record} (h : Grows files files') (file : Path) :
    (files file).length ≤ (files' file).length :=
  (h file).length_le

lemma grows_append (files : Path → List Record) (path : Path) (record : Record) :
    Grows files (Function.update files path (files path ++ [record])) := by
  intro file
  by_cases hfile : file = path
  · subst hfile
    rw [update_self]
    exact prefix_append _ _
  · have hsame : update files path (files path ++ [record]) file = files file :=
      update_of_ne hfile _ _
    exact ⟨[], by rw [hsame, append_nil]⟩

namespace Subscription
variable {files files' : Path → List Record} {subscription : Subscription Path Record}

lemma Ok.grow (h : subscription.Ok files) (hgrow : Grows files files') :
    subscription.Ok files' := by
  intro file
  obtain ⟨hbase, hlen, hfrom⟩ := h file
  refine ⟨hbase, hlen.trans (hgrow.length_le file), ?_⟩
  obtain ⟨more, hmore⟩ := hgrow file
  rw [hfrom, ← hmore, take_append_of_le_length hlen]

lemma ok_start {counts : Path → ℕ} (h : ∀ file, counts file ≤ (files file).length) :
    (start counts : Subscription Path Record).Ok files := by
  intro file
  refine ⟨le_rfl, h file, ?_⟩
  have hlen : ((files file).take (counts file)).length ≤ counts file := length_take_le _ _
  exact (drop_eq_nil_of_le hlen).symm

lemma fromFile_fanOut (subscription : Subscription Path Record) (file : Path)
    (records : List Record) (other : Path) :
    (subscription.fanOut file records).fromFile other =
      if other = file then subscription.fromFile other ++ subscription.slice file records
      else subscription.fromFile other := by
  have hmap : ∀ xs : List Record, ((xs.map fun r => (⟨file, r⟩ : LaneEvent Path Record)).filter
      (·.path = other)).map (·.record) = if other = file then xs else [] := by
    intro xs
    by_cases hfile : other = file
    · subst hfile
      induction xs with
      | nil => simp
      | cons x xs ih => simpa using ih
    · have hne : ∀ x ∈ xs, ¬ file = other := fun _ _ heq => hfile heq.symm
      rw [if_neg hfile, filter_map, map_map]
      simpa using hne
  simp only [fromFile, fanOut, filter_append, map_append, hmap]
  split_ifs
  · rfl
  · rw [append_nil]

lemma Ok.fanOut {file : Path} {records : List Record} (h : subscription.Ok files)
    (hcount : subscription.delivered = subscription.newest) (hread : records <+: files file)
    (hord : subscription.newest file ≤ records.length) :
    (subscription.fanOut file records).Ok files ∧
      (subscription.fanOut file records).delivered = (subscription.fanOut file records).newest := by
  have hmax : max (subscription.newest file) records.length = records.length :=
    max_eq_right hord
  constructor
  · intro other
    obtain ⟨hbase, hlen, hfrom⟩ := h other
    rw [fromFile_fanOut]
    by_cases hoth : other = file
    · subst hoth
      have hslice : subscription.slice other records =
          records.drop (subscription.newest other) := by
        rw [slice, hcount, min_eq_left hord]
      have htake : (files other).take records.length = records :=
        (prefix_iff_eq_take.mp hread).symm
      have hold : (files other).take (subscription.newest other) =
          records.take (subscription.newest other) := by
        rw [← htake, take_take, min_eq_left hord]
      have hlong : subscription.baseline other ≤
          (records.take (subscription.newest other)).length := by
        rw [length_take, min_eq_left hord]
        exact hbase
      simp only [Subscription.fanOut, update_self, hmax, if_true]
      refine ⟨hbase.trans hord, hread.length_le, ?_⟩
      calc subscription.fromFile other ++ subscription.slice other records
          = (records.take (subscription.newest other)).drop (subscription.baseline other) ++
              records.drop (subscription.newest other) := by rw [hfrom, hold, hslice]
        _ = records.drop (subscription.baseline other) := by
            rw [← drop_append_of_le_length hlong, take_append_drop]
        _ = ((files other).take records.length).drop (subscription.baseline other) := by
            rw [htake]
    · simp only [Subscription.fanOut, update_of_ne hoth, if_neg hoth]
      exact ⟨hbase, hlen, hfrom⟩
  · simp only [Subscription.fanOut, hmax, hcount]

end Subscription

omit [DecidableEq Path] in
lemma PollCall.Ok.grow {files files' : Path → List Record} {call : PollCall Path Record}
    (h : call.Ok files) (hgrow : Grows files files') : call.Ok files' := by
  cases call with
  | read file records rest delivered => exact List.IsPrefix.trans h (hgrow file)
  | _ => trivial

/-- What of a subscription lasts while the files grow, from its start to its end. -/
structure Lasts (told ended : (Path → List Record) → Subscription Path Record → Prop) : Prop where
  grow : ∀ files files' subscription, Grows files files' →
    told files subscription → told files' subscription
  grown : ∀ files files' subscription, Grows files files' →
    ended files subscription → ended files' subscription
  start : ∀ files counts, (∀ file, counts file ≤ (files file).length) →
    told files (Subscription.start counts)
  leave : ∀ files subscription, told files subscription → ended files subscription

namespace Follower
variable {s t : Follower Path Record} {a : FollowerStep Path Record} {i : ℕ}
  {told ended : (Path → List Record) → Subscription Path Record → Prop}

section
omit [DecidableEq Path]

lemma Keeps.setSubscribe (hs : s.Keeps told ended) {call : SubscribeCall Path Record}
    (hcall : call.Keeps told ended s.files) : (s.setSubscribe i call).Keeps told ended where
  subscribes c hc := (List.mem_or_eq_of_mem_set hc).elim (hs.subscribes c) fun heq => heq ▸ hcall
  polls := hs.polls

lemma Keeps.setPoll (hs : s.Keeps told ended) {call : PollCall Path Record}
    (hcall : call.Ok s.files) : (s.setPoll i call).Keeps told ended where
  subscribes := hs.subscribes
  polls c hc := (List.mem_or_eq_of_mem_set hc).elim (hs.polls c) fun heq => heq ▸ hcall

lemma Keeps.subscribe (hs : s.Keeps told ended) {call : SubscribeCall Path Record}
    (h : s.subscribes[i]? = some call) : call.Keeps told ended s.files :=
  hs.subscribes call (mem_of_getElem? h)

lemma Keeps.poll (hs : s.Keeps told ended) {call : PollCall Path Record} (hcall : call.Ok s.files) :
    Keeps told ended { s with polls := s.polls ++ [call] } where
  subscribes := hs.subscribes
  polls c hc := by
    rcases List.mem_append.mp hc with hc | hc
    · exact hs.polls c hc
    · rw [List.mem_singleton.mp hc]
      exact hcall

end

lemma Keeps.append (hlast : Lasts told ended) (hs : s.Keeps told ended) (path : Path)
    (record : Record) :
    Keeps told ended
      { s with files := Function.update s.files path (s.files path ++ [record]) } where
  subscribes call hcall := by
    have hgrow := grows_append s.files path record
    have hkept := hs.subscribes call hcall
    cases call with
    | counting rest counts => exact fun file => (hkept file).trans (hgrow.length_le file)
    | counted file length rest counts =>
      exact ⟨hkept.1.trans (hgrow.length_le file),
        fun file => (hkept.2 file).trans (hgrow.length_le file)⟩
    | subscribed subscription => exact hlast.grow _ _ _ hgrow hkept
    | unsubscribed subscription => exact hlast.grown _ _ _ hgrow hkept
    | listing => trivial
    | rejected => trivial
  polls call hcall := (hs.polls call hcall).grow (grows_append s.files path record)

lemma Keeps.fanOut (hs : s.Keeps told ended) {file : Path} {records : List Record}
    {files : List Path} {total : ℕ}
    (hfan : ∀ subscription, .subscribed subscription ∈ s.subscribes →
      told s.files subscription → told s.files (subscription.fanOut file records)) :
    Keeps told ended { s with
      subscribes := s.subscribes.map (·.fanOut file records)
      polls := s.polls.set i (.reading files total) } where
  subscribes call hcall := by
    obtain ⟨c, hc, rfl⟩ := List.mem_map.mp hcall
    have hkept := hs.subscribes c hc
    cases c with
    | subscribed subscription => exact hfan subscription hc hkept
    | _ => exact hkept
  polls c hc := by
    rcases List.mem_or_eq_of_mem_set hc with hc | rfl
    · exact hs.polls c hc
    · trivial

/-- What lasts is kept by every step, if the reads that are told keep it. -/
lemma Keeps.step (hlast : Lasts told ended) (hs : s.Keeps told ended)
    (hfan : ∀ i file records files delivered, a = .fanOut i →
      s.polls[i]? = some (.read file records files delivered) → records <+: s.files file →
      ∀ subscription, .subscribed subscription ∈ s.subscribes →
        told s.files subscription → told s.files (subscription.fanOut file records))
    (h : s.next a = some t) : t.Keeps told ended := by
  cases a with
  | append path record =>
    cases h
    exact hs.append hlast path record
  | subscribe =>
    cases h
    refine ⟨fun c hc => ?_, hs.polls⟩
    rcases mem_append.mp hc with hc | hc
    · exact hs.subscribes c hc
    · rw [mem_singleton.mp hc]
      trivial
  | listForSubscribe i files =>
    simp only [next] at h
    split at h <;> cases h
    exact hs.setSubscribe fun file => Nat.zero_le _
  | countRecords i =>
    simp only [next] at h
    split at h <;> cases h
    next hcall => exact hs.setSubscribe ⟨le_rfl, hs.subscribe hcall⟩
  | setCount i =>
    simp only [next] at h
    split at h <;> cases h
    next file length files counts hcall =>
      obtain ⟨hlength, hcounts⟩ := hs.subscribe hcall
      apply hs.setSubscribe
      intro other
      by_cases hoth : other = file
      · subst hoth
        rw [update_self]
        exact hlength
      · rw [update_of_ne hoth]
        exact hcounts other
  | addSubscription i =>
    simp only [next] at h
    split at h <;> cases h
    next hcall => exact hs.setSubscribe (hlast.start _ _ (hs.subscribe hcall))
  | rejectSubscribe i =>
    simp only [next] at h
    split at h <;> cases h
    · exact hs.setSubscribe trivial
    · exact hs.setSubscribe trivial
  | unsubscribe i =>
    simp only [next] at h
    split at h <;> cases h
    next hcall => exact hs.setSubscribe (hlast.leave _ _ (hs.subscribe hcall))
  | poll =>
    simp only [next] at h
    split_ifs at h <;> cases h
    · exact hs.poll trivial
    · exact hs.poll trivial
  | listForPoll i files =>
    simp only [next] at h
    split at h <;> cases h
    exact hs.setPoll trivial
  | readRecords i =>
    simp only [next] at h
    split at h <;> cases h
    exact hs.setPoll prefix_rfl
  | fanOut i =>
    simp only [next] at h
    split at h <;> cases h
    next hcall => exact hs.fanOut (hfan _ _ _ _ _ rfl hcall (hs.polls _ (mem_of_getElem? hcall)))
  | returnPoll i =>
    simp only [next] at h
    split at h <;> cases h
    exact hs.setPoll trivial
  | rejectPoll i =>
    simp only [next] at h
    split at h <;> cases h
    · exact hs.setPoll trivial
    · exact hs.setPoll trivial

lemma lasts_sound : Lasts (fun files (subscription : Subscription Path Record) =>
    subscription.Ok files ∧ subscription.delivered = subscription.newest)
    fun files subscription => subscription.Ok files where
  grow _ _ _ hgrow h := ⟨h.1.grow hgrow, h.2⟩
  grown _ _ _ hgrow h := h.grow hgrow
  start _ _ h := ⟨Subscription.ok_start h, rfl⟩
  leave _ _ h := h.1

lemma sound_step (hs : s.Sound) (hord : InOrder s a) (h : s.next a = some t) : t.Sound := by
  refine Keeps.step lasts_sound hs (fun i file records files delivered ha hcall hread => ?_) h
  subst ha
  exact fun subscription hmem hok =>
    hok.1.fanOut hok.2 hread (hord _ _ _ _ hcall subscription hmem)

lemma Sound.toldOnce (hs : s.Sound) : ToldOnce s := by
  intro call hcall subscription hsubscript file
  have hok := hs.subscribes call hcall
  cases call with
  | subscribed other =>
    cases hsubscript
    exact (hok.1 file).2.2
  | unsubscribed other =>
    cases hsubscript
    exact (hok file).2.2
  | _ => cases hsubscript

lemma sound_of_reach (h : (follower Path Record).Reach InOrder s) : s.Sound := by
  apply h.inv Sound
  · rintro s ⟨hsubscr, hpolls⟩
    exact ⟨fun c hc => by simp [hsubscr] at hc, fun c hc => by simp [hpolls] at hc⟩
  · exact fun s a t hs hok hn => sound_step hs hok hn

/-- The steps of one poll of its own: it lists the files, reads each and tells it, and returns. -/
def pollSteps (i : ℕ) (files : List Path) : List (FollowerStep Path Record) :=
  [.poll, .listForPoll i files] ++ files.flatMap (fun _ => [.readRecords i, .fanOut i]) ++
    [.returnPoll i]

lemma readFiles_run (polls : List (PollCall Path Record)) (t : Follower Path Record)
    (listed : List Path) {told : ℕ} (h : t.polls = polls ++ [.reading listed told]) :
    ∃ u, (follower Path Record).Run anyStep t
        (listed.flatMap fun _ => [.readRecords polls.length, .fanOut polls.length]) u ∧
      u.files = t.files ∧ (∃ told', u.polls = polls ++ [.reading [] told']) ∧
      u.subscribes = t.subscribes.map fun call =>
        listed.foldl (fun call file => call.fanOut file (t.files file)) call := by
  induction listed generalizing t told with
  | nil => exact ⟨t, .nil t, rfl, ⟨told, h⟩, by simp⟩
  | cons file listed ih =>
    have hget : ∀ call : PollCall Path Record, (polls ++ [call])[polls.length]? = some call :=
      fun call => getElem?_concat_length
    have hset : ∀ call call' : PollCall Path Record,
        (polls ++ [call]).set polls.length call' = polls ++ [call'] := fun call call' => by
      rw [set_append_right _ _ le_rfl, Nat.sub_self, set_cons_zero]
    have hread : (follower Path Record).next t (.readRecords polls.length) =
        some { t with polls := polls ++ [.read file (t.files file) listed told] } := by
      simp only [follower, next, h, hget, setPoll, hset]
    have hfan : (follower Path Record).next
        { t with polls := polls ++ [.read file (t.files file) listed told] }
        (.fanOut polls.length) = some { t with
          subscribes := t.subscribes.map (·.fanOut file (t.files file))
          polls := polls ++ [.reading listed
            (told + (t.subscribes.map (·.gain file (t.files file))).sum)] } := by
      simp only [follower, next, hget, hset]
    obtain ⟨u, hrun, hfil, hpolls, hsubscr⟩ := ih { t with
      subscribes := t.subscribes.map (·.fanOut file (t.files file))
      polls := polls ++ [.reading listed
        (told + (t.subscribes.map (·.gain file (t.files file))).sum)] } rfl
    refine ⟨u, .cons trivial hread (.cons trivial hfan hrun), hfil, hpolls, ?_⟩
    rw [hsubscr, map_map]
    rfl

/-- One poll keeps every subscription and tells it the files that were listed. -/
lemma poll_run (t : Follower Path Record) (hany : t.subscribes.any (·.isSubscribed) = true)
    (listed : List Path) :
    ∃ u, (follower Path Record).Run anyStep t (pollSteps t.polls.length listed) u ∧
      u.files = t.files ∧ u.subscribes = t.subscribes.map fun call =>
        listed.foldl (fun call file => call.fanOut file (t.files file)) call := by
  have hpoll : (follower Path Record).next t .poll =
      some { t with polls := t.polls ++ [.listing] } := if_pos hany
  have hlist : (follower Path Record).next { t with polls := t.polls ++ [.listing] }
      (.listForPoll t.polls.length listed) =
      some { t with polls := t.polls ++ [.reading listed 0] } := by
    simp [follower, next, setPoll]
  obtain ⟨u, hrun, hfil, ⟨told, hpolls⟩, hsubscr⟩ :=
    readFiles_run t.polls { t with polls := t.polls ++ [.reading listed 0] } listed rfl
  have hret : (follower Path Record).next u (.returnPoll t.polls.length) =
      some (u.setPoll t.polls.length (.returned told)) := by
    simp [follower, next, hpolls]
  exact ⟨_, ((Machine.Run.cons trivial hpoll (.single trivial hlist)).append hrun).append
    (.single trivial hret), hfil, hsubscr⟩

lemma repeat_run (hs : s.Sound) (hlate : ¬ InOrder s a) (h : s.next a = some t) :
    ∃ as u, (follower Path Record).Run anyStep t as u ∧ ¬ ToldOnce u := by
  cases a with
  | fanOut i =>
    simp only [InOrder, not_forall, not_le] at hlate
    obtain ⟨file, records, files, delivered, hcall, subscription, hmem, hlt⟩ := hlate
    simp only [next, hcall] at h
    cases h
    have hin : SubscribeCall.subscribed (subscription.fanOut file records) ∈
        s.subscribes.map (·.fanOut file records) := mem_map.mpr ⟨_, hmem, rfl⟩
    obtain ⟨u, hrun, hfil, hsubscr⟩ := poll_run
      { s with
        subscribes := s.subscribes.map (·.fanOut file records)
        polls := s.polls.set i
          (.reading files (delivered + (s.subscribes.map (·.gain file records)).sum)) }
      (any_eq_true.mpr ⟨_, hin, rfl⟩) [file]
    refine ⟨_, u, hrun, fun honce => ?_⟩
    have hagain : SubscribeCall.subscribed
        ((subscription.fanOut file records).fanOut file (s.files file)) ∈ u.subscribes := by
      rw [hsubscr]
      exact mem_map.mpr ⟨_, hin, rfl⟩
    have hlaw := congrArg length (honce _ hagain _ rfl file)
    obtain ⟨⟨hbase, hlen, hfrom⟩, hcount⟩ :=
      And.imp_left (fun hok : subscription.Ok s.files => hok file) (hs.subscribes _ hmem)
    -- the listener has the records up to the longest read, and again those behind the late one
    simp only [hfil, Subscription.fromFile_fanOut, if_true, hfrom] at hlaw
    simp only [Subscription.slice, hcount, Subscription.fanOut, update_self,
      length_append, length_drop, length_take] at hlaw
    omega
  | _ => exact absurd trivial hlate

/-- Every run in order tells each subscriber each record once, and a step out of order can
be followed by a poll that does not. -/
theorem toldOnce_iff_inOrder :
    (∀ s : Follower Path Record, (follower Path Record).Reach InOrder s → ToldOnce s) ∧
      ∀ (s : Follower Path Record) a t, (follower Path Record).Reach InOrder s →
        s.next a = some t → ¬ InOrder s a →
        ∃ as u, (follower Path Record).Run anyStep t as u ∧ ¬ ToldOnce u :=
  ⟨fun _ hs => (sound_of_reach hs).toldOnce, fun _ _ _ hs hn hlate =>
    repeat_run (sound_of_reach hs) hlate hn⟩

/-- A poll reads one record and waits; a second poll reads two and tells both. -/
def lateRead : List (FollowerStep ℕ ℕ) :=
  [.subscribe, .listForSubscribe 0 [0], .countRecords 0, .setCount 0, .addSubscription 0,
   .append 0 10, .poll, .listForPoll 0 [0], .readRecords 0,
   .append 0 11, .poll, .listForPoll 1 [0], .readRecords 1, .fanOut 1,
   .fanOut 0, .poll, .listForPoll 2 [0], .readRecords 2, .fanOut 2]

/-- The read that comes late sets the count back, and a record is told again. -/
theorem told_twice : ∃ s : Follower ℕ ℕ, (follower ℕ ℕ).Reach anyStep s ∧ ¬ ToldOnce s := by
  have hrun : ((follower ℕ ℕ).exec ⟨fun _ => [], [], []⟩ lateRead).map (fun s =>
      (s.subscribes.map fun call => call.subscription?.map fun subscription =>
        (subscription.fromFile 0, subscription.baseline 0, subscription.newest 0), s.files 0)) =
      some ([some ([10, 11, 11], 0, 2)], [10, 11]) := by
    decide +kernel
  obtain ⟨s, hs, hfacts⟩ := Option.map_eq_some_iff.mp hrun
  refine ⟨s, Machine.reach_of_exec ⟨rfl, rfl⟩ hs, fun honce => ?_⟩
  obtain ⟨hcalls, hfile⟩ := Prod.mk.inj hfacts
  obtain ⟨call, hcall, hsubscript⟩ := mem_map.mp
    (hcalls ▸ mem_singleton_self _ : some ([10, 11, 11], 0, 2) ∈ _)
  obtain ⟨subscription, hsome, htold⟩ := Option.map_eq_some_iff.mp hsubscript
  obtain ⟨hfrom, hrest⟩ := Prod.mk.inj htold
  obtain ⟨hbase, hnew⟩ := Prod.mk.inj hrest
  have hlaw := honce call hcall subscription hsome 0
  rw [hfrom, hbase, hnew, hfile] at hlaw
  exact absurd hlaw (by decide)

end Follower
end Redskilled.Lane
