import Redskilled.Lane.Follower

/-!
# No record is missed

Polls that overtake each other tell records twice. They never leave one out: in whatever order
the reads are gone on with, a subscriber was told all records behind its baseline, up to the
longest read, and a poll that is not overtaken brings it to the end of the file.
-/
namespace Redskilled.Lane
open Foundation List Function

variable {Path Record : Type} [DecidableEq Path] {files files' : Path → List Record}

def Subscription.Complete (files : Path → List Record) (subscription : Subscription Path Record) :
    Prop :=
  ∀ file, subscription.baseline file ≤ subscription.newest file ∧
    subscription.newest file ≤ (files file).length ∧
    subscription.delivered file ≤ subscription.newest file ∧
    (((files file).take (subscription.newest file)).drop (subscription.baseline file)).Sublist
      (subscription.fromFile file)

namespace Subscription
variable {subscription : Subscription Path Record}

lemma Complete.grow (h : subscription.Complete files) (hgrow : Grows files files') :
    subscription.Complete files' := by
  intro file
  obtain ⟨hbase, hlen, hcount, hsub⟩ := h file
  refine ⟨hbase, hlen.trans (hgrow.length_le file), hcount, ?_⟩
  obtain ⟨more, hmore⟩ := hgrow file
  rwa [← hmore, take_append_of_le_length hlen]

lemma complete_start {counts : Path → ℕ} (h : ∀ file, counts file ≤ (files file).length) :
    (start counts : Subscription Path Record).Complete files := by
  intro file
  have hok : (start counts : Subscription Path Record).Ok files := ok_start h
  obtain ⟨hbase, hlen, hfrom⟩ := hok file
  exact ⟨hbase, hlen, le_rfl, hfrom ▸ .refl _⟩

lemma Complete.fanOut {file : Path} {records : List Record} (h : subscription.Complete files)
    (hread : records <+: files file) : (subscription.fanOut file records).Complete files := by
  intro other
  obtain ⟨hbase, hlen, hcount, hsub⟩ := h other
  rw [fromFile_fanOut]
  by_cases hoth : other = file
  · subst hoth
    simp only [Subscription.fanOut, update_self, if_true]
    refine ⟨hbase.trans (le_max_left ..), max_le hlen hread.length_le, le_max_right .., ?_⟩
    rcases le_total records.length (subscription.newest other) with hle | hle
    · rw [max_eq_left hle]
      exact hsub.trans (sublist_append_left _ _)
    · have htake : (files other).take records.length = records :=
        (prefix_iff_eq_take.mp hread).symm
      have hold : (files other).take (subscription.newest other) =
          records.take (subscription.newest other) := by
        rw [← htake, take_take, min_eq_left hle]
      have hlong : subscription.baseline other ≤
          (records.take (subscription.newest other)).length := by
        rwa [length_take, min_eq_left hle]
      have hnew : (records.drop (subscription.newest other)).Sublist
          (subscription.slice other records) := by
        rw [slice, min_eq_left (hcount.trans hle)]
        exact drop_sublist_drop_left _ hcount
      rw [max_eq_right hle, htake, ← take_append_drop (subscription.newest other) records,
        drop_append_of_le_length hlong, take_append_drop]
      rw [hold] at hsub
      exact hsub.append hnew
  · simp only [Subscription.fanOut, update_of_ne hoth, if_neg hoth]
    exact ⟨hbase, hlen, hcount, hsub⟩

end Subscription

namespace Follower
variable {s t : Follower Path Record} {a : FollowerStep Path Record}

def Whole (s : Follower Path Record) : Prop :=
  s.Keeps (fun files subscription => subscription.Complete files)
    fun files subscription => subscription.Complete files

/-- Each subscriber was told, of each file, all records behind its baseline up to the longest
read, in their order. -/
def ToldAll (s : Follower Path Record) : Prop :=
  ∀ call ∈ s.subscribes, ∀ subscription ∈ call.subscription?, ∀ file,
    (((s.files file).take (subscription.newest file)).drop (subscription.baseline file)).Sublist
      (subscription.fromFile file)

lemma lasts_complete : Lasts (fun files (subscription : Subscription Path Record) =>
    subscription.Complete files) fun files subscription => subscription.Complete files where
  grow _ _ _ hgrow h := h.grow hgrow
  grown _ _ _ hgrow h := h.grow hgrow
  start _ _ h := Subscription.complete_start h
  leave _ _ h := h

lemma whole_step (hs : s.Whole) (h : s.next a = some t) : t.Whole :=
  Keeps.step lasts_complete hs
    (fun _ _ _ _ _ _ _ hread _ _ hcompl => hcompl.fanOut hread) h

lemma whole_of_reach (h : (follower Path Record).Reach anyStep s) : s.Whole := by
  apply h.inv Whole
  · rintro s ⟨hsubscr, hpolls⟩
    exact ⟨fun c hc => by simp [hsubscr] at hc, fun c hc => by simp [hpolls] at hc⟩
  · exact fun s a t hs _ hn => whole_step hs hn

/-- A poll that is not overtaken tells a subscriber the files it lists to their ends. -/
lemma Subscription.Complete.foldl_fanOut {files : Path → List Record}
    {subscription : Subscription Path Record} (h : subscription.Complete files)
    (listed : List Path) :
    ∃ told : Subscription Path Record, told.Complete files ∧
      listed.foldl (fun call file => call.fanOut file (files file)) (.subscribed subscription) =
        SubscribeCall.subscribed told ∧
      ∀ file, file ∈ listed ∨ subscription.newest file = (files file).length →
        told.newest file = (files file).length := by
  induction listed generalizing subscription with
  | nil => exact ⟨subscription, h, rfl, fun file hfile => hfile.resolve_left not_mem_nil⟩
  | cons first listed ih =>
    obtain ⟨told, hcompl, hfold, hnewest⟩ := ih (h.fanOut (prefix_refl (files first)))
    refine ⟨told, hcompl, hfold, fun file hfile => hnewest file ?_⟩
    by_cases hfirst : file = first
    · subst hfirst
      right
      simp only [Subscription.fanOut, update_self]
      exact max_eq_right (h file).2.1
    · rcases hfile with hmem | hend
      · exact .inl ((mem_cons.mp hmem).resolve_left hfirst)
      · right
        simpa only [Subscription.fanOut, update_of_ne hfirst] using hend

lemma isSubscribed_foldl {files : Path → List Record} (call : SubscribeCall Path Record)
    (listed : List Path) :
    (listed.foldl (fun call file => call.fanOut file (files file)) call).isSubscribed =
      call.isSubscribed := by
  induction listed generalizing call with
  | nil => rfl
  | cons file listed ih =>
    rw [foldl_cons, ih]
    cases call <;> rfl

/-- In every run no record is missed, and while somebody is subscribed one poll more, with no
step of another call within it, keeps every subscriber and brings it to the end of each file
that the poll lists. -/
theorem never_misses (h : (follower Path Record).Reach anyStep s) :
    ToldAll s ∧ ∀ listed, s.subscribes.any (·.isSubscribed) = true →
      ∃ u, (follower Path Record).Run anyStep s (pollSteps s.polls.length listed) u ∧
        u.files = s.files ∧
        u.subscribes.map (·.isSubscribed) = s.subscribes.map (·.isSubscribed) ∧
        ∀ subscription, .subscribed subscription ∈ u.subscribes → ∀ file ∈ listed,
          subscription.newest file = (s.files file).length ∧
          ((s.files file).drop (subscription.baseline file)).Sublist
            (subscription.fromFile file) := by
  have hs := whole_of_reach h
  constructor
  · intro call hcall subscription hsubscript file
    have hok := hs.subscribes call hcall
    cases call with
    | subscribed other =>
      cases hsubscript
      exact (hok file).2.2.2
    | unsubscribed other =>
      cases hsubscript
      exact (hok file).2.2.2
    | _ => cases hsubscript
  · intro listed hany
    obtain ⟨u, hrun, hfil, hsubscr⟩ := poll_run s hany listed
    refine ⟨u, hrun, hfil, ?_, fun subscription hmem file hfile => ?_⟩
    · rw [hsubscr, map_map]
      exact map_congr_left fun call _ => isSubscribed_foldl call listed
    · rw [hsubscr] at hmem
      obtain ⟨call, hcall, hsame⟩ := mem_map.mp hmem
      have hcompl := hs.subscribes call hcall
      cases call with
      | subscribed before =>
        obtain ⟨told, htold, hfold, hnewest⟩ :=
          Subscription.Complete.foldl_fanOut hcompl listed
        cases hfold.symm.trans hsame
        have hend := hnewest file (.inl hfile)
        refine ⟨hend, ?_⟩
        have hall := (htold file).2.2.2
        rwa [hend, take_length] at hall
      | _ =>
        have hsub := (isSubscribed_foldl _ listed).symm.trans (congrArg (·.isSubscribed) hsame)
        exact absurd hsub Bool.false_ne_true

/-- Nothing is missed where the second record is told twice, and after one poll more the
subscriber is still there and has both. -/
theorem late_read_misses_nothing :
    ∃ s : Follower ℕ ℕ, (follower ℕ ℕ).exec ⟨fun _ => [], [], []⟩ lateRead = some s ∧ ToldAll s ∧
      s.subscribes.map (·.isSubscribed) = [true] ∧
      ∃ u, (follower ℕ ℕ).Run anyStep s (pollSteps s.polls.length [0]) u ∧ u.files = s.files ∧
        u.subscribes.map (·.isSubscribed) = s.subscribes.map (·.isSubscribed) ∧
        ∀ subscription, .subscribed subscription ∈ u.subscribes → ∀ file ∈ [0],
          subscription.newest file = (s.files file).length ∧
          ((s.files file).drop (subscription.baseline file)).Sublist
            (subscription.fromFile file) := by
  have hrun : ((follower ℕ ℕ).exec ⟨fun _ => [], [], []⟩ lateRead).map
      (fun s => s.subscribes.map (·.isSubscribed)) = some [true] := by
    decide +kernel
  obtain ⟨s, hs, hkept⟩ := Option.map_eq_some_iff.mp hrun
  have hany : s.subscribes.any (·.isSubscribed) = true := by
    have hmap := any_map (l := s.subscribes) (f := (·.isSubscribed)) (p := id)
    simpa [hkept] using hmap
  obtain ⟨htold, hpoll⟩ := never_misses (Machine.reach_of_exec ⟨rfl, rfl⟩ hs)
  exact ⟨s, hs, htold, hkept, hpoll [0] hany⟩

end Follower
end Redskilled.Lane
