import Mathlib.Data.List.Infix

/-!
# Queues served one apiece

Some queues are served in rounds: round `k` holds the `k`-th entry of every queue that
has one, in the order of the queues. Read round after round, the entries of one queue
keep their order and none is lost, and at every moment a queue with entries left is at
most one entry behind any other.
-/
namespace Redskilled.Foundation
open List

variable {α : Type*}

def roundAt (queues : List (List α)) (k : ℕ) : List α := queues.filterMap fun queue => queue[k]?

lemma roundAt_cons (queue : List α) (queues : List (List α)) (k : ℕ) :
    roundAt (queue :: queues) k = queue[k]?.toList ++ roundAt queues k := by
  cases hget : queue[k]? <;> simp [roundAt, hget]

lemma roundAt_append (before after : List (List α)) (k : ℕ) :
    roundAt (before ++ after) k = roundAt before k ++ roundAt after k :=
  filterMap_append

def IsRounds (rounds queues : List (List α)) : Prop := ∀ k, rounds[k]?.getD [] = roundAt queues k

def OwnQueue (own : α → Bool) (queue : List α) (queues : List (List α)) : Prop :=
  ∃ before after, queues = before ++ queue :: after ∧ (∀ a ∈ queue, own a) ∧
    ∀ other ∈ before ++ after, ∀ a ∈ other, own a = false

namespace IsRounds

variable {rounds queues : List (List α)} {queue : List α} {own : α → Bool}

lemma take_succ_flatten (k : ℕ) :
    (rounds.take (k + 1)).flatten = (rounds.take k).flatten ++ rounds[k]?.getD [] := by
  rw [take_add_one, flatten_append]
  cases rounds[k]? with
  | none => simp
  | some round => simp

lemma filter_none {others : List (List α)} (h : ∀ other ∈ others, ∀ a ∈ other, own a = false)
    (k : ℕ) : (roundAt others k).filter own = [] := by
  rw [filter_eq_nil_iff]
  intro a ha
  obtain ⟨other, hother, hget⟩ := mem_filterMap.mp ha
  simp [h other hother a (mem_of_getElem? hget)]

lemma filter_round (hown : OwnQueue own queue queues) (k : ℕ) :
    (roundAt queues k).filter own = queue[k]?.toList := by
  obtain ⟨before, after, rfl, hmine, hoth⟩ := hown
  have hbef := filter_none (fun other h => hoth other (mem_append_left after h)) k
  have haft := filter_none (fun other h => hoth other (mem_append_right before h)) k
  rw [roundAt_append, roundAt_cons, filter_append, filter_append, hbef, haft, nil_append,
    append_nil, filter_eq_self]
  intro a ha
  exact hmine a (mem_of_getElem? (Option.mem_toList.mp ha))

lemma filter_take (h : IsRounds rounds queues) (hown : OwnQueue own queue queues) (k : ℕ) :
    (rounds.take k).flatten.filter own = queue.take k := by
  induction k with
  | zero => simp
  | succ k ih =>
    rw [take_succ_flatten, filter_append, ih, h k, filter_round hown, take_add_one]

lemma length_le (h : IsRounds rounds queues) (hown : OwnQueue own queue queues) :
    queue.length ≤ rounds.length := by
  have hround := filter_round hown rounds.length
  rw [← h rounds.length, getElem?_eq_none le_rfl] at hround
  by_contra hlong
  have hlt : rounds.length < queue.length := by omega
  rw [getElem?_eq_getElem hlt] at hround
  simp at hround

lemma filter_flatten (h : IsRounds rounds queues) (hown : OwnQueue own queue queues) :
    rounds.flatten.filter own = queue := by
  have hall := h.filter_take hown rounds.length
  rwa [take_length, take_of_length_le (h.length_le hown)] at hall

/-- Whatever has been served so far is some whole rounds and the head of the next. -/
lemma prefix_split {served : List α} (hserv : served <+: rounds.flatten) :
    ∃ k part, served = (rounds.take k).flatten ++ part ∧ part <+: rounds[k]?.getD [] := by
  induction rounds generalizing served with
  | nil =>
    have hnil : served = [] := prefix_nil.mp hserv
    exact ⟨0, [], by simp [hnil], by simp⟩
  | cons round rounds ih =>
    obtain ⟨later, hlat⟩ := hserv
    rcases append_eq_append_iff.mp hlat with ⟨rest, hrest, -⟩ | ⟨rest, hrest, hflat⟩
    · exact ⟨0, served, by simp, by simp [hrest]⟩
    · obtain ⟨k, part, hspl, hpart⟩ := ih ⟨later, hflat.symm⟩
      refine ⟨k + 1, part, ?_, by simpa using hpart⟩
      rw [hrest, hspl, take_succ_cons, flatten_cons, append_assoc]

lemma count_part {part : List α} {k : ℕ} (h : IsRounds rounds queues)
    (hown : OwnQueue own queue queues) (hpart : part <+: rounds[k]?.getD []) :
    part.countP own ≤ 1 := by
  have hround := filter_round hown k
  calc part.countP own ≤ (rounds[k]?.getD []).countP own := hpart.sublist.countP_le
    _ = queue[k]?.toList.length := by rw [h k, countP_eq_length_filter, hround]
    _ ≤ 1 := by cases queue[k]? <;> simp

/-- While a queue has entries left, no other is more than one entry ahead of it. -/
lemma fair {served theirs : List α} {their : α → Bool} (h : IsRounds rounds queues)
    (hown : OwnQueue own queue queues) (htheir : OwnQueue their theirs queues)
    (hserv : served <+: rounds.flatten) (hleft : served.countP their < theirs.length) :
    served.countP own ≤ served.countP their + 1 := by
  obtain ⟨k, part, rfl, hpart⟩ := prefix_split hserv
  have hmine : ((rounds.take k).flatten.filter own).length = (queue.take k).length := by
    rw [h.filter_take hown]
  have htheirs : ((rounds.take k).flatten.filter their).length = (theirs.take k).length := by
    rw [h.filter_take htheir]
  have hone := h.count_part hown hpart
  rw [← countP_eq_length_filter, length_take] at hmine htheirs
  rw [countP_append] at hleft ⊢
  rw [countP_append]
  omega

end IsRounds

end Redskilled.Foundation
