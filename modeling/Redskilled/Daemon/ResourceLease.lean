import Mathlib.Data.Rat.Floor
import Redskilled.Foundation.JsText
import Redskilled.Foundation.JsMap
import Redskilled.Foundation.Machine

/-!
# Host resource leases

A caller acquires a resource of the host, holds it until its lease expires or is
released, and may renew it. A call prunes what has expired, tests for a conflict, waits
for a sample of the free memory and tests again; where the resource is held, or the
memory short, it waits for a change and starts over.

Calls interleave at their awaits: the hook that persists the leases, the sample, the
wait and the return of the prune. Between two awaits a call runs alone. A timer may fire
at any time, so its length is left out.

A number is a rational, `none` where it is not finite.
-/
namespace Redskilled.Daemon.ResourceLease
open Foundation Text

structure Request where
  resource : Text
  holderId : Text
  workerId : Option Text
  minimumAvailableMemoryBytes : Option ℚ
  ttlMs : Option ℚ
  waitTimeoutMs : Option ℚ

structure Admission where
  resource : Text
  holderId : Text
  workerId : Option Text
  minimum : ℚ
  ttlMs : ℚ
  waitTimeoutMs : ℚ

/-- Instants are in milliseconds. -/
structure Lease where
  leaseId : Text
  resource : Text
  holderId : Text
  workerId : Option Text
  minimum : ℚ
  acquiredAt : ℤ
  renewedAt : ℤ
  expiresAt : ℤ
  deriving DecidableEq

inductive Goal where
  | acquire (admission : Admission) (deadline : ℚ)
  | renew (leaseId : Text) (ttlMs : ℚ)

inductive Await where
  | pruning (goal : Goal)
  | pruned (goal : Goal)
  | sampling (admission : Admission) (deadline : ℚ) (conflict : Bool)
  | waiting (admission : Admission) (deadline : ℚ)
  | woken (admission : Admission) (deadline : ℚ)
  | granting (lease : Lease)
  | renewing (lease : Lease)
  | releasing (released : ℕ)

inductive Answer where
  | lease (lease : Lease)
  | absent
  | released (count : ℕ)
  | invalid
  | timedOut
  /-- A hook, or the text of an instant past the calendar. -/
  | threw
  deriving DecidableEq

structure State where
  leases : JsMap Text Lease
  calls : List Await
  answers : List Answer

/-- `new Date(ms).toISOString()`. -/
def isoInstant (ms : ℚ) : Option ℤ :=
  if |ms| ≤ 8640000000000000 then some (if 0 ≤ ms then ⌊ms⌋ else ⌈ms⌉) else none

def admission? (request : Request) : Option Admission :=
  if trim request.resource = [] ∨ trim request.holderId = [] then none
  else
    match request.minimumAvailableMemoryBytes, request.ttlMs, request.waitTimeoutMs with
    | some minimum, some ttlMs, some waitTimeoutMs =>
      if 0 ≤ minimum ∧ 0 < ttlMs ∧ 0 ≤ waitTimeoutMs then
        some ⟨request.resource, request.holderId, request.workerId, minimum, ttlMs, waitTimeoutMs⟩
      else none
    | _, _, _ => none

def Lease.expired (lease : Lease) (now : ℚ) : Bool := decide ((lease.expiresAt : ℚ) ≤ now)

namespace State
variable (s : State)

/-- Take from the map what `gone` tells. -/
def drop (gone : Lease → Bool) : State :=
  { s with
    leases := s.leases.entries.foldl (fun m e => if gone e.2 then m.erase e.1 else m) s.leases }

def wake : State :=
  { s with calls := s.calls.map fun
      | .waiting admission deadline => .woken admission deadline
      | call => call }

def settle (i : ℕ) (answer : Answer) : State :=
  { s with calls := s.calls.eraseIdx i, answers := s.answers ++ [answer] }

def pruneExpired (goal : Goal) (now : ℚ) : State :=
  let changed := s.leases.values.any (·.expired now)
  let s := s.drop (·.expired now)
  { s with calls := s.calls ++ [if changed then .pruning goal else .pruned goal] }

def occupied (resource : Text) : Bool := s.leases.values.any (·.resource = resource)

def acquire (request : Request) (started now : ℚ) : State :=
  match admission? request with
  | some admission =>
    s.pruneExpired (.acquire admission (started + max 0 admission.waitTimeoutMs)) now
  | none => { s with answers := s.answers ++ [.invalid] }

def proceed (i : ℕ) (now : ℚ) : Goal → State
  | .acquire admission deadline =>
    { s with calls := s.calls.set i (.sampling admission deadline (s.occupied admission.resource)) }
  | .renew leaseId ttlMs =>
    match s.leases.lookup leaseId with
    | none => s.settle i .absent
    | some held =>
      match isoInstant now, isoInstant (now + max 1 ttlMs) with
      | some renewedAt, some expiresAt =>
        let renewed := { held with renewedAt, expiresAt }
        { s with
          leases := s.leases.set leaseId renewed
          calls := s.calls.set i (.renewing renewed) }
      | _, _ => s.settle i .threw

def sampled (i : ℕ) (admission : Admission) (deadline : ℚ) (conflict : Bool)
    (available : Option ℚ) (now : ℚ) (leaseId : Text) : State :=
  let stillFree := !s.occupied admission.resource
  if !conflict && stillFree && available.any (admission.minimum ≤ ·) then
    match isoInstant now, isoInstant (now + max 1 admission.ttlMs) with
    | some instant, some expiresAt =>
      let lease : Lease :=
        ⟨leaseId, admission.resource, admission.holderId, admission.workerId, admission.minimum,
          instant, instant, expiresAt⟩
      { s with leases := s.leases.set leaseId lease, calls := s.calls.set i (.granting lease) }
    | _, _ => s.settle i .threw
  else if deadline - now ≤ 0 then s.settle i .timedOut
  else { s with calls := s.calls.set i (.waiting admission deadline) }

def release (leaseId : Text) : State :=
  if (s.leases.lookup leaseId).isSome then
    { s with leases := s.leases.erase leaseId, calls := s.calls ++ [.releasing 1] }
  else { s with answers := s.answers ++ [.released 0] }

def releaseHolder (holderId : Text) : State :=
  let held (lease : Lease) : Bool := lease.holderId = holderId || lease.workerId = some holderId
  let released := s.leases.values.countP held
  let s := s.drop held
  if 0 < released then { s with calls := s.calls ++ [.releasing released] }
  else { s with answers := s.answers ++ [.released 0] }

def persisted (i : ℕ) : Await → Option State
  | .pruning goal => some { s with calls := s.calls.set i (.pruned goal) }.wake
  | .granting lease | .renewing lease => some (s.settle i (.lease lease))
  | .releasing released => some (s.wake.settle i (.released released))
  | .pruned _ | .sampling _ _ _ | .waiting _ _ | .woken _ _ => none

end State

inductive Step where
  | acquire (request : Request) (started now : ℚ)
  | renew (leaseId : Text) (ttlMs now : ℚ)
  | release (leaseId : Text)
  | releaseHolder (holderId : Text)
  /-- The callback behind a prune or a wake-up. -/
  | resume (i : ℕ) (now : ℚ)
  | persisted (i : ℕ)
  | sampled (i : ℕ) (available : Option ℚ) (now : ℚ) (leaseId : Text)
  | timer (i : ℕ)
  | rejected (i : ℕ)

def next (s : State) : Step → Option State
  | .acquire request started now => some (s.acquire request started now)
  | .renew leaseId ttlMs now => some (s.pruneExpired (.renew leaseId ttlMs) now)
  | .release leaseId => some (s.release leaseId)
  | .releaseHolder holderId => some (s.releaseHolder holderId)
  | .resume i now =>
    match s.calls[i]? with
    | some (.pruned goal) => some (s.proceed i now goal)
    | some (.woken admission deadline) =>
      some ({ s with calls := s.calls.eraseIdx i }.pruneExpired (.acquire admission deadline) now)
    | _ => none
  | .persisted i => s.calls[i]?.bind (s.persisted i)
  | .sampled i available now leaseId =>
    match s.calls[i]? with
    | some (.sampling admission deadline conflict) =>
      some (s.sampled i admission deadline conflict available now leaseId)
    | _ => none
  | .timer i =>
    match s.calls[i]? with
    | some (.waiting admission deadline) =>
      some { s with calls := s.calls.set i (.woken admission deadline) }
    | _ => none
  | .rejected i =>
    match s.calls[i]? with
    | some (.pruning _) | some (.sampling _ _ _) | some (.granting _) | some (.renewing _)
    | some (.releasing _) => some (s.settle i .threw)
    | _ => none

def runtime : Machine State Step where
  start s := s = ⟨∅, [], []⟩
  next := next

/-- At most one lease names a resource. -/
def Exclusive (leases : JsMap Text Lease) : Prop :=
  ∀ id id' lease lease', leases.lookup id = some lease → leases.lookup id' = some lease' →
    lease.resource = lease'.resource → id = id'

inductive Change (leases leases' : JsMap Text Lease) : Prop
  | drops (hsub : ∀ id lease, leases'.lookup id = some lease → leases.lookup id = some lease)
  | renews (id : Text) (held renewed : Lease) (hheld : leases.lookup id = some held)
      (hresource : renewed.resource = held.resource) (heq : leases' = leases.set id renewed)
  | grants (id : Text) (lease : Lease)
      (hfree : ∀ id' lease', leases.lookup id' = some lease' → lease'.resource ≠ lease.resource)
      (heq : leases' = leases.set id lease)

section
variable {s t : State} {leases leases' : JsMap Text Lease}

lemma Change.refl : Change leases leases := .drops fun _ _ h => h

lemma Exclusive.change (h : Exclusive leases) (hchange : Change leases leases') :
    Exclusive leases' := by
  intro id id' lease lease' hid hid' hresource
  cases hchange with
  | drops hsub => exact h id id' lease lease' (hsub id lease hid) (hsub id' lease' hid') hresource
  | renews k held renewed hheld hsame heq =>
    rw [heq, JsMap.lookup_set] at hid hid'
    split_ifs at hid hid' with hk hk' hk'
    · rw [hk, hk']
    · cases hid
      rw [hk]
      exact h k id' held lease' hheld hid' (hsame.symm.trans hresource)
    · cases hid'
      rw [hk']
      exact h id k lease held hid hheld (hresource.trans hsame)
    · exact h id id' lease lease' hid hid' hresource
  | grants k granted hfree heq =>
    rw [heq, JsMap.lookup_set] at hid hid'
    split_ifs at hid hid' with hk hk' hk'
    · rw [hk, hk']
    · cases hid
      exact absurd hresource.symm (hfree id' lease' hid')
    · cases hid'
      exact absurd hresource (hfree id lease hid)
    · exact h id id' lease lease' hid hid' hresource

lemma change_erase (k : Text) : Change leases (leases.erase k) := by
  apply Change.drops
  intro id lease hid
  rw [JsMap.lookup_erase_eq] at hid
  split_ifs at hid
  exact hid

lemma lookup_drop (gone : Lease → Bool) {id : Text} {lease : Lease}
    (h : (s.drop gone).leases.lookup id = some lease) : s.leases.lookup id = some lease := by
  have hloop : ∀ (l : List (Σ _ : Text, Lease)) (m : JsMap Text Lease),
      (l.foldl (fun m e => if gone e.2 then m.erase e.1 else m) m).lookup id = some lease →
        m.lookup id = some lease := by
    intro l
    induction l with
    | nil => exact fun m h => h
    | cons e l ih =>
      intro m h
      have hm := ih _ h
      dsimp only at hm
      split_ifs at hm
      · rw [JsMap.lookup_erase_eq] at hm
        split_ifs at hm
        exact hm
      · exact hm
  exact hloop s.leases.entries s.leases h

lemma change_drop (gone : Lease → Bool) : Change s.leases (s.drop gone).leases :=
  .drops fun _ _ => lookup_drop gone

lemma change_pruneExpired {goal : Goal} {now : ℚ} :
    Change s.leases (s.pruneExpired goal now).leases :=
  change_drop fun lease => lease.expired now

lemma free_of_not_occupied {resource : Text} (h : s.occupied resource = false) (id : Text)
    (lease : Lease) (hid : s.leases.lookup id = some lease) : lease.resource ≠ resource := by
  have hall := List.any_eq_false.mp h lease (JsMap.mem_values.mpr ⟨id, hid⟩)
  simpa using hall

lemma change_proceed {i : ℕ} {now : ℚ} {goal : Goal} :
    Change s.leases (s.proceed i now goal).leases := by
  cases goal with
  | acquire admission deadline => exact .refl
  | renew leaseId ttlMs =>
    unfold State.proceed
    dsimp only
    split
    · exact .refl
    · next held hheld =>
        split
        · refine .renews leaseId held _ hheld ?_ rfl
          rfl
        · exact .refl

lemma change_sampled {i : ℕ} {admission : Admission} {deadline now : ℚ} {conflict : Bool}
    {available : Option ℚ} {leaseId : Text} :
    Change s.leases (s.sampled i admission deadline conflict available now leaseId).leases := by
  unfold State.sampled
  dsimp only
  split_ifs with hfree hlate
  · have hunocc : s.occupied admission.resource = false := by
      simp only [Bool.and_eq_true, Bool.not_eq_true'] at hfree
      exact hfree.1.2
    split
    · exact .grants leaseId _ (free_of_not_occupied hunocc) rfl
    · exact .refl
  · exact .refl
  · exact .refl

lemma change_next {a : Step} (h : next s a = some t) : Change s.leases t.leases := by
  cases a with
  | acquire request started now =>
    cases h
    unfold State.acquire
    split
    · exact change_pruneExpired
    · exact .refl
  | renew leaseId ttlMs now =>
    cases h
    exact change_pruneExpired
  | release leaseId =>
    cases h
    unfold State.release
    split_ifs
    · exact change_erase leaseId
    · exact .refl
  | releaseHolder holderId =>
    cases h
    unfold State.releaseHolder
    dsimp only
    have hdrop := @change_drop s fun lease =>
      decide (lease.holderId = holderId) || decide (lease.workerId = some holderId)
    split_ifs
    · exact hdrop
    · exact hdrop
  | resume i now =>
    simp only [next] at h
    split at h
    · cases h
      exact change_proceed
    · cases h
      exact @change_pruneExpired { s with calls := s.calls.eraseIdx i } _ _
    · cases h
  | persisted i =>
    obtain ⟨call, -, hcall⟩ := Option.bind_eq_some_iff.mp h
    cases call <;> cases hcall <;> exact .refl
  | sampled i available now leaseId =>
    simp only [next] at h
    split at h
    · cases h
      exact change_sampled
    · cases h
  | timer i =>
    simp only [next] at h
    split at h
    · cases h
      exact .refl
    · cases h
  | rejected i =>
    simp only [next] at h
    split at h
    all_goals cases h
    all_goals exact .refl

/-- Whatever the clock reads and the hooks answer, at most one lease in the map names a
resource. -/
theorem leases_exclusive (h : runtime.Reach anyStep s) : Exclusive s.leases := by
  refine h.inv (fun s => Exclusive s.leases) (fun s hs => ?_) fun s a t hs _ hnext =>
    hs.change (change_next hnext)
  rw [hs]
  intro id id' lease lease' hid
  cases hid

end

section

def build : Request := ⟨['b'], ['h'], none, some 0, some 1000, some 1000⟩

theorem exclusive_of_two : ∃ s, runtime.exec ⟨∅, [], []⟩
        [.acquire build 0 0, .acquire build 0 0, .resume 0 0, .resume 1 0,
          .sampled 0 (some 1) 0 ['1'], .sampled 1 (some 1) 0 ['2']] = some s ∧
      s.leases.keys = [['1']] ∧ Exclusive s.leases := by
  have hrun : (runtime.exec ⟨∅, [], []⟩
      [.acquire build 0 0, .acquire build 0 0, .resume 0 0, .resume 1 0,
        .sampled 0 (some 1) 0 ['1'], .sampled 1 (some 1) 0 ['2']]).map (fun s => s.leases.keys) =
        some [['1']] := by
    decide +kernel
  obtain ⟨s, hs, hkeys⟩ := Option.map_eq_some_iff.mp hrun
  exact ⟨s, hs, hkeys, leases_exclusive (Machine.reach_of_exec rfl hs)⟩

end
end Redskilled.Daemon.ResourceLease
