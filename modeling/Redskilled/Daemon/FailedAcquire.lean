import Redskilled.Daemon.ResourceLease

/-!
# Acquires that fail

A lease is in the map before the hook persists it, and a hook that rejects takes it out no
more. The books of a run keep what each call was answered and which lease it had created, so
that a rejected call can be held to have left none.
-/
namespace Redskilled.Daemon.ResourceLease
open Foundation Text List Option

def Await.created : Await → Option Text
  | .granting lease => some lease.leaseId
  | _ => none

/-- The call was rejected, not answered. -/
def Answer.rejects : Answer → Bool
  | .invalid => true
  | .timedOut => true
  | .threw => true
  | _ => false

def Step.call (s : State) : Step → Option Await
  | .resume i _ => s.calls[i]?
  | .persisted i => s.calls[i]?
  | .sampled i _ _ _ => s.calls[i]?
  | .timer i => s.calls[i]?
  | .rejected i => s.calls[i]?
  | _ => none

def Step.draw : Step → List Text
  | .sampled _ _ _ leaseId => [leaseId]
  | _ => []

structure Books where
  state : State
  drawn : List Text
  /-- What each answered call was answered, and the lease it had created. -/
  closed : List (Answer × Option Text)

def closing (s t : State) (a : Step) : List (Answer × Option Text) :=
  (t.answers.drop s.answers.length).map fun answer => (answer, (a.call s).bind Await.created)

def Books.next (b : Books) (a : Step) : Option Books :=
  if ∀ id ∈ a.draw, id ∉ b.drawn then
    (ResourceLease.next b.state a).map fun t =>
      { state := t, drawn := b.drawn ++ a.draw, closed := b.closed ++ closing b.state t a }
  else none

def books : Machine Books Step where
  start b := b.state.calls = [] ∧ b.state.answers = [] ∧ b.closed = [] ∧
    ∀ id ∈ b.state.leases, id ∈ b.drawn
  next := Books.next

/-- No lease is left of a call that was rejected. -/
def Clean (b : Books) : Prop :=
  ∀ answer id, (answer, some id) ∈ b.closed → answer.rejects = true → id ∉ b.state.leases

/-- Where the hook rejects the persist of a new lease, the lease is already gone. -/
def LeaseGone (b : Books) : Step → Prop
  | .rejected i => ∀ lease, b.state.calls[i]? = some (.granting lease) →
      lease.leaseId ∉ b.state.leases
  | _ => True

section
variable {s t : State} {a : Step} {id : Text} {lease : Lease}

lemma mem_leases {leases : JsMap Text Lease} : id ∈ leases ↔ ∃ l, leases.lookup id = some l :=
  JsMap.mem_iff_lookup

lemma mem_of_mem_drop (gone : Lease → Bool) (h : id ∈ (s.drop gone).leases) : id ∈ s.leases := by
  obtain ⟨l, hl⟩ := mem_leases.mp h
  exact mem_leases.mpr ⟨l, lookup_drop gone hl⟩

lemma mem_of_mem_pruneExpired {goal : Goal} {now : ℚ}
    (h : id ∈ (s.pruneExpired goal now).leases) : id ∈ s.leases :=
  mem_of_mem_drop (fun lease => lease.expired now) h

lemma mem_of_mem_erase {leases : JsMap Text Lease} {k : Text} (h : id ∈ leases.erase k) :
    id ∈ leases := (AList.mem_erase.mp h).2

lemma mem_of_next (h : next s a = some t) (hid : id ∈ t.leases) : id ∈ s.leases ∨ id ∈ a.draw := by
  cases a with
  | acquire request started now =>
    cases h
    unfold State.acquire at hid
    split at hid
    · exact .inl (mem_of_mem_pruneExpired hid)
    · exact .inl hid
  | renew leaseId ttlMs now =>
    cases h
    exact .inl (mem_of_mem_pruneExpired hid)
  | release leaseId =>
    cases h
    unfold State.release at hid
    split_ifs at hid
    · exact .inl (mem_of_mem_erase hid)
    · exact .inl hid
  | releaseHolder holderId =>
    cases h
    unfold State.releaseHolder at hid
    dsimp only at hid
    have hdrop := @mem_of_mem_drop s id fun lease =>
      decide (lease.holderId = holderId) || decide (lease.workerId = some holderId)
    split_ifs at hid
    · exact .inl (hdrop hid)
    · exact .inl (hdrop hid)
  | resume i now =>
    simp only [next] at h
    split at h
    · next goal hcall =>
      cases h
      cases goal with
      | acquire admission deadline => exact .inl hid
      | renew leaseId ttlMs =>
        unfold State.proceed at hid
        dsimp only at hid
        split at hid
        · exact .inl hid
        · next held hheld =>
          split at hid
          · rcases JsMap.mem_set.mp hid with rfl | hid
            · exact .inl (mem_leases.mpr ⟨held, hheld⟩)
            · exact .inl hid
          · exact .inl hid
    · cases h
      exact .inl (@mem_of_mem_pruneExpired { s with calls := s.calls.eraseIdx i } id _ _ hid)
    · cases h
  | persisted i =>
    obtain ⟨call, -, hcall⟩ := bind_eq_some_iff.mp h
    cases call <;> cases hcall <;> exact .inl hid
  | sampled i available now leaseId =>
    simp only [next] at h
    split at h
    · cases h
      unfold State.sampled at hid
      dsimp only at hid
      split_ifs at hid
      · split at hid
        · rcases JsMap.mem_set.mp hid with rfl | hid
          · exact .inr (mem_singleton_self _)
          · exact .inl hid
        · exact .inl hid
      · exact .inl hid
      · exact .inl hid
    · cases h
  | timer i =>
    simp only [next] at h
    split at h
    · cases h
      exact .inl hid
    · cases h
  | rejected i =>
    simp only [next] at h
    split at h
    all_goals cases h
    all_goals exact .inl hid

lemma granting_of_wake {lease : Lease} (h : .granting lease ∈ s.wake.calls) :
    .granting lease ∈ s.calls := by
  obtain ⟨call, hcall, heq⟩ := mem_map.mp h
  split at heq
  · cases heq
  · rwa [← heq]

lemma granting_of_set {calls : List Await} {i : ℕ} {call : Await} (hcall : call.created = none)
    (h : .granting lease ∈ calls.set i call) : .granting lease ∈ calls := by
  rcases mem_or_eq_of_mem_set h with h | h
  · exact h
  · rw [← h] at hcall
    cases hcall

lemma granting_of_append {calls : List Await} {call : Await} (hcall : call.created = none)
    (h : .granting lease ∈ calls ++ [call]) : .granting lease ∈ calls := by
  rcases mem_append.mp h with h | h
  · exact h
  · rw [← mem_singleton.mp h] at hcall
    cases hcall

lemma granting_of_settle {i : ℕ} {answer : Answer} (h : .granting lease ∈ (s.settle i answer).calls) :
    .granting lease ∈ s.calls :=
  mem_of_mem_eraseIdx h

lemma granting_of_pruneExpired {goal : Goal} {now : ℚ}
    (h : .granting lease ∈ (s.pruneExpired goal now).calls) : .granting lease ∈ s.calls := by
  apply granting_of_append _ h
  split <;> rfl

lemma granting_of_next (h : next s a = some t) (hgrant : .granting lease ∈ t.calls) :
    .granting lease ∈ s.calls ∨ lease.leaseId ∈ a.draw := by
  cases a with
  | acquire request started now =>
    cases h
    unfold State.acquire at hgrant
    split at hgrant
    · exact .inl (granting_of_pruneExpired hgrant)
    · exact .inl hgrant
  | renew leaseId ttlMs now =>
    cases h
    exact .inl (granting_of_pruneExpired hgrant)
  | release leaseId =>
    cases h
    unfold State.release at hgrant
    split_ifs at hgrant
    · exact .inl (granting_of_append rfl hgrant)
    · exact .inl hgrant
  | releaseHolder holderId =>
    cases h
    unfold State.releaseHolder at hgrant
    dsimp only at hgrant
    split_ifs at hgrant
    · exact .inl (granting_of_append rfl hgrant)
    · exact .inl hgrant
  | resume i now =>
    simp only [next] at h
    split at h
    · next goal hcall =>
      cases h
      cases goal with
      | acquire admission deadline => exact .inl (granting_of_set rfl hgrant)
      | renew leaseId ttlMs =>
        unfold State.proceed at hgrant
        dsimp only at hgrant
        split at hgrant
        · exact .inl (granting_of_settle hgrant)
        · split at hgrant
          · exact .inl (granting_of_set rfl hgrant)
          · exact .inl (granting_of_settle hgrant)
    · cases h
      exact .inl (mem_of_mem_eraseIdx (granting_of_pruneExpired hgrant))
    · cases h
  | persisted i =>
    obtain ⟨call, -, hcall⟩ := bind_eq_some_iff.mp h
    left
    cases call with
    | pruning goal =>
      cases hcall
      exact granting_of_set rfl (granting_of_wake hgrant)
    | granting lease =>
      cases hcall
      exact granting_of_settle hgrant
    | renewing lease =>
      cases hcall
      exact granting_of_settle hgrant
    | releasing released =>
      cases hcall
      exact granting_of_wake (granting_of_settle hgrant)
    | _ => cases hcall
  | sampled i available now leaseId =>
    simp only [next] at h
    split at h
    · cases h
      unfold State.sampled at hgrant
      dsimp only at hgrant
      split_ifs at hgrant
      · split at hgrant
        · rcases mem_or_eq_of_mem_set hgrant with hgrant | hgrant
          · exact .inl hgrant
          · obtain rfl := Await.granting.inj hgrant
            exact .inr (mem_singleton_self _)
        · exact .inl (granting_of_settle hgrant)
      · exact .inl (granting_of_settle hgrant)
      · exact .inl (granting_of_set rfl hgrant)
    · cases h
  | timer i =>
    simp only [next] at h
    split at h
    · cases h
      exact .inl (granting_of_set rfl hgrant)
    · cases h
  | rejected i =>
    simp only [next] at h
    split at h
    all_goals cases h
    all_goals exact .inl (granting_of_settle hgrant)

lemma answers_settle (i : ℕ) (answer : Answer) :
    (s.settle i answer).answers.drop s.answers.length = [answer] :=
  drop_left

lemma closing_created {answer : Answer} (h : next s a = some t)
    (hclosi : (answer, some id) ∈ closing s t a) (hrej : answer.rejects = true) :
    ∃ i lease, a = .rejected i ∧ s.calls[i]? = some (.granting lease) ∧ lease.leaseId = id ∧
      t.leases = s.leases := by
  obtain ⟨answer', hansw, heq⟩ := mem_map.mp hclosi
  obtain ⟨rfl, hcreat⟩ := Prod.mk.inj heq
  obtain ⟨call, hcall, hcreat⟩ := bind_eq_some_iff.mp hcreat
  obtain ⟨lease, rfl, rfl⟩ : ∃ lease, call = .granting lease ∧ lease.leaseId = id := by
    cases call with
    | granting lease => exact ⟨lease, rfl, some.inj hcreat⟩
    | _ => cases hcreat
  cases a with
  | resume i now =>
    have hi : s.calls[i]? = some (.granting lease) := hcall
    simp [next, hi] at h
  | persisted i =>
    have hi : s.calls[i]? = some (.granting lease) := hcall
    rw [next, hi, bind_some] at h
    cases h
    rw [answers_settle] at hansw
    rw [mem_singleton.mp hansw] at hrej
    cases hrej
  | sampled i available now leaseId =>
    have hi : s.calls[i]? = some (.granting lease) := hcall
    simp [next, hi] at h
  | timer i =>
    have hi : s.calls[i]? = some (.granting lease) := hcall
    simp [next, hi] at h
  | rejected i =>
    have hi : s.calls[i]? = some (.granting lease) := hcall
    simp only [next, hi] at h
    cases h
    exact ⟨i, lease, rfl, hi, rfl, rfl⟩
  | _ => cases hcall

end

/-- The books know every id that is, or was, the id of a lease. -/
structure Known (b : Books) : Prop where
  leases : ∀ id ∈ b.state.leases, id ∈ b.drawn
  granting : ∀ lease, .granting lease ∈ b.state.calls → lease.leaseId ∈ b.drawn
  closed : ∀ answer id, (answer, some id) ∈ b.closed → id ∈ b.drawn

section
variable {b c : Books} {a : Step} {s t : State}

lemma next_eq (h : b.next a = some c) :
    (∀ id ∈ a.draw, id ∉ b.drawn) ∧ ∃ t, ResourceLease.next b.state a = some t ∧
      c = { state := t, drawn := b.drawn ++ a.draw, closed := b.closed ++ closing b.state t a } := by
  unfold Books.next at h
  split_ifs at h with hfresh
  obtain ⟨t, ht, rfl⟩ := map_eq_some_iff.mp h
  exact ⟨hfresh, t, ht, rfl⟩

lemma call_mem {call : Await} (h : a.call s = some call) : call ∈ s.calls := by
  cases a with
  | resume i now => exact mem_of_getElem? h
  | persisted i => exact mem_of_getElem? h
  | sampled i available now leaseId => exact mem_of_getElem? h
  | timer i => exact mem_of_getElem? h
  | rejected i => exact mem_of_getElem? h
  | _ => cases h

lemma known_next (hb : Known b) (h : b.next a = some c) : Known c := by
  obtain ⟨-, t, ht, rfl⟩ := next_eq h
  constructor
  · intro id hid
    rcases mem_of_next ht hid with hid | hid
    · exact mem_append_left _ (hb.leases id hid)
    · exact mem_append_right _ hid
  · intro lease hlease
    rcases granting_of_next ht hlease with hlease | hid
    · exact mem_append_left _ (hb.granting lease hlease)
    · exact mem_append_right _ hid
  · intro answer id hclos
    apply mem_append_left
    rcases mem_append.mp hclos with hclos | hclos
    · exact hb.closed answer id hclos
    · obtain ⟨answer', -, heq⟩ := mem_map.mp hclos
      obtain ⟨call, hcall, hcreat⟩ := bind_eq_some_iff.mp (Prod.mk.inj heq).2
      cases call with
      | granting lease =>
        cases hcreat
        exact hb.granting lease (call_mem hcall)
      | _ => cases hcreat

lemma clean_next (hb : Known b) (hclean : Clean b) (hgone : LeaseGone b a)
    (h : b.next a = some c) : Clean c := by
  obtain ⟨hfresh, t, ht, rfl⟩ := next_eq h
  intro answer id hclos hrej hid
  rcases mem_append.mp hclos with hclos | hclos
  · rcases mem_of_next ht hid with hold | hdrawn
    · exact hclean answer id hclos hrej hold
    · exact hfresh id hdrawn (hb.closed answer id hclos)
  · obtain ⟨i, lease, rfl, hcall, rfl, hsame⟩ := closing_created ht hclos hrej
    rw [hsame] at hid
    exact hgone lease hcall hid

lemma unclean_next (hgone : ¬ LeaseGone b a) (h : b.next a = some c) : ¬ Clean c := by
  obtain ⟨-, t, ht, rfl⟩ := next_eq h
  cases a with
  | rejected i =>
    simp only [LeaseGone, not_forall, not_not] at hgone
    obtain ⟨lease, hcall, hid⟩ := hgone
    simp only [ResourceLease.next, hcall] at ht
    cases ht
    intro hclean
    refine hclean .threw lease.leaseId (mem_append_right _ ?_) rfl hid
    rw [closing, answers_settle, Step.call, hcall]
    exact mem_singleton_self _
  | _ => exact absurd trivial hgone

lemma known_start (h : books.start b) : Known b := by
  obtain ⟨hcalls, -, hclos, hleas⟩ := h
  constructor
  · exact hleas
  · intro lease hlease
    rw [hcalls] at hlease
    exact absurd hlease not_mem_nil
  · intro answer id hid
    rw [hclos] at hid
    exact absurd hid not_mem_nil

/-- A call that was rejected has left no lease, in every run in which the lease is gone when
the hook rejects its persist; and it has left one as soon as it is not. -/
theorem failed_acquire_clean (b : Books) (h : books.Reach LeaseGone b) :
    Clean b ∧ ∀ a c, b.next a = some c → ¬ LeaseGone b a → ¬ Clean c := by
  have hinv : Known b ∧ Clean b := by
    apply h.inv fun b => Known b ∧ Clean b
    · intro b hb
      refine ⟨known_start hb, ?_⟩
      intro answer id hclos
      rw [hb.2.2.1] at hclos
      exact absurd hclos not_mem_nil
    · intro b a c hb hok hnext
      exact ⟨known_next hb.1 hnext, clean_next hb.1 hb.2 hok hnext⟩
  exact ⟨hinv.2, fun a c hnext hgone => unclean_next hgone hnext⟩

end

section

def fresh : Books := { state := ⟨∅, [], []⟩, drawn := [], closed := [] }

lemma start_fresh : books.start fresh := by
  refine ⟨rfl, rfl, rfl, ?_⟩
  intro id hid
  exact absurd hid (AList.notMem_empty id)

def rejectedGrant : List Step :=
  [.acquire build 0 0, .resume 0 0, .sampled 0 (some 1) 0 ['1'], .rejected 0]

/-- The hook rejects, and the call fails with its lease in place. -/
theorem not_always_clean : ¬ ∀ b, books.Reach anyStep b → Clean b := by
  intro h
  have hrun : (books.exec fresh rejectedGrant).map
      (fun b => (b.closed, b.state.leases.keys)) = some ([(.threw, some ['1'])], [['1']]) := by
    decide +kernel
  obtain ⟨b, hb, heq⟩ := map_eq_some_iff.mp hrun
  obtain ⟨hclos, hkeys⟩ := Prod.mk.inj heq
  apply h b (Machine.reach_of_exec start_fresh hb) .threw ['1']
  · rw [hclos]
    exact mem_singleton_self _
  · rfl
  · rw [AList.mem_keys, hkeys]
    exact mem_singleton_self _

def releasedGrant : List Step :=
  [.acquire build 0 0, .resume 0 0, .sampled 0 (some 1) 0 ['1'], .releaseHolder ['h'],
    .rejected 0]

def gone (b : Books) : Step → Bool
  | .rejected i => (b.state.calls[i]?).all fun
      | .granting lease => !decide (lease.leaseId ∈ b.state.leases.keys)
      | _ => true
  | _ => true

lemma leaseGone_of_gone {b : Books} {a : Step} (h : gone b a = true) : LeaseGone b a := by
  cases a with
  | rejected i =>
    intro lease hcall
    rw [gone, hcall] at h
    simpa [AList.mem_keys] using h
  | _ => trivial

theorem released_clean : ∃ b, (books.execIf gone fresh releasedGrant) = some b ∧
      b.closed = [(.threw, some ['1'])] ∧ Clean b := by
  have hrun : (books.execIf gone fresh releasedGrant).map (·.closed) =
      some [(.threw, some ['1'])] := by
    decide +kernel
  obtain ⟨b, hb, hclos⟩ := map_eq_some_iff.mp hrun
  have hreach : books.Reach LeaseGone b :=
    ⟨fresh, releasedGrant, start_fresh,
      (Machine.run_of_execIf hb).mono fun _ _ => leaseGone_of_gone⟩
  exact ⟨b, hb, hclos, (failed_acquire_clean b hreach).1⟩

end

end Redskilled.Daemon.ResourceLease
