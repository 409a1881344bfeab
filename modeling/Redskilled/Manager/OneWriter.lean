import Redskilled.Manager.Sessions

/-!
# One writer of a generation

The stored generation is compared in one operation and overwritten in another, and so is the
lease. Where each file is still what the call read when it is overwritten, the comparison
speaks of what is overwritten. The saves then follow each other: each writes the next
generation over one that no other writes over, and a lease takes the place of an expired
one or of one of its own host.
-/
namespace Redskilled.Manager
open Foundation Foundation.Text Dialogue List

/-- The effort that is overwritten is the one that the call read. A start reads none and
finds none. -/
def stands (stored : Option EffortRow) (session : Session) : Bool :=
  match session.call with
  | .start _ _ => stored.isNone
  | _ => stored.isSome && decide (stored = effortRead session.past)

/-- The host has no lease in the file that expires later. -/
def renews (s : Efforts) (lease : EffortLease) : Bool :=
  s.store.lease.all fun found =>
    found.host != lease.host || found.expiresAt ≤ s.time || found.expiresAt ≤ lease.expiresAt

/-- The file that is overwritten is as the call read it. -/
def unmoved (s : Efforts) : Move → Bool
  | .op id works =>
    match s.asked id works with
    | some ⟨session, ⟨.renameEffort _, some ()⟩, _, _⟩ => stands s.store.effort session
    | some ⟨session, ⟨.renameLease lease, some ()⟩, _, _⟩ =>
      decide (s.store.lease = leaseRead session.past) && renews s lease
    | _ => true
  | _ => true

/-- The row is the next generation of what is stored, and that of a start the first. -/
def follows (stored : Option EffortRow) (call : Call) (row : EffortRow) : Bool :=
  match call with
  | .start _ _ => stored.isNone
  | _ => stored.any fun found => row.generation == found.generation + 1

lemma stored_of_follows {effort : Option EffortRow} {row : EffortRow}
    (h : (effort.any fun found => row.generation == found.generation + 1) = true) :
    ∃ stored, effort = some stored ∧ row.generation = stored.generation + 1 := by
  rw [Option.any_eq_true] at h
  obtain ⟨stored, hstor, hgen⟩ := h
  exact ⟨stored, hstor, by simpa using hgen⟩

/-- No other host has a lease in the file, and its own one does not expire later. -/
def mayLease (s : Efforts) (lease : EffortLease) : Bool :=
  s.store.lease.all fun found => found.expiresAt ≤ s.time ||
    (found.host == lease.host && found.expiresAt ≤ lease.expiresAt)

/-- The generations rise, each save is over the one before, and a lease that is held is in
the file, or one of its host that expires later. -/
structure Fenced (secretShaped : Text → Bool) (s : Efforts) : Prop where
  stored : s.store.effort = s.history.getLast?
  rising : (s.history.map (·.generation)).Pairwise (· < ·)
  saved : ∀ before wrote, (before, wrote) ∈ s.saves → ∃ generation, before = some generation ∧
    wrote = generation + 1 ∧ ∃ found, s.store.effort = some found ∧ generation < found.generation
  once : (s.saves.map Prod.fst).Nodup
  held : ∀ lease ∈ s.holds, s.time < lease.expiresAt → ∃ found, s.store.lease = some found ∧
    found.host = lease.host ∧ lease.expiresAt ≤ found.expiresAt
  conducted : ∀ id session, s.sessions id = some session →
    session.Conducted secretShaped ∧ session.calledAt ≤ s.time

section
variable {secretShaped : Text → Bool} {s t : Efforts} {id : ℕ} {works : Bool} {found : Asked}

/-- What is overwritten was read and compared, so the row is the next of it. -/
lemma follows_of_stands {stored : Option EffortRow} {session : Session} {row : EffortRow}
    (h : stands stored session = true) (hcomp : Compared session.call session.past row) :
    follows stored session.call row = true := by
  unfold stands at h
  unfold follows
  rcases hcomp with ⟨intent, effortId, hcall⟩ | hnext
  · rw [hcall] at h ⊢
    exact h
  · split at h
    · exact h
    · obtain ⟨hsome, hread⟩ := Bool.and_eq_true_iff.mp h
      obtain ⟨found, hfound⟩ := Option.isSome_iff_exists.mp hsome
      have hrow : row.generation = found.generation + 1 :=
        hnext found ((of_decide_eq_true hread).symm.trans hfound)
      simp [hfound, hrow]

lemma follows_of_unmoved {row : EffortRow} (hs : Fenced secretShaped s)
    (hok : unmoved s (.op id works) = true) (h : s.asked id works = some found)
    (he : found.exchange = ⟨.renameEffort row, some ()⟩) :
    follows s.store.effort found.session.call row = true := by
  obtain ⟨hsess, -, -⟩ := asked_spec h
  obtain ⟨hasks, -⟩ := conducted_asked h (hs.conducted id _ hsess).1
  rw [he] at hasks
  obtain ⟨session, e, next, store⟩ := found
  subst he
  have hstands : stands s.store.effort session = true := by simpa [unmoved, h] using hok
  exact follows_of_stands hstands hasks.2.2

/-- The lease that is overwritten was read, and found expired or the host's own. -/
lemma mayLease_of_unmoved {lease : EffortLease} (hs : Fenced secretShaped s)
    (hok : unmoved s (.op id works) = true) (h : s.asked id works = some found)
    (he : found.exchange = ⟨.renameLease lease, some ()⟩) : mayLease s lease = true := by
  obtain ⟨hsess, -, -⟩ := asked_spec h
  obtain ⟨hcond, hclock⟩ := hs.conducted id _ hsess
  obtain ⟨hasks, -⟩ := conducted_asked h hcond
  rw [he] at hasks
  obtain ⟨session, e, next, store⟩ := found
  subst he
  have hboth : s.store.lease = leaseRead session.past ∧ renews s lease = true := by
    simpa [unmoved, h] using hok
  obtain ⟨hread, hren⟩ := hboth
  obtain ⟨effort, ttlMs, host, -, -, -, hhost, -, hcheck⟩ := hasks.2
  unfold mayLease renews at *
  cases hstor : s.store.lease with
  | none => rfl
  | some old =>
    have hfound := hcheck old (hread.symm.trans hstor)
    rw [← hhost] at hfound
    have hclock' : session.calledAt ≤ s.time := hclock
    rw [hstor] at hren
    simp only [Option.all_some, Bool.or_eq_true, bne_iff_ne, decide_eq_true_eq] at hren
    simp only [Option.all_some, Bool.or_eq_true, Bool.and_eq_true, beq_iff_eq, decide_eq_true_eq]
    rcases hfound with hexp | hown
    · exact .inl (hexp.trans hclock')
    · rcases hren with (hoth | hexp) | hlat
      · exact absurd hown hoth
      · exact .inl hexp
      · exact .inr ⟨hown, hlat⟩

lemma mem_holdsAfter {next : Program Returned} {lease : EffortLease}
    (h : lease ∈ s.holdsAfter next) :
    (lease ∈ s.holds ∧ ∀ effort, next ≠ .done (.ended effort)) ∨
      ∃ effort, next = .done (.managed effort lease) := by
  unfold Efforts.holdsAfter at h
  split at h
  · next effort granted =>
      rcases mem_cons.mp h with rfl | h
      · exact .inr ⟨effort, rfl⟩
      · exact .inl ⟨h, by rintro _ ⟨⟩⟩
  · cases h
  · next hend => exact .inl ⟨h, fun effort heq => hend effort heq⟩

lemma Fenced.held_answered (hs : Fenced secretShaped s) (h : s.asked id works = some found)
    (hok : unmoved s (.op id works) = true) {lease : EffortLease}
    (hlease : lease ∈ s.holdsAfter found.next) (hlive : s.time < lease.expiresAt) :
    ∃ left, found.store.lease = some left ∧ left.host = lease.host ∧
      lease.expiresAt ≤ left.expiresAt := by
  obtain ⟨hsess, hchang, -⟩ := asked_spec h
  have hcond := (hs.conducted id _ hsess).1
  rcases mem_holdsAfter hlease with ⟨hheld, hnotEnd⟩ | ⟨effort, hnext⟩
  · obtain ⟨left, hleft, hhost, hexpir⟩ := hs.held lease hheld hlive
    rcases hchang with ⟨row, -, hstore⟩ | ⟨granted, he, hstore⟩ |
      ⟨answer, he, hstore⟩ | ⟨-, -, hstore⟩
    · exact ⟨left, by rw [hstore]; exact hleft, hhost, hexpir⟩
    · have hmay := mayLease_of_unmoved hs hok h he
      rw [mayLease, hleft] at hmay
      have hcas : left.expiresAt ≤ s.time ∨
          (left.host = granted.host ∧ left.expiresAt ≤ granted.expiresAt) := by
        simpa using hmay
      rcases hcas with hexp | ⟨hsame, hlat⟩
      · omega
      · exact ⟨granted, by rw [hstore], by rw [← hsame, hhost], by omega⟩
    · obtain ⟨effort, hend⟩ := ended_of_unlinked h hcond he
      exact absurd hend (hnotEnd effort)
    · exact ⟨left, by rw [hstore]; exact hleft, hhost, hexpir⟩
  · have he := leased_of_managed h hcond hnext
    rcases hchang with ⟨row, hrow, -⟩ | ⟨granted, hgrant, hstore⟩ | ⟨answer, hunl, -⟩ | ⟨-, hnot, -⟩
    · rw [hrow] at he
      cases he
    · rw [hgrant] at he
      cases he
      exact ⟨lease, by rw [hstore], rfl, le_refl _⟩
    · rw [hunl] at he
      cases he
    · exact absurd he (hnot lease)

lemma rising_concat {history : List EffortRow} {stored row : EffortRow}
    (h : (history.map (·.generation)).Pairwise (· < ·)) (hstor : history.getLast? = some stored)
    (hless : stored.generation < row.generation) :
    ((history ++ [row]).map (·.generation)).Pairwise (· < ·) := by
  obtain ⟨front, rfl⟩ := getLast?_eq_some_iff.mp hstor
  rw [map_append, map_append] at *
  rw [pairwise_append]
  refine ⟨h, by simp, ?_⟩
  intro a ha b hb
  have hb' : b = row.generation := by simpa using hb
  rcases mem_append.mp ha with ha | ha
  · have hlast := (pairwise_append.mp h).2.2 a ha stored.generation (by simp)
    omega
  · have ha' : a = stored.generation := by simpa using ha
    omega

lemma Fenced.stores (hs : Fenced secretShaped s) {row : EffortRow}
    (he : found.exchange = ⟨.renameEffort row, some ()⟩)
    (hfoll : follows s.store.effort found.session.call row = true) :
    (((s.history ++ [row]).map (·.generation)).Pairwise (· < ·)) ∧
    (∀ before wrote, (before, wrote) ∈ s.savesAfter found.session.call found.exchange →
      ∃ generation, before = some generation ∧ wrote = generation + 1 ∧
        generation < row.generation) ∧
    ((s.savesAfter found.session.call found.exchange).map Prod.fst).Nodup := by
  cases hstor : s.store.effort with
  | none =>
    -- Only a start stores over nothing, and nothing was saved before.
    rw [hstor] at hfoll
    have hsav : s.saves = [] := by
      rw [eq_nil_iff_forall_not_mem]
      rintro ⟨before, wrote⟩ hsave
      obtain ⟨_, -, -, left, hleft, -⟩ := hs.saved before wrote hsave
      rw [hstor] at hleft
      cases hleft
    have hhist : s.history = [] := by
      rw [← getLast?_eq_none_iff, ← hs.stored, hstor]
    rw [he, hhist]
    cases hcall : found.session.call with
    | start intent effortId => simp [Efforts.savesAfter, hsav]
    | _ =>
      rw [hcall] at hfoll
      cases hfoll
  | some stored =>
    rw [hstor] at hfoll
    have hnext : row.generation = stored.generation + 1 ∧
        s.savesAfter found.session.call found.exchange =
          s.saves ++ [(some stored.generation, row.generation)] := by
      rw [he]
      cases hcall : found.session.call with
      | start intent effortId =>
        rw [hcall] at hfoll
        cases hfoll
      | _ =>
        rw [hcall] at hfoll
        exact ⟨by simpa [follows] using hfoll, by simp [Efforts.savesAfter, storedBy, hstor]⟩
    obtain ⟨hnext, hsav⟩ := hnext
    have hlast : s.history.getLast? = some stored := by rw [← hs.stored, hstor]
    have hbel : ∀ before wrote, (before, wrote) ∈ s.saves →
        ∃ generation, before = some generation ∧ wrote = generation + 1 ∧
          generation < stored.generation := by
      intro before wrote hsave
      obtain ⟨generation, hover, hwrote, left, hleft, hless⟩ := hs.saved before wrote hsave
      obtain rfl := Option.some.inj (hstor.symm.trans hleft)
      exact ⟨generation, hover, hwrote, hless⟩
    refine ⟨rising_concat hs.rising hlast (by omega), ?_, ?_⟩
    · rw [hsav]
      intro before wrote hsave
      rcases mem_append.mp hsave with hsave | hsave
      · obtain ⟨generation, hover, hwrote, hless⟩ := hbel before wrote hsave
        exact ⟨generation, hover, hwrote, by omega⟩
      · obtain ⟨rfl, rfl⟩ := Prod.mk.inj (mem_singleton.mp hsave)
        exact ⟨stored.generation, rfl, hnext, by omega⟩
    · rw [hsav, map_append, nodup_append]
      refine ⟨hs.once, by simp, ?_⟩
      intro before hover other hoth heq
      have hoth' : other = some stored.generation := by simpa using hoth
      obtain ⟨⟨_, wrote⟩, hsave, rfl⟩ := mem_map.mp hover
      obtain ⟨generation, hgen, -, hless⟩ := hbel _ wrote hsave
      rw [hoth'] at heq
      obtain rfl := Option.some.inj (heq.symm.trans hgen)
      omega

lemma Fenced.answered (hs : Fenced secretShaped s) (h : s.asked id works = some found)
    (hok : unmoved s (.op id works) = true) : Fenced secretShaped (s.answered id found) := by
  obtain ⟨hsess, hchang, -⟩ := asked_spec h
  have hcond : ∀ other session, (s.answered id found).sessions other = some session →
      session.Conducted secretShaped ∧ session.calledAt ≤ s.time := by
    intro other session hoth
    rcases answered_cases hoth with ⟨-, rfl⟩ | ⟨-, hoth⟩
    · obtain ⟨hsound, hclock⟩ := hs.conducted id _ hsess
      exact ⟨(conducted_asked h hsound).2, hclock⟩
    · exact hs.conducted other session hoth
  have hheld : ∀ lease ∈ s.holdsAfter found.next, s.time < lease.expiresAt →
      ∃ left, found.store.lease = some left ∧ left.host = lease.host ∧
        lease.expiresAt ≤ left.expiresAt := fun _ hlease hlive => hs.held_answered h hok hlease hlive
  rcases hchang with ⟨row, he, hstore⟩ | hchang
  · obtain ⟨hris, hsaved, honce⟩ := hs.stores he (follows_of_unmoved hs hok h he)
    have hhist : (s.answered id found).history = s.history ++ [row] := by
      simp [Efforts.answered, he, storedBy]
    refine ⟨?_, by rw [hhist]; exact hris, ?_, honce, hheld, hcond⟩
    · rw [hhist, getLast?_concat]
      simp [Efforts.answered, hstore]
    · intro before wrote hsave
      obtain ⟨generation, hover, hwrote, hless⟩ := hsaved before wrote hsave
      exact ⟨generation, hover, hwrote, row, by simp [Efforts.answered, hstore], hless⟩
  · have hnone : storedBy found.exchange = none := by
      rcases hchang with ⟨lease, he, -⟩ | ⟨answer, he, -⟩ | ⟨hnone, -⟩
      · rw [he]; rfl
      · rw [he]; rfl
      · exact hnone
    have heff : found.store.effort = s.store.effort := by
      rcases hchang with ⟨lease, -, hstore⟩ | ⟨answer, -, hstore⟩ | ⟨-, -, hstore⟩
      all_goals rw [hstore]
    have hhist : (s.answered id found).history = s.history := by
      simp [Efforts.answered, hnone]
    have hsav : (s.answered id found).saves = s.saves := by
      simp only [Efforts.answered, Efforts.savesAfter, hnone]
      cases found.session.call <;> rfl
    refine ⟨?_, by rw [hhist]; exact hs.rising, ?_, by rw [hsav]; exact hs.once, hheld, hcond⟩
    · rw [hhist, ← hs.stored]
      exact heff
    · rw [hsav]
      change ∀ before wrote, (before, wrote) ∈ s.saves → ∃ generation, before = some generation ∧
        wrote = generation + 1 ∧ ∃ left, found.store.effort = some left ∧
          generation < left.generation
      rw [heff]
      exact hs.saved

lemma Fenced.beside (hs : Fenced secretShaped s) {put : Option Session}
    (hput : ∀ session, put = some session →
      session.Conducted secretShaped ∧ session.calledAt ≤ s.time) :
    Fenced secretShaped (s.setSession id put) := by
  refine ⟨hs.stored, hs.rising, hs.saved, hs.once, hs.held, ?_⟩
  intro other session hoth
  rcases setSession_cases hoth with ⟨-, hsess⟩ | ⟨-, hoth⟩
  · exact hput session hsess
  · exact hs.conducted other session hoth

lemma Fenced.next (hs : Fenced secretShaped s) {move : Move} (hok : unmoved s move = true)
    (hstep : (sessions secretShaped).next s move = some t) : Fenced secretShaped t := by
  cases move with
  | tick time =>
    simp only [sessions] at hstep
    split_ifs at hstep with hlat
    cases hstep
    refine ⟨hs.stored, hs.rising, hs.saved, hs.once, ?_, ?_⟩
    · intro lease hlease hlive
      exact hs.held lease hlease (lt_of_le_of_lt hlat hlive)
    · intro id session hsess
      obtain ⟨hsound, hclock⟩ := hs.conducted id session hsess
      exact ⟨hsound, hclock.trans hlat⟩
  | call id call =>
    simp only [sessions] at hstep
    split at hstep
    · cases hstep
      apply hs.beside
      rintro _ ⟨⟩
      exact ⟨program_conducts call s.time s.ended, le_refl _⟩
    · cases hstep
  | op id works =>
    obtain ⟨found, hask, rfl⟩ := Option.map_eq_some_iff.mp hstep
    exact hs.answered hask hok
  | stop id =>
    simp only [sessions] at hstep
    split at hstep
    · cases hstep
      apply hs.beside
      rintro _ ⟨⟩
    · cases hstep

lemma fenced_first : Fenced secretShaped .first := by
  refine ⟨rfl, .nil, ?_, .nil, ?_, ?_⟩
  · rintro before wrote ⟨⟩
  · rintro lease ⟨⟩
  · rintro id session ⟨⟩

/-- Where each file is as the call read it when it is overwritten, and no host cuts a lease of
its own short, each save writes the next generation over one that no other save wrote over,
no generation is stored twice, and one host at a time has a lease. -/
theorem one_writer
    (h : (sessions secretShaped).Reach (fun s move => unmoved s move = true) s) :
    (∀ before wrote, (before, wrote) ∈ s.saves →
      ∃ generation, before = some generation ∧ wrote = generation + 1) ∧
    (s.saves.map Prod.fst).Nodup ∧ (s.history.map (·.generation)).Nodup ∧
    ∀ a ∈ s.holds, ∀ b ∈ s.holds, s.time < a.expiresAt → s.time < b.expiresAt →
      a.host = b.host := by
  have hs : Fenced secretShaped s := by
    apply h.inv
    · rintro _ rfl
      exact fenced_first
    · intro s move t hs hok hstep
      exact hs.next hok hstep
  refine ⟨?_, hs.once, hs.rising.imp fun hlt => Nat.ne_of_lt hlt, ?_⟩
  · intro before wrote hsave
    obtain ⟨generation, hover, hwrote, -⟩ := hs.saved before wrote hsave
    exact ⟨generation, hover, hwrote⟩
  · intro a ha b hb hlive hlive'
    obtain ⟨found, hfound, hhost, -⟩ := hs.held a ha hlive
    obtain ⟨found', hfound', hhost', -⟩ := hs.held b hb hlive'
    rw [hfound] at hfound'
    cases hfound'
    rw [← hhost, hhost']

end

section

def plainEffort : EffortRecord :=
  ⟨['e'], ['n'], ['i'], .inbox, 1, 0, 0, none, none, none⟩

def startedAlone : List Move :=
  .call 0 (.start ['i'] ['e']) :: List.replicate 3 (.op 0 true)

def comparedTwice : List Move :=
  startedAlone ++
    [Move.call 1 (.save plainEffort), .call 2 (.save plainEffort), .op 1 true, .op 2 true] ++
    List.replicate 3 (Move.op 1 true) ++ List.replicate 3 (Move.op 2 true)

/-- Both sessions compare before either renames, and the second save takes the first's place. -/
theorem second_save_overwrites : ¬ ∀ (secretShaped : Text → Bool) (s : Efforts),
    (sessions secretShaped).Reach anyStep s → ∀ before wrote, (before, wrote) ∈ s.saves →
      ∃ generation, before = some generation ∧ wrote = generation + 1 := by
  intro hall
  obtain ⟨s, hreach, hsav⟩ : ∃ s, (sessions fun _ => false).Reach anyStep s ∧
      s.saves = [(some 1, 2), (some 2, 2)] :=
    ⟨_, ⟨.first, comparedTwice, rfl, Machine.run_of_exec rfl⟩, rfl⟩
  obtain ⟨generation, hover, hwrote⟩ := hall _ s hreach (some 2) 2 (by rw [hsav]; decide)
  cases hover
  cases hwrote

/-- Two hosts manage the effort one after the other, the second once the lease has expired. -/
def managedInTurn : List Move :=
  startedAlone ++ Move.call 1 (.manage plainEffort 5 ['h']) :: List.replicate 8 (.op 1 true) ++
    [Move.tick 9,
      Move.call 2 (.manage { plainEffort with lifecycle := .active, generation := 2 } 5 ['g'])] ++
    List.replicate 8 (Move.op 2 true)

theorem managed_once : ∃ s : Efforts, s.saves = [(some 1, 2), (some 2, 3)] ∧
    s.holds.map (·.host) = [['g'], ['h']] ∧ (s.history.map (·.generation)).Nodup ∧
    ∀ a ∈ s.holds, ∀ b ∈ s.holds, s.time < a.expiresAt → s.time < b.expiresAt →
      a.host = b.host := by
  obtain ⟨s, hreach, hsav, hholds⟩ : ∃ s, (sessions fun _ => false).Reach
      (fun s move => unmoved s move = true) s ∧ s.saves = [(some 1, 2), (some 2, 3)] ∧
        s.holds.map (·.host) = [['g'], ['h']] :=
    ⟨_, ⟨.first, managedInTurn, rfl, Machine.run_of_execIf rfl⟩, rfl, rfl⟩
  obtain ⟨-, -, hgener, hhosts⟩ := one_writer hreach
  exact ⟨s, hsav, hholds, hgener, hhosts⟩

end
end Redskilled.Manager
