import Redskilled.Tracker.LeaseExclusion

/-!
# A lease after a crash

Wherever the processes of a host crashed, the one that is left gets the lease by steps of its
own, as long as it recognises its own owner file.
-/
namespace Redskilled.Tracker.IssueLease
open Foundation Foundation.Text

variable {P : Type*} [DecidableEq P] {R : Roster P} {s t : Host P} {p : P} {d : LeaseDir}

/-- Steps in which nobody is lied to lead to a state in which `p` holds the lease. -/
def Gets (R : Roster P) (p : P) (s : Host P) : Prop :=
  ∃ as t, (lease R).Run (Truthful R) s as t ∧ (t.proc p).holds = true

/-- The token of `p` is read back from its owner file. -/
def Roster.ReadsBack (R : Roster P) (p : P) : Prop :=
  readLeaseFileTrimmed (some (ownerFile R p)) = some (R.owner p)

def tokenOf (R : Roster P) (p : P) (token : Text) : TrackerClaimLiveness :=
  if token = R.owner p then .unknown else .dead

def pidOf (R : Roster P) (p : P) (pid : ℕ) : TrackerClaimLiveness :=
  if pid = R.pid p then .unknown else .dead

omit [DecidableEq P] in
lemma truthful_alone (hback : R.ReadsBack p) (halone : ∀ q, (s.proc q).alive = true → q = p) :
    Truthful R s (.advance p (tokenOf R p) (pidOf R p)) := by
  intro q hq
  obtain rfl := halone q hq
  refine ⟨by simp [tokenOf], fun token htok => ?_, by simp [pidOf]⟩
  have hread : readLeaseFileTrimmed (some (ownerFile R q)) = some (R.owner q) := hback
  rw [hread] at htok
  obtain rfl := Option.some.inj htok
  simp [tokenOf]

lemma alone_set {pr : Proc} (halone : ∀ q, (s.proc q).alive = true → q = p) (q : P)
    (hq : ((s.set p pr).proc q).alive = true) : q = p := by
  by_contra hne
  rw [set_proc_ne _ _ hne] at hq
  exact hne (halone q hq)

lemma Gets.of_run {as : List (Step P)} (h : Gets R p t)
    (hrun : (lease R).Run (Truthful R) s as t) : Gets R p s := by
  obtain ⟨bs, u, hrun', hholds⟩ := h
  exact ⟨_, u, hrun.append hrun', hholds⟩

lemma gets_go (halive : (s.proc p).alive = true)
    (hn : advance R s p (fun _ => .unknown) (fun _ => .unknown) = some t) (h : Gets R p t) :
    Gets R p s :=
  h.of_run (run_go halive hn)

lemma gets_held (h : (s.proc p).holds = true) : Gets R p s := ⟨[], s, .nil s, h⟩

lemma gets_created (prev : Option Text) (halive : (s.proc p).alive = true)
    (hp : (s.proc p).phase = .created prev) (hd : s.dir ≠ none) : Gets R p s := by
  obtain ⟨as, t, hrun, -, -, hholds, -⟩ :=
    hold_run (R := R) ⟨halive, Or.inr ⟨prev, Or.inl hp⟩⟩ hd
  exact ⟨as, t, hrun, hholds⟩

lemma gets_reclaim {by' : Text} (halive : (s.proc p).alive = true)
    (hp : (s.proc p).phase = .reclaim by') (hd : s.dir = some d) : Gets R p s := by
  refine gets_go halive (t := s.put p ((s.proc p).goto (.renamed by')) none)
    (by simp [advance, hp, hd]) ?_
  generalize hs' : s.put p ((s.proc p).goto (.renamed by')) none = s'
  have hp' : s'.proc p = (s.proc p).goto (.renamed by') := by rw [← hs', put_proc_self]
  have hd' : s'.dir = none := by rw [← hs', put_dir]
  refine gets_go (t := s'.put p ((s'.proc p).goto (.created (some by'))) (some .blank))
    (by rw [hp']; exact halive) (by simp [advance, hp', Proc.goto, tryMkdir, hd']) ?_
  exact gets_created (some by') (by rw [put_proc_self, hp']; exact halive)
    (by rw [put_proc_self]; rfl) (by rw [put_dir]; exact Option.some_ne_none _)

lemma gets_refresh (halive : (s.proc p).alive = true)
    (hp : (s.proc p).phase = .refreshPid ∨ (s.proc p).phase = .refreshOwner)
    (hd : s.dir = some d) : Gets R p s := by
  rcases hp with hp | hp
  · refine gets_go halive (t := s.put p ((s.proc p).acquired none)
      (some { d with pid := some (pidFile R p) })) (by simp [advance, hp, writeFile, hd]) ?_
    exact gets_held (by rw [put_proc_self]; rfl)
  · refine gets_go halive (t := s.put p ((s.proc p).acquired none)
      (some { d with owner := some (ownerFile R p) })) (by simp [advance, hp, writeFile, hd]) ?_
    exact gets_held (by rw [put_proc_self]; rfl)

omit [DecidableEq P] in
lemma pid_ne (hinv : Inv R s) (hback : R.ReadsBack p) (halive : (s.proc p).alive = true)
    (hp : (s.proc p).phase = .idle) (hd : s.dir = some d)
    (hrec : ¬ Recognises R p (readLeaseOwner (some d)) (readLeasePid (some d))) :
    readLeasePid (some d) ≠ some (R.pid p) := by
  intro hpid
  have hcompl : d ≠ complete R p := by
    rintro rfl
    exact hrec (Or.inl hback)
  have hdir := hinv.dirOk d hd
  cases hf : d.pid with
  | none => simp [readLeasePid, readLeaseFileTrimmed, hf] at hpid
  | some f =>
    obtain ⟨q, rfl⟩ := hdir.pid f hf
    have hq : readLeasePid (some d) = some (R.pid q) := by
      simpa [readLeasePid, hf] using readLeasePid_pidFile (R := R) q none
    obtain rfl := R.pid_inj (Option.some.inj (hq.symm.trans hpid))
    rcases hdir.leftover q halive (Or.inl hf) with hocc | ⟨hc, -⟩
    · have hholds := occupies_holds hocc (by simp [hp])
      exact hcompl (Option.some.inj (hd.symm.trans ((hinv.procOk q halive).holds hholds)))
    · exact hcompl hc

omit [DecidableEq P] in
lemma verdict_dead {o : Option Text} {n : Option ℕ} (ho : o ≠ some (R.owner p))
    (hn : n ≠ some (R.pid p)) : holderLivenessVerdict n o (tokenOf R p) (pidOf R p) = .dead := by
  cases o with
  | none =>
    cases n with
    | none => rfl
    | some n => simp_all [holderLivenessVerdict, pidOf]
  | some o =>
    cases n with
    | none => simp_all [holderLivenessVerdict, tokenOf]
    | some n => simp_all [holderLivenessVerdict, tokenOf, pidOf]

lemma gets_decided {pr : Proc} (halive : pr.alive = true) (hd : s.dir = some d)
    (hpid : ¬ Recognises R p (readLeaseOwner (some d)) (readLeasePid (some d)) →
      readLeasePid (some d) ≠ some (R.pid p)) :
    Gets R p (s.set p (decideHeld R pr p (readLeaseOwner (some d)) (readLeasePid (some d))
      (tokenOf R p) (pidOf R p))) := by
  unfold decideHeld
  split_ifs with hrec
  · exact gets_refresh (by rw [set_proc_self]; exact halive)
      (Or.inl (by rw [set_proc_self]; rfl)) hd
  · exact gets_refresh (by rw [set_proc_self]; exact halive)
      (Or.inr (by rw [set_proc_self]; rfl)) hd
  · exact gets_held (by rw [set_proc_self]; rfl)
  · rw [verdict_dead (fun ho => hrec (Or.inl ho)) (hpid hrec)]
    exact gets_reclaim (by rw [set_proc_self]; exact halive) (by rw [set_proc_self]; rfl) hd

lemma gets_ownerRead (hback : R.ReadsBack p) (halone : ∀ q, (s.proc q).alive = true → q = p)
    (halive : (s.proc p).alive = true)
    (hp : (s.proc p).phase = .ownerRead (readLeaseOwner (some d))) (hd : s.dir = some d)
    (hpid : ¬ Recognises R p (readLeaseOwner (some d)) (readLeasePid (some d)) →
      readLeasePid (some d) ≠ some (R.pid p)) : Gets R p s := by
  refine (gets_decided halive hd hpid).of_run (.single (truthful_alone hback halone) ?_)
  show next R s (.advance p (tokenOf R p) (pidOf R p)) = _
  simp only [next, if_pos halive, advance, hp, hd]

lemma gets_inside (hback : R.ReadsBack p) (halone : ∀ q, (s.proc q).alive = true → q = p)
    (halive : (s.proc p).alive = true) (hp : (s.proc p).phase = .held) (hd : s.dir = some d)
    (hpid : ¬ Recognises R p (readLeaseOwner (some d)) (readLeasePid (some d)) →
      readLeasePid (some d) ≠ some (R.pid p)) : Gets R p s := by
  refine gets_go (t := s.set p ((s.proc p).goto (.ownerRead (readLeaseOwner (some d))))) halive
    (by simp only [advance, hp, hd]) ?_
  exact gets_ownerRead hback (alone_set halone) (by rw [set_proc_self]; exact halive)
    (by rw [set_proc_self]; rfl) hd hpid

/-- Wherever the processes of a run crashed, the last one gets the lease by steps of its own. -/
theorem last_one_gets (halias : R.NoAlias) (h : (lease R).Reach (Guarded R) s)
    (hback : R.ReadsBack p) (hidle : (s.proc p).alive = true ∧ (s.proc p).phase = .idle)
    (halone : ∀ q, (s.proc q).alive = true → q = p) : Gets R p s := by
  have hinv := inv_of_reach halias h
  have hacq : (lease R).Run (Truthful R) s [.acquire p]
      (tryMkdir s p ((s.proc p).goto (.created none)) ((s.proc p).goto .held)) := by
    refine .single trivial ?_
    show next R s (.acquire p) = _
    rw [next, if_pos hidle]
  refine Gets.of_run ?_ hacq
  obtain ⟨halive, hp⟩ := hidle
  cases hd : s.dir with
  | none =>
    simp only [tryMkdir, hd]
    exact gets_created none (by rw [put_proc_self]; exact halive)
      (by rw [put_proc_self]; rfl) (by rw [put_dir]; exact Option.some_ne_none _)
  | some d =>
    simp only [tryMkdir, hd]
    exact gets_inside hback (alone_set halone) (by rw [set_proc_self]; exact halive)
      (by rw [set_proc_self]; rfl) hd (pid_ne hinv hback halive hp hd)

def crashedInside : List (Step Trio) :=
  [.acquire .two, go .two, told .two, go .two, go .two, .crash .two]

/-- The dir of the dead holder is replaced by a blank one, whose maker crashes too. -/
theorem last_of_trio : ∃ s : Host Trio,
    (s.proc .two).phase = .created (some "host:gone".toList) ∧ Gets trio .one s := by
  have hrun : ((lease trio).execIf (fun s a => decide (Truthful trio s a ∧ NoSteal s a)) stale
      crashedInside).map (fun s => ((s.proc .two).phase, s.proc .one,
        (s.proc .two).alive, (s.proc .gone).alive)) =
      some (.created (some "host:gone".toList), fresh, false, false) := by
    decide +kernel
  obtain ⟨s, hs, hfacts⟩ := Option.map_eq_some_iff.mp hrun
  simp only [Prod.mk.injEq] at hfacts
  obtain ⟨htwo, hone, hdead, hgone⟩ := hfacts
  have hreach : (lease trio).Reach (Guarded trio) s :=
    ⟨stale, _, start_stale, (Machine.run_of_execIf hs).mono fun _ _ => of_decide_eq_true⟩
  refine ⟨s, htwo, last_one_gets noAlias_trio hreach rfl (by rw [hone]; exact ⟨rfl, rfl⟩) ?_⟩
  intro q hq
  cases q with
  | one => rfl
  | two => exact absurd (hdead.symm.trans hq) nofun
  | gone => exact absurd (hgone.symm.trans hq) nofun

end Redskilled.Tracker.IssueLease
