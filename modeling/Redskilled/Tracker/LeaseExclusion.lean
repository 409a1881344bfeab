import Redskilled.Tracker.IssueLease

/-!
# Exclusion by the local lease

Two reclaimers that both saw the dead holder can end up holding one after the
other's rename: the second rename takes the dir the first has just made. The
lease is exclusive in every run in which a dir is renamed away only while no
live process occupies it, provided no owner token reads back from its file as
the token of another process.
-/
namespace Redskilled.Tracker.IssueLease
open Foundation Foundation.Text

section
variable {P : Type*} {R : Roster P}

def Marks (R : Roster P) (d : LeaseDir) (p : P) : Prop :=
  d.pid = some (pidFile R p) ∨ d.owner = some (ownerFile R p)

lemma marks_blank (p : P) : ¬ Marks R .blank p := by
  rintro (h | h)
  · cases h
  · cases h

lemma marks_complete {p q : P} (h : Marks R (complete R p) q) : q = p := by
  rcases h with h | h
  · exact (pidFile_inj (Option.some.inj h)).symm
  · exact (ownerFile_inj (Option.some.inj h)).symm

/-- What is known of a process in each phase. -/
def Phase.Ok (R : Roster P) (dir : Option LeaseDir) (p : P) (holds : Bool) : Phase → Prop
  | .created _ => dir = some .blank
  | .pidWritten _ => dir = some { pid := some (pidFile R p), owner := none }
  | .ownerRead o | .releaseOwnerRead o => (o = some (R.owner p) → holds = true) ∧
      (dir = some (complete R p) → o = readLeaseOwner dir)
  | .refreshPid | .refreshOwner | .removing => holds = true
  | .reclaim _ | .renamed _ => holds = false
  | .idle | .held | .releasing => True

/-- What is known of a live process from its own phase and the lease dir. -/
structure Proc.Ok (R : Roster P) (dir : Option LeaseDir) (p : P) (pr : Proc) : Prop where
  holds : pr.holds = true → dir = some (complete R p)
  phase : pr.phase.Ok R dir p pr.holds

/-- The lease dir is blank or holds files that processes wrote; those of a live
process are there because it occupies the lease, or because its token reads
back otherwise and its release left them. -/
structure DirOk (R : Roster P) (d : LeaseDir) (proc : P → Proc) : Prop where
  pid : ∀ f ∈ d.pid, ∃ q, f = pidFile R q
  owner : ∀ f ∈ d.owner, ∃ q, f = ownerFile R q
  leftover : ∀ p, (proc p).alive = true → Marks R d p → (proc p).Occupies ∨
    d = complete R p ∧ ¬ Recognises R p (readLeaseOwner (some (complete R p))) (some (R.pid p))

structure Inv (R : Roster P) (s : Host P) : Prop where
  sole : ∀ p q, (s.proc p).Occupies → (s.proc q).Occupies → p = q
  dirOk : ∀ d, s.dir = some d → DirOk R d s.proc
  procOk : ∀ p, (s.proc p).alive = true → (s.proc p).Ok R s.dir p

lemma Proc.Ok.present {dir : Option LeaseDir} {p : P} {pr : Proc} (h : pr.Ok R dir p)
    (hocc : pr.Occupies) : dir ≠ none := by
  obtain ⟨-, hh | ⟨prev, hp | hp⟩⟩ := hocc
  · simp [h.holds hh]
  · have hphase := h.phase
    rw [hp] at hphase
    exact fun hd => nomatch hd.symm.trans hphase
  · have hphase := h.phase
    rw [hp] at hphase
    exact fun hd => nomatch hd.symm.trans hphase

/-- A process outside the lease does not mind what becomes of the dir, as long
as its own lease does not turn up in it. -/
lemma Proc.Ok.frame {dir dir' : Option LeaseDir} {p : P} {pr : Proc} (h : pr.Ok R dir p)
    (halive : pr.alive = true) (hocc : ¬ pr.Occupies) (hdir : dir' ≠ some (complete R p)) :
    pr.Ok R dir' p := by
  refine ⟨fun hh => absurd ⟨halive, Or.inl hh⟩ hocc, ?_⟩
  have hphase := h.phase
  cases hp : pr.phase with
  | created prev => exact absurd ⟨halive, Or.inr ⟨prev, Or.inl hp⟩⟩ hocc
  | pidWritten prev => exact absurd ⟨halive, Or.inr ⟨prev, Or.inr hp⟩⟩ hocc
  | ownerRead o =>
    rw [hp] at hphase
    exact ⟨hphase.1, fun hd => absurd hd hdir⟩
  | releaseOwnerRead o =>
    rw [hp] at hphase
    exact ⟨hphase.1, fun hd => absurd hd hdir⟩
  | _ =>
    rw [hp] at hphase
    exact hphase

variable [DecidableEq P]

@[simp] lemma set_proc_self (s : Host P) (p : P) (pr : Proc) : (s.set p pr).proc p = pr :=
  Function.update_self ..

lemma set_proc_ne (s : Host P) (pr : Proc) {p q : P} (h : q ≠ p) :
    (s.set p pr).proc q = s.proc q := Function.update_of_ne h ..

@[simp] lemma put_dir (s : Host P) (p : P) (pr : Proc) (dir : Option LeaseDir) :
    (s.put p pr dir).dir = dir := rfl

@[simp] lemma put_proc_self (s : Host P) (p : P) (pr : Proc) (dir : Option LeaseDir) :
    (s.put p pr dir).proc p = pr := Function.update_self ..

lemma put_proc_ne (s : Host P) (pr : Proc) (dir : Option LeaseDir) {p q : P} (h : q ≠ p) :
    (s.put p pr dir).proc q = s.proc q := Function.update_of_ne h ..

lemma Inv.set {s : Host P} (h : Inv R s) {p : P} {pr : Proc}
    (hok : pr.alive = true → pr.Ok R s.dir p)
    (hocc : pr.Occupies → (s.proc p).Occupies)
    (hleft : ∀ d, s.dir = some d → pr.alive = true → Marks R d p → pr.Occupies ∨ d = complete R p ∧
        ¬ Recognises R p (readLeaseOwner (some (complete R p))) (some (R.pid p))) :
    Inv R (s.set p pr) := by
  have hocc' : ∀ q, ((s.set p pr).proc q).Occupies → (s.proc q).Occupies := by
    intro q hq
    by_cases hqp : q = p
    · subst hqp
      rw [set_proc_self] at hq
      exact hocc hq
    · rwa [set_proc_ne s pr hqp] at hq
  refine ⟨fun q r hq hr => h.sole q r (hocc' q hq) (hocc' r hr), fun d hd => ?_, fun q hq => ?_⟩
  · obtain ⟨hpid, howner, hl⟩ := h.dirOk d hd
    refine ⟨hpid, howner, fun q hq hm => ?_⟩
    by_cases hqp : q = p
    · subst hqp
      rw [set_proc_self] at hq ⊢
      exact hleft d hd hq hm
    · rw [set_proc_ne s pr hqp] at hq ⊢
      exact hl q hq hm
  · by_cases hqp : q = p
    · subst hqp
      rw [set_proc_self] at hq ⊢
      exact hok hq
    · rw [set_proc_ne s pr hqp] at hq ⊢
      exact h.procOk q hq

lemma Inv.put {s : Host P} (h : Inv R s) {p : P} {pr : Proc} {dir' : Option LeaseDir}
    (hoth : ∀ q, q ≠ p → ¬ (s.proc q).Occupies)
    (hok : pr.alive = true → pr.Ok R dir' p)
    (hdir : ∀ d, dir' = some d → (∀ f ∈ d.pid, ∃ q, f = pidFile R q) ∧
      (∀ f ∈ d.owner, ∃ q, f = ownerFile R q) ∧ ∀ q, Marks R d q → q = p ∧ pr.Occupies) :
    Inv R (s.put p pr dir') := by
  have hself : ∀ q, ((s.put p pr dir').proc q).Occupies → q = p := by
    intro q hq
    by_contra hqp
    rw [put_proc_ne s pr dir' hqp] at hq
    exact hoth q hqp hq
  refine ⟨fun q r hq hr => (hself q hq).trans (hself r hr).symm, fun d hd => ?_, fun q hq => ?_⟩
  · obtain ⟨hpid, howner, hm⟩ := hdir d hd
    refine ⟨hpid, howner, fun q _ hmq => Or.inl ?_⟩
    obtain ⟨rfl, hocc⟩ := hm q hmq
    simpa using hocc
  · by_cases hqp : q = p
    · subst hqp
      simp only [put_proc_self] at hq ⊢
      exact hok hq
    · simp only [put_proc_ne s pr dir' hqp] at hq ⊢
      refine (h.procOk q hq).frame hq (hoth q hqp) fun hd => hqp ?_
      exact ((hdir _ hd).2.2 q (Or.inl rfl)).1

omit [DecidableEq P] in
lemma occupies_holds {pr : Proc} (h : pr.Occupies)
    (hphase : ∀ prev, pr.phase ≠ .created prev ∧ pr.phase ≠ .pidWritten prev) :
    pr.holds = true := by
  obtain ⟨-, hh | ⟨prev, hp | hp⟩⟩ := h
  · exact hh
  · exact absurd hp (hphase prev).1
  · exact absurd hp (hphase prev).2

omit [DecidableEq P] in
lemma Inv.read_own {s : Host P} (h : Inv R s) (halias : R.NoAlias) {p : P}
    (halive : (s.proc p).alive = true)
    (hphase : (s.proc p).phase = .held ∨ (s.proc p).phase = .releasing)
    (hread : readLeaseOwner s.dir = some (R.owner p)) : (s.proc p).holds = true := by
  cases hd : s.dir with
  | none => simp [hd, readLeaseOwner, readLeaseFileTrimmed] at hread
  | some d =>
    rw [hd] at hread
    have hok := h.dirOk d hd
    cases hf : d.owner with
    | none => simp [readLeaseOwner, readLeaseFileTrimmed, hf] at hread
    | some f =>
      obtain ⟨q, rfl⟩ := hok.owner f hf
      have hq : q = p := halias q p (by simpa [readLeaseOwner, hf] using hread)
      subst hq
      rcases hok.leftover q halive (Or.inr hf) with hocc | ⟨rfl, hrec⟩
      · refine occupies_holds hocc fun prev => ?_
        rcases hphase with hp | hp <;> simp [hp]
      · exact absurd hread (not_recognises_complete hrec).2

omit [DecidableEq P] in
lemma Inv.recognised_holds {s : Host P} (h : Inv R s) {p : P} {o : Option Text}
    (halive : (s.proc p).alive = true)
    (hphase : (s.proc p).phase = .ownerRead o ∨ (s.proc p).phase = .releaseOwnerRead o)
    (hrec : Recognises R p o (readLeasePid s.dir)) : (s.proc p).holds = true := by
  have hreadi : (o = some (R.owner p) → (s.proc p).holds = true) ∧
      (s.dir = some (complete R p) → o = readLeaseOwner s.dir) := by
    have hok := (h.procOk p halive).phase
    rcases hphase with hp | hp <;> rw [hp] at hok <;> exact hok
  obtain ⟨hown, hcompl⟩ := hreadi
  rcases hrec with hrec | ⟨hnone, hpid⟩
  · exact hown hrec
  · cases hd : s.dir with
    | none => simp [hd, readLeasePid, readLeaseFileTrimmed] at hpid
    | some d =>
      rw [hd] at hpid
      have hok := h.dirOk d hd
      obtain ⟨pid, owner⟩ := d
      cases pid with
      | none => simp [readLeasePid, readLeaseFileTrimmed] at hpid
      | some f =>
        obtain ⟨q, rfl⟩ := hok.pid f rfl
        rw [readLeasePid_pidFile] at hpid
        obtain rfl : q = p := R.pid_inj (Option.some.inj hpid)
        rcases hok.leftover q halive (Or.inl rfl) with hocc | ⟨hc, hrec⟩
        · refine occupies_holds hocc fun prev => ?_
          rcases hphase with hp | hp <;> simp [hp]
        · have hread := hcompl (hd.trans (congrArg some hc))
          rw [hd, hc, hnone] at hread
          exact absurd hread.symm (not_recognises_complete hrec).1

lemma Inv.setSame {s : Host P} (h : Inv R s) {p : P} {pr : Proc}
    (halive : pr.alive = (s.proc p).alive) (hok : pr.alive = true → pr.Ok R s.dir p)
    (hocc : pr.Occupies ↔ (s.proc p).Occupies) : Inv R (s.set p pr) :=
  h.set hok hocc.mp fun d hd ha hm =>
    ((h.dirOk d hd).leftover p (halive ▸ ha) hm).imp_left hocc.mpr

end

section
variable {P : Type*} [DecidableEq P] {R : Roster P} {s : Host P} {p : P}

lemma inv_tryMkdir (h : Inv R s) {won lost : Proc} {prev : Option Text}
    (halive : (s.proc p).alive = true) (hwon : won = (s.proc p).goto (.created prev))
    (hlost : s.dir ≠ none → Inv R (s.set p lost)) : Inv R (tryMkdir s p won lost) := by
  unfold tryMkdir
  cases hd : s.dir with
  | none =>
    have hfree : ∀ q, ¬ (s.proc q).Occupies := fun q hq =>
      (h.procOk q hq.1).present hq hd
    have hocc : won.Occupies := by
      subst hwon
      exact ⟨halive, Or.inr ⟨prev, Or.inl rfl⟩⟩
    refine h.put (fun q _ => hfree q) (fun _ => ?_) fun d hd' => ?_
    · have hholds : (s.proc p).holds ≠ true := fun hh => hfree p ⟨halive, Or.inl hh⟩
      subst hwon
      exact ⟨fun hh => absurd hh hholds, rfl⟩
    · cases hd'
      exact ⟨by simp [LeaseDir.blank], by simp [LeaseDir.blank],
        fun q hm => absurd hm (marks_blank q)⟩
  | some d => exact hlost (by simp [hd])

lemma inv_writeFile (h : Inv R s) {write : LeaseDir → LeaseDir} {pr : Proc} {d : LeaseDir}
    (hocc : (s.proc p).Occupies) (hocc' : pr.Occupies) (hd : s.dir = some d)
    (hok : pr.Ok R (some (write d)) p)
    (hpid : (write d).pid = some (pidFile R p))
    (howner : (write d).owner = none ∨ (write d).owner = some (ownerFile R p)) :
    Inv R (writeFile s p write pr) := by
  unfold writeFile
  rw [hd]
  refine h.put (fun q hq hocc'' => hq (h.sole q p hocc'' hocc)) (fun _ => hok) fun d' hd' => ?_
  cases hd'
  refine ⟨fun f hf => ⟨p, ?_⟩, fun f hf => ⟨p, ?_⟩, fun q hm => ⟨?_, hocc'⟩⟩
  · rw [hpid] at hf
    exact (Option.some.inj hf).symm
  · rcases howner with ho | ho <;> rw [ho] at hf
    · cases hf
    · exact (Option.some.inj hf).symm
  · rcases hm with hm | hm
    · exact pidFile_inj (Option.some.inj (hm.symm.trans hpid))
    · rcases howner with ho | ho
      · cases hm.symm.trans ho
      · exact ownerFile_inj (Option.some.inj (hm.symm.trans ho))

lemma inv_readOwner (h : Inv R s) (halias : R.NoAlias) (halive : (s.proc p).alive = true)
    (hphase : (s.proc p).phase = .held ∨ (s.proc p).phase = .releasing) {phase : Phase}
    (hnext : phase = .ownerRead (readLeaseOwner s.dir) ∨
      phase = .releaseOwnerRead (readLeaseOwner s.dir)) :
    Inv R (s.set p ((s.proc p).goto phase)) := by
  refine h.setSame rfl (fun _ => ⟨(h.procOk p halive).holds, ?_⟩) ?_
  · have hread := h.read_own halias halive hphase
    rcases hnext with rfl | rfl <;> exact ⟨hread, fun _ => rfl⟩
  · simp only [Proc.Occupies, Proc.goto]
    rcases hnext with rfl | rfl <;> rcases hphase with hp | hp <;> simp [hp]

lemma inv_goto (h : Inv R s) (halive : (s.proc p).alive = true) {pr : Proc}
    (hpr : pr.alive = true) (hholds : pr.holds = (s.proc p).holds)
    (hold : ∀ prev, (s.proc p).phase ≠ .created prev ∧ (s.proc p).phase ≠ .pidWritten prev)
    (hnew : ∀ prev, pr.phase ≠ .created prev ∧ pr.phase ≠ .pidWritten prev)
    (hok : pr.phase.Ok R s.dir p pr.holds) : Inv R (s.set p pr) := by
  refine h.setSame (hpr.trans halive.symm) (fun _ => ⟨fun hh => ?_, hok⟩) ?_
  · exact (h.procOk p halive).holds (hholds ▸ hh)
  · simp only [Proc.Occupies, hpr, halive, hholds, hold, hnew, or_self, exists_const, or_false]

lemma inv_decideHeld (h : Inv R s) (halive : (s.proc p).alive = true) {o : Option Text}
    (hphase : (s.proc p).phase = .ownerRead o) {liveness : Text → TrackerClaimLiveness}
    {pidAlive : Nat → TrackerClaimLiveness}
    (htruth : Truthful R s (.advance p liveness pidAlive)) :
    Inv R (s.set p
      (decideHeld R (s.proc p) p o (readLeasePid s.dir) liveness pidAlive)) := by
  have hold : ∀ prev, (s.proc p).phase ≠ .created prev ∧ (s.proc p).phase ≠ .pidWritten prev := by
    simp [hphase]
  unfold decideHeld
  split_ifs with hrec hpid howner
  · have hh := h.recognised_holds halive (Or.inl hphase) hrec
    exact inv_goto h halive halive rfl hold (by simp [Proc.goto]) hh
  · have hh := h.recognised_holds halive (Or.inl hphase) hrec
    exact inv_goto h halive halive rfl hold (by simp [Proc.goto]) hh
  · have hh := h.recognised_holds halive (Or.inl hphase) hrec
    exact inv_goto h halive halive hh.symm hold (by simp [Proc.acquired]) trivial
  · cases hv : holderLivenessVerdict (readLeasePid s.dir) o liveness pidAlive with
    | alive => exact inv_goto h halive halive rfl hold (by simp [Proc.refused]) trivial
    | unknown => exact inv_goto h halive halive rfl hold (by simp [Proc.refused]) trivial
    | dead =>
      refine inv_goto h halive halive rfl hold (by simp [Proc.goto]) ?_
      -- a holder reads its own lease, and that is not judged dead
      show (s.proc p).holds = false
      by_contra hh
      have hd := (h.procOk p halive).holds (by simpa using hh)
      have hread := (h.procOk p halive).phase
      rw [hphase] at hread
      obtain ⟨-, htok, hpidAl⟩ := htruth p halive
      have ho := hread.2 hd
      rw [hd] at ho hv
      rw [ho, complete, readLeasePid_pidFile] at hv
      exact verdict_complete_ne_dead htok hpidAl hv

lemma inv_advance (h : Inv R s) (halias : R.NoAlias) (halive : (s.proc p).alive = true)
    {liveness : Text → TrackerClaimLiveness} {pidAlive : Nat → TrackerClaimLiveness}
    (htruth : Truthful R s (.advance p liveness pidAlive))
    (hsteal : NoSteal s (.advance p liveness pidAlive)) {t : Host P}
    (hn : advance R s p liveness pidAlive = some t) : Inv R t := by
  have hok := (h.procOk p halive).phase
  have hdir := (h.procOk p halive).holds
  cases hp : (s.proc p).phase with
  | idle => simp [advance, hp] at hn
  | held =>
    simp only [advance, hp, Option.some.injEq] at hn
    exact hn ▸ inv_readOwner h halias halive (Or.inl hp) (Or.inl rfl)
  | ownerRead o =>
    simp only [advance, hp, Option.some.injEq] at hn
    exact hn ▸ inv_decideHeld h halive hp htruth
  | refreshPid =>
    rw [hp] at hok
    simp only [advance, hp, Option.some.injEq] at hn
    subst hn
    exact inv_writeFile h ⟨halive, Or.inl hok⟩ ⟨halive, Or.inl rfl⟩ (hdir hok)
      ⟨fun _ => rfl, trivial⟩ rfl (Or.inr rfl)
  | refreshOwner =>
    rw [hp] at hok
    simp only [advance, hp, Option.some.injEq] at hn
    subst hn
    exact inv_writeFile h ⟨halive, Or.inl hok⟩ ⟨halive, Or.inl rfl⟩ (hdir hok)
      ⟨fun _ => rfl, trivial⟩ rfl (Or.inr rfl)
  | reclaim by' =>
    rw [hp] at hok
    simp only [advance, hp] at hn
    cases hd : s.dir with
    | none =>
      simp only [hd, Option.some.injEq] at hn
      exact hn ▸ inv_goto h halive halive rfl (by simp [hp]) (by simp [Proc.refused]) trivial
    | some d =>
      simp only [hd, Option.some.injEq] at hn
      subst hn
      have hfree := hsteal (by rw [hp]; rfl)
      refine h.put (fun q _ => hfree q) (fun _ => ⟨fun hh => ?_, hok⟩) (by simp)
      exact absurd ⟨halive, Or.inl hh⟩ (hfree p)
  | renamed by' =>
    simp only [advance, hp, Option.some.injEq] at hn
    subst hn
    refine inv_tryMkdir h halive rfl fun _ => ?_
    exact inv_goto h halive halive rfl (by simp [hp]) (by simp [Proc.refused]) trivial
  | created prev =>
    rw [hp] at hok
    simp only [advance, hp, Option.some.injEq] at hn
    subst hn
    refine inv_writeFile h ⟨halive, Or.inr ⟨prev, Or.inl hp⟩⟩
      ⟨halive, Or.inr ⟨prev, Or.inr rfl⟩⟩ hok ⟨fun hh => ?_, rfl⟩ rfl (Or.inl rfl)
    have hblank : LeaseDir.blank = complete R p := Option.some.inj (hok.symm.trans (hdir hh))
    exact absurd (Or.inl rfl : Marks R (complete R p) p) (hblank ▸ marks_blank p)
  | pidWritten prev =>
    rw [hp] at hok
    simp only [advance, hp, Option.some.injEq] at hn
    subst hn
    exact inv_writeFile h ⟨halive, Or.inr ⟨prev, Or.inr hp⟩⟩ ⟨halive, Or.inl rfl⟩ hok
      ⟨fun _ => rfl, trivial⟩ rfl (Or.inr rfl)
  | releasing =>
    simp only [advance, hp, Option.some.injEq] at hn
    exact hn ▸ inv_readOwner h halias halive (Or.inr hp) (Or.inr rfl)
  | releaseOwnerRead o =>
    rw [hp] at hok
    simp only [advance, hp] at hn
    split_ifs at hn with hrec
    · cases hn
      have hh := h.recognised_holds halive (Or.inr hp) hrec
      exact inv_goto h halive halive rfl (by simp [hp]) (by simp [Proc.goto]) hh
    · cases hn
      refine h.set (fun _ => ⟨fun hh => (nomatch hh), trivial⟩) (fun hocc => ?_)
        fun d hd _ hm => Or.inr ?_
      · obtain ⟨-, hh | ⟨prev, hq | hq⟩⟩ := hocc
        · cases hh
        · cases hq
        · cases hq
      · rcases (h.dirOk d hd).leftover p halive hm with hocc | hleft
        · -- it read its own lease and does not recognise it
          have hh := occupies_holds hocc (by simp [hp])
          have hd' := hdir hh
          have ho := hok.2 hd'
          rw [hd'] at ho hrec
          rw [ho, complete, readLeasePid_pidFile] at hrec
          exact ⟨Option.some.inj (hd.symm.trans hd'), hrec⟩
        · exact hleft
  | removing =>
    rw [hp] at hok
    simp only [advance, hp, Option.some.injEq] at hn
    subst hn
    refine h.put (fun q hq hocc => hq (h.sole q p hocc ⟨halive, Or.inl hok⟩))
      (fun _ => ⟨fun hh => (nomatch hh), trivial⟩) (by simp)

lemma inv_step (halias : R.NoAlias) {t : Host P} {a : Step P} (h : Inv R s)
    (htruth : Truthful R s a) (hsteal : NoSteal s a) (hn : next R s a = some t) : Inv R t := by
  cases a with
  | acquire p =>
    simp only [next] at hn
    split_ifs at hn with hp
    cases hn
    refine inv_tryMkdir h hp.1 rfl fun _ => ?_
    exact inv_goto h hp.1 hp.1 rfl (by simp [hp.2]) (by simp [Proc.goto]) trivial
  | release p =>
    simp only [next] at hn
    split_ifs at hn with hp
    cases hd : s.dir with
    | none =>
      simp only [hd, Option.some.injEq] at hn
      subst hn
      refine h.set (fun _ => ⟨fun hh => (nomatch hh), trivial⟩) (fun hocc => ?_) (by simp [hd])
      obtain ⟨-, hh | ⟨prev, hq | hq⟩⟩ := hocc
      · cases hh
      · cases hq
      · cases hq
    | some d =>
      simp only [hd, Option.some.injEq] at hn
      exact hn ▸ inv_goto h hp.1 hp.1 rfl (by simp [hp.2]) (by simp [Proc.goto]) trivial
  | advance p liveness pidAlive =>
    simp only [next] at hn
    split_ifs at hn with hp
    exact inv_advance h halias hp htruth hsteal hn
  | crash p =>
    simp only [next] at hn
    split_ifs at hn with hp
    cases hn
    exact h.set (fun ha => nomatch ha) (fun hocc => nomatch hocc.1) fun _ _ ha => nomatch ha

omit [DecidableEq P] in
lemma inv_start (h : Start R s) : Inv R s := by
  obtain ⟨hproc, hdir⟩ := h
  have hocc : ∀ q, ¬ (s.proc q).Occupies := by
    rintro q ⟨-, hh | ⟨prev, hp | hp⟩⟩
    · rw [(hproc q).2] at hh; cases hh
    · rw [(hproc q).1] at hp; cases hp
    · rw [(hproc q).1] at hp; cases hp
  refine ⟨fun q r hq => absurd hq (hocc q), fun d hd => ?_, fun q hq => ⟨fun hh => ?_, ?_⟩⟩
  · rcases hdir with hdir | hdir | ⟨e, he, hdir⟩
    · cases hd.symm.trans hdir
    · obtain rfl := Option.some.inj (hdir.symm.trans hd)
      exact ⟨by simp [LeaseDir.blank], by simp [LeaseDir.blank],
        fun q _ hm => absurd hm (marks_blank q)⟩
    · obtain rfl := Option.some.inj (hdir.symm.trans hd)
      refine ⟨by simp [complete], by simp [complete], fun q hq hm => ?_⟩
      rw [marks_complete hm, he] at hq
      cases hq
  · rw [(hproc q).2] at hh; cases hh
  · rw [(hproc q).1]; trivial

omit [DecidableEq P] in
lemma Inv.exclusive (h : Inv R s) : Exclusive s := fun p q hp hq hph hqh =>
  h.sole p q ⟨hp, Or.inl hph⟩ ⟨hq, Or.inl hqh⟩

/-- The runs in which nobody is lied to and nobody's dir is stolen. -/
def Guarded (R : Roster P) (s : Host P) (a : Step P) : Prop := Truthful R s a ∧ NoSteal s a

lemma inv_of_reach (halias : R.NoAlias) (h : (lease R).Reach (Guarded R) s) : Inv R s :=
  h.inv (Inv R) (fun _ hs => inv_start hs) fun _ _ _ hs hok hn =>
    inv_step halias hs hok.1 hok.2 hn

def go (p : P) : Step P := .advance p (fun _ => .unknown) fun _ => .unknown

omit [DecidableEq P] in
lemma truthful_go (q : P) : Truthful R s (go q) := fun _ _ =>
  ⟨nofun, fun _ _ => nofun, nofun⟩

lemma run_go {t : Host P} (halive : (s.proc p).alive = true)
    (hn : advance R s p (fun _ => .unknown) (fun _ => .unknown) = some t) :
    (lease R).Run (Truthful R) s [go p] t := by
  refine .single (truthful_go p) ?_
  show next R s (go p) = some t
  rw [go, next, if_pos halive, hn]

lemma advance_pidWritten {d : LeaseDir} {prev : Option Text} (hd : s.dir = some d)
    (hp : (s.proc p).phase = .pidWritten prev) (liveness : Text → TrackerClaimLiveness)
    (pidAlive : Nat → TrackerClaimLiveness) :
    advance R s p liveness pidAlive =
      some (s.put p ((s.proc p).acquired prev) (some { d with owner := some (ownerFile R p) })) := by
  simp [advance, hp, writeFile, hd]

lemma advance_created {d : LeaseDir} {prev : Option Text} (hd : s.dir = some d)
    (hp : (s.proc p).phase = .created prev) (liveness : Text → TrackerClaimLiveness)
    (pidAlive : Nat → TrackerClaimLiveness) :
    advance R s p liveness pidAlive = some (s.put p ((s.proc p).goto (.pidWritten prev))
        (some { d with pid := some (pidFile R p) })) := by
  simp [advance, hp, writeFile, hd]

lemma hold_run_pidWritten (halive : (s.proc p).alive = true) (hdir : s.dir ≠ none)
    {prev : Option Text} (hp : (s.proc p).phase = .pidWritten prev) :
    ∃ as t, (lease R).Run (Truthful R) s as t ∧ t.dir ≠ none ∧ (t.proc p).alive = true ∧
      (t.proc p).holds = true ∧ ∀ q, q ≠ p → t.proc q = s.proc q := by
  obtain ⟨d, hd⟩ := Option.ne_none_iff_exists'.mp hdir
  refine ⟨[go p], _, run_go halive (advance_pidWritten hd hp _ _), nofun, ?_, ?_, ?_⟩
  · rw [put_proc_self]
    exact halive
  · rw [put_proc_self]
    rfl
  · exact fun q hq => put_proc_ne s _ _ hq

/-- A process that occupies the lease ends up holding, with no eye on whose dir
it writes into. -/
lemma hold_run (hocc : (s.proc p).Occupies) (hdir : s.dir ≠ none) :
    ∃ as t, (lease R).Run (Truthful R) s as t ∧ t.dir ≠ none ∧ (t.proc p).alive = true ∧
      (t.proc p).holds = true ∧ ∀ q, q ≠ p → t.proc q = s.proc q := by
  obtain ⟨halive, hh | ⟨prev, hp | hp⟩⟩ := hocc
  · exact ⟨[], s, .nil s, hdir, halive, hh, fun _ _ => rfl⟩
  · obtain ⟨d, hd⟩ := Option.ne_none_iff_exists'.mp hdir
    have hfirst := run_go halive (advance_created (R := R) hd hp _ _)
    generalize hs' : s.put p ((s.proc p).goto (.pidWritten prev)) _ = s' at hfirst
    have hp' : s'.proc p = (s.proc p).goto (.pidWritten prev) := by rw [← hs', put_proc_self]
    obtain ⟨as, t, hrun, hdir', halive', hh, hframe⟩ := @hold_run_pidWritten _ _ R s' p
      (by rw [hp']; exact halive) (by rw [← hs']; nofun) prev (by rw [hp']; rfl)
    refine ⟨_, t, hfirst.append hrun, hdir', halive', hh, fun q hq => ?_⟩
    rw [hframe q hq, ← hs', put_proc_ne s _ _ hq]
  · exact hold_run_pidWritten halive hdir hp

lemma two_run {q : P} (hp : (s.proc p).Occupies) (hq : (s.proc q).Occupies) (hne : q ≠ p)
    (hdir : s.dir ≠ none) :
    ∃ as t, (lease R).Run (Truthful R) s as t ∧ ¬ Exclusive t := by
  obtain ⟨as, t, hrun, hdir', halive, hh, hframe⟩ := hold_run (R := R) hp hdir
  obtain ⟨bs, u, hrun', -, halive', hh', hframe'⟩ := hold_run (R := R) (hframe q hne ▸ hq) hdir'
  refine ⟨_, u, hrun.append hrun', fun hex => hne ?_⟩
  have hup := hframe' p (Ne.symm hne)
  exact hex q p halive' (hup ▸ halive) hh' (hup ▸ hh)

/-- Renaming a dir away that a live process occupies leaves two holders within
reach. -/
lemma steal_run (h : Inv R s) {t : Host P} {a : Step P} (hsteal : ¬ NoSteal s a)
    (hn : next R s a = some t) :
    ∃ as u, (lease R).Run (Truthful R) t as u ∧ ¬ Exclusive u := by
  cases a with
  | advance q liveness pidAlive =>
    simp only [NoSteal, Classical.not_imp, not_forall, not_not] at hsteal
    obtain ⟨hrecl, p, hp⟩ := hsteal
    obtain ⟨by', hq⟩ : ∃ by', (s.proc q).phase = .reclaim by' := by
      cases hphase : (s.proc q).phase with
      | reclaim by' => exact ⟨by', rfl⟩
      | _ => rw [hphase] at hrecl; cases hrecl
    simp only [next] at hn
    split_ifs at hn with halive
    have hok := (h.procOk q halive).phase
    rw [hq] at hok
    have hne : p ≠ q := by
      rintro rfl
      have hh := occupies_holds hp (by simp [hq])
      exact absurd (hok.symm.trans hh) (by decide)
    obtain ⟨d, hd⟩ := Option.ne_none_iff_exists'.mp ((h.procOk p hp.1).present hp)
    simp only [advance, hq, hd, Option.some.injEq] at hn
    have htq : t.proc q = (s.proc q).goto (.renamed by') := by rw [← hn, put_proc_self]
    have htp : t.proc p = s.proc p := by rw [← hn, put_proc_ne s _ _ hne]
    have htd : t.dir = none := by rw [← hn, put_dir]
    -- the reclaimer makes a new dir, and now both occupy it
    have hmkd : advance R t q (fun _ => .unknown) (fun _ => .unknown) =
        some (t.put q ((t.proc q).goto (.created (some by'))) (some .blank)) := by
      simp [advance, htq, tryMkdir, htd, Proc.goto]
    have hrun := run_go (by rw [htq]; exact halive) hmkd
    generalize hu : t.put q ((t.proc q).goto (.created (some by'))) (some .blank) = u at hrun
    have huq : (u.proc q).Occupies := by
      rw [← hu, put_proc_self]
      exact ⟨by rw [htq]; exact halive, Or.inr ⟨some by', Or.inl rfl⟩⟩
    have hup : (u.proc p).Occupies := by
      rw [← hu, put_proc_ne t _ _ hne, htp]
      exact hp
    obtain ⟨as, v, hrun', hex⟩ := two_run (R := R) hup huq (Ne.symm hne) (by rw [← hu]; nofun)
    exact ⟨_, v, hrun.append hrun', hex⟩
  | _ => exact absurd trivial hsteal

lemma reach_go {t : Host P} (h : (lease R).Reach (Guarded R) s)
    (halive : (s.proc p).alive = true) (hphase : (s.proc p).phase.isReclaim = false)
    (hn : advance R s p (fun _ => .unknown) (fun _ => .unknown) = some t) :
    (lease R).Reach (Guarded R) t := by
  have hok : Guarded R s (go p) := ⟨truthful_go p, fun hp => absurd (hphase.symm.trans hp) (by decide)⟩
  refine h.step hok ?_
  show next R s (go p) = some t
  rw [go, next, if_pos halive, hn]

lemma reach_acquire (h : (lease R).Reach (Guarded R) s)
    (hp : (s.proc p).alive = true ∧ (s.proc p).phase = .idle) :
    (lease R).Reach (Guarded R)
      (tryMkdir s p ((s.proc p).goto (.created none)) ((s.proc p).goto .held)) := by
  have hok : Guarded R s (.acquire p) := ⟨trivial, trivial⟩
  refine h.step hok ?_
  show next R s (.acquire p) = _
  rw [next, if_pos hp]

def fresh : Proc := { alive := true, phase := .idle, holds := false, answer := none }

lemma reach_complete (p : P) : ∃ s, (lease R).Reach (Guarded R) s ∧ s.dir = some (complete R p) ∧
      (s.proc p).alive = true ∧ (s.proc p).holds = true ∧ ∀ q, q ≠ p → s.proc q = fresh := by
  let s₀ : Host P := { dir := none, proc := fun _ => fresh }
  let s₁ := s₀.put p (fresh.goto (.created none)) (some .blank)
  let s₂ := s₁.put p (fresh.goto (.pidWritten none)) (some { pid := some (pidFile R p), owner := none })
  let s₃ := s₂.put p (fresh.acquired none) (some (complete R p))
  have hp₁ : s₁.proc p = fresh.goto (.created none) := put_proc_self ..
  have hp₂ : s₂.proc p = fresh.goto (.pidWritten none) := put_proc_self ..
  have hp₃ : s₃.proc p = fresh.acquired none := put_proc_self ..
  have h₀ : (lease R).Reach (Guarded R) s₀ := .of_start ⟨fun _ => ⟨rfl, rfl⟩, Or.inl rfl⟩
  have h₁ : (lease R).Reach (Guarded R) s₁ := reach_acquire (p := p) h₀ ⟨rfl, rfl⟩
  have h₂ : (lease R).Reach (Guarded R) s₂ := by
    refine reach_go (p := p) h₁ (by rw [hp₁]; rfl) (by rw [hp₁]; rfl) ?_
    rw [advance_created (R := R) rfl (by rw [hp₁]; rfl), hp₁]
    rfl
  have h₃ : (lease R).Reach (Guarded R) s₃ := by
    refine reach_go (p := p) h₂ (by rw [hp₂]; rfl) (by rw [hp₂]; rfl) ?_
    rw [advance_pidWritten (R := R) rfl (by rw [hp₂]; rfl), hp₂]
    rfl
  refine ⟨s₃, h₃, rfl, by rw [hp₃]; rfl, by rw [hp₃]; rfl, fun q hq => ?_⟩
  rw [put_proc_ne _ _ _ hq, put_proc_ne _ _ _ hq, put_proc_ne _ _ _ hq]

lemma alias_reach {q : P} (hne : p ≠ q)
    (halias : readLeaseFileTrimmed (some (ownerFile R p)) = some (R.owner q)) :
    ∃ s, (lease R).Reach (Guarded R) s ∧ ¬ Exclusive s := by
  obtain ⟨s₃, h₃, hd, halive, hh, hoth⟩ := reach_complete (R := R) p
  have hq₃ : s₃.proc q = fresh := hoth q (Ne.symm hne)
  let s₄ := s₃.set q (fresh.goto .held)
  let s₅ := s₄.set q (fresh.goto (.ownerRead (some (R.owner q))))
  let s₆ := s₅.set q (fresh.acquired none)
  have hq₄ : s₄.proc q = fresh.goto .held := set_proc_self ..
  have hq₅ : s₅.proc q = fresh.goto (.ownerRead (some (R.owner q))) := set_proc_self ..
  have hq₆ : s₆.proc q = fresh.acquired none := set_proc_self ..
  have hread : readLeaseOwner s₃.dir = some (R.owner q) := by rw [hd]; exact halias
  have hpid : readLeasePid s₃.dir = some (R.pid p) := by rw [hd]; exact readLeasePid_pidFile p _
  have h₄ : (lease R).Reach (Guarded R) s₄ := by
    have h := reach_acquire (p := q) h₃ (by rw [hq₃]; exact ⟨rfl, rfl⟩)
    rwa [tryMkdir, hd, hq₃] at h
  have h₅ : (lease R).Reach (Guarded R) s₅ := by
    refine reach_go (p := q) h₄ (by rw [hq₄]; rfl) (by rw [hq₄]; rfl) ?_
    simp only [advance, hq₄, Proc.goto]
    rw [show readLeaseOwner s₄.dir = some (R.owner q) from hread]
    rfl
  have h₆ : (lease R).Reach (Guarded R) s₆ := by
    refine reach_go (p := q) h₅ (by rw [hq₅]; rfl) (by rw [hq₅]; rfl) ?_
    simp only [advance, hq₅, Proc.goto]
    have hrec : Recognises R q (some (R.owner q)) (some (R.pid p)) := Or.inl rfl
    rw [show readLeasePid s₅.dir = some (R.pid p) from hpid, decideHeld, if_pos hrec,
      if_neg nofun, if_neg nofun]
    rfl
  refine ⟨s₆, h₆, fun hex => hne ?_⟩
  have hp₆ : s₆.proc p = s₃.proc p := by
    rw [set_proc_ne _ _ hne, set_proc_ne _ _ hne, set_proc_ne _ _ hne]
  exact hex p q (by rw [hp₆]; exact halive) (by rw [hq₆]; rfl) (by rw [hp₆]; exact hh)
    (by rw [hq₆]; rfl)

/-- Where no dir is stolen from a live process, at most one live process holds the lease, exactly
when no token reads as another's. -/
theorem exclusive_iff_noSteal (R : Roster P) :
    ((∀ s, (lease R).Reach (Guarded R) s → Exclusive s) ↔ R.NoAlias) ∧
      (R.NoAlias → ∀ s a t, (lease R).Reach (Guarded R) s → Truthful R s a → ¬ NoSteal s a →
        next R s a = some t → ∃ as u, (lease R).Run (Truthful R) t as u ∧ ¬ Exclusive u) := by
  refine ⟨⟨fun h p q halias => ?_, fun halias s hs => (inv_of_reach halias hs).exclusive⟩,
    fun halias s a t hs _ hsteal hn => steal_run (inv_of_reach halias hs) hsteal hn⟩
  by_contra hne
  obtain ⟨s, hs, hex⟩ := alias_reach hne halias
  exact hex (h s hs)

end

section

inductive Trio where
  | gone | one | two
  deriving DecidableEq

instance : Fintype Trio := ⟨{.gone, .one, .two}, by intro p; cases p <;> decide⟩

def trio : Roster Trio where
  owner
    | .gone => "host:gone".toList
    | .one => "host:one".toList
    | .two => "host:two".toList
  pid
    | .gone => 11
    | .one => 12
    | .two => 13
  owner_inj := by unfold Function.Injective; decide
  pid_inj := by unfold Function.Injective; decide
  pid_pos := by decide

instance (s : Host Trio) (a : Step Trio) : Decidable (Truthful trio s a) := by
  cases a <;> unfold Truthful <;> infer_instance

instance (pr : Proc) : Decidable pr.Occupies :=
  decidable_of_iff
    (pr.alive = true ∧ (pr.holds = true ∨ (pr.phase matches .created _ | .pidWritten _) = true)) (by
      unfold Proc.Occupies
      cases pr.phase <;> simp)

instance (s : Host Trio) (a : Step Trio) : Decidable (NoSteal s a) := by
  cases a <;> unfold NoSteal <;> infer_instance

def stale : Host Trio :=
  { dir := some (complete trio .gone)
    proc := fun p => { fresh with alive := p != .gone } }

def told (p : Trio) : Step Trio :=
  .advance p (fun token => if token = trio.owner .gone then .dead else .unknown)
    fun pid => if pid = 11 then .dead else .unknown

def reclaimed : List (Step Trio) :=
  [.acquire .one, .acquire .two, go .one, told .one, go .two, told .two,
    go .one, go .one, go .one, go .one]

def stolen : List (Step Trio) := [go .two, go .two, go .two, go .two]

lemma start_stale : Start trio stale :=
  ⟨fun _ => ⟨rfl, rfl⟩, Or.inr (Or.inr ⟨.gone, rfl, rfl⟩)⟩

/-- Two processes find the owner dead, and the slower renames the lease of the other away. -/
theorem two_reclaimers : ¬ ∀ s, (lease trio).Reach (Truthful trio) s → Exclusive s := by
  intro h
  have hrun : ((lease trio).execIf (fun s a => decide (Truthful trio s a)) stale
      (reclaimed ++ stolen)).map (fun s => (s.proc .one, s.proc .two)) =
      some (fresh.acquired (some "host:gone".toList), fresh.acquired (some "host:gone".toList)) := by
    decide +kernel
  obtain ⟨s, hs, hprocs⟩ := Option.map_eq_some_iff.mp hrun
  obtain ⟨hone, htwo⟩ := Prod.mk.inj hprocs
  have hreach : (lease trio).Reach (Truthful trio) s :=
    ⟨stale, _, start_stale, (Machine.run_of_execIf hs).mono fun _ _ => of_decide_eq_true⟩
  exact absurd (h s hreach .one .two (hone ▸ rfl) (htwo ▸ rfl) (hone ▸ rfl) (htwo ▸ rfl)) nofun

lemma noAlias_trio : trio.NoAlias := by
  unfold Roster.NoAlias
  decide +kernel

/-- One reclaimer alone holds; the other's rename then makes two. -/
theorem exclusive_until_theft : trio.NoAlias ∧ ∃ s, (s.proc .one).holds = true ∧ Exclusive s ∧
      ∃ t as u, next trio s (go .two) = some t ∧ (lease trio).Run (Truthful trio) t as u ∧
        ¬ Exclusive u := by
  have hrun : ((lease trio).execIf (fun s a => decide (Truthful trio s a ∧ NoSteal s a)) stale
      reclaimed).map (fun s => ((s.proc .one).holds, decide (NoSteal s (go .two)),
        (next trio s (go .two)).isSome)) = some (true, false, true) := by
    decide +kernel
  obtain ⟨s, hs, hfacts⟩ := Option.map_eq_some_iff.mp hrun
  simp only [Prod.mk.injEq, decide_eq_false_iff_not] at hfacts
  obtain ⟨hone, hsteal, hnext⟩ := hfacts
  obtain ⟨t, ht⟩ := Option.isSome_iff_exists.mp hnext
  have hreach : (lease trio).Reach (Guarded trio) s :=
    ⟨stale, _, start_stale, (Machine.run_of_execIf hs).mono fun _ _ => of_decide_eq_true⟩
  obtain ⟨hexcl, htheft⟩ := exclusive_iff_noSteal trio
  obtain ⟨as, u, hrun', hex⟩ := htheft noAlias_trio s (go .two) t hreach (truthful_go _) hsteal ht
  exact ⟨noAlias_trio, s, hone, hexcl.mpr noAlias_trio s hreach, t, as, u, ht, hrun', hex⟩

end

end Redskilled.Tracker.IssueLease
