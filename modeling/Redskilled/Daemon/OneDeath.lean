import Redskilled.Daemon.Teardown

/-!
# One Worker, one death

As long as every path that ends a Worker finds it still held when its answer comes,
and nothing is adopted that has ended, each recorded birth is followed by at most one
recorded end. A held Worker has not been recorded as ended since its birth: that is
what each step keeps.
-/
namespace Redskilled.Daemon.Teardown
open Foundation Lane Lifetimes

structure Inv (d : State) : Prop where
  oneDeath : OneDeath d
  keyed : ∀ workerId worker, d.workers.lookup workerId = some worker → worker.workerId = workerId
  held : d.stopping = false → ∀ workerId ∈ d.workers, Unclosed mark workerId d.lane

variable {d t : State}

lemma Inv.of_start (h : daemon.start d) : Inv d := by
  obtain ⟨hone, hheld, -⟩ := h
  refine ⟨hone, fun id worker hw => (hheld id worker hw).1, fun _ id hid => ?_⟩
  obtain ⟨worker, hwork⟩ := JsMap.mem_iff_lookup.mp hid
  exact (hheld id worker hwork).2

lemma keyed_set {m : JsMap Text Worker} {worker : Worker}
    (h : ∀ id w, m.lookup id = some w → w.workerId = id) :
    ∀ id w, (m.set worker.workerId worker).lookup id = some w → w.workerId = id := by
  intro id w hw
  rw [JsMap.lookup_set] at hw
  split_ifs at hw with hid
  · rw [← Option.some.inj hw, hid]
  · exact h id w hw

lemma keyed_erase {m : JsMap Text Worker} {workerId : Text}
    (h : ∀ id w, m.lookup id = some w → w.workerId = id) :
    ∀ id w, (m.erase workerId).lookup id = some w → w.workerId = id := by
  intro id w hw
  rw [JsMap.lookup_erase_eq] at hw
  split_ifs at hw
  exact h id w hw

lemma Inv.quiet (h : Inv d) (hworkers : t.workers = d.workers) {notes : List Entry}
    (hlane : t.lane = d.lane ++ notes) (hnotes : ∀ e ∈ notes, mark e = .other)
    (hstopping : d.stopping → t.stopping) : Inv t := by
  refine ⟨?_, ?_, ?_⟩
  · rw [OneDeath, hlane]
    exact ClosedOnce.append h.oneDeath hnotes
  · rw [hworkers]
    exact h.keyed
  · intro hruns id hid
    rw [hworkers] at hid
    rw [hlane]
    refine (h.held ?_ id hid).append hnotes
    by_contra hstops
    rw [hstopping (by simpa using hstops)] at hruns
    cases hruns

lemma Inv.starts (h : Inv d) {worker : Worker}
    (hworkers : t.workers = d.workers.set worker.workerId worker)
    (hlane : t.lane = if d.stopping then d.lane else d.lane ++ [(.workerBirth, worker.workerId)])
    (hstopping : t.stopping = d.stopping) : Inv t := by
  have hkeyed : ∀ id w, t.workers.lookup id = some w → w.workerId = id := by
    rw [hworkers]
    exact keyed_set h.keyed
  cases hstops : d.stopping with
  | true =>
    rw [hstops, if_pos rfl] at hlane
    refine ⟨?_, hkeyed, ?_⟩
    · rw [OneDeath, hlane]
      exact h.oneDeath
    · rw [hstopping, hstops]
      exact nofun
  | false =>
    rw [hstops, if_neg (by simp)] at hlane
    refine ⟨?_, hkeyed, ?_⟩
    · rw [OneDeath, hlane]
      apply h.oneDeath.concat
      intro k hclos
      cases hclos
    · intro _ id hid
      rw [hworkers] at hid
      rw [hlane]
      rcases JsMap.mem_set.mp hid with rfl | hid
      · exact unclosed_of_opens rfl
      · exact (h.held hstops id hid).concat nofun

lemma Inv.adopts (h : Inv d) {worker : Worker} (huncl : Unclosed mark worker.workerId d.lane)
    (hworkers : t.workers = d.workers.set worker.workerId worker) (hlane : t.lane = d.lane)
    (hstopping : t.stopping = d.stopping) : Inv t := by
  refine ⟨?_, ?_, ?_⟩
  · rw [OneDeath, hlane]
    exact h.oneDeath
  · rw [hworkers]
    exact keyed_set h.keyed
  · intro hruns id hid
    rw [hworkers] at hid
    rw [hlane]
    rcases JsMap.mem_set.mp hid with rfl | hid
    · exact huncl
    · exact h.held (hstopping ▸ hruns) id hid

lemma Inv.ends (h : Inv d) {workerId : Text} {kind : EndKind} (hheld : workerId ∈ d.workers)
    (hworkers : t.workers = d.workers.erase workerId)
    (hlane : t.lane = if d.stopping then d.lane else d.lane ++ [(kind.eventKind, workerId)])
    (hstopping : t.stopping = d.stopping) : Inv t := by
  have hkeyed : ∀ id w, t.workers.lookup id = some w → w.workerId = id := by
    rw [hworkers]
    exact keyed_erase h.keyed
  have hmark := mark_eventKind kind workerId
  cases hstops : d.stopping with
  | true =>
    rw [hstops, if_pos rfl] at hlane
    refine ⟨?_, hkeyed, ?_⟩
    · rw [OneDeath, hlane]
      exact h.oneDeath
    · rw [hstopping, hstops]
      exact nofun
  | false =>
    rw [hstops, if_neg (by simp)] at hlane
    refine ⟨?_, hkeyed, ?_⟩
    · rw [OneDeath, hlane]
      apply h.oneDeath.concat
      intro k hclos
      obtain rfl := Mark.closes.inj (hmark.symm.trans hclos)
      exact h.held hstops _ hheld
    · intro _ id hid
      rw [hworkers, AList.mem_erase] at hid
      rw [hlane]
      apply (h.held hstops id hid.2).concat
      rw [hmark]
      exact fun hsame => hid.1 (Mark.closes.inj hsame).symm

lemma Inv.step (h : Inv d) {a : Step} (hguard : StillHeld d a) (hnext : next d a = some t) :
    Inv t := by
  cases next_effect h.keyed hnext with
  | quiet hworkers notes hlane hnotes hstopping => exact h.quiet hworkers hlane hnotes hstopping
  | starts worker hworkers hlane hstopping => exact h.starts hworkers hlane hstopping
  | adopts worker hadopts hworkers hlane hstopping =>
    exact h.adopts (hguard.2 worker hadopts) hworkers hlane hstopping
  | ends workerId kind hheld hworkers hlane hstopping =>
    refine h.ends ?_ hworkers hlane hstopping
    rcases hheld with hheld | ⟨worker, hsettl, rfl⟩
    · exact hheld
    · exact hguard.1 worker hsettl

/-- In a run in which whatever is settled is still held and whatever is adopted has
not ended, each birth has at most one death. -/
theorem one_death (h : daemon.Reach StillHeld d) : OneDeath d :=
  (Machine.Reach.inv Inv (fun _ => Inv.of_start) (fun _ _ _ hd hok hn => hd.step hok hn) h).oneDeath

section

def atBoot : State := ⟨∅, [], [], ∅, [], [], [], false⟩

lemma start_atBoot : daemon.start atBoot := by
  refine ⟨closedOnce_nil, ?_, rfl, rfl, rfl, rfl, rfl, rfl⟩
  intro workerId worker hwork
  cases hwork

theorem one_death_of_stop : ∃ d, daemon.execIf (fun d step => decide (StillHeld d step)) atBoot
        [.start ⟨['a'], none, none⟩, .stop ['a'], .stopAnswer ['a'], .exit ['a']] = some d ∧
      d.lane = [(.workerBirth, ['a']), (.workerDeath, ['a'])] ∧ OneDeath d := by
  have hrun : (daemon.execIf (fun d step => decide (StillHeld d step)) atBoot
      [.start ⟨['a'], none, none⟩, .stop ['a'], .stopAnswer ['a'], .exit ['a']]).map State.lane =
        some [(.workerBirth, ['a']), (.workerDeath, ['a'])] := by
    decide +kernel
  obtain ⟨d, hd, hlane⟩ := Option.map_eq_some_iff.mp hrun
  have hguarded := (Machine.run_of_execIf hd).mono fun s a h => of_decide_eq_true h
  exact ⟨d, hd, hlane, one_death ⟨atBoot, _, start_atBoot, hguarded⟩⟩

/-- The exit of a stopped Worker is observed while the stop waits for the host. -/
theorem two_deaths : ∃ d, daemon.Reach anyStep d ∧ ¬OneDeath d ∧
      d.lane = [(.workerBirth, ['a']), (.workerDeath, ['a']), (.workerDeath, ['a'])] := by
  have hrun : (daemon.exec atBoot
      [.start ⟨['a'], none, none⟩, .stop ['a'], .exit ['a'], .exitAnswer false,
        .exitAnswer false, .stopAnswer ['a']]).map State.lane =
        some [(.workerBirth, ['a']), (.workerDeath, ['a']), (.workerDeath, ['a'])] := by
    decide +kernel
  obtain ⟨d, hd, hlane⟩ := Option.map_eq_some_iff.mp hrun
  refine ⟨d, Machine.reach_of_exec start_atBoot hd, ?_, hlane⟩
  intro hone
  have htwo := hone ['a'] [] (.workerBirth, ['a']) [(.workerDeath, ['a']), (.workerDeath, ['a'])]
    [] (by rw [hlane]; rfl) rfl (by simp [mark])
  revert htwo
  decide

end
end Redskilled.Daemon.Teardown
