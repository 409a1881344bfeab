import Redskilled.Host.DaemonStart
import Redskilled.Foundation.SoleOwner

/-!
# At most one daemon past the start

Each guard is a slot whose record names its owner: the claim file, the lease
file, the listening socket. A guard that is only ever emptied while its owner is
gone keeps every process but one out, so a run in which one of the three is
never robbed has at most one bound daemon.
-/
namespace Redskilled.Host.DaemonStart
open Foundation Option

@[simp] lemma goto_proc_self (s : State) (p : Nat) (phase : Phase) :
    (s.goto p phase).proc p = { s.proc p with phase } := Function.update_self ..

lemma goto_proc_ne (s : State) (phase : Phase) {p q : Nat} (h : q ≠ p) :
    (s.goto p phase).proc q = s.proc q := Function.update_of_ne h ..

section
variable {site : Site} {s t : State} {p : Nat} {outside : Outside}

/-- What one operation of `p` can do: go on, create or unlink one of the three
files, each from the phases that do so. -/
inductive Effect (s : State) (p : Nat) (outside : Outside) : State → Prop
  | goto (phase : Phase)
      (claim : phase.hasClaim = true → (s.proc p).phase.hasClaim = true ∨
        ∃ c ∈ s.claimFile.read, c.pid = p)
      (lease : phase.hasLease = true → (s.proc p).phase.hasLease = true ∨
        ∃ l ∈ s.leaseFile.read, l.pid = p)
      (unbound : phase ≠ .bound) : Effect s p outside (s.goto p phase)
  | createClaim (c : MachineClaim) (free : s.claimFile = .absent) (own : c.pid = p) :
      Effect s p outside { s.goto p .leasing with claimFile := .record c }
  | createLease (l : Lease) (free : s.leaseFile = .absent) (own : l.pid = p)
      (claim : (s.proc p).phase.hasClaim = true) :
      Effect s p outside { s.goto p (.listening 0) with leaseFile := .record l }
  | bind (free : s.socket = .absent) (claim : (s.proc p).phase.hasClaim = true)
      (lease : (s.proc p).phase.hasLease = true) :
      Effect s p outside { s.goto p .bound with socket := .listening p }
  | unlinkClaim (phase : Phase) (unlinks : (s.proc p).phase.unlinksClaim = true)
      (granted : outside.denied = false) (claim : phase.hasClaim = false)
      (lease : phase.hasLease = false) :
      Effect s p outside { s.goto p phase with claimFile := .absent }
  | unlinkLease (phase : Phase) (unlinks : (s.proc p).phase.unlinksLease = true)
      (claim : phase.hasClaim = true → (s.proc p).phase.hasClaim = true)
      (lease : phase.hasLease = false) :
      Effect s p outside { s.goto p phase with leaseFile := .absent }
  | unlinkSocket (attempt : Nat) (unlinks : (s.proc p).phase = .unlinking attempt) :
      Effect s p outside { s.goto p (.listening (attempt + 1)) with socket := .absent }

lemma Effect.plain {phase : Phase} (h : some (s.goto p phase) = some t)
    (claim : phase.hasClaim = true → (s.proc p).phase.hasClaim = true)
    (lease : phase.hasLease = true → (s.proc p).phase.hasLease = true)
    (unbound : phase ≠ .bound) : Effect s p outside t := by
  cases h
  exact .goto phase (fun h => .inl (claim h)) (fun h => .inl (lease h)) unbound

lemma effect_claiming {round : Nat} (hp : (s.proc p).phase = .claiming round)
    (h : advance site s p outside = some t) : Effect s p outside t := by
  simp only [advance, hp] at h
  split_ifs at h with hd
  · exact .plain h nofun nofun nofun
  · cases hf : s.claimFile with
    | absent =>
      rw [hf] at h
      cases h
      exact .createClaim _ hf rfl
    | unreadable => rw [hf] at h; exact .plain h nofun nofun nofun
    | record c => rw [hf] at h; exact .plain h nofun nofun nofun

lemma effect_claimExists {round : Nat} (hp : (s.proc p).phase = .claimExists round)
    (h : advance site s p outside = some t) : Effect s p outside t := by
  simp only [advance, hp] at h
  cases hf : s.claimFile.read with
  | none => rw [hf] at h; exact .plain h nofun nofun nofun
  | some c =>
    simp only [hf] at h
    split_ifs at h with hown
    · cases h
      refine .goto _ (fun _ => .inr ⟨c, hf, ?_⟩) nofun nofun
      simp only [MachineClaim.belongsTo, Bool.and_eq_true, beq_iff_eq] at hown
      exact hown.1.1
    · exact .plain h nofun nofun nofun

lemma effect_leaseExists (hp : (s.proc p).phase = .leaseExists)
    (h : advance site s p outside = some t) : Effect s p outside t := by
  have hclaim : (s.proc p).phase.hasClaim = true := by rw [hp]; rfl
  simp only [advance, hp] at h
  cases hf : s.leaseFile.read with
  | none => rw [hf] at h; exact .plain h (fun _ => hclaim) nofun nofun
  | some l =>
    simp only [hf] at h
    split_ifs at h with hown
    · cases h
      refine .goto _ (fun _ => .inl hclaim) (fun _ => .inr ⟨l, hf, ?_⟩) nofun
      simp only [Lease.belongsTo, Bool.and_eq_true, beq_iff_eq] at hown
      exact hown.1
    · exact .plain h (fun _ => hclaim) nofun nofun

lemma effect_leasing (hp : (s.proc p).phase = .leasing)
    (h : advance site s p outside = some t) : Effect s p outside t := by
  have hclaim : (s.proc p).phase.hasClaim = true := by rw [hp]; rfl
  simp only [advance, hp] at h
  cases hf : s.leaseFile with
  | absent =>
    rw [hf] at h
    cases h
    exact .createLease _ hf rfl hclaim
  | unreadable => rw [hf] at h; exact .plain h (fun _ => hclaim) nofun nofun
  | record l => rw [hf] at h; exact .plain h (fun _ => hclaim) nofun nofun

lemma effect_listening {attempt : Nat} (hp : (s.proc p).phase = .listening attempt)
    (h : advance site s p outside = some t) : Effect s p outside t := by
  have hclaim : (s.proc p).phase.hasClaim = true := by rw [hp]; rfl
  have hlease : (s.proc p).phase.hasLease = true := by rw [hp]; rfl
  simp only [advance, hp] at h
  split_ifs at h with ha
  · cases hf : s.socket with
    | absent =>
      rw [hf] at h
      cases h
      exact .bind hf hclaim hlease
    | stale => rw [hf] at h; exact .plain h (fun _ => hclaim) (fun _ => hlease) nofun
    | listening q => rw [hf] at h; exact .plain h (fun _ => hclaim) (fun _ => hlease) nofun
  · exact .plain h nofun nofun nofun

lemma effect_advance (h : advance site s p outside = some t) : Effect s p outside t := by
  cases hp : (s.proc p).phase with
  | idle => simp [advance, hp] at h
  | bound => simp [advance, hp] at h
  | failed error => simp [advance, hp] at h
  | claiming round => exact effect_claiming hp h
  | claimExists round => exact effect_claimExists hp h
  | leasing => exact effect_leasing hp h
  | leaseExists => exact effect_leaseExists hp h
  | listening attempt => exact effect_listening hp h
  | preflight lease claim =>
    cases lease <;> cases claim <;> simp only [advance, hp] at h
    all_goals try cases h
    next lease claim =>
      cases lease <;> cases claim <;> simp only at h
      all_goals try split_ifs at h
      all_goals exact .plain h nofun nofun nofun
  | preReleaseLease lease claim =>
    simp only [advance, hp] at h
    split at h
    · split_ifs at h <;> exact .plain h nofun nofun nofun
    · exact .plain h nofun nofun nofun
  | preRemoveLease claim =>
    simp only [advance, hp] at h
    cases h
    exact .unlinkLease _ (by rw [hp]; rfl) nofun rfl
  | preReleaseClaim claim =>
    simp only [advance, hp] at h
    split at h
    · split_ifs at h <;> exact .plain h nofun nofun nofun
    · exact .plain h nofun nofun nofun
  | preRemoveClaim =>
    simp only [advance, hp] at h
    split_ifs at h with hd
    · exact .plain h nofun nofun nofun
    · cases h
      exact .unlinkClaim _ (by rw [hp]; rfl) (by simpa using hd) rfl rfl
  | claimReap round existing =>
    simp only [advance, hp] at h
    split_ifs at h with hd hr
    · exact .plain h nofun nofun nofun
    · cases h
      exact .unlinkClaim _ (by rw [hp]; rfl) (by simpa using hd) rfl rfl
    · cases h
      exact .unlinkClaim _ (by rw [hp]; rfl) (by simpa using hd) rfl rfl
  | leaseLiveness existing =>
    simp only [advance, hp] at h
    split_ifs at h
    · exact .plain h nofun nofun nofun
    · exact .plain h (fun _ => by rw [hp]; rfl) nofun nofun
  | leaseReap =>
    simp only [advance, hp] at h
    cases h
    exact .unlinkLease _ (by rw [hp]; rfl) (fun _ => by rw [hp]; rfl) rfl
  | probing attempt =>
    simp only [advance, hp] at h
    split_ifs at h
    · exact .plain h (fun _ => by rw [hp]; rfl) (fun _ => by rw [hp]; rfl) nofun
    · exact .plain h nofun nofun nofun
  | checking attempt lease claim =>
    cases lease <;> cases claim <;> simp only [advance, hp] at h
    all_goals try cases h
    split_ifs at h
    · exact .plain h nofun nofun nofun
    · exact .plain h (fun _ => by rw [hp]; rfl) (fun _ => by rw [hp]; rfl) nofun
  | unlinking attempt =>
    simp only [advance, hp] at h
    cases h
    exact .unlinkSocket attempt hp
  | removeLease =>
    simp only [advance, hp] at h
    cases h
    exact .unlinkLease _ (by rw [hp]; rfl) nofun rfl
  | removeClaim =>
    simp only [advance, hp] at h
    split_ifs at h with hd
    · exact .plain h nofun nofun nofun
    · cases h
      exact .unlinkClaim _ (by rw [hp]; rfl) (by simpa using hd) rfl rfl
  | _ =>
    simp only [advance, hp] at h
    split_ifs at h <;> exact .plain h nofun nofun nofun

/-- Every step is an operation of a live process, its start or one of the two
reads that go together, or its crash. -/
lemma next_cases {a : Step} (h : next site s a = some t) :
    (∃ p outside, (s.proc p).alive = true ∧ a = .advance p outside ∧ Effect s p outside t) ∨
      (∃ p phase, t = s.goto p phase ∧ (phase.hasClaim = true → (s.proc p).phase.hasClaim = true) ∧
        (phase.hasLease = true → (s.proc p).phase.hasLease = true) ∧ phase ≠ .bound) ∨
      ∃ p, t = { s with proc := Function.update s.proc p { s.proc p with alive := false } } := by
  cases a with
  | start p =>
    simp only [next] at h
    split_ifs at h with hp
    exact .inr (.inl ⟨p, _, (some.inj h).symm, nofun, nofun, nofun⟩)
  | readLease p =>
    simp only [next] at h
    split_ifs at h with hp
    split at h
    · exact .inr (.inl ⟨p, _, (some.inj h).symm, nofun, nofun, nofun⟩)
    · next attempt claim hphase =>
        exact .inr (.inl ⟨p, _, (some.inj h).symm, fun _ => by rw [hphase]; rfl,
          fun _ => by rw [hphase]; rfl, nofun⟩)
    · cases h
  | readClaim p =>
    simp only [next] at h
    split_ifs at h with hp
    split at h
    · exact .inr (.inl ⟨p, _, (some.inj h).symm, nofun, nofun, nofun⟩)
    · next attempt lease hphase =>
        exact .inr (.inl ⟨p, _, (some.inj h).symm, fun _ => by rw [hphase]; rfl,
          fun _ => by rw [hphase]; rfl, nofun⟩)
    · cases h
  | advance p outside =>
    simp only [next] at h
    split_ifs at h with hp
    exact .inl ⟨p, outside, hp, rfl, effect_advance h⟩
  | crash p =>
    simp only [next] at h
    split_ifs at h with hp
    exact .inr (.inr ⟨p, (some.inj h).symm⟩)

end

section
variable {f : Phase → Bool} {s : State} {p : Nat} {phase : Phase}

lemma inside_goto_join {q : Nat} (h : q ∈ inside f (s.goto p phase).proc) :
    q = p ∨ q ∈ inside f s.proc := by
  by_cases hq : q = p
  · exact .inl hq
  · rw [inside, Set.mem_ofPred_eq, goto_proc_ne s phase hq] at h
    exact .inr h

lemma inside_goto (h : f phase = true → f (s.proc p).phase = true) :
    inside f (s.goto p phase).proc ⊆ inside f s.proc := by
  intro q hq
  by_cases hqp : q = p
  · subst hqp
    rw [inside, Set.mem_ofPred_eq, goto_proc_self] at hq
    exact ⟨hq.1, h hq.2⟩
  · rw [inside, Set.mem_ofPred_eq, goto_proc_ne s phase hqp] at hq
    exact hq

lemma inside_crash :
    inside f (Function.update s.proc p { s.proc p with alive := false }) ⊆ inside f s.proc := by
  intro q hq
  by_cases hqp : q = p
  · subst hqp
    rw [inside, Set.mem_ofPred_eq, Function.update_self] at hq
    exact absurd hq.1 (by simp)
  · rw [inside, Set.mem_ofPred_eq, Function.update_of_ne hqp] at hq
    exact hq

end

def ClaimBacked (s : State) : Prop :=
  Backed s.claimFile.read (fun c p => c.pid = p) (inside Phase.hasClaim s.proc)

def LeaseBacked (s : State) : Prop :=
  Backed s.leaseFile.read (fun l p => l.pid = p) (inside Phase.hasLease s.proc)

def SocketBacked (s : State) : Prop :=
  Backed s.socket.listener (fun q p => q = p) (inside Phase.isBound s.proc)

section
variable {site : Site} {s t : State} {a : Step}

lemma inside_goto_unbound {p : Nat} {phase : Phase} (h : phase ≠ .bound) :
    inside Phase.isBound (s.goto p phase).proc ⊆ inside Phase.isBound s.proc := by
  refine inside_goto fun hb => ?_
  cases phase with
  | bound => exact absurd rfl h
  | _ => cases hb

lemma claimBacked_step (h : ClaimBacked s) (hkept : ClaimKept s a)
    (hn : next site s a = some t) : ClaimBacked t := by
  rcases next_cases hn with ⟨p, outside, halive, rfl, heff⟩ | ⟨p, phase, rfl, hc, -, -⟩ | ⟨p, rfl⟩
  · cases heff with
    | goto phase claim lease unbound =>
      by_cases hphase : phase.hasClaim = true
      · rcases claim hphase with hold | ⟨c, hc, hcp⟩
        · exact h.mono (inside_goto fun _ => hold)
        · exact h.join hc hcp fun q => inside_goto_join
      · exact h.mono (inside_goto fun hp => absurd hp hphase)
    | createClaim c free own =>
      rw [ClaimBacked, free] at h
      exact h.create own fun q => inside_goto_join
    | createLease l free own claim => exact h.mono (inside_goto fun _ => claim)
    | bind free claim lease => exact h.mono (inside_goto fun _ => claim)
    | unlinkClaim phase unlinks granted claim lease =>
      refine h.empty (fun q hq c hc hcq => ?_)
        (inside_goto fun hp => by rw [claim] at hp; cases hp)
      exact hkept unlinks granted c hc (hcq ▸ hq)
    | unlinkLease phase unlinks claim lease => exact h.mono (inside_goto claim)
    | unlinkSocket attempt unlinks => exact h.mono (inside_goto fun _ => by rw [unlinks]; rfl)
  · exact h.mono (inside_goto hc)
  · exact h.mono inside_crash

lemma leaseBacked_step (h : LeaseBacked s) (hkept : LeaseKept s a)
    (hn : next site s a = some t) : LeaseBacked t := by
  rcases next_cases hn with ⟨p, outside, halive, rfl, heff⟩ | ⟨p, phase, rfl, -, hl, -⟩ | ⟨p, rfl⟩
  · cases heff with
    | goto phase claim lease unbound =>
      by_cases hphase : phase.hasLease = true
      · rcases lease hphase with hold | ⟨l, hl, hlp⟩
        · exact h.mono (inside_goto fun _ => hold)
        · exact h.join hl hlp fun q => inside_goto_join
      · exact h.mono (inside_goto fun hp => absurd hp hphase)
    | createClaim c free own => exact h.mono (inside_goto nofun)
    | createLease l free own claim =>
      rw [LeaseBacked, free] at h
      exact h.create own fun q => inside_goto_join
    | bind free claim lease => exact h.mono (inside_goto fun _ => lease)
    | unlinkClaim phase unlinks granted claim lease =>
      exact h.mono (inside_goto fun hp => by rw [lease] at hp; cases hp)
    | unlinkLease phase unlinks claim lease =>
      refine h.empty (fun q hq l hl hlq => ?_)
        (inside_goto fun hp => by rw [lease] at hp; cases hp)
      exact hkept unlinks l hl (hlq ▸ hq)
    | unlinkSocket attempt unlinks => exact h.mono (inside_goto fun _ => by rw [unlinks]; rfl)
  · exact h.mono (inside_goto hl)
  · exact h.mono inside_crash

lemma socketBacked_step (h : SocketBacked s) (hkept : SocketKept s a)
    (hn : next site s a = some t) : SocketBacked t := by
  rcases next_cases hn with ⟨p, outside, halive, rfl, heff⟩ | ⟨p, phase, rfl, -, -, hb⟩ | ⟨p, rfl⟩
  · cases heff with
    | goto phase claim lease unbound => exact h.mono (inside_goto_unbound unbound)
    | createClaim c free own => exact h.mono (inside_goto nofun)
    | createLease l free own claim => exact h.mono (inside_goto nofun)
    | bind free claim lease =>
      rw [SocketBacked, free] at h
      exact h.create rfl fun q => inside_goto_join
    | unlinkClaim phase unlinks granted claim lease =>
      exact h.mono (inside_goto_unbound fun hp => by rw [hp] at claim; cases claim)
    | unlinkLease phase unlinks claim lease =>
      exact h.mono (inside_goto_unbound fun hp => by rw [hp] at lease; cases lease)
    | unlinkSocket attempt unlinks =>
      refine h.empty (fun q hq r hr hrq => ?_) (inside_goto nofun)
      exact hkept (by rw [unlinks]; rfl) r hr (hrq ▸ hq)
  · exact h.mono (inside_goto_unbound hb)
  · exact h.mono inside_crash

lemma inside_start {f : Phase → Bool} (hf : f .idle = false) (h : Start s) :
    inside f s.proc = ∅ := by
  refine Set.eq_empty_iff_forall_notMem.mpr fun p hp => ?_
  have hphase := hp.2
  rw [h.1 p, hf] at hphase
  cases hphase

lemma backed_start {α : Type*} {slot : Option α} {mark : α → Nat → Prop} {f : Phase → Bool}
    (hf : f .idle = false) (h : Start s) : Backed slot mark (inside f s.proc) := by
  rw [inside_start hf h]
  exact fun p hp => absurd hp (Set.notMem_empty p)

lemma exclusive_of_subsingleton {f : Phase → Bool} (hf : f .bound = true)
    (h : (inside f s.proc).Subsingleton) : Exclusive s := fun p q hp hq hpb hqb =>
  h ⟨hp, by rw [hpb, hf]⟩ ⟨hq, by rw [hqb, hf]⟩

lemma exclusive_of_claimKept (h : (daemons site).Reach ClaimKept s) : Exclusive s := by
  have hb := h.inv ClaimBacked (fun _ hs => backed_start rfl hs)
    fun _ _ _ hs hok hn => claimBacked_step hs hok hn
  exact exclusive_of_subsingleton rfl (hb.subsingleton fun _ _ _ hp hq => hp.symm.trans hq)

lemma exclusive_of_leaseKept (h : (daemons site).Reach LeaseKept s) : Exclusive s := by
  have hb := h.inv LeaseBacked (fun _ hs => backed_start rfl hs)
    fun _ _ _ hs hok hn => leaseBacked_step hs hok hn
  exact exclusive_of_subsingleton rfl (hb.subsingleton fun _ _ _ hp hq => hp.symm.trans hq)

lemma exclusive_of_socketKept (h : (daemons site).Reach SocketKept s) : Exclusive s := by
  have hb := h.inv SocketBacked (fun _ hs => backed_start rfl hs)
    fun _ _ _ hs hok hn => socketBacked_step hs hok hn
  exact exclusive_of_subsingleton rfl (hb.subsingleton fun _ _ _ hp hq => hp.symm.trans hq)

lemma taken_run {p : Nat} {outside : Outside} (hp : (s.proc p).phase = .unlinking 0)
    (hkept : ¬ SocketKept s (.advance p outside))
    (hn : next site s (.advance p outside) = some t) :
    ∃ as u, (daemons site).Run anyStep t as u ∧ ¬ Exclusive u := by
  simp only [next] at hn
  split_ifs at hn with halive
  simp only [advance, hp, some.injEq] at hn
  simp only [SocketKept, Classical.not_imp, not_forall, not_not] at hkept
  obtain ⟨-, q, -, hq, hqb⟩ := hkept
  have hne : q ≠ p := by
    rintro rfl
    rw [hp] at hqb
    cases hqb
  have htp : t.proc p = { s.proc p with phase := .listening 1 } := by
    rw [← hn]
    exact goto_proc_self ..
  have htq : t.proc q = s.proc q := by
    rw [← hn]
    exact goto_proc_ne s _ hne
  have hbind : next site t (.advance p outside) =
      some { t.goto p .bound with socket := .listening p } := by
    have hsock : t.socket = .absent := by rw [← hn]
    simp [next, htp, halive, advance, hsock]
  refine ⟨[.advance p outside], _, .single trivial hbind, fun hex => hne ?_⟩
  have hup : ({ t.goto p .bound with socket := .listening p } : State).proc p =
      { t.proc p with phase := .bound } := goto_proc_self ..
  have huq : ({ t.goto p .bound with socket := .listening p } : State).proc q = s.proc q :=
    (goto_proc_ne t _ hne).trans htq
  refine hex q p (huq ▸ hq) (by rw [hup, htp]; exact halive) ?_ (by rw [hup])
  rw [huq]
  cases hphase : (s.proc q).phase with
  | bound => rfl
  | _ => rw [hphase] at hqb; cases hqb

/-- Each guard alone makes the start exclusive in every run in which it is not
robbed; a socket that is taken on a first attempt leaves two bound daemons one
step away. -/
theorem exclusive_of_kept (site : Site) (s : State) :
    ((daemons site).Reach ClaimKept s → Exclusive s) ∧
      ((daemons site).Reach LeaseKept s → Exclusive s) ∧
      ((daemons site).Reach SocketKept s → Exclusive s) ∧
      ∀ p outside t, (daemons site).Reach SocketKept s → (s.proc p).phase = .unlinking 0 →
        ¬ SocketKept s (.advance p outside) → next site s (.advance p outside) = some t →
        ∃ as u, (daemons site).Run anyStep t as u ∧ ¬ Exclusive u :=
  ⟨exclusive_of_claimKept, exclusive_of_leaseKept, exclusive_of_socketKept,
    fun _ _ _ _ hp hkept hn => taken_run hp hkept hn⟩

end

section

def site : Site :=
  { socketPath := "/run/redskilled.sock".toList, startTime := fun _ => "t".toList
    uid := fun _ => 1000 }

def crashed : State :=
  { claimFile := .record (mintClaim site 1)
    leaseFile := .record (mintLease site 1 0)
    socket := .stale
    proc := fun p => { alive := p == 2 || p == 3 || p == 4, phase := .idle } }

def go (p : Nat) : Step := .advance p { now := 30000, slow := false, denied := false }

def judge (p : Nat) : List Step :=
  [.start p, .readLease p, .readClaim p, go p, go p, go p, go p]

/-- 3 takes the claim and judges the lease; 2 unlinks that claim, takes the claim
and the lease and checks the socket; 4 unlinks the second claim; 3 unlinks the
lease, takes it, and binds. -/
def overtaken : List Step :=
  judge 3 ++ judge 2 ++ judge 4 ++ List.replicate 5 (go 3) ++ List.replicate 9 (go 2) ++
    [Step.readLease 2, .readClaim 2, go 2, go 4] ++ List.replicate 4 (go 3) ++
    [Step.readLease 3, .readClaim 3] ++ List.replicate 3 (go 3)

lemma start_crashed : Start crashed := ⟨fun _ => rfl, .inr rfl⟩

/-- Three processes start after a crash, and two of them are bound. -/
theorem three_starters : ¬ ∀ s, (daemons site).Reach anyStep s → Exclusive s := by
  intro h
  have hrun : ((daemons site).exec crashed (overtaken ++ [go 2, go 2])).map
      (fun s => (s.proc 2, s.proc 3)) = some (⟨true, .bound⟩, ⟨true, .bound⟩) := by
    decide +kernel
  obtain ⟨s, hs, hprocs⟩ := map_eq_some_iff.mp hrun
  obtain ⟨h₂, h₃⟩ := Prod.mk.inj hprocs
  exact absurd (h s (Machine.reach_of_exec start_crashed hs) 2 3 (by rw [h₂]) (by rw [h₃])
    (by rw [h₂]) (by rw [h₃])) (by decide)

instance (f : Phase → Bool) (proc : Nat → Proc) (p : Nat) : Decidable (p ∈ inside f proc) :=
  inferInstanceAs (Decidable (_ ∧ _))

instance (s : State) (a : Step) : Decidable (ClaimKept s a) := by
  cases a <;> unfold ClaimKept <;> infer_instance

instance (s : State) (a : Step) : Decidable (SocketKept s a) := by
  cases a <;> unfold SocketKept <;> infer_instance

/-- One starter alone binds; and of three, the first to bind is alone until its
socket is taken. -/
theorem exclusive_until_taken : (∃ s, (s.proc 2).phase = .bound ∧ Exclusive s) ∧
      ∃ s, (s.proc 3).phase = .bound ∧ Exclusive s ∧
        ∃ t as u, next site s (go 2) = some t ∧ (daemons site).Run anyStep t as u ∧
          ¬ Exclusive u := by
  constructor
  · have hrun : ((daemons site).execIf (fun s a => decide (ClaimKept s a)) crashed
        (judge 2 ++ List.replicate 9 (go 2) ++ [Step.readLease 2, .readClaim 2] ++
          List.replicate 3 (go 2))).map (fun s => (s.proc 2).phase) = some .bound := by
      decide +kernel
    obtain ⟨s, hs, hbound⟩ := map_eq_some_iff.mp hrun
    exact ⟨s, hbound, (exclusive_of_kept site s).1
      ⟨crashed, _, start_crashed, (Machine.run_of_execIf hs).mono fun _ _ => of_decide_eq_true⟩⟩
  · have hrun : ((daemons site).execIf (fun s a => decide (SocketKept s a)) crashed
        overtaken).map (fun s => ((s.proc 3).phase, (s.proc 2).phase, decide (SocketKept s (go 2)),
          (next site s (go 2)).isSome)) = some (.bound, .unlinking 0, false, true) := by
      decide +kernel
    obtain ⟨s, hs, hfacts⟩ := map_eq_some_iff.mp hrun
    simp only [Prod.mk.injEq, decide_eq_false_iff_not] at hfacts
    obtain ⟨hbound, hunl, htak, hnext⟩ := hfacts
    obtain ⟨t, ht⟩ := isSome_iff_exists.mp hnext
    have hreach : (daemons site).Reach SocketKept s :=
      ⟨crashed, _, start_crashed, (Machine.run_of_execIf hs).mono fun _ _ => of_decide_eq_true⟩
    obtain ⟨-, -, hexcl, htake⟩ := exclusive_of_kept site s
    obtain ⟨as, u, hrun', hex⟩ := htake 2 _ t hreach hunl htak ht
    exact ⟨s, hbound, hexcl hreach, t, as, u, ht, hrun', hex⟩

end

end Redskilled.Host.DaemonStart
