import Redskilled.Daemon.RegistrationStop

/-!
# A refused registration request

The daemon answers a registration, a renewal and a release behind a flush of the
intent store. What a check refuses leaves behind no more than the sweep that comes
before the check. A flush that fails refuses the request too, and comes when the
operation is done.
-/
namespace Redskilled.Daemon.Registrations
open Foundation State

variable {δ ν : Type*}

inductive Request (δ ν : Type*) where
  | register (request : RegistrationRequest δ ν)
  | renew (label : Text) (renewWithinMs : Option Int) (launch : Option ν)
  | deregister (label : Text)

structure Circumstance where
  session : Option Text
  now : Option Int
  unrunnable : Bool

namespace Request

def label : Request δ ν → Text
  | .register request => request.projectLabel
  | .renew label _ _ => label
  | .deregister label => label

def serve (shape : Shape δ ν) (s : State δ ν) (c : Circumstance) : Request δ ν → Outcome δ ν
  | .register request => s.registerProject shape request c.session c.now c.unrunnable
  | .renew label within launch => s.renewProject shape label c.session within launch c.now
  | .deregister label => s.deregisterProject label c.session c.now

/-- The state behind the response, and its `ok`. `flushed` tells whether the flush
that a served request waits for resolves. -/
def respond (shape : Shape δ ν) (s : State δ ν) (c : Circumstance) (flushed : Bool)
    (request : Request δ ν) : State δ ν × Bool :=
  match request.serve shape s c with
  | (s, some _) => (s, false)
  | (s, none) => (s, flushed)

def sweep (s : State δ ν) (c : Circumstance) (request : Request δ ν) : Outcome δ ν :=
  match request with
  | .deregister _ => (s, none)
  | _ => if permitted c.session request.label then s.expireLapsedRegistrations c.now else (s, none)

end Request

/-- A deadline that far ahead has a text. -/
def Datable (now : Option Int) (within : Int) : Prop :=
  ∃ t, now = some t ∧ (isoInstant (t + within)).isSome

def Registrable (shape : Shape δ ν) (request : RegistrationRequest δ ν) (now : Option Int) : Prop :=
  request.projectLabel ≠ [] ∧ shape.declaredOk request.declared = true ∧
    shape.launchOk request.launch = true ∧ 0 ≤ request.target ∧
    0 < request.renewWithinMs.getD registrationTtlMs ∧
    Datable now (request.renewWithinMs.getD registrationTtlMs)

def Renewable (shape : Shape δ ν) (held : Registration δ ν) (within : Option Int)
    (launch : Option ν) (now : Option Int) : Prop :=
  0 < within.getD held.renewWithinMs ∧ launch.all shape.launchOk = true ∧
    Datable now (within.getD held.renewWithinMs)

/-- The checks let the request through, and there is something for it to do. -/
def Takes (shape : Shape δ ν) (s : State δ ν) (c : Circumstance) (request : Request δ ν) : Prop :=
  permitted c.session request.label = true ∧
    match request with
    | .register request =>
      (s.expireLapsedRegistrations c.now).2 = none ∧
        (s.expireLapsedRegistrations c.now).1.registrations.lookup request.projectLabel = none ∧
        Registrable shape request c.now ∧ c.unrunnable = false
    | .renew label within launch =>
      (s.expireLapsedRegistrations c.now).2 = none ∧
        ∃ held, (s.expireLapsedRegistrations c.now).1.registrations.lookup label = some held ∧
          Renewable shape held within launch c.now
    | .deregister label => Held s label

def Untouched (s : State δ ν) (c : Circumstance) (request : Request δ ν) (t : State δ ν) : Prop :=
  t.registrations = (request.sweep s c).1.registrations ∧
    t.recoverable = (request.sweep s c).1.recoverable

section
variable {shape : Shape δ ν} {now : Option Int}

lemma build_isOk {request : RegistrationRequest δ ν} (h : Registrable shape request now) :
    ∃ r, buildProjectRegistration shape request now none = .ok r := by
  obtain ⟨hlab, hdecl, hlaunch, htarg, hwith, t, rfl, hiso⟩ := h
  obtain ⟨renewBy, hrenewBy⟩ := Option.isSome_iff_exists.mp hiso
  have hchecks : ¬ (request.projectLabel = [] ∨ shape.declaredOk request.declared = false ∨
      shape.launchOk request.launch = false ∨ request.target < 0 ∨
      request.renewWithinMs.getD registrationTtlMs ≤ 0) := by
    simp only [hdecl, hlaunch, hlab, false_or, reduceCtorEq, not_or]
    constructor <;> omega
  simp only [buildProjectRegistration, Option.isSome_none, Bool.false_eq_true, if_false,
    if_neg hchecks, hrenewBy]
  exact ⟨_, rfl⟩

lemma registrable_of_build {request : RegistrationRequest δ ν} {r : Registration δ ν}
    {held : Option (Registration δ ν)}
    (h : buildProjectRegistration shape request now held = .ok r) :
    held = none ∧ Registrable shape request now := by
  unfold buildProjectRegistration at h
  dsimp only at h
  split_ifs at h with hheld hchecks
  split at h
  · cases h
  · split at h
    · cases h
    · next t _ renewBy hiso =>
      simp only [not_or, Bool.not_eq_false, not_lt, not_le] at hchecks
      obtain ⟨hlab, hdecl, hlaunch, htarg, hwith⟩ := hchecks
      refine ⟨by simpa using hheld, hlab, hdecl, hlaunch, htarg, hwith, t, rfl, ?_⟩
      rw [hiso]
      rfl

lemma renew_isOk {held : Registration δ ν} {within : Option Int} {launch : Option ν}
    (h : Renewable shape held within launch now) :
    ∃ r, renewProjectRegistration shape held now within launch = .ok r := by
  obtain ⟨hwith, hlaunch, t, rfl, hiso⟩ := h
  obtain ⟨renewBy, hrenewBy⟩ := Option.isSome_iff_exists.mp hiso
  have hchecks : ¬ (within.getD held.renewWithinMs ≤ 0 ∨
      launch.any (fun l => !shape.launchOk l) = true) := by
    cases launch with
    | none => simpa using hwith
    | some l => simpa using ⟨hwith, by simpa using hlaunch⟩
  simp only [renewProjectRegistration, if_neg hchecks, hrenewBy]
  exact ⟨_, rfl⟩

lemma renewable_of_renew {held r : Registration δ ν} {within : Option Int} {launch : Option ν}
    (h : renewProjectRegistration shape held now within launch = .ok r) :
    Renewable shape held within launch now ∧ r.renewals = held.renewals + 1 := by
  unfold renewProjectRegistration at h
  split at h
  · cases h
  · rw [ite_eq_iff] at h
    rcases h with ⟨-, h⟩ | ⟨hchecks, h⟩
    · cases h
    split at h
    · cases h
    · next t _ renewBy hiso =>
      cases h
      simp only [not_or, not_le] at hchecks
      obtain ⟨hwith, hlaunch⟩ := hchecks
      refine ⟨⟨hwith, ?_, t, rfl, by rw [hiso]; rfl⟩, rfl⟩
      cases launch with
      | none => rfl
      | some l => simpa using hlaunch

end

section
variable {shape : Shape δ ν} {s : State δ ν} {c : Circumstance}

/-- A request that is refused leaves the state of its sweep. -/
def Decided (shape : Shape δ ν) (s : State δ ν) (c : Circumstance) (request : Request δ ν) : Prop :=
  (∃ e, request.serve shape s c = ((request.sweep s c).1, some e) ∧ ¬ Takes shape s c request) ∨
    (request.serve shape s c).2 = none ∧
      (Untouched s c request (request.serve shape s c).1 ↔ ¬ Takes shape s c request)

lemma Decided.of_reach {request : Request δ ν} (hreach : ¬ permitted c.session request.label = true)
    (hserve : request.serve shape s c = (s, some .refusedCrossProject))
    (hsweep : (request.sweep s c).1 = s) : Decided shape s c request := by
  refine .inl ⟨.refusedCrossProject, ?_, fun htak => hreach htak.1⟩
  rw [hsweep]
  exact hserve

lemma register_decided (request : RegistrationRequest δ ν) :
    Decided shape s c (.register request) := by
  by_cases hreach : permitted c.session request.projectLabel = true
  · have hopen : ¬ permitted c.session request.projectLabel = false := by simp [hreach]
    rcases hswept : s.expireLapsedRegistrations c.now with ⟨t, thrown⟩
    have hsweep : (Request.register request).sweep s c = (t, thrown) := by
      simp [Request.sweep, Request.label, hreach, hswept]
    unfold Decided
    simp only [hsweep, Untouched, Takes, Request.label, hswept, Request.serve, registerProject,
      if_neg hopen]
    cases thrown with
    | some e => exact .inl ⟨e, rfl, by simp⟩
    | none =>
      simp only [andThen]
      cases hbuild : buildProjectRegistration shape request c.now
          (t.registrations.lookup request.projectLabel) with
      | error e =>
        refine .inl ⟨e, rfl, ?_⟩
        rintro ⟨-, -, hfree, hreg, -⟩
        obtain ⟨r, hr⟩ := build_isOk hreg
        rw [hfree, hr] at hbuild
        cases hbuild
      | ok r =>
        obtain ⟨hfree, hreg⟩ := registrable_of_build hbuild
        cases hprobe : c.unrunnable with
        | true => exact .inl ⟨.unrunnable, rfl, by simp⟩
        | false =>
          refine .inr ⟨rfl, iff_of_false ?_ ?_⟩
          · rintro ⟨hlive, -⟩
            have hheld := congrArg (·.lookup request.projectLabel) hlive
            rw [← build_label hbuild] at hheld hfree
            simp only [Bool.false_eq_true, if_false, persist, removeRegistrationHistory,
              hfree, JsMap.lookup_set, if_true] at hheld
            cases hheld
          · exact fun hnot => hnot ⟨hreach, trivial, hfree, hreg, rfl⟩
  · apply Decided.of_reach hreach
    · simp [Request.serve, registerProject, hreach]
    · simp [Request.sweep, Request.label, hreach]

lemma renew_decided (hs : Sound s) (label : Text) (within : Option Int) (launch : Option ν) :
    Decided shape s c (.renew label within launch) := by
  by_cases hreach : permitted c.session label = true
  · have hopen : ¬ permitted c.session label = false := by simp [hreach]
    have hsound := (@expireLapsedRegistrations_narrows _ _ _ label c.now hs).sound
    rcases hswept : s.expireLapsedRegistrations c.now with ⟨t, thrown⟩
    rw [hswept] at hsound
    have hsweep : (Request.renew label within launch : Request δ ν).sweep s c = (t, thrown) := by
      simp [Request.sweep, Request.label, hreach, hswept]
    unfold Decided
    simp only [hsweep, Untouched, Takes, Request.label, hswept, Request.serve, renewProject,
      if_neg hopen]
    cases thrown with
    | some e => exact .inl ⟨e, rfl, by simp⟩
    | none =>
      simp only [andThen]
      cases hheld : t.registrations.lookup label with
      | none => exact .inl ⟨_, rfl, by simp⟩
      | some held =>
        dsimp only
        cases hren : renewProjectRegistration shape held c.now within launch with
        | error e =>
          refine .inl ⟨e, rfl, ?_⟩
          rintro ⟨-, -, held', hheld', hrenewable⟩
          cases hheld'
          obtain ⟨r, hr⟩ := renew_isOk hrenewable
          rw [hr] at hren
          cases hren
        | ok r =>
          obtain ⟨hrenewable, hcount⟩ := renewable_of_renew hren
          refine .inr ⟨rfl, iff_of_false ?_ ?_⟩
          · rintro ⟨hlive, -⟩
            have hsame := congrArg (·.lookup label) hlive
            have hlab : r.projectLabel = label := by
              rw [renew_label hren, hsound.live label held hheld]
            simp only [persist, hlab, hheld, JsMap.lookup_set, if_true] at hsame
            rw [Option.some.inj hsame] at hcount
            omega
          · exact fun hnot => hnot ⟨hreach, trivial, held, rfl, hrenewable⟩
  · apply Decided.of_reach hreach
    · simp [Request.serve, renewProject, hreach]
    · simp [Request.sweep, Request.label, hreach]

lemma erase_of_notMem {m : JsMap Text (Registration δ ν)} {k : Text} (h : k ∉ m) :
    m.erase k = m := by
  apply AList.ext
  exact List.kerase_of_notMem_keys h

lemma deregister_decided (hs : Sound s) (label : Text) : Decided shape s c (.deregister label) := by
  by_cases hreach : permitted c.session label = true
  · have hserv : (s.deregisterProject label c.session c.now).2 = none := by
      simp only [deregisterProject, hreach, Bool.true_eq_false, if_false]
      split_ifs <;> rfl
    refine .inr ⟨hserv, ?_⟩
    constructor
    · rintro ⟨hlive, hrec⟩ ⟨-, hheld⟩
      have hgone := (deregisterProject_ok hs hserv).1
      simp only [Request.serve, Request.sweep] at hlive hrec
      unfold Held at hgone hheld
      rw [hlive, hrec] at hgone
      exact hgone hheld
    · intro hnot
      have hfree : ¬ Held s label := fun hheld => hnot ⟨hreach, hheld⟩
      unfold Held at hfree
      rw [not_or] at hfree
      have hlive := erase_of_notMem hfree.1
      have hrec := erase_of_notMem hfree.2
      simp only [Untouched, Request.sweep, Request.serve, deregisterProject, hreach, hlive, hrec,
        Bool.true_eq_false, if_false]
      split_ifs
      · exact ⟨rfl, hrec⟩
      · exact ⟨rfl, rfl⟩
  · exact Decided.of_reach hreach (by simp [Request.serve, deregisterProject, hreach]) rfl

lemma decided (hs : Sound s) : ∀ request : Request δ ν, Decided shape s c request
  | .register request => register_decided request
  | .renew label within launch => renew_decided hs label within launch
  | .deregister label => deregister_decided hs label

/-- A refused request leaves the sets of its sweep, but for one that its checks let
through to do something and that is refused for a flush. -/
theorem refused_untouched (h : (daemon shape).Reach anyStep s) (c : Circumstance) (flushed : Bool)
    (request : Request δ ν) :
    ((request.respond shape s c flushed).2 = false →
        Untouched s c request (request.respond shape s c flushed).1) ↔
      flushed = true ∨ ¬ Takes shape s c request := by
  unfold Request.respond
  rcases @decided _ _ shape _ c (sound_of_reach h) request with
    ⟨e, hserve, hnot⟩ | ⟨hserv, hunt⟩
  · rw [hserve]
    exact iff_of_true (fun _ => ⟨rfl, rfl⟩) (.inr hnot)
  · rcases hserve : request.serve shape s c with ⟨t, thrown⟩
    rw [hserve] at hserv hunt
    cases hserv
    cases flushed with
    | true => simp
    | false => simpa using hunt

end

section

/-- The write of the intent fails, and the refused registration stands. -/
theorem refused_register_takes : ∃ s : State Unit Unit, (daemon anyShape).Reach anyStep s ∧
      ((Request.register ask).respond anyShape s ⟨none, some 0, false⟩ false).2 = false ∧
      ¬ Untouched s ⟨none, some 0, false⟩ (.register ask)
        ((Request.register ask).respond anyShape s ⟨none, some 0, false⟩ false).1 := by
  refine ⟨fresh, .of_start start_fresh, by decide +kernel, fun hunt => ?_⟩
  have hkeys := congrArg AList.keys hunt.1
  revert hkeys
  decide +kernel

theorem refused_unrunnable :
    ((Request.register ask).respond anyShape fresh ⟨none, some 0, true⟩ false).2 = false ∧
      Untouched fresh ⟨none, some 0, true⟩ (.register ask)
        ((Request.register ask).respond anyShape fresh ⟨none, some 0, true⟩ false).1 := by
  have href : ((Request.register ask).respond anyShape fresh ⟨none, some 0, true⟩ false).2 =
      false := by
    decide +kernel
  refine ⟨href, (refused_untouched (.of_start start_fresh) _ _ _).mpr ?_ href⟩
  right
  simp [Takes]

end
end Redskilled.Daemon.Registrations
