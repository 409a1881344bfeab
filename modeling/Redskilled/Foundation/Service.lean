import Redskilled.Foundation.Conduct
import Redskilled.Foundation.Machine

/-!
# Services

The calls of a service run as programs against one world, any number of them at once, and
one question is answered after the other. What the world is free to choose for an answer,
and whether a question throws, is part of the move. A call can stop anywhere, and the world
moves of itself. No two calls have the same number.
-/
namespace Redskilled.Foundation

structure Service (Q : Type) (A : Q → Type) (R : Type) (C W X Y : Type*) where
  program : W → C → Dialogue Q A R
  /-- What a call is answered, and the world behind that; `none` where it is not answered so. -/
  reply : W → ℕ → C → (q : Q) → X → Option (Option (A q) × W)
  settle : W → ℕ → C → Option R → W
  moves : W → Y → Option W

namespace Service
variable {Q : Type} {A : Q → Type} {R : Type} {C W X Y : Type*}

/-- A call under way: what it has asked, and what is left of it. -/
structure Session (Q : Type) (A : Q → Type) (R : Type) (C : Type*) where
  call : C
  past : List (Exchange Q A)
  program : Dialogue Q A R

structure State (Q : Type) (A : Q → Type) (R : Type) (C W : Type*) where
  world : W
  sessions : ℕ → Option (Session Q A R C)
  count : ℕ

inductive Move (C X Y : Type*) where
  | call (call : C)
  | op (id : ℕ) (choice : X)
  | stop (id : ℕ)
  | world (move : Y)

variable (V : Service Q A R C W X Y)

/-- The world where the program may have come to its end. -/
def settled (world : W) (id : ℕ) (call : C) : Dialogue Q A R → W
  | .done value => V.settle world id call (some value)
  | .fail => V.settle world id call none
  | .ask _ _ => world

def called (s : State Q A R C W) (call : C) : State Q A R C W where
  world := V.settled s.world s.count call (V.program s.world call)
  sessions := Function.update s.sessions s.count (some ⟨call, [], V.program s.world call⟩)
  count := s.count + 1

def Session.goesOn (session : Session Q A R C) (e : Exchange Q A) (next : Dialogue Q A R) :
    Session Q A R C := ⟨session.call, session.past ++ [e], next⟩

def answered (s : State Q A R C W) (id : ℕ) (session : Session Q A R C) (e : Exchange Q A)
    (next : Dialogue Q A R) (world : W) : State Q A R C W where
  world := V.settled world id session.call next
  sessions := Function.update s.sessions id (some (session.goesOn e next))
  count := s.count

def stopped (s : State Q A R C W) (id : ℕ) : State Q A R C W :=
  { s with sessions := Function.update s.sessions id none }

def machine (first : W → Prop) : Machine (State Q A R C W) (Move C X Y) where
  start s := first s.world ∧ s.sessions = (fun _ => none) ∧ s.count = 0
  next s
    | .call call => some (V.called s call)
    | .op id choice =>
      match s.sessions id with
      | none => none
      | some session =>
        match session.program with
        | .ask q next =>
          (V.reply s.world id session.call q choice).map fun found =>
            V.answered s id session ⟨q, found.1⟩ (next found.1) found.2
        | _ => none
    | .stop id => some (stopped s id)
    | .world move => (V.moves s.world move).map fun world => { s with world := world }

section
variable {V} {first : W → Prop} {s t : State Q A R C W} {id other : ℕ} {choice : X}
  {session : Session Q A R C}

lemma op_cases (h : (V.machine first).next s (.op id choice) = some t) :
    ∃ session q next answer world, s.sessions id = some session ∧ session.program = .ask q next ∧
      V.reply s.world id session.call q choice = some (answer, world) ∧
      t = V.answered s id session ⟨q, answer⟩ (next answer) world := by
  simp only [machine] at h
  split at h
  · cases h
  · next session hsess =>
      split at h
      · next q next hprogr =>
          obtain ⟨⟨answer, world⟩, hreply, rfl⟩ := Option.map_eq_some_iff.mp h
          exact ⟨session, q, next, answer, world, hsess, hprogr, hreply, rfl⟩
      · cases h

lemma called_cases {call : C} (h : (V.called s call).sessions other = some session) :
    (other = s.count ∧ session = ⟨call, [], V.program s.world call⟩) ∨
      (other ≠ s.count ∧ s.sessions other = some session) := by
  simp only [called, Function.update_apply] at h
  split_ifs at h with hid
  · exact .inl ⟨hid, (Option.some.inj h).symm⟩
  · exact .inr ⟨hid, h⟩

lemma answered_cases {asking : Session Q A R C} {e : Exchange Q A} {next : Dialogue Q A R}
    {world : W} (h : (V.answered s id asking e next world).sessions other = some session) :
    (other = id ∧ session = asking.goesOn e next) ∨
      (other ≠ id ∧ s.sessions other = some session) := by
  simp only [answered, Function.update_apply] at h
  split_ifs at h with hid
  · exact .inl ⟨hid, (Option.some.inj h).symm⟩
  · exact .inr ⟨hid, h⟩

lemma stopped_cases (h : (stopped s id).sessions other = some session) :
    other ≠ id ∧ s.sessions other = some session := by
  simp only [stopped, Function.update_apply] at h
  split_ifs at h with hid
  exact ⟨hid, h⟩

end

section
variable (asks : C → List (Exchange Q A) → Q → Prop)
  (ends : C → List (Exchange Q A) → Option R → Prop)

/-- The calls ask and end as their conduct says. -/
def Session.Conducted (session : Session Q A R C) : Prop :=
  session.program.Conducts (asks session.call) (ends session.call) session.past

/-- Every session is conducted, and has a number that was given. -/
structure Ordered (s : State Q A R C W) : Prop where
  conducted : ∀ id session, s.sessions id = some session → session.Conducted asks ends
  given : ∀ id session, s.sessions id = some session → id < s.count

variable {V asks ends} {first : W → Prop} {ok : State Q A R C W → Move C X Y → Prop}
  {s t : State Q A R C W}

lemma Ordered.answered (hs : Ordered asks ends s) {id : ℕ} {session : Session Q A R C}
    {e : Exchange Q A} {next : Dialogue Q A R} {world : W}
    (hsess : s.sessions id = some session)
    (hnext : (session.goesOn e next).Conducted asks ends) :
    Ordered asks ends (V.answered s id session e next world) := by
  constructor
  · intro other left hleft
    rcases answered_cases hleft with ⟨-, rfl⟩ | ⟨-, hleft⟩
    · exact hnext
    · exact hs.conducted other left hleft
  · intro other left hleft
    rcases answered_cases hleft with ⟨rfl, -⟩ | ⟨-, hleft⟩
    · exact hs.given other session hsess
    · exact hs.given other left hleft

lemma Ordered.next (hs : Ordered asks ends s)
    (hprogr : ∀ world call, (V.program world call).Conducts (asks call) (ends call) [])
    {move : Move C X Y} (hstep : (V.machine first).next s move = some t) :
    Ordered asks ends t := by
  cases move with
  | call call =>
    cases hstep
    constructor
    · intro id session hsess
      rcases called_cases hsess with ⟨-, rfl⟩ | ⟨-, hsess⟩
      · exact hprogr s.world call
      · exact hs.conducted id session hsess
    · intro id session hsess
      rcases called_cases hsess with ⟨rfl, -⟩ | ⟨-, hsess⟩
      · exact Nat.lt_succ_self _
      · exact Nat.lt_succ_of_lt (hs.given id session hsess)
  | op id choice =>
    obtain ⟨session, q, next, answer, world, hsess, hask, -, rfl⟩ := op_cases hstep
    have hcond := hs.conducted id session hsess
    unfold Session.Conducted at hcond
    rw [hask] at hcond
    exact hs.answered hsess (hcond.2 answer)
  | stop id =>
    cases hstep
    constructor
    · intro other session hsess
      exact hs.conducted other session (stopped_cases hsess).2
    · intro other session hsess
      exact hs.given other session (stopped_cases hsess).2
  | world move =>
    obtain ⟨world, -, rfl⟩ := Option.map_eq_some_iff.mp hstep
    exact ⟨hs.conducted, hs.given⟩

lemma reach_inv (I : State Q A R C W → Prop)
    (hprogr : ∀ world call, (V.program world call).Conducts (asks call) (ends call) [])
    (hfirst : ∀ s, (V.machine first).start s → I s)
    (hcall : ∀ s call, Ordered asks ends s → I s → ok s (.call call) → I (V.called s call))
    (hop : ∀ s id choice session q next answer world, Ordered asks ends s → I s →
      ok s (.op id choice) → s.sessions id = some session → session.program = .ask q next →
      V.reply s.world id session.call q choice = some (answer, world) →
      asks session.call session.past q →
      (session.goesOn ⟨q, answer⟩ (next answer)).Conducted asks ends →
      I (V.answered s id session ⟨q, answer⟩ (next answer) world))
    (hstop : ∀ s id, Ordered asks ends s → I s → ok s (.stop id) → I (stopped s id))
    (hworld : ∀ s move world, Ordered asks ends s → I s → ok s (.world move) →
      V.moves s.world move = some world → I { s with world := world })
    (h : (V.machine first).Reach ok s) : I s ∧ Ordered asks ends s := by
  apply h.inv fun s => I s ∧ Ordered asks ends s
  · rintro s hs
    refine ⟨hfirst s hs, ?_, ?_⟩
    · intro id session hsess
      rw [hs.2.1] at hsess
      cases hsess
    · intro id session hsess
      rw [hs.2.1] at hsess
      cases hsess
  · rintro s move t ⟨hI, hs⟩ hok hstep
    refine ⟨?_, hs.next hprogr hstep⟩
    cases move with
    | call call =>
      cases hstep
      exact hcall s call hs hI hok
    | op id choice =>
      obtain ⟨session, q, next, answer, world, hsess, hask, hreply, rfl⟩ := op_cases hstep
      have hcond := hs.conducted id session hsess
      unfold Session.Conducted at hcond
      rw [hask] at hcond
      exact hop s id choice session q next answer world hs hI hok hsess hask hreply
        hcond.1 (hcond.2 answer)
    | stop id =>
      cases hstep
      exact hstop s id hs hI hok
    | world move =>
      obtain ⟨world, hmove, rfl⟩ := Option.map_eq_some_iff.mp hstep
      exact hworld s move world hs hI hok hmove

end
end Service
end Redskilled.Foundation
