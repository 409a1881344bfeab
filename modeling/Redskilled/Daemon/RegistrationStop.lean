import Redskilled.Daemon.Registrations

/-!
# A stopped registration

Of one label, an operation other than its registration does no more than move a
registration between the sets, drop it, and write what is held. So what a stop
has emptied stays empty over any run, whatever happens inside a poll's fetch.
-/
namespace Redskilled.Daemon.Registrations
open Foundation State List

variable {δ ν : Type*}

def Held (s : State δ ν) (label : Text) : Prop := label ∈ s.registrations ∨ label ∈ s.recoverable

def Stored (s : State δ ν) (label : Text) : Prop := ∃ r ∈ s.durable, r.projectLabel = label

def Keyed (m : JsMap Text (Registration δ ν)) : Prop :=
  ∀ k r, m.lookup k = some r → r.projectLabel = k

structure Sound (s : State δ ν) : Prop where
  live : Keyed s.registrations
  recoverable : Keyed s.recoverable
  apart : ∀ label, label ∈ s.registrations → label ∉ s.recoverable

/-- What an operation that brings in no registration of `label` does about it:
it may move one between the sets, renew and drop it, and write what is held. -/
structure Narrows (label : Text) (s t : State δ ν) : Prop where
  sound : Sound t
  held : Held t label → Held s label
  durable : ¬ Held s label → t.durable = s.durable ∨ ¬ Stored t label

section
variable {m : JsMap Text (Registration δ ν)}

lemma Keyed.set (h : Keyed m) (r : Registration δ ν) : Keyed (m.set r.projectLabel r) := by
  intro k r' hr'
  rw [JsMap.lookup_set] at hr'
  split_ifs at hr' with hk
  · rw [hk, Option.some.inj hr']
  · exact h k r' hr'

lemma Keyed.erase (h : Keyed m) (k : Text) : Keyed (m.erase k) := by
  intro k' r hr
  rw [JsMap.lookup_erase_eq] at hr
  split_ifs at hr with hk
  exact h k' r hr

lemma Keyed.foldl_set {l : List (Σ _ : Text, Registration δ ν)} (h : Keyed m)
    (hl : ∀ e ∈ l, e.2.projectLabel = e.1) :
    Keyed (l.foldl (fun m e => JsMap.set m e.1 e.2) m) := by
  induction l generalizing m with
  | nil => exact h
  | cons e l ih =>
    have hset := h.set e.2
    rw [hl e mem_cons_self] at hset
    exact ih hset fun d hd => hl d (mem_cons_of_mem e hd)

lemma mem_foldl_set {l : List (Σ _ : Text, Registration δ ν)} {k : Text} :
    k ∈ l.foldl (fun m e => JsMap.set m e.1 e.2) m ↔ k ∈ m ∨ k ∈ l.keys := by
  induction l generalizing m with
  | nil => simp
  | cons e l ih =>
    rw [foldl_cons, ih, JsMap.mem_set, keys_cons, mem_cons]
    tauto

lemma mem_erase_iff {k a : Text} : a ∈ m.erase k ↔ a ≠ k ∧ a ∈ m := AList.mem_erase

end

section
variable {s t u : State δ ν} {label : Text}

lemma Narrows.refl (h : Sound s) : Narrows label s s := ⟨h, fun hl => hl, fun _ => .inl rfl⟩

lemma Narrows.trans (h : Narrows label s t) (h' : Narrows label t u) : Narrows label s u := by
  refine ⟨h'.sound, fun hl => h.held (h'.held hl), fun hl => ?_⟩
  rcases h'.durable (fun ht => hl (h.held ht)) with heq | hfree
  · rcases h.durable hl with heq' | hfree'
    · exact .inl (heq.trans heq')
    · refine .inr ?_
      unfold Stored at hfree' ⊢
      rwa [heq]
  · exact .inr hfree

lemma Narrows.congr (h : Narrows label s t) (hlive : u.registrations = t.registrations)
    (hrec : u.recoverable = t.recoverable) (hdur : u.durable = t.durable) :
    Narrows label s u := by
  refine ⟨⟨?_, ?_, ?_⟩, ?_, ?_⟩
  · exact hlive ▸ h.sound.live
  · exact hrec ▸ h.sound.recoverable
  · rw [hlive, hrec]
    exact h.sound.apart
  · unfold Held
    rw [hlive, hrec]
    exact h.held
  · unfold Stored
    rw [hdur]
    exact h.durable

variable {r : Registration δ ν}

lemma Narrows.setLive (h : Narrows label s t)
    (hheld : r.projectLabel = label → Held s label) (hout : r.projectLabel ∉ t.recoverable) :
    Narrows label s { t with registrations := t.registrations.set r.projectLabel r } := by
  refine ⟨⟨h.sound.live.set r, h.sound.recoverable, fun k hk => ?_⟩, fun hk => ?_, h.durable⟩
  · rcases JsMap.mem_set.mp hk with rfl | hk
    · exact hout
    · exact h.sound.apart k hk
  · rcases hk with hk | hk
    · rcases JsMap.mem_set.mp hk with hk | hk
      · exact hheld hk.symm
      · exact h.held (.inl hk)
    · exact h.held (.inr hk)

lemma Narrows.eraseLive (h : Narrows label s t) (k : Text) :
    Narrows label s { t with registrations := t.registrations.erase k } := by
  refine ⟨⟨h.sound.live.erase k, h.sound.recoverable, fun a ha => ?_⟩, fun ha => ?_, h.durable⟩
  · exact h.sound.apart a (mem_erase_iff.mp ha).2
  · rcases ha with ha | ha
    · exact h.held (.inl (mem_erase_iff.mp ha).2)
    · exact h.held (.inr ha)

lemma Narrows.eraseRecoverable (h : Narrows label s t) (k : Text) :
    Narrows label s { t with recoverable := t.recoverable.erase k } := by
  refine ⟨⟨h.sound.live, h.sound.recoverable.erase k, fun a ha ha' => ?_⟩, fun ha => ?_, h.durable⟩
  · exact h.sound.apart a ha (mem_erase_iff.mp ha').2
  · rcases ha with ha | ha
    · exact h.held (.inl ha)
    · exact h.held (.inr (mem_erase_iff.mp ha).2)

lemma Narrows.setRecoverable (h : Narrows label s t)
    (hheld : r.projectLabel = label → Held s label) (hout : r.projectLabel ∉ t.registrations) :
    Narrows label s { t with recoverable := t.recoverable.set r.projectLabel r } := by
  refine ⟨⟨h.sound.live, h.sound.recoverable.set r, fun k hk hk' => ?_⟩, fun hk => ?_, h.durable⟩
  · rcases JsMap.mem_set.mp hk' with rfl | hk'
    · exact hout hk
    · exact h.sound.apart k hk hk'
  · rcases hk with hk | hk
    · exact h.held (.inl hk)
    · rcases JsMap.mem_set.mp hk with hk | hk
      · exact hheld hk.symm
      · exact h.held (.inr hk)

lemma keyed_entries {m : JsMap Text (Registration δ ν)} (h : Keyed m)
    {e : Σ _ : Text, Registration δ ν} (he : e ∈ m.entries) : e.2.projectLabel = e.1 :=
  h e.1 e.2 (AList.mem_lookup_iff.mpr he)

lemma mem_of_mem_values {m : JsMap Text (Registration δ ν)} (h : Keyed m)
    (hr : r ∈ m.values) : r.projectLabel ∈ m := by
  obtain ⟨k, hk⟩ := JsMap.mem_values.mp hr
  rw [h k r hk]
  exact JsMap.mem_iff_lookup.mpr ⟨r, hk⟩

lemma stored_persist (hlive : Keyed t.registrations) (hrec : Keyed t.recoverable) :
    Stored t.persist label ↔ Held t label := by
  have hkeyed := hrec.foldl_set fun e he => keyed_entries hlive he
  constructor
  · rintro ⟨r, hr, rfl⟩
    exact (mem_foldl_set.mp (mem_of_mem_values hkeyed hr)).symm
  · intro hheld
    obtain ⟨r, hr⟩ := JsMap.mem_iff_lookup.mp (mem_foldl_set.mpr (Or.symm hheld))
    exact ⟨r, JsMap.mem_values.mpr ⟨label, hr⟩, hkeyed label r hr⟩

lemma Narrows.persist (h : Narrows label s t) : Narrows label s t.persist := by
  refine ⟨⟨h.sound.live, h.sound.recoverable, h.sound.apart⟩, h.held, fun hl => .inr ?_⟩
  intro hstor
  exact hl (h.held ((stored_persist h.sound.live h.sound.recoverable).mp hstor))

end

section
variable {s t : State δ ν} {label : Text} {now : Option Int}

lemma sustain_label {held r : Registration δ ν} {now : Int} {queue : Option ProjectQueue}
    {workers : Nat} {verdict : SustainVerdict}
    (h : sustainProjectRegistration held now queue workers = .ok (r, verdict)) :
    r.projectLabel = held.projectLabel := by
  unfold sustainProjectRegistration at h
  split at h
  · split at h
    · cases h
    · cases h
      rfl
  · cases h
    rfl

variable {acc : Outcome δ ν × Bool}

lemma closeLoop_narrows (h : Narrows label s acc.1.1) : Narrows label s (closeLoop acc).1 := by
  unfold closeLoop
  split
  · exact h.persist
  · exact h

lemma sustainOne_narrows {now : Int} {held : Registration δ ν}
    (hs : Sound s) (hheld : held.projectLabel ∈ s.registrations)
    (h : Narrows label s acc.1.1) (hrec : acc.1.1.recoverable = s.recoverable) :
    Narrows label s (sustainOne now acc held).1.1 ∧
      (sustainOne now acc held).1.1.recoverable = s.recoverable := by
  unfold sustainOne
  split
  · split
    · exact ⟨h, hrec⟩
    · rename_i t changed r signal hsust
      have hlab := sustain_label hsust
      rw [← hlab] at hheld ⊢
      refine ⟨h.setLive (fun heq => .inl (heq ▸ hheld)) ?_, hrec⟩
      rw [hrec]
      exact hs.apart _ hheld
    · exact ⟨h, hrec⟩
  · exact ⟨h, hrec⟩

lemma sustainLoop_narrows {now : Int} {l : List (Registration δ ν)}
    (hs : Sound s) (hl : ∀ r ∈ l, r.projectLabel ∈ s.registrations)
    (h : Narrows label s acc.1.1) (hrec : acc.1.1.recoverable = s.recoverable) :
    Narrows label s (l.foldl (sustainOne now) acc).1.1 := by
  induction l generalizing acc with
  | nil => exact h
  | cons r l ih =>
    have hstep := @sustainOne_narrows _ _ _ _ _ now _ hs (hl r mem_cons_self) h hrec
    exact ih (fun r' hr' => hl r' (mem_cons_of_mem r hr')) hstep.1 hstep.2

lemma sustainRegistrations_narrows (hs : Sound s) :
    Narrows label s (s.sustainRegistrations now).1 := by
  cases now with
  | none => exact .refl hs
  | some now =>
    apply closeLoop_narrows
    exact sustainLoop_narrows hs (fun r hr => mem_of_mem_values hs.live hr) (.refl hs) rfl

lemma lapseOne_narrows {lapsed : Registration δ ν} (hheld : lapsed.projectLabel ∈ s.registrations)
    (h : Narrows label s t) : Narrows label s (lapseOne now t lapsed) := by
  have herase := h.eraseLive lapsed.projectLabel
  unfold lapseOne
  dsimp only
  split
  · exact herase.congr rfl rfl rfl
  · have hout : lapsed.projectLabel ∉ t.registrations.erase lapsed.projectLabel :=
      fun hmem => (mem_erase_iff.mp hmem).1 rfl
    exact (herase.setRecoverable (fun heq => .inl (heq ▸ hheld)) hout).congr rfl rfl rfl

lemma lapseLoop_narrows {l : List (Registration δ ν)}
    (hl : ∀ r ∈ l, r.projectLabel ∈ s.registrations) (h : Narrows label s t) :
    Narrows label s (l.foldl (lapseOne now) t) := by
  induction l generalizing t with
  | nil => exact h
  | cons r l ih =>
    exact ih (fun r' hr' => hl r' (mem_cons_of_mem r hr'))
      (lapseOne_narrows (hl r mem_cons_self) h)

lemma expireLapsedRegistrations_narrows (hs : Sound s) :
    Narrows label s (s.expireLapsedRegistrations now).1 := by
  have hsust := @sustainRegistrations_narrows _ _ _ label now hs
  unfold expireLapsedRegistrations
  split
  · rename_i t e heq
    rwa [heq] at hsust
  · rename_i t heq
    rw [heq] at hsust
    have hloop : Narrows label t ((t.registrations.values.filter
        (hasRegistrationLapsed · now)).foldl (lapseOne now) t) :=
      lapseLoop_narrows (fun r hr => mem_of_mem_values hsust.sound.live (mem_filter.mp hr).1)
        (.refl hsust.sound)
    dsimp only
    split
    · exact hsust.trans hloop
    · exact hsust.trans hloop.persist

lemma recoverOne_narrows {now : Int} {lapsed : Registration δ ν}
    (hheld : lapsed.projectLabel ∈ s.recoverable) (h : Narrows label s acc.1.1) :
    Narrows label s (recoverOne now acc lapsed.projectLabel lapsed).1.1 := by
  unfold recoverOne
  split
  · rename_i t changed
    have herase := h.eraseRecoverable lapsed.projectLabel
    dsimp only
    split_ifs
    · exact herase
    · split
      · exact h
      · rename_i r signal hsust
        have hlab := sustain_label hsust
        rw [← hlab] at hheld herase ⊢
        have hout : r.projectLabel ∉ t.recoverable.erase r.projectLabel :=
          fun hmem => (mem_erase_iff.mp hmem).1 rfl
        exact herase.setLive (fun heq => .inr (heq ▸ hheld)) hout
      · exact herase
      · exact h
  · exact h

lemma recoverLoop_narrows {now : Int} {l : List (Σ _ : Text, Registration δ ν)}
    (hl : ∀ e ∈ l, e.2.projectLabel = e.1 ∧ e.1 ∈ s.recoverable) (h : Narrows label s acc.1.1) :
    Narrows label s (l.foldl (fun acc e => recoverOne now acc e.1 e.2) acc).1.1 := by
  induction l generalizing acc with
  | nil => exact h
  | cons e l ih =>
    obtain ⟨hkey, hmem⟩ := hl e mem_cons_self
    rw [← hkey] at hmem
    have hstep := @recoverOne_narrows _ _ _ _ _ now _ hmem h
    rw [hkey] at hstep
    exact ih (fun e' he' => hl e' (mem_cons_of_mem e he')) hstep

lemma mem_of_mem_entries {m : JsMap Text (Registration δ ν)}
    {e : Σ _ : Text, Registration δ ν} (he : e ∈ m.entries) : e.1 ∈ m :=
  JsMap.mem_iff_lookup.mpr ⟨e.2, AList.mem_lookup_iff.mpr he⟩

lemma recoverRegistrations_narrows (hs : Sound s) :
    Narrows label s (s.recoverRegistrations now).1 := by
  cases now with
  | none => exact .refl hs
  | some now =>
    apply closeLoop_narrows
    exact recoverLoop_narrows
      (fun e he => ⟨keyed_entries hs.recoverable he, mem_of_mem_entries he⟩) (.refl hs)

lemma pruneRecoverable_narrows (hs : Sound s) : Narrows label s (s.pruneRecoverable now) := by
  have hloop : ∀ (l : List (Σ _ : Text, Registration δ ν)) (t : State δ ν), Narrows label s t →
      Narrows label s (l.foldl (fun t e =>
        if mayRecoverRegistration e.2 now = false then
          { t with recoverable := t.recoverable.erase e.1 }
        else t) t) := by
    intro l
    induction l with
    | nil => exact fun t h => h
    | cons e l ih =>
      intro t h
      rw [foldl_cons]
      apply ih
      split_ifs
      · exact h.eraseRecoverable e.1
      · exact h
  exact hloop _ s (.refl hs)

end

section
variable {shape : Shape δ ν} {s t : State δ ν} {label : Text} {now : Option Int}

lemma andThen_narrows {outcome : Outcome δ ν} {f : State δ ν → Outcome δ ν}
    (h : Narrows label s outcome.1) (hf : ∀ t, Sound t → Narrows label t (f t).1) :
    Narrows label s (andThen outcome f).1 := by
  unfold andThen
  split
  · exact h.trans (hf _ h.sound)
  · exact h

variable {r : Registration δ ν}

lemma build_label {request : RegistrationRequest δ ν} {held : Option (Registration δ ν)}
    (h : buildProjectRegistration shape request now held = .ok r) :
    r.projectLabel = request.projectLabel := by
  unfold buildProjectRegistration at h
  dsimp only at h
  split_ifs at h
  split at h
  · cases h
  · split at h
    · cases h
    · cases h
      rfl

lemma renew_label {held : Registration δ ν} {within : Option Int} {launch : Option ν}
    (h : renewProjectRegistration shape held now within launch = .ok r) :
    r.projectLabel = held.projectLabel := by
  unfold renewProjectRegistration at h
  dsimp only at h
  split at h
  · cases h
  · split at h
    · cases h
    · split at h
      · cases h
      · cases h
        rfl

lemma register_ok_narrows (hs : Sound s) (hne : r.projectLabel ≠ label) : Narrows label s
      (({ s with registrations := s.registrations.set r.projectLabel r } : State δ ν).persist.removeRegistrationHistory
        r.projectLabel) := by
  have hlive := hs.live.set r
  refine ⟨⟨hlive, hs.recoverable.erase _, fun k hk hk' => ?_⟩, fun hk => ?_, fun hl => .inr ?_⟩
  · obtain ⟨hkne, hk'⟩ := mem_erase_iff.mp hk'
    rcases JsMap.mem_set.mp hk with heq | hk
    · exact hkne heq
    · exact hs.apart k hk hk'
  · rcases hk with hk | hk
    · rcases JsMap.mem_set.mp hk with heq | hk
      · exact absurd heq.symm hne
      · exact .inl hk
    · exact .inr (mem_erase_iff.mp hk).2
  · intro hstor
    have hheld := (@stored_persist _ _
      { s with registrations := s.registrations.set r.projectLabel r } label hlive
      hs.recoverable).mp hstor
    rcases hheld with hk | hk
    · rcases JsMap.mem_set.mp hk with heq | hk
      · exact hne heq.symm
      · exact hl (.inl hk)
    · exact hl (.inr hk)

lemma registerProject_narrows (hs : Sound s) {request : RegistrationRequest δ ν}
    {session : Option Text} {unrunnable : Bool}
    (h : request.projectLabel = label →
      (s.registerProject shape request session now unrunnable).2 ≠ none) :
    Narrows label s (s.registerProject shape request session now unrunnable).1 := by
  have hexp := @expireLapsedRegistrations_narrows _ _ _ label now hs
  unfold registerProject at h ⊢
  by_cases hreach : permitted session request.projectLabel = false
  · rw [if_pos hreach]
    exact .refl hs
  · rw [if_neg hreach] at h ⊢
    revert h hexp
    generalize s.expireLapsedRegistrations now = outcome
    intro h hexp
    obtain ⟨t, _ | e⟩ := outcome
    · simp only [andThen] at h ⊢
      cases hbuild : buildProjectRegistration shape request now
          (t.registrations.lookup request.projectLabel) with
      | error e => exact hexp
      | ok r =>
        rw [hbuild] at h
        cases unrunnable with
        | true => exact hexp
        | false =>
          apply hexp.trans (register_ok_narrows hexp.sound _)
          rw [build_label hbuild]
          exact fun heq => h heq rfl
    · exact hexp

lemma renewProject_narrows (hs : Sound s) {k : Text} {session : Option Text}
    {within : Option Int} {launch : Option ν} :
    Narrows label s (s.renewProject shape k session within launch now).1 := by
  unfold renewProject
  split_ifs
  · exact .refl hs
  · apply andThen_narrows (expireLapsedRegistrations_narrows hs)
    intro t ht
    split
    · exact .refl ht
    · rename_i held hheld
      split
      · exact .refl ht
      · rename_i r hren
        have hmem : r.projectLabel ∈ t.registrations := by
          rw [renew_label hren, ht.live k held hheld]
          exact JsMap.mem_iff_lookup.mpr ⟨held, hheld⟩
        apply Narrows.persist
        exact (Narrows.refl ht).setLive (fun heq => .inl (heq ▸ hmem)) (ht.apart _ hmem)

lemma deregisterProject_narrows (hs : Sound s) {k : Text} {session : Option Text} :
    Narrows label s (s.deregisterProject k session now).1 := by
  have herase := ((@Narrows.refl _ _ _ label hs).eraseLive k).eraseRecoverable k
  unfold deregisterProject
  split_ifs
  · exact .refl hs
  · dsimp only
    split_ifs
    · apply Narrows.persist
      exact (herase.eraseRecoverable k).congr rfl rfl rfl
    · exact herase

lemma beginPoll_narrows (hs : Sound s) {transport : Bool} :
    Narrows label s (s.beginPoll now transport).1 := by
  apply andThen_narrows (expireLapsedRegistrations_narrows hs)
  intro t ht
  have hprune := @pruneRecoverable_narrows _ _ _ label now ht
  dsimp only
  split_ifs
  · exact hprune
  · exact hprune.congr rfl rfl rfl
  · exact hprune.congr rfl rfl rfl

lemma finishPoll_narrows (hs : Sound s) {poll : Poll} {answer : Text → QueueOutcome × Option Nat} :
    Narrows label s (s.finishPoll poll answer now).1 := by
  have hsame : ∀ queue : QueueDiscovery, Narrows label s { s with lastQueue := some queue } :=
    fun queue => (Narrows.refl hs).congr rfl rfl rfl
  apply andThen_narrows
  · exact (hsame _).trans (recoverRegistrations_narrows (hsame _).sound)
  · exact fun t ht => sustainRegistrations_narrows ht

def NotRegistered (shape : Shape δ ν) (label : Text) (s : State δ ν) (a : Step δ ν) : Prop :=
  ∀ request session now unrunnable, a = .register request session now unrunnable →
    request.projectLabel = label → (s.registerProject shape request session now unrunnable).2 ≠ none

lemma step_narrows (hs : Sound s) {a : Step δ ν} (hok : NotRegistered shape label s a)
    (hn : (daemon shape).next s a = some t) : Narrows label s t := by
  cases a with
  | register request session now unrunnable =>
    cases hn
    exact registerProject_narrows hs (hok request session now unrunnable rfl)
  | renew k session within launch now =>
    cases hn
    exact renewProject_narrows hs
  | deregister k session now =>
    cases hn
    exact deregisterProject_narrows hs
  | sweep now =>
    cases hn
    exact expireLapsedRegistrations_narrows hs
  | pollStart now transport =>
    cases hn
    exact beginPoll_narrows hs
  | pollAnswer i answer observedAt =>
    simp only [daemon, step, Option.map_map, Option.map_eq_some_iff] at hn
    obtain ⟨poll, -, rfl⟩ := hn
    have hsame : Narrows label s { s with polls := s.polls.eraseIdx i } :=
      (Narrows.refl hs).congr rfl rfl rfl
    exact hsame.trans (finishPoll_narrows hsame.sound)
  | pollFail i =>
    simp only [daemon, step, Option.map_map, Option.map_eq_some_iff] at hn
    obtain ⟨poll, -, rfl⟩ := hn
    exact (Narrows.refl hs).congr rfl rfl rfl
  | workers labels =>
    cases hn
    exact (Narrows.refl hs).congr rfl rfl rfl

end
section
variable {m : JsMap Text (Registration δ ν)} {l : List (Registration δ ν)}

lemma keyed_hold (h : Keyed m) : Keyed (l.foldl (fun m r => JsMap.set m r.projectLabel r) m) := by
  induction l generalizing m with
  | nil => exact h
  | cons r l ih => exact ih (h.set r)

lemma mem_hold {k : Text} : k ∈ l.foldl (fun m r => JsMap.set m r.projectLabel r) m ↔
    k ∈ m ∨ ∃ r ∈ l, r.projectLabel = k := by
  induction l generalizing m with
  | nil => simp
  | cons r l ih =>
    rw [foldl_cons, ih, JsMap.mem_set, exists_mem_cons_iff, eq_comm (a := k)]
    tauto

lemma keyed_empty : Keyed (∅ : JsMap Text (Registration δ ν)) := by
  intro k r hr
  cases hr

lemma sound_boot {restored : List (Registration δ ν)} {workers orphaned : List Text}
    {startedAt : Option Int} (h : (restored.map (·.projectLabel)).Nodup) :
    Sound (boot restored workers orphaned startedAt) := by
  have hsound : ∀ s : State δ ν,
      s.registrations = (restored.filter (keepsLive workers startedAt)).foldl
        (fun m r => JsMap.set m r.projectLabel r) ∅ →
      s.recoverable = ((restored.filter fun r => !keepsLive workers startedAt r).filter
        (mayRecoverRegistration · startedAt)).foldl (fun m r => JsMap.set m r.projectLabel r) ∅ →
      Sound s := by
    intro s hlive hrec
    refine ⟨hlive ▸ keyed_hold keyed_empty, hrec ▸ keyed_hold keyed_empty, fun k hk hk' => ?_⟩
    rw [hlive, mem_hold] at hk
    rw [hrec, mem_hold] at hk'
    rcases hk with hk | ⟨r, hr, rfl⟩
    · exact AList.notMem_empty k hk
    · rcases hk' with hk' | ⟨r', hr', heq⟩
      · exact AList.notMem_empty _ hk'
      · simp only [mem_filter] at hr hr'
        have hsame : r' = r := inj_on_of_nodup_map h hr'.1.1 hr.1 heq
        have hkept := hr'.1.2
        rw [hsame, hr.2] at hkept
        cases hkept
  unfold boot
  dsimp only
  split
  · exact hsound _ rfl rfl
  · exact hsound _ rfl rfl

end

section
variable {shape : Shape δ ν} {s : State δ ν} {label : Text} {session : Option Text}
  {now : Option Int}

lemma exists_notRegistered (s : State δ ν) (a : Step δ ν) :
    ∃ label, NotRegistered shape label s a := by
  cases a with
  | register request session now unrunnable =>
    refine ⟨'p' :: request.projectLabel, fun request' session' now' unrunnable' heq hlab => ?_⟩
    cases heq
    exact absurd hlab (cons_ne_self 'p' _).symm
  | _ => exact ⟨[], fun _ _ _ _ heq => by cases heq⟩

lemma sound_of_reach (h : (daemon shape).Reach anyStep s) : Sound s := by
  refine h.inv Sound (fun s hs => ?_) fun s a t hs _ hn => ?_
  · obtain ⟨restored, workers, orphaned, startedAt, now, hnod, hrecov⟩ := hs
    have hboot := @recoverRegistrations_narrows _ _ _ [] now
      (@sound_boot _ _ _ workers orphaned startedAt hnod)
    rw [hrecov] at hboot
    exact hboot.sound
  · obtain ⟨label, hlab⟩ := @exists_notRegistered _ _ shape s a
    exact (step_narrows hs hlab hn).sound

lemma run_narrows {t : State δ ν} {as : List (Step δ ν)} (hs : Sound s)
    (h : (daemon shape).Run (NotRegistered shape label) s as t) : Narrows label s t :=
  h.inv (Narrows label s) (fun _ _ _ hi hok hn => hi.trans (step_narrows hi.sound hok hn))
    (.refl hs)

lemma lookup_isSome {m : JsMap Text (Registration δ ν)} {k : Text} :
    (m.lookup k).isSome = true ↔ k ∈ m := AList.lookup_isSome

lemma deregisterProject_ok (hs : Sound s) (h : (s.deregisterProject label session now).2 = none) :
    ¬ Held (s.deregisterProject label session now).1 label ∧
      (Stored (s.deregisterProject label session now).1 label ↔ ¬ Held s label ∧ Stored s label) := by
  have heras : ∀ m : JsMap Text (Registration δ ν), label ∉ m.erase label :=
    fun m hmem => (mem_erase_iff.mp hmem).1 rfl
  have hheld : ((s.registrations.lookup label).isSome ||
      (s.recoverable.lookup label).isSome) = true ↔ Held s label := by
    rw [Bool.or_eq_true, lookup_isSome, lookup_isSome]
    rfl
  have hnarr := @deregisterProject_narrows _ _ _ label now hs label session
  unfold deregisterProject at h hnarr ⊢
  dsimp only at h hnarr ⊢
  split_ifs at h hnarr ⊢ with hreach hrel
  · have hgone : ¬ Held (((({ s with
        registrations := s.registrations.erase label
        recoverable := s.recoverable.erase label } : State δ ν).removeRegistrationHistory
          label))) label := fun hl => hl.elim (heras _) (heras _)
    refine ⟨hgone, fun hstor => ?_, fun hkept => absurd (hheld.mp hrel) hkept.1⟩
    exact absurd ((stored_persist (hs.live.erase label)
      ((hs.recoverable.erase label).erase label)).mp hstor) hgone
  · have hnone : ¬ Held s label := fun hl => hrel (hheld.mpr hl)
    refine ⟨fun hl => hl.elim (heras _) (heras _), fun hstor => ⟨hnone, hstor⟩, fun hkept => hkept.2⟩

/-- In every run no label is in both sets. -/
theorem stays_stopped (h : (daemon shape).Reach anyStep s) :
    (∀ label, ¬ (label ∈ s.registrations ∧ label ∈ s.recoverable)) ∧
      ∀ label session now t, s.deregisterProject label session now = (t, none) →
        (∀ as u, (daemon shape).Run (NotRegistered shape label) t as u →
          ¬ Held u label ∧ (u.durable = t.durable ∨ ¬ Stored u label)) ∧
        ((∀ as u, (daemon shape).Run (NotRegistered shape label) t as u →
          ¬ Held u label ∧ ¬ Stored u label) ↔ Held s label ∨ ¬ Stored s label) := by
  have hs := sound_of_reach h
  refine ⟨fun label hboth => hs.apart label hboth.1 hboth.2, fun label session now t ht => ?_⟩
  have hok := @deregisterProject_ok _ _ s label session now hs (by rw [ht])
  have hsound := (@deregisterProject_narrows _ _ _ label now hs label session).sound
  rw [ht] at hok hsound
  obtain ⟨hgone, hstor⟩ := hok
  have hlat : ∀ as u, (daemon shape).Run (NotRegistered shape label) t as u →
      ¬ Held u label ∧ (u.durable = t.durable ∨ ¬ Stored u label) := by
    intro as u hrun
    have hnarr := run_narrows hsound hrun
    exact ⟨fun hl => hgone (hnarr.held hl), hnarr.durable hgone⟩
  refine ⟨hlat, fun hall => ?_, fun hcond as u hrun => ⟨(hlat as u hrun).1, ?_⟩⟩
  · have hfree := (hall [] t (.nil t)).2
    rw [hstor] at hfree
    tauto
  · have hfree : ¬ Stored t label := by
      rw [hstor]
      tauto
    rcases (hlat as u hrun).2 with heq | hfree'
    · unfold Stored at hfree ⊢
      rwa [heq]
    · exact hfree'

end

section

def anyShape : Shape Unit Unit := { declaredOk := fun _ => true, launchOk := fun _ => true }

def ask : RegistrationRequest Unit Unit :=
  { projectLabel := ['p'], declared := (), launch := (), target := 1, standing := false
    renewWithinMs := some 1000 }

def pruned : List (Step Unit Unit) :=
  [.register ask none (some 0) false, .pollStart (some 10) true,
    .pollAnswer 0 (fun _ => (.counted, some 1)) (some 20), .sweep (some 5000),
    .pollStart (some 9000) true]

def fresh : State Unit Unit := boot [] [] [] (some 0)

lemma start_fresh : (daemon anyShape).start fresh :=
  ⟨[], [], [], some 0, some 0, nodup_nil, rfl⟩

/-- A poll prunes the lapsed project, and the stored snapshot still has it at the restart. -/
theorem pruned_stays_stored :
    ¬ ∀ (shape : Shape Unit Unit) (s t u : State Unit Unit) label session now as,
      (daemon shape).Reach anyStep s → s.deregisterProject label session now = (t, none) →
        (daemon shape).Run (NotRegistered shape label) t as u →
          ¬ Held u label ∧ ¬ Stored u label := by
  intro h
  have hrun : ((daemon anyShape).exec fresh pruned).map (fun s =>
      ((s.deregisterProject ['p'] none (some 9001)).2,
        (s.deregisterProject ['p'] none (some 9001)).1.durable.map (·.projectLabel))) =
      some (none, [['p']]) := by
    decide +kernel
  obtain ⟨s, hs, hfacts⟩ := Option.map_eq_some_iff.mp hrun
  obtain ⟨hansw, hdurable⟩ := Prod.mk.inj hfacts
  have hfree := (h anyShape s (s.deregisterProject ['p'] none (some 9001)).1 _ ['p'] none
    (some 9001) [] (Machine.reach_of_exec start_fresh hs) (Prod.ext rfl hansw) (.nil _)).2
  apply hfree
  have hmem : ['p'] ∈ (s.deregisterProject ['p'] none (some 9001)).1.durable.map
      (·.projectLabel) := by
    rw [hdurable]
    exact mem_singleton_self _
  exact mem_map.mp hmem

theorem stopped_after_register :
    ∃ s t : State Unit Unit, ['p'] ∈ s.registrations ∧
      s.deregisterProject ['p'] none (some 1) = (t, none) ∧
      ∀ as u, (daemon anyShape).Run (NotRegistered anyShape ['p']) t as u →
        ¬ Held u ['p'] ∧ ¬ Stored u ['p'] := by
  have hrun : ((daemon anyShape).exec fresh [.register ask none (some 0) false]).map (fun s =>
      (s.registrations.keys, (s.deregisterProject ['p'] none (some 1)).2)) =
      some ([['p']], none) := by
    decide +kernel
  obtain ⟨s, hs, hfacts⟩ := Option.map_eq_some_iff.mp hrun
  obtain ⟨hkeys, hansw⟩ := Prod.mk.inj hfacts
  have hmem : ['p'] ∈ s.registrations := by
    rw [AList.mem_keys, hkeys]
    exact mem_singleton_self _
  have ht : s.deregisterProject ['p'] none (some 1) = (_, none) := Prod.ext rfl hansw
  obtain ⟨-, hstop⟩ := stays_stopped (Machine.reach_of_exec start_fresh hs)
  exact ⟨s, _, hmem, ht, (hstop ['p'] none (some 1) _ ht).2.mpr (.inl (.inl hmem))⟩

end
end Redskilled.Daemon.Registrations
