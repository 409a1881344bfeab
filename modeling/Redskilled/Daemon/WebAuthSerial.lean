import Mathlib.Data.List.Nodup
import Mathlib.Data.List.Pairwise
import Redskilled.Daemon.WebAuth

/-!
# Changes one after the other

A list of changes is serial where each one was made of the state that the one before it
left, and where the secrets are new. Along such a list nothing is lost but what expires, is
redeemed or is revoked. An invitation is redeemed once at most, and a device that was
revoked has no session any more.
-/
namespace Redskilled.Daemon.WebAuth
open Foundation List

section
variable (hash : Text → Text)

def Commit.issues (c : Commit) : List Text := hashesOf hash c.request

def Commit.redeems (c : Commit) : Option Text :=
  match c.request with
  | .redeemWebInvitation token => (c.captured hash).identity.map fun _ => hash token
  | _ => none

def Commit.ids (c : Commit) : List Text := c.draws.deviceId :: idsOf c.request

def stateAfter (commits : List Commit) : AuthState :=
  (commits.getLast?.map (Commit.next hash)).getD {}

structure Follows (commits : List Commit) (c : Commit) : Prop where
  base : c.base = stateAfter hash commits
  held : c.held = {}
  hashes : ∀ c' ∈ commits, ∀ h ∈ c.issues hash, h ∉ c'.issues hash
  ids : ∀ c' ∈ commits, c.draws.deviceId ∉ c'.ids

inductive Serial : List Commit → Prop
  | nil : Serial []
  | snoc {commits : List Commit} {c : Commit} :
      Serial commits → Follows hash commits c → Serial (commits ++ [c])

/-- What holds of the invitations after some changes. -/
structure Invites (commits : List Commit) (state : AuthState) : Prop where
  issued : ∀ entry ∈ state.invitations, ∃ c ∈ commits, entry.hash ∈ c.issues hash
  unredeemed : ∀ entry ∈ state.invitations, ∀ c ∈ commits, c.redeems hash ≠ some entry.hash
  nodup : (state.invitations.map (·.hash)).Nodup
  redeemed : ∀ c ∈ commits, ∀ h, c.redeems hash = some h → ∃ c' ∈ commits, h ∈ c'.issues hash
  once : commits.Pairwise fun c c' => ∀ h, c.redeems hash = some h → c'.redeems hash ≠ some h

/-- What holds of the devices and their sessions. -/
structure Pairs (commits : List Commit) (state : AuthState) : Prop where
  nodup : (state.devices.map (·.id)).Nodup
  drawn : ∀ device ∈ state.devices, ∃ c ∈ commits, device.id = c.draws.deviceId
  live : ∀ session ∈ state.sessions, ∃ device ∈ state.devices,
    device.id = session.deviceId ∧ device.revokedAt = none
  gone : ∀ c ∈ commits, ∀ id, c.request = .revokeWebDevice id → ∀ device ∈ state.devices,
    device.id = id → device.revokedAt ≠ none

end

section
variable {hash : Text → Text} {commits : List Commit} {state state' : AuthState} {c : Commit}

lemma mem_snoc {c' : Commit} (h : c' ∈ commits ++ [c]) : c' ∈ commits ∨ c' = c := by
  simpa using h

lemma Invites.fewer (h : Invites hash commits state)
    (hsub : state'.invitations.Sublist state.invitations)
    (hredee : ∀ r, c.redeems hash = some r → r ∈ state.invitations.map (·.hash) ∧
      r ∉ state'.invitations.map (·.hash)) : Invites hash (commits ++ [c]) state' := by
  constructor
  · intro entry hentry
    obtain ⟨c', hc', hiss⟩ := h.issued entry (hsub.mem hentry)
    exact ⟨c', mem_append_left _ hc', hiss⟩
  · intro entry hentry c' hc' hred
    rcases mem_snoc hc' with hold | rfl
    · exact h.unredeemed entry (hsub.mem hentry) c' hold hred
    · exact (hredee _ hred).2 (mem_map_of_mem hentry)
  · exact (hsub.map _).nodup h.nodup
  · intro c' hc' r hred
    rcases mem_snoc hc' with hold | rfl
    · obtain ⟨c'', hc'', hiss⟩ := h.redeemed c' hold r hred
      exact ⟨c'', mem_append_left _ hc'', hiss⟩
    · obtain ⟨entry, hentry, rfl⟩ := mem_map.mp (hredee r hred).1
      obtain ⟨c'', hc'', hiss⟩ := h.issued entry hentry
      exact ⟨c'', mem_append_left _ hc'', hiss⟩
  · apply pairwise_append.mpr
    refine ⟨h.once, pairwise_singleton _ _, ?_⟩
    intro c' hc' c'' hc'' r hred hagain
    obtain rfl := mem_singleton.mp hc''
    obtain ⟨entry, hentry, rfl⟩ := mem_map.mp (hredee r hagain).1
    exact h.unredeemed entry hentry c' hc' hred

lemma Invites.more (h : Invites hash commits state) {entry : Invitation}
    {kept : List Invitation} (hsub : kept.Sublist state.invitations)
    (hstate : state'.invitations = kept ++ [entry]) (hiss : c.issues hash = [entry.hash])
    (hredee : c.redeems hash = none)
    (hnew : ∀ c' ∈ commits, entry.hash ∉ c'.issues hash) :
    Invites hash (commits ++ [c]) state' := by
  have hself : entry.hash ∈ c.issues hash := by
    rw [hiss]
    exact mem_singleton_self _
  have hfresh : ∀ old ∈ state.invitations, old.hash ≠ entry.hash := by
    intro old hold hsame
    obtain ⟨c', hc', hmem⟩ := h.issued old hold
    exact hnew c' hc' (hsame ▸ hmem)
  constructor
  · intro other hoth
    rw [hstate] at hoth
    rcases mem_append.mp hoth with hkept | hlast
    · obtain ⟨c', hc', hmem⟩ := h.issued other (hsub.mem hkept)
      exact ⟨c', mem_append_left _ hc', hmem⟩
    · obtain rfl := mem_singleton.mp hlast
      exact ⟨c, by simp, hself⟩
  · intro other hoth c' hc' hred
    rw [hstate] at hoth
    rcases mem_snoc hc' with hold | rfl
    · rcases mem_append.mp hoth with hkept | hlast
      · exact h.unredeemed other (hsub.mem hkept) c' hold hred
      · obtain rfl := mem_singleton.mp hlast
        obtain ⟨c'', hc'', hmem⟩ := h.redeemed c' hold _ hred
        exact hnew c'' hc'' hmem
    · rw [hredee] at hred
      cases hred
  · rw [hstate, map_append, nodup_append]
    refine ⟨(hsub.map _).nodup h.nodup, nodup_singleton _, ?_⟩
    intro a ha b hb
    obtain ⟨old, hold, rfl⟩ := mem_map.mp ha
    obtain rfl := mem_singleton.mp hb
    exact hfresh old (hsub.mem hold)
  · intro c' hc' r hred
    rcases mem_snoc hc' with hold | rfl
    · obtain ⟨c'', hc'', hmem⟩ := h.redeemed c' hold r hred
      exact ⟨c'', mem_append_left _ hc'', hmem⟩
    · rw [hredee] at hred
      cases hred
  · apply pairwise_append.mpr
    refine ⟨h.once, pairwise_singleton _ _, ?_⟩
    intro c' hc' c'' hc'' r _ hagain
    obtain rfl := mem_singleton.mp hc''
    rw [hredee] at hagain
    cases hagain

lemma liveInvitations_sublist (now : ℤ) (state : AuthState) :
    (liveInvitations now state).Sublist state.invitations := List.filter_sublist

lemma hash_notMem_erase {entries all : List Invitation} {entry : Invitation}
    (hsub : entries.Sublist all) (hnod : (all.map (·.hash)).Nodup) (hentry : entry ∈ all) :
    entry.hash ∉ (entries.erase entry).map (·.hash) := by
  intro hmem
  obtain ⟨other, hoth, hsame⟩ := mem_map.mp hmem
  have hentr : entries.Nodup := hsub.nodup hnod.of_map
  obtain ⟨hne, hin⟩ := hentr.mem_erase_iff.mp hoth
  exact hne (inj_on_of_nodup_map hnod (hsub.mem hin) hentry hsame)

section
variable {α : Type*} [DecidableEq α] {l : List α} {a b x : α}

lemma mem_or_eq_of_mem_replace (h : x ∈ l.replace a b) : x ∈ l ∨ x = b := by
  induction l with
  | nil => cases h
  | cons y l ih =>
    rw [replace_cons] at h
    cases hself : a == y with
    | true =>
      rw [hself] at h
      rcases mem_cons.mp h with hb | hrest
      · exact .inr hb
      · exact .inl (mem_cons_of_mem y hrest)
    | false =>
      rw [hself] at h
      rcases mem_cons.mp h with rfl | hrest
      · exact .inl mem_cons_self
      · exact (ih hrest).imp_left (mem_cons_of_mem y)

lemma mem_replace_of_mem (h : x ∈ l) : x ∈ l.replace a b ∨ x = a ∧ b ∈ l.replace a b := by
  induction l with
  | nil => cases h
  | cons y l ih =>
    rw [replace_cons]
    cases hself : a == y with
    | true =>
      have hy : a = y := by simpa using hself
      rcases mem_cons.mp h with rfl | hrest
      · exact .inr ⟨hy.symm, mem_cons_self⟩
      · exact .inl (mem_cons_of_mem b hrest)
    | false =>
      rcases mem_cons.mp h with rfl | hrest
      · exact .inl mem_cons_self
      · rcases ih hrest with hstays | ⟨hx, hb⟩
        · exact .inl (mem_cons_of_mem y hstays)
        · exact .inr ⟨hx, mem_cons_of_mem y hb⟩

end

section
variable {moment : Moment} {draws : Draws} {held : Captured} {token : Text}

lemma mem_of_findInvitation {entry : Invitation}
    (h : findInvitation hash moment state token = some entry) :
    entry ∈ state.invitations ∧ entry.hash = hash token := by
  have hmem := (liveInvitations_sublist _ _).mem (mem_of_find?_eq_some h)
  exact ⟨hmem, by simpa using find?_some h⟩

lemma mem_of_findSession {session : Session}
    (h : findSession hash moment state token = some session) :
    session ∈ liveSessions moment.checked state :=
  mem_of_find?_eq_some h

lemma mem_of_findDevice {session : Session} {device : RedskilledWebDevice}
    (h : findDevice state session = some device) :
    device ∈ state.devices ∧ device.id = session.deviceId ∧ device.revokedAt = none := by
  have hsome := find?_some h
  simp only [decide_eq_true_eq] at hsome
  exact ⟨mem_of_find?_eq_some h, hsome⟩

lemma redeemed_none (h : findInvitation hash moment state token = none) :
    redeemed hash moment draws held state token =
      ({ state with invitations := liveInvitations moment.kept state }, held) := by
  rw [redeemed, h]

lemma redeemed_some {entry : Invitation} (h : findInvitation hash moment state token = some entry) :
    redeemed hash moment draws held state token = ({ state with
          invitations := (liveInvitations moment.kept state).erase entry
          devices := state.devices ++ [newDevice moment draws entry]
          sessions := state.sessions ++ [newSession hash moment draws] },
        held.identified ⟨draws.sessionToken, draws.csrf, newDevice moment draws entry⟩) := by
  rw [redeemed, h]

lemma authenticated_cases (hash : Text → Text) (moment : Moment) (held : Captured)
    (state : AuthState) (token : Text) :
    (∃ session device, findSession hash moment state token = some session ∧
        findDevice state session = some device ∧
        authenticated hash moment held state token = ({ state with
              devices := state.devices.map fun entry =>
                if entry.id = device.id then touched moment device else entry
              sessions := (liveSessions moment.checked state).replace session
                { session with lastSeenAt := moment.now } },
            held.identified ⟨token, session.csrf, touched moment device⟩)) ∨
      (findSession hash moment state token = none ∧ authenticated hash moment held state token =
          ({ state with sessions := liveSessions moment.checked state }, held)) ∨
      ∃ session, findSession hash moment state token = some session ∧
        findDevice state session = none ∧
        authenticated hash moment held state token =
          ({ state with sessions := state.sessions.erase session }, held) := by
  unfold authenticated
  cases hsess : findSession hash moment state token with
  | none => exact .inr (.inl ⟨rfl, rfl⟩)
  | some session =>
    cases hdev : findDevice state session with
    | none => exact .inr (.inr ⟨session, rfl, hdev, by simp only [hdev]⟩)
    | some device => exact .inl ⟨session, device, rfl, hdev, by simp only [hdev]⟩

lemma invitations_authenticated :
    (authenticated hash moment held state token).1.invitations = state.invitations := by
  rcases authenticated_cases hash moment held state token with ⟨_, _, _, _, h⟩ | ⟨_, h⟩ |
    ⟨_, _, _, h⟩ <;> rw [h]

end

lemma Invites.snoc (h : Invites hash commits (stateAfter hash commits))
    (hfoll : Follows hash commits c) : Invites hash (commits ++ [c]) (c.next hash) := by
  obtain ⟨call, request, moment, draws, held, base⟩ := c
  obtain ⟨rfl, rfl, hhashes, _⟩ := hfoll
  cases request with
  | createWebInvitation token calledAt name =>
    apply h.more (liveInvitations_sublist moment.checked _) rfl rfl rfl
    exact fun c' hc' => hhashes c' hc' _ (mem_singleton_self _)
  | redeemWebInvitation token =>
    cases hfind : findInvitation hash moment (stateAfter hash commits) token with
    | none =>
      have hnext := @redeemed_none hash _ moment draws {} token hfind
      apply h.fewer
      · simp only [Commit.next, change, hnext]
        exact liveInvitations_sublist moment.kept _
      · intro r hred
        simp [Commit.redeems, Commit.captured, change, hnext] at hred
    | some entry =>
      have hnext := @redeemed_some hash _ moment draws {} token entry hfind
      obtain ⟨hmem, hhash⟩ := mem_of_findInvitation hfind
      apply h.fewer
      · simp only [Commit.next, change, hnext]
        exact erase_sublist.trans (liveInvitations_sublist moment.kept _)
      · intro r hred
        have hr : hash token = r := by
          simpa [Commit.redeems, Commit.captured, change, hnext, Captured.identified]
            using hred
        rw [← hr, ← hhash]
        refine ⟨mem_map_of_mem hmem, ?_⟩
        simp only [Commit.next, change, hnext]
        exact hash_notMem_erase (liveInvitations_sublist _ _) h.nodup hmem
  | authenticateWebSession token =>
    apply h.fewer
    · simp only [Commit.next, change, invitations_authenticated]
      exact List.Sublist.refl _
    · intro r hred
      cases hred
  | revokeWebDevice id =>
    apply h.fewer
    · exact List.Sublist.refl _
    · intro r hred
      cases hred

end

section
variable {hash : Text → Text} {commits : List Commit} {state state' : AuthState} {c : Commit}

lemma Pairs.mapped (h : Pairs commits state) {f : RedskilledWebDevice → RedskilledWebDevice}
    (hdevic : state'.devices = state.devices.map f) (hid : ∀ device, (f device).id = device.id)
    (hgone : ∀ device ∈ state.devices, device.revokedAt ≠ none → (f device).revokedAt ≠ none)
    (hlive : ∀ session ∈ state'.sessions, ∃ device ∈ state.devices,
      device.id = session.deviceId ∧ (f device).revokedAt = none)
    (hrevok : ∀ id, c.request = .revokeWebDevice id → ∀ device ∈ state.devices,
      device.id = id → (f device).revokedAt ≠ none) : Pairs (commits ++ [c]) state' := by
  constructor
  · rw [hdevic, map_map]
    have hsame : ((fun device : RedskilledWebDevice => device.id) ∘ f) = (·.id) := funext hid
    rw [hsame]
    exact h.nodup
  · intro device hdev
    rw [hdevic] at hdev
    obtain ⟨old, hold, rfl⟩ := mem_map.mp hdev
    obtain ⟨c', hc', hdrawn⟩ := h.drawn old hold
    exact ⟨c', mem_append_left _ hc', (hid old).trans hdrawn⟩
  · intro session hsess
    obtain ⟨device, hdev, hsame, hnone⟩ := hlive session hsess
    refine ⟨f device, ?_, (hid device).trans hsame, hnone⟩
    rw [hdevic]
    exact mem_map_of_mem hdev
  · intro c' hc' id hreq device hdev hsame
    rw [hdevic] at hdev
    obtain ⟨old, hold, rfl⟩ := mem_map.mp hdev
    rw [hid] at hsame
    rcases mem_snoc hc' with hbef | rfl
    · exact hgone old hold (h.gone c' hbef id hreq old hold hsame)
    · exact hrevok id hreq old hold hsame

lemma Pairs.same (h : Pairs commits state) (hdevic : state'.devices = state.devices)
    (hsessi : state'.sessions ⊆ state.sessions)
    (hreq : ∀ id, c.request ≠ .revokeWebDevice id) : Pairs (commits ++ [c]) state' := by
  apply h.mapped (f := id)
  · rw [hdevic, map_id]
  · exact fun _ => rfl
  · exact fun _ _ hnot => hnot
  · exact fun session hsess => h.live session (hsessi hsess)
  · exact fun id hsame => absurd hsame (hreq id)

lemma Pairs.more (h : Pairs commits state) {device : RedskilledWebDevice} {session : Session}
    (hdevic : state'.devices = state.devices ++ [device])
    (hsessi : state'.sessions = state.sessions ++ [session])
    (hdrawn : device.id = c.draws.deviceId) (hsame : session.deviceId = device.id)
    (hlive : device.revokedAt = none) (hreq : ∀ id, c.request ≠ .revokeWebDevice id)
    (hnew : ∀ c' ∈ commits, c.draws.deviceId ∉ c'.ids) : Pairs (commits ++ [c]) state' := by
  constructor
  · rw [hdevic, map_append, nodup_append]
    refine ⟨h.nodup, nodup_singleton _, ?_⟩
    intro a ha b hb heq
    obtain ⟨old, hold, rfl⟩ := mem_map.mp ha
    obtain rfl := mem_singleton.mp hb
    change old.id = device.id at heq
    obtain ⟨c', hc', hid⟩ := h.drawn old hold
    apply hnew c' hc'
    rw [← hdrawn, ← heq, hid]
    exact mem_cons_self
  · intro other hoth
    rw [hdevic] at hoth
    rcases mem_append.mp hoth with hold | hlast
    · obtain ⟨c', hc', hid⟩ := h.drawn other hold
      exact ⟨c', mem_append_left _ hc', hid⟩
    · obtain rfl := mem_singleton.mp hlast
      exact ⟨c, by simp, hdrawn⟩
  · intro other hoth
    rw [hsessi] at hoth
    rw [hdevic]
    rcases mem_append.mp hoth with hold | hlast
    · obtain ⟨found, hfound, hrest⟩ := h.live other hold
      exact ⟨found, mem_append_left _ hfound, hrest⟩
    · obtain rfl := mem_singleton.mp hlast
      exact ⟨device, by simp, hsame.symm, hlive⟩
  · intro c' hc' id hrevok other hoth hid
    rw [hdevic] at hoth
    rcases mem_snoc hc' with hbef | rfl
    · rcases mem_append.mp hoth with hold | hlast
      · exact h.gone c' hbef id hrevok other hold hid
      · obtain rfl := mem_singleton.mp hlast
        apply absurd _ (hnew c' hbef)
        rw [← hdrawn, hid, Commit.ids, hrevok]
        simp [idsOf]
    · exact absurd hrevok (hreq id)

lemma Pairs.snoc (h : Pairs commits (stateAfter hash commits))
    (hfoll : Follows hash commits c) : Pairs (commits ++ [c]) (c.next hash) := by
  obtain ⟨call, request, moment, draws, held, base⟩ := c
  obtain ⟨rfl, rfl, _, hids⟩ := hfoll
  cases request with
  | createWebInvitation token calledAt name =>
    exact h.same rfl (List.Subset.refl _) (by simp)
  | redeemWebInvitation token =>
    cases hfind : findInvitation hash moment (stateAfter hash commits) token with
    | none =>
      have hnext := @redeemed_none hash _ moment draws {} token hfind
      apply h.same
      · simp only [Commit.next, change, hnext]
      · simp only [Commit.next, change, hnext]
        exact List.Subset.refl _
      · simp
    | some entry =>
      have hnext := @redeemed_some hash _ moment draws {} token entry hfind
      apply h.more
      · simp only [Commit.next, change, hnext]
        rfl
      · simp only [Commit.next, change, hnext]
        rfl
      · rfl
      · rfl
      · rfl
      · simp
      · exact hids
  | authenticateWebSession token =>
    rcases authenticated_cases hash moment {} (stateAfter hash commits) token with
      ⟨session, device, hsess, hdev, hnext⟩ | ⟨_, hnext⟩ | ⟨session, _, _, hnext⟩
    · have hfound := mem_of_mem_filter (mem_of_findSession hsess)
      obtain ⟨hmem, _, hlive⟩ := mem_of_findDevice hdev
      have htouch : ∀ entry ∈ (stateAfter hash commits).devices,
          (if entry.id = device.id then touched moment device else entry).revokedAt =
            entry.revokedAt := by
        intro entry hentry
        split_ifs with hsame
        · rw [inj_on_of_nodup_map h.nodup hentry hmem hsame]
          rfl
        · rfl
      apply h.mapped (f := fun entry => if entry.id = device.id then touched moment device else entry)
      · simp only [Commit.next, change, hnext]
      · intro entry
        split_ifs with hsame
        · exact hsame.symm
        · rfl
      · intro entry hentry hnot
        rw [htouch entry hentry]
        exact hnot
      · intro found hin
        simp only [Commit.next, change, hnext] at hin
        have hkept : ∃ old ∈ (stateAfter hash commits).sessions, old.deviceId = found.deviceId := by
          rcases mem_or_eq_of_mem_replace hin with hold | rfl
          · exact ⟨found, mem_of_mem_filter hold, rfl⟩
          · exact ⟨session, hfound, rfl⟩
        obtain ⟨old, hold, hsame⟩ := hkept
        obtain ⟨entry, hentry, hid, hnone⟩ := h.live old hold
        exact ⟨entry, hentry, hid.trans hsame, (htouch entry hentry).trans hnone⟩
      · intro id hreq
        cases hreq
    · apply h.same
      · simp only [Commit.next, change, hnext]
      · simp only [Commit.next, change, hnext]
        exact filter_sublist.subset
      · simp
    · apply h.same
      · simp only [Commit.next, change, hnext]
      · simp only [Commit.next, change, hnext]
        exact erase_subset
      · simp
  | revokeWebDevice id =>
    apply h.mapped (f := fun device => if isRevocable id device then revoked moment device else device)
    · rfl
    · intro device
      split_ifs <;> rfl
    · intro device _ hnot
      split_ifs
      · simp [revoked]
      · exact hnot
    · intro session hsess
      obtain ⟨hin, hoth⟩ := mem_filter.mp hsess
      obtain ⟨device, hdev, hid, hnone⟩ := h.live session hin
      refine ⟨device, hdev, hid, ?_⟩
      rw [if_neg]
      · exact hnone
      · intro hrev
        simp only [isRevocable, decide_eq_true_eq] at hrev hoth
        exact hoth (hid.symm.trans hrev.1)
    · intro other hreq device _ hsame
      injection hreq with hid
      split_ifs with hrev
      · simp [revoked]
      · intro hnone
        apply hrev
        simp only [isRevocable, decide_eq_true_eq]
        exact ⟨hsame.trans hid.symm, hnone⟩

end

section
variable {hash : Text → Text} {commits : List Commit} {c : Commit}

lemma stateAfter_snoc : stateAfter hash (commits ++ [c]) = c.next hash := by
  simp [stateAfter]

lemma Serial.invites (h : Serial hash commits) : Invites hash commits (stateAfter hash commits) := by
  induction h with
  | nil =>
    constructor
    · exact fun _ hentry => nomatch hentry
    · exact fun _ hentry => nomatch hentry
    · exact nodup_nil
    · exact fun _ hc => nomatch hc
    · exact List.Pairwise.nil
  | snoc _ hfoll ih =>
    rw [stateAfter_snoc]
    exact ih.snoc hfoll

lemma Serial.pairs (h : Serial hash commits) : Pairs commits (stateAfter hash commits) := by
  induction h with
  | nil =>
    constructor
    · exact nodup_nil
    · exact fun _ hdev => nomatch hdev
    · exact fun _ hsess => nomatch hsess
    · exact fun _ hc => nomatch hc
  | snoc _ hfoll ih =>
    rw [stateAfter_snoc]
    exact ih.snoc hfoll

lemma Serial.split (h : Serial hash commits) {before after : List Commit}
    (hspl : commits = before ++ c :: after) : Serial hash before ∧ Follows hash before c := by
  induction h generalizing after with
  | nil => simp at hspl
  | @snoc commits last hser hfoll ih =>
    rcases eq_nil_or_concat after with rfl | ⟨rest, e, rfl⟩
    · obtain ⟨rfl, hlast⟩ := append_inj' hspl rfl
      obtain rfl := singleton_inj.mp hlast
      exact ⟨hser, hfoll⟩
    · rw [concat_eq_append, ← cons_append, ← append_assoc] at hspl
      exact ih (append_inj' hspl rfl).1

structure KeepsAll (hash : Text → Text) (c : Commit) : Prop where
  invitations : ∀ entry ∈ c.base.invitations, entry ∈ (c.next hash).invitations ∨
    entry.expiresAt ≤ c.moment.checked ∨ entry.expiresAt ≤ c.moment.kept ∨
      c.redeems hash = some entry.hash
  devices : ∀ device ∈ c.base.devices, ∃ device' ∈ (c.next hash).devices,
    device'.id = device.id ∧ device'.name = device.name ∧ device'.createdAt = device.createdAt ∧
      (device'.revokedAt = device.revokedAt ∨ c.request = .revokeWebDevice device.id)
  sessions : ∀ session ∈ c.base.sessions,
    (∃ session' ∈ (c.next hash).sessions, session'.hash = session.hash ∧
      session'.deviceId = session.deviceId ∧ session'.csrf = session.csrf ∧
      session'.createdAt = session.createdAt) ∨
    session.createdAt ≤ c.moment.checked - sessionTtlMs ∨
      c.request = .revokeWebDevice session.deviceId

lemma mem_liveInvitations {state : AuthState} {entry : Invitation} {now : ℤ}
    (h : entry ∈ state.invitations) : entry ∈ liveInvitations now state ∨ entry.expiresAt ≤ now := by
  by_cases hlive : now < entry.expiresAt
  · exact .inl (mem_filter.mpr ⟨h, decide_eq_true hlive⟩)
  · exact .inr (Int.not_lt.mp hlive)

lemma mem_liveSessions {state : AuthState} {session : Session} {now : ℤ}
    (h : session ∈ state.sessions) :
    session ∈ liveSessions now state ∨ session.createdAt ≤ now - sessionTtlMs := by
  by_cases hlive : now - sessionTtlMs < session.createdAt
  · exact .inl (mem_filter.mpr ⟨h, decide_eq_true hlive⟩)
  · exact .inr (Int.not_lt.mp hlive)

lemma keepsInvitations (hash : Text → Text) (c : Commit) (hheld : c.held = {}) :
    ∀ entry ∈ c.base.invitations, entry ∈ (c.next hash).invitations ∨
      entry.expiresAt ≤ c.moment.checked ∨ entry.expiresAt ≤ c.moment.kept ∨
        c.redeems hash = some entry.hash := by
  obtain ⟨call, request, moment, draws, held, base⟩ := c
  obtain rfl : held = {} := hheld
  intro entry hentry
  cases request with
  | createWebInvitation token calledAt name =>
    rcases @mem_liveInvitations base entry moment.checked hentry with hlive | hexp
    · exact .inl (mem_append_left _ hlive)
    · exact .inr (.inl hexp)
  | redeemWebInvitation token =>
    rcases @mem_liveInvitations base entry moment.kept hentry with hlive | hexp
    · cases hfind : findInvitation hash moment base token with
      | none =>
        have hnext := @redeemed_none hash base moment draws {} token hfind
        refine .inl ?_
        simp only [Commit.next, change, hnext]
        exact hlive
      | some found =>
        have hnext := @redeemed_some hash base moment draws {} token found hfind
        by_cases hsame : entry = found
        · refine .inr (.inr (.inr ?_))
          rw [hsame, (mem_of_findInvitation hfind).2]
          simp [Commit.redeems, Commit.captured, change, hnext, Captured.identified]
        · refine .inl ?_
          simp only [Commit.next, change, hnext]
          exact (mem_erase_of_ne hsame).mpr hlive
    · exact .inr (.inr (.inl hexp))
  | authenticateWebSession token =>
    refine .inl ?_
    simp only [Commit.next, change, invitations_authenticated]
    exact hentry
  | revokeWebDevice id => exact .inl hentry

lemma keepsDevices (hash : Text → Text) (c : Commit) (hnod : (c.base.devices.map (·.id)).Nodup) :
    ∀ device ∈ c.base.devices, ∃ device' ∈ (c.next hash).devices,
      device'.id = device.id ∧ device'.name = device.name ∧ device'.createdAt = device.createdAt ∧
        (device'.revokedAt = device.revokedAt ∨ c.request = .revokeWebDevice device.id) := by
  obtain ⟨call, request, moment, draws, held, base⟩ := c
  intro device hdev
  have hsame : ∀ {state : AuthState}, state.devices = base.devices → ∃ device' ∈ state.devices,
      device'.id = device.id ∧ device'.name = device.name ∧ device'.createdAt = device.createdAt ∧
        (device'.revokedAt = device.revokedAt ∨ request = .revokeWebDevice device.id) := by
    intro state hstate
    exact ⟨device, hstate ▸ hdev, rfl, rfl, rfl, .inl rfl⟩
  cases request with
  | createWebInvitation token calledAt name => exact hsame rfl
  | redeemWebInvitation token =>
    cases hfind : findInvitation hash moment base token with
    | none =>
      have hnext := @redeemed_none hash base moment draws held token hfind
      simp only [Commit.next, change, hnext]
      exact hsame rfl
    | some found =>
      have hnext := @redeemed_some hash base moment draws held token found hfind
      simp only [Commit.next, change, hnext]
      exact ⟨device, mem_append_left _ hdev, rfl, rfl, rfl, .inl rfl⟩
  | authenticateWebSession token =>
    rcases authenticated_cases hash moment held base token with
      ⟨session, found, _, hfound, hnext⟩ | ⟨_, hnext⟩ | ⟨_, _, _, hnext⟩
    · simp only [Commit.next, change, hnext]
      refine ⟨_, mem_map_of_mem hdev, ?_⟩
      split_ifs with hid
      · obtain rfl : device = found :=
          inj_on_of_nodup_map hnod hdev (mem_of_findDevice hfound).1 hid
        exact ⟨rfl, rfl, rfl, .inl rfl⟩
      · exact ⟨rfl, rfl, rfl, .inl rfl⟩
    · simp only [Commit.next, change, hnext]
      exact hsame rfl
    · simp only [Commit.next, change, hnext]
      exact hsame rfl
  | revokeWebDevice id =>
    refine ⟨_, mem_map_of_mem hdev, ?_⟩
    split_ifs with hrev
    · simp only [isRevocable, decide_eq_true_eq] at hrev
      exact ⟨rfl, rfl, rfl, .inr (congrArg Request.revokeWebDevice hrev.1.symm)⟩
    · exact ⟨rfl, rfl, rfl, .inl rfl⟩

lemma keepsSessions (hash : Text → Text) (c : Commit)
    (hlive : ∀ session ∈ c.base.sessions, ∃ device ∈ c.base.devices,
      device.id = session.deviceId ∧ device.revokedAt = none) :
    ∀ session ∈ c.base.sessions,
      (∃ session' ∈ (c.next hash).sessions, session'.hash = session.hash ∧
        session'.deviceId = session.deviceId ∧ session'.csrf = session.csrf ∧
        session'.createdAt = session.createdAt) ∨
      session.createdAt ≤ c.moment.checked - sessionTtlMs ∨
        c.request = .revokeWebDevice session.deviceId := by
  obtain ⟨call, request, moment, draws, held, base⟩ := c
  intro session hsess
  cases request with
  | createWebInvitation token calledAt name => exact .inl ⟨session, hsess, rfl, rfl, rfl, rfl⟩
  | redeemWebInvitation token =>
    cases hfind : findInvitation hash moment base token with
    | none =>
      have hnext := @redeemed_none hash base moment draws held token hfind
      simp only [Commit.next, change, hnext]
      exact .inl ⟨session, hsess, rfl, rfl, rfl, rfl⟩
    | some found =>
      have hnext := @redeemed_some hash base moment draws held token found hfind
      simp only [Commit.next, change, hnext]
      exact .inl ⟨session, mem_append_left _ hsess, rfl, rfl, rfl, rfl⟩
  | authenticateWebSession token =>
    rcases @mem_liveSessions base session moment.checked hsess with hkept | hexp
    · refine .inl ?_
      rcases authenticated_cases hash moment held base token with
        ⟨found, device, _, _, hnext⟩ | ⟨_, hnext⟩ | ⟨found, hfound, hdev, hnext⟩
      · simp only [Commit.next, change, hnext]
        rcases @mem_replace_of_mem _ _ _ found { found with lastSeenAt := moment.now } _ hkept with
          hstays | ⟨rfl, hrepl⟩
        · exact ⟨session, hstays, rfl, rfl, rfl, rfl⟩
        · exact ⟨_, hrepl, rfl, rfl, rfl, rfl⟩
      · simp only [Commit.next, change, hnext]
        exact ⟨session, hkept, rfl, rfl, rfl, rfl⟩
      · -- every session has a device that is not revoked
        obtain ⟨device, hin, hid, hnone⟩ :=
          hlive found (mem_of_mem_filter (mem_of_findSession hfound))
        have hmiss := find?_eq_none.mp hdev device hin
        simp only [decide_eq_true_eq] at hmiss
        exact absurd ⟨hid, hnone⟩ hmiss
    · exact .inr (.inl hexp)
  | revokeWebDevice id =>
    by_cases hid : session.deviceId = id
    · exact .inr (.inr (congrArg Request.revokeWebDevice hid.symm))
    · exact .inl ⟨session, mem_filter.mpr ⟨hsess, decide_eq_true hid⟩, rfl, rfl, rfl, rfl⟩

lemma Serial.keepsAll (h : Serial hash commits) (hc : c ∈ commits) : KeepsAll hash c := by
  obtain ⟨before, after, hspl⟩ := append_of_mem hc
  obtain ⟨hser, hfoll⟩ := h.split hspl
  have hpairs := hser.pairs
  rw [← hfoll.base] at hpairs
  exact ⟨keepsInvitations hash c hfoll.held, keepsDevices hash c hpairs.nodup,
    keepsSessions hash c hpairs.live⟩

lemma Serial.authenticates (h : Serial hash commits) {before after : List Commit} {c' : Commit}
    (hspl : commits = before ++ c :: after) {id token : Text} (hc' : c' ∈ before)
    (hrevoke : c'.request = .revokeWebDevice id)
    (hreq : c.request = .authenticateWebSession token)
    {identity : RedskilledWebIdentity} (hident : (c.captured hash).identity = some identity) :
    identity.device.id ≠ id := by
  obtain ⟨hser, hfoll⟩ := h.split hspl
  have hpairs := hser.pairs
  rw [← hfoll.base] at hpairs
  have hheld := hfoll.held
  obtain ⟨call, request, moment, draws, held, base⟩ := c
  subst hheld hreq
  simp only [Commit.captured, change] at hident
  intro hid
  rcases authenticated_cases hash moment {} base token with
    ⟨session, device, _, hdev, hnext⟩ | ⟨_, hnext⟩ | ⟨_, _, _, hnext⟩
  · rw [hnext] at hident
    cases hident
    obtain ⟨hmem, _, hnone⟩ := mem_of_findDevice hdev
    exact hpairs.gone c' hc' id hrevoke device hmem hid hnone
  · rw [hnext] at hident
    cases hident
  · rw [hnext] at hident
    cases hident

lemma Serial.once (h : Serial hash commits) {c' : Commit} (hc : c ∈ commits) (hc' : c' ∈ commits)
    {r : Text} (hr : c.redeems hash = some r) (hr' : c'.redeems hash = some r) : c = c' := by
  by_contra hne
  have hsymm : Std.Symm fun a b : Commit =>
      ∀ h, a.redeems hash = some h → b.redeems hash ≠ some h :=
    ⟨fun a b hab h hb ha => hab h ha hb⟩
  exact h.invites.once.forall hc hc' hne r hr hr'

end

end Redskilled.Daemon.WebAuth
