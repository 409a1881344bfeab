import Mathlib.Data.List.Nodup
import Redskilled.Link.LinkHost

/-!
# Replays

The host refuses a nonce that it remembers, and it remembers the last 64 spellings. As long
as whatever else is delivered decrypts and repeats no box, it carries out each request once,
is changed by nothing else, and refuses no request that it has not carried out.
-/
namespace Redskilled.Link
open Foundation List

section
variable (P : LinkPrimitives) (F : LinkFrames)

/-- The nonces of the last requests that were carried out with a key, as they were spelled. -/
def recent (executed : List Execution) (key : Bytes) : List Text :=
  ((executed.filter (·.sealed.key = key)).map Execution.nonce).rtake 64

def recentOf (executed : List Execution) (device : LinkDeviceRecord) : List Text :=
  match requireKey P device.secret with
  | .ok key => recent executed key
  | .error _ => []

def Authentic (store : LinkState) : RelayEnvelope → Prop
  | .deviceRequest route => ∃ device request, store.device route.deviceId = some device ∧
      readDeviceRequest P F route device.secret = .ok request
  | .pairRequest route => ∃ invitation frame,
      route.inviteId.bind store.invitation = some invitation ∧
        decryptLinkPayload P route.encrypted invitation.secret = .ok frame
  | _ => False

/-- A request for a device decrypts, and no box of its key and nonce was carried out. -/
def IsNew (g : HostRun) (route : Route) (device : LinkDeviceRecord) : Prop :=
  (∃ request, readDeviceRequest P F route device.secret = .ok request) ∧
    ∀ s, sealing P route.encrypted device.secret = some s →
      ∀ x ∈ g.executed, x.sealed.key = s.key → x.sealed.nonce ≠ s.nonce

/-- A request for a live device is new, or its nonce is spelled like one of the last 64. -/
def Timely (g : HostRun) : RelayEnvelope → Prop
  | .deviceRequest route => ∀ device, g.store.device route.deviceId = some device →
      route.nonce ∈ recentOf P g.executed device ∨ IsNew P F g route device
  | _ => True

/-- A delivery repeats no request, changes nothing unless it decrypts, and where it is a
request that was not carried out, it is now. -/
structure Sound (g : HostRun) (d : Delivery) : Prop where
  once : ((deliver P F g d).executed.map Execution.sealed).Nodup
  unchanged : ¬ Authentic P F g.store d.envelope → (deliver P F g d).store = g.store
  served : ∀ x, executionOf P g.store d.envelope = some x → Authentic P F g.store d.envelope →
    x.sealed ∉ g.executed.map Execution.sealed → (deliver P F g d).executed = g.executed ++ [x]

def DerivesKey (invitation : LinkInvitationRecord) (key : Bytes) : Prop :=
  ∃ deviceId secret, deriveDeviceSecret P invitation.secret deviceId = .ok secret ∧
    requireKey P secret = .ok key

/-- The invitations and devices of a host have keys of their own. -/
structure KeysApart (store : LinkState) : Prop where
  ids : (store.devices.map LinkDeviceRecord.deviceId).Nodup
  devices : ∀ a ∈ store.devices, ∀ b ∈ store.devices, ∀ key, requireKey P a.secret = .ok key →
    requireKey P b.secret = .ok key → a = b
  unused : ∀ i ∈ store.invitations, i.usedAt = none → ∀ key, DerivesKey P i key →
    ∀ device ∈ store.devices, requireKey P device.secret ≠ .ok key
  invitations : ∀ i ∈ store.invitations, ∀ j ∈ store.invitations, i.inviteId ≠ j.inviteId →
    ∀ key, DerivesKey P i key → ¬ DerivesKey P j key

def linkHost : Machine HostRun Delivery where
  start g := g.executed = [] ∧ KeysApart P g.store ∧ ∀ device ∈ g.store.devices, device.nonces = []
  next g d := some (deliver P F g d)

structure Inv (Sealed : Sealing → Prop) (g : HostRun) : Prop where
  apart : KeysApart P g.store
  unusedKeys : ∀ i ∈ g.store.invitations, i.usedAt = none → ∀ key, DerivesKey P i key →
    ∀ x ∈ g.executed, x.sealed.key ≠ key
  window : ∀ device ∈ g.store.devices, device.nonces = recentOf P g.executed device
  spelled : ∀ x ∈ g.executed, fromBase64Url P x.nonce = .ok x.sealed.nonce
  genuine : ∀ x ∈ g.executed, Sealed x.sealed
  once : (g.executed.map Execution.sealed).Nodup

end

lemma rtake_rtake {α : Type*} (n : ℕ) (l : List α) : (l.rtake (n + 1)).rtake n = l.rtake n := by
  simp only [rtake_eq_reverse_take_reverse, reverse_reverse, take_take]
  simp

variable {executed : List Execution} {key : Bytes}

lemma recent_append_of_eq {x : Execution} : recent (executed ++ [x]) x.sealed.key =
      (recent executed x.sealed.key).rtake 63 ++ [x.nonce] := by
  simp only [recent, filter_append, filter_singleton, decide_true, map_append]
  rw [rtake_rtake]
  exact rtake_concat_succ _ _ _

lemma recent_append_of_ne {x : Execution}
    (h : x.sealed.key ≠ key) : recent (executed ++ [x]) key = recent executed key := by
  simp [recent, filter_append, h]

lemma mem_of_mem_recent {nonce : Text} (h : nonce ∈ recent executed key) :
    ∃ x ∈ executed, x.sealed.key = key ∧ x.nonce = nonce := by
  have hmem := mem_of_mem_drop h
  obtain ⟨x, hx, rfl⟩ := mem_map.mp hmem
  obtain ⟨hin, hkey⟩ := mem_filter.mp hx
  exact ⟨x, hin, by simpa using hkey, rfl⟩

lemma recent_eq_nil
    (h : ∀ x ∈ executed, x.sealed.key ≠ key) : recent executed key = [] := by
  have hnone : executed.filter (·.sealed.key = key) = [] := by
    apply filter_eq_nil_iff.mpr
    intro x hx
    simpa using h x hx
  rw [recent, hnone]
  rfl

lemma recentOf_eq {P : LinkPrimitives} {device : LinkDeviceRecord}
    (h : requireKey P device.secret = .ok key) :
    recentOf P executed device = recent executed key := by
  rw [recentOf, h]

section
variable {P : LinkPrimitives} {F : LinkFrames} {g : HostRun} {route : Route}
  {around : Circumstances} {device : LinkDeviceRecord}

lemma deliver_absent (h : g.store.device route.deviceId = none) :
    deliver P F g ⟨.deviceRequest route, around⟩ = g := by
  have hacc : g.store.acceptNonce route.deviceId route.nonce = .error LinkState.absentError := by
    rw [LinkState.acceptNonce, h]
  simp [deliver, handleHostEnvelope, handleDevice, hacc]

lemma deliver_remembered (h : g.store.device route.deviceId = some device)
    (hseen : route.nonce ∈ device.nonces) :
    deliver P F g ⟨.deviceRequest route, around⟩ = g := by
  have hacc : g.store.acceptNonce route.deviceId route.nonce = .error LinkState.replayError := by
    rw [LinkState.acceptNonce, h]
    exact if_pos hseen
  simp [deliver, handleHostEnvelope, handleDevice, hacc]

lemma acceptNonce_of_live (h : g.store.device route.deviceId = some device)
    (hseen : route.nonce ∉ device.nonces) :
    g.store.acceptNonce route.deviceId route.nonce =
      .ok (g.store.setDevice route.deviceId (LinkState.withNonce route.nonce device),
        LinkState.withNonce route.nonce device) := by
  rw [LinkState.acceptNonce, h]
  exact if_neg hseen

lemma deliver_unread (h : g.store.device route.deviceId = some device)
    (hseen : route.nonce ∉ device.nonces)
    (hread : ∀ request, readDeviceRequest P F route device.secret ≠ .ok request) :
    deliver P F g ⟨.deviceRequest route, around⟩ = { g with
        store := g.store.setDevice route.deviceId (LinkState.withNonce route.nonce device) } := by
  have hsecr : (LinkState.withNonce route.nonce device).secret = device.secret := rfl
  cases hcase : readDeviceRequest P F route device.secret with
  | ok request => exact absurd hcase (hread request)
  | error error =>
    simp [deliver, handleHostEnvelope, handleDevice, acceptNonce_of_live h hseen,
      handleAccepted, hsecr, hcase]

lemma deliver_read (h : g.store.device route.deviceId = some device)
    (hseen : route.nonce ∉ device.nonces) {request : LinkRequest}
    (hread : readDeviceRequest P F route device.secret = .ok request) {s : Sealing}
    (hseal : sealing P route.encrypted device.secret = some s) :
    deliver P F g ⟨.deviceRequest route, around⟩ =
      { store := g.store.setDevice route.deviceId (LinkState.withNonce route.nonce device)
        executed := g.executed ++ [⟨s, route.nonce⟩] } := by
  have hsecr : (LinkState.withNonce route.nonce device).secret = device.secret := rfl
  simp [deliver, handleHostEnvelope, handleDevice, acceptNonce_of_live h hseen, handleAccepted,
    hsecr, hread, executionOf, h, hseal]

end

section
variable {P : LinkPrimitives} {F : LinkFrames} {Sealed : Sealing → Prop} {g : HostRun}
  {route : Route} {around : Circumstances} {device : LinkDeviceRecord}

lemma sealed_of_read (h : Unforgeable P Sealed) {secret : Text} {request : LinkRequest}
    (hread : readDeviceRequest P F route secret = .ok request) :
    ∃ s, sealing P route.encrypted secret = some s ∧ Sealed s := by
  cases hframe : decryptLinkPayload P route.encrypted secret with
  | ok frame => exact sealed_of_decrypts h hframe
  | error error =>
    rw [readDeviceRequest, hframe] at hread
    cases hread

variable {d : Delivery} {store : LinkState}

lemma mem_setDevice {deviceId : Text} {next x : LinkDeviceRecord}
    (h : x ∈ (store.setDevice deviceId next).devices) :
    (x ∈ store.devices ∧ x.deviceId ≠ deviceId) ∨ x = next := by
  obtain ⟨entry, hentry, rfl⟩ := mem_map.mp h
  split_ifs with hid
  · exact .inr rfl
  · exact .inl ⟨hentry, hid⟩

lemma KeysApart.setDevice (h : KeysApart P store)
    (hlive : store.device route.deviceId = some device) (nonce : Text) :
    KeysApart P (store.setDevice route.deviceId (LinkState.withNonce nonce device)) := by
  obtain ⟨hmem, hid, -⟩ := LinkState.mem_of_device hlive
  have hsecr : (LinkState.withNonce nonce device).secret = device.secret := rfl
  constructor
  · have hids : (store.setDevice route.deviceId (LinkState.withNonce nonce device)).devices.map
        LinkDeviceRecord.deviceId = store.devices.map LinkDeviceRecord.deviceId := by
      simp only [LinkState.setDevice, map_map]
      apply map_congr_left
      intro entry _
      simp only [Function.comp_apply]
      split_ifs with hentry
      · exact hid.trans hentry.symm
      · rfl
    rw [hids]
    exact h.ids
  · intro a ha b hb key hakey hbkey
    rcases mem_setDevice ha with ⟨ha, haid⟩ | rfl
    · rcases mem_setDevice hb with ⟨hb, -⟩ | rfl
      · exact h.devices a ha b hb key hakey hbkey
      · obtain rfl := h.devices a ha device hmem key hakey hbkey
        exact absurd hid haid
    · rcases mem_setDevice hb with ⟨hb, hbid⟩ | rfl
      · obtain rfl := h.devices b hb device hmem key hbkey hakey
        exact absurd hid hbid
      · rfl
  · intro i hi hunus key hder entry hentry
    rcases mem_setDevice hentry with ⟨hentry, -⟩ | rfl
    · exact h.unused i hi hunus key hder entry hentry
    · rw [hsecr]
      exact h.unused i hi hunus key hder device hmem
  · exact h.invitations

lemma Inv.notMem_nonces (h : Inv P Sealed g) (hforge : Unforgeable P Sealed)
    (hlive : g.store.device route.deviceId = some device) (hnew : IsNew P F g route device) :
    route.nonce ∉ device.nonces := by
  intro hseen
  rw [h.window device (LinkState.mem_of_device hlive).1] at hseen
  obtain ⟨⟨request, hread⟩, hfresh⟩ := hnew
  obtain ⟨s, hseal, -⟩ := sealed_of_read hforge hread
  obtain ⟨-, hnonce, hkey⟩ := sealing_eq_some hseal
  rw [recentOf_eq hkey] at hseen
  obtain ⟨x, hx, hxkey, hxnonce⟩ := mem_of_mem_recent hseen
  have hspell := h.spelled x hx
  rw [hxnonce] at hspell
  exact hfresh s hseal x hx hxkey (Except.ok.inj (hspell.symm.trans hnonce))

lemma Inv.accept (h : Inv P Sealed g) (hlive : g.store.device route.deviceId = some device)
    {s : Sealing} (hseal : sealing P route.encrypted device.secret = some s) (hs : Sealed s)
    (hfresh : ∀ x ∈ g.executed, x.sealed.key = s.key → x.sealed.nonce ≠ s.nonce) :
    Inv P Sealed
      { store := g.store.setDevice route.deviceId (LinkState.withNonce route.nonce device)
        executed := g.executed ++ [⟨s, route.nonce⟩] } := by
  obtain ⟨hmem, hid, -⟩ := LinkState.mem_of_device hlive
  obtain ⟨-, hnonce, hkey⟩ := sealing_eq_some hseal
  constructor
  · exact h.apart.setDevice hlive route.nonce
  · intro i hi hunus key hder x hx
    rcases List.mem_append.mp hx with hold | hlast
    · exact h.unusedKeys i hi hunus key hder x hold
    · obtain rfl := List.mem_singleton.mp hlast
      intro hsame
      exact h.apart.unused i hi hunus key hder device hmem (hsame ▸ hkey)
  · intro entry hentry
    rcases mem_setDevice hentry with ⟨hentry, hoth⟩ | rfl
    · rw [h.window entry hentry]
      simp only [recentOf]
      split
      · next key hentr =>
        rw [recent_append_of_ne]
        intro hsame
        obtain rfl := h.apart.devices entry hentry device hmem key hentr (hsame ▸ hkey)
        exact hoth hid
      · rfl
    · have hold := h.window device hmem
      rw [recentOf_eq hkey] at hold
      have hnext : requireKey P (LinkState.withNonce route.nonce device).secret = .ok s.key := hkey
      rw [recentOf_eq hnext, LinkState.withNonce, hold]
      exact (@recent_append_of_eq g.executed (⟨s, route.nonce⟩ : Execution)).symm
  · intro x hx
    rcases List.mem_append.mp hx with hold | hlast
    · exact h.spelled x hold
    · obtain rfl := List.mem_singleton.mp hlast
      exact hnonce
  · intro x hx
    rcases List.mem_append.mp hx with hold | hlast
    · exact h.genuine x hold
    · obtain rfl := List.mem_singleton.mp hlast
      exact hs
  · rw [List.map_append, List.nodup_append]
    refine ⟨h.once, List.nodup_singleton _, ?_⟩
    intro a ha b hb hsame
    obtain ⟨x, hx, rfl⟩ := List.mem_map.mp ha
    obtain rfl := List.mem_singleton.mp hb
    exact hfresh x hx (by rw [hsame]) (by rw [hsame])

lemma of_markUsed {inviteId : Text} {used : ℤ} {i : LinkInvitationRecord}
    (hi : i ∈ store.invitations.map (LinkState.markUsed inviteId used)) (hunus : i.usedAt = none) :
    i ∈ store.invitations ∧ i.inviteId ≠ inviteId := by
  obtain ⟨entry, hentry, hmark⟩ := mem_map.mp hi
  by_cases hid : entry.inviteId = inviteId
  · rw [LinkState.markUsed, if_pos hid] at hmark
    rw [← hmark] at hunus
    cases hunus
  · rw [LinkState.markUsed, if_neg hid] at hmark
    exact hmark ▸ ⟨hentry, hid⟩

lemma mem_withDevice {inviteId : Text} {paired : NewDevice}
    {moment : PairMoment} {x : LinkDeviceRecord}
    (h : x ∈ (store.withDevice inviteId paired moment).devices) :
    (x ∈ store.devices ∧ x.deviceId ≠ paired.deviceId) ∨
      x = LinkState.pairedRecord paired moment := by
  rcases mem_append.mp h with hold | hlast
  · obtain ⟨hmem, hid⟩ := mem_filter.mp hold
    exact .inl ⟨hmem, by simpa using hid⟩
  · exact .inr (mem_singleton.mp hlast)

lemma markUsed_secret (inviteId : Text) (used : ℤ) (i : LinkInvitationRecord) :
    (LinkState.markUsed inviteId used i).secret = i.secret ∧
      (LinkState.markUsed inviteId used i).inviteId = i.inviteId := by
  rw [LinkState.markUsed]
  split_ifs <;> exact ⟨rfl, rfl⟩

lemma Inv.paired (h : Inv P Sealed g) {invitation : LinkInvitationRecord}
    (hinvit : invitation ∈ g.store.invitations) (hunus : invitation.usedAt = none)
    {paired : NewDevice}
    (hsecr : deriveDeviceSecret P invitation.secret paired.deviceId = .ok paired.secret)
    (moment : PairMoment) :
    Inv P Sealed { g with store := g.store.withDevice invitation.inviteId paired moment } := by
  have hder : ∀ key, requireKey P paired.secret = .ok key → DerivesKey P invitation key :=
    fun key hkey => ⟨_, _, hsecr, hkey⟩
  constructor
  · constructor
    · simp only [LinkState.withDevice, map_append, nodup_append]
      refine ⟨(filter_sublist.map _).nodup h.apart.ids, nodup_singleton _, ?_⟩
      intro a ha b hb
      obtain ⟨entry, hentry, rfl⟩ := mem_map.mp ha
      obtain rfl := mem_singleton.mp hb
      simpa [LinkState.pairedRecord] using (mem_filter.mp hentry).2
    · intro a ha b hb key hakey hbkey
      rcases mem_withDevice ha with ⟨ha, -⟩ | rfl
      · rcases mem_withDevice hb with ⟨hb, -⟩ | rfl
        · exact h.apart.devices a ha b hb key hakey hbkey
        · exact absurd hakey
            (h.apart.unused invitation hinvit hunus key (hder key hbkey) a ha)
      · rcases mem_withDevice hb with ⟨hb, -⟩ | rfl
        · exact absurd hbkey
            (h.apart.unused invitation hinvit hunus key (hder key hakey) b hb)
        · rfl
    · intro i hi hiun key hikey entry hentry
      obtain ⟨hiold, hoth⟩ := of_markUsed hi hiun
      rcases mem_withDevice hentry with ⟨hentry, -⟩ | rfl
      · exact h.apart.unused i hiold hiun key hikey entry hentry
      · intro hkey
        exact h.apart.invitations i hiold invitation hinvit hoth key hikey
          (hder key hkey)
    · intro i hi j hj hne key hikey hjkey
      obtain ⟨i, hiold, rfl⟩ := mem_map.mp hi
      obtain ⟨j, hjold, rfl⟩ := mem_map.mp hj
      obtain ⟨hisecr, hiid⟩ := markUsed_secret invitation.inviteId moment.used i
      obtain ⟨hjsecr, hjid⟩ := markUsed_secret invitation.inviteId moment.used j
      rw [hiid, hjid] at hne
      rw [DerivesKey, hisecr] at hikey
      rw [DerivesKey, hjsecr] at hjkey
      exact h.apart.invitations i hiold j hjold hne key hikey hjkey
  · intro i hi hiun key hikey
    exact h.unusedKeys i (of_markUsed hi hiun).1 hiun key hikey
  · intro entry hentry
    rcases mem_withDevice hentry with ⟨hentry, -⟩ | rfl
    · exact h.window entry hentry
    · change [] = _
      simp only [recentOf]
      split
      · next key hkey =>
        symm
        apply recent_eq_nil
        exact h.unusedKeys invitation hinvit hunus key (hder key hkey)
      · rfl
  · exact h.spelled
  · exact h.genuine
  · exact h.once

lemma decrypts_of_readPairing {invitation : LinkInvitationRecord} {request : LinkPairRequest}
    {secret : Text} (h : readPairing P F route invitation = .ok (request, secret)) :
    ∃ frame, decryptLinkPayload P route.encrypted invitation.secret = .ok frame ∧
      deriveDeviceSecret P invitation.secret request.deviceId = .ok secret := by
  cases hframe : decryptLinkPayload P route.encrypted invitation.secret with
  | error error =>
    rw [readPairing, hframe] at h
    cases h
  | ok frame =>
    cases hreq : F.readPairRequest frame with
    | error error =>
      rw [readPairing, hframe] at h
      change (F.readPairRequest frame >>= _) = _ at h
      rw [hreq] at h
      cases h
    | ok request' =>
      rw [readPairing, hframe] at h
      change (F.readPairRequest frame >>= _) = _ at h
      rw [hreq] at h
      change (if isPairing request' invitation route then _ else _) = _ at h
      split_ifs at h
      cases hsecr : deriveDeviceSecret P invitation.secret request'.deviceId with
      | error error =>
        rw [hsecr] at h
        cases h
      | ok secret' =>
        rw [hsecr] at h
        cases h
        exact ⟨frame, rfl, hsecr⟩

lemma deliver_pair_cases (P : LinkPrimitives) (F : LinkFrames) (g : HostRun) (route : Route)
    (around : Circumstances) :
    deliver P F g ⟨.pairRequest route, around⟩ = g ∨
      (∃ invitation paired, invitation ∈ g.store.invitations ∧ invitation.usedAt = none ∧
        deriveDeviceSecret P invitation.secret paired.deviceId = .ok paired.secret ∧
        (∃ frame, route.inviteId.bind g.store.invitation = some invitation ∧
          decryptLinkPayload P route.encrypted invitation.secret = .ok frame) ∧
        deliver P F g ⟨.pairRequest route, around⟩ =
          { g with store := g.store.withDevice invitation.inviteId paired around.moment }) := by
  cases hinvit : route.inviteId.bind g.store.invitation with
  | none =>
    left
    simp [deliver, handleHostEnvelope, handlePair, hinvit]
  | some invitation =>
    cases hread : readPairing P F route invitation with
    | error error =>
      left
      simp [deliver, handleHostEnvelope, handlePair, hinvit, hread]
    | ok pairing =>
      obtain ⟨request, secret⟩ := pairing
      have hdel : deliver P F g ⟨.pairRequest route, around⟩ = { g with
            store := (handlePairing P F invitation request secret around g.store).store
            executed := g.executed ++
              if (handlePairing P F invitation request secret around g.store).request.isSome
              then [] else [] } := by
        simp [deliver, handleHostEnvelope, handlePair, hinvit, hread, executionOf]
      rw [hdel, ite_self, append_nil, handlePairing]
      cases hpair : g.store.pair invitation.inviteId (newDevice request secret)
          around.moment with
      | error error => exact .inl rfl
      | ok next =>
        right
        obtain ⟨inviteId, -, hfind⟩ := Option.bind_eq_some_iff.mp hinvit
        obtain ⟨hmem, hid⟩ := LinkState.mem_of_invitation hfind
        obtain ⟨found, hfound, hopen, rfl⟩ := LinkState.pair_eq_ok hpair
        obtain rfl : invitation = found :=
          Option.some.inj (hfind.symm.trans (hid ▸ hfound))
        obtain ⟨frame, hframe, hsecr⟩ := decrypts_of_readPairing hread
        simp only [LinkState.isOpen, Bool.and_eq_true, Option.isNone_iff_eq_none] at hopen
        exact ⟨invitation, newDevice request secret, hmem, hopen.1, hsecr,
          ⟨frame, rfl, hframe⟩, rfl⟩

lemma Inv.deliver_recent (h : Inv P Sealed g) (hlive : g.store.device route.deviceId = some device)
    (hrec : route.nonce ∈ recentOf P g.executed device) :
    deliver P F g ⟨.deviceRequest route, around⟩ = g := by
  apply deliver_remembered hlive
  rw [h.window device (LinkState.mem_of_device hlive).1]
  exact hrec

lemma Inv.deliver_new (h : Inv P Sealed g) (hforge : Unforgeable P Sealed)
    (hlive : g.store.device route.deviceId = some device) (hnew : IsNew P F g route device) :
    ∃ s, sealing P route.encrypted device.secret = some s ∧ Sealed s ∧
      deliver P F g ⟨.deviceRequest route, around⟩ =
        { store := g.store.setDevice route.deviceId (LinkState.withNonce route.nonce device)
          executed := g.executed ++ [⟨s, route.nonce⟩] } := by
  obtain ⟨request, hread⟩ := hnew.1
  obtain ⟨s, hseal, hs⟩ := sealed_of_read hforge hread
  exact ⟨s, hseal, hs, deliver_read hlive (h.notMem_nonces hforge hlive hnew) hread hseal⟩

lemma Inv.deliver (h : Inv P Sealed g) (hforge : Unforgeable P Sealed)
    (htim : Timely P F g d.envelope) : Inv P Sealed (deliver P F g d) := by
  obtain ⟨envelope, around⟩ := d
  cases envelope with
  | deviceRequest route =>
    cases hlive : g.store.device route.deviceId with
    | none =>
      rw [deliver_absent hlive]
      exact h
    | some device =>
      rcases htim device hlive with hrec | hnew
      · rw [h.deliver_recent hlive hrec]
        exact h
      · obtain ⟨s, hseal, hs, hdel⟩ := h.deliver_new hforge hlive hnew
        rw [hdel]
        exact h.accept hlive hseal hs (hnew.2 s hseal)
  | pairRequest route =>
    rcases deliver_pair_cases P F g route around with hsame |
      ⟨invitation, paired, hmem, hunus, hsecr, -, hpaired⟩
    · rw [hsame]
      exact h
    · rw [hpaired]
      exact h.paired hmem hunus hsecr around.moment
  | _ => simpa [Link.deliver, handleHostEnvelope] using h

lemma Inv.sound (h : Inv P Sealed g) (hforge : Unforgeable P Sealed)
    (hfresh : FreshNonces Sealed) (htim : Timely P F g d.envelope) :
    Sound P F g d := by
  have honce := (h.deliver hforge htim).once
  obtain ⟨envelope, around⟩ := d
  cases envelope with
  | deviceRequest route =>
    cases hlive : g.store.device route.deviceId with
    | none =>
      refine ⟨honce, fun _ => by rw [deliver_absent hlive], ?_⟩
      intro x hx
      simp [executionOf, hlive] at hx
    | some device =>
      rcases htim device hlive with hrec | hnew
      · refine ⟨honce, fun _ => by rw [h.deliver_recent hlive hrec], ?_⟩
        intro x hx hauth hout
        obtain ⟨device', request, hlive', hread⟩ := hauth
        obtain rfl : device = device' := Option.some.inj (hlive.symm.trans hlive')
        obtain ⟨s, hseal, hs⟩ := sealed_of_read hforge hread
        obtain ⟨-, hnonce, hkey⟩ := sealing_eq_some hseal
        obtain rfl : x = ⟨s, route.nonce⟩ := by
          simpa [executionOf, hlive, hseal, eq_comm] using hx
        -- the nonce is remembered of this very box
        rw [recentOf_eq hkey] at hrec
        obtain ⟨y, hy, hykey, hynonce⟩ := mem_of_mem_recent hrec
        have hspell := h.spelled y hy
        rw [hynonce] at hspell
        have hsame := Except.ok.inj (hspell.symm.trans hnonce)
        have hbox := hfresh y.sealed s (h.genuine y hy) hs hykey hsame
        exact absurd (mem_map.mpr ⟨y, hy, hbox⟩) hout
      · obtain ⟨s, hseal, -, hdel⟩ := h.deliver_new hforge hlive hnew
        refine ⟨honce, ?_, ?_⟩
        · intro hfor
          obtain ⟨request, hread⟩ := hnew.1
          exact absurd ⟨device, request, hlive, hread⟩ hfor
        · intro x hx _ _
          obtain rfl : x = ⟨s, route.nonce⟩ := by
            simpa [executionOf, hlive, hseal, eq_comm] using hx
          rw [hdel]
  | pairRequest route =>
    refine ⟨honce, ?_, ?_⟩
    · intro hfor
      rcases deliver_pair_cases P F g route around with hsame |
        ⟨invitation, paired, -, -, -, ⟨frame, hfind, hframe⟩, -⟩
      · rw [hsame]
      · exact absurd ⟨invitation, frame, hfind, hframe⟩ hfor
    · intro x hx
      cases hx
  | _ =>
    refine ⟨honce, fun _ => rfl, ?_⟩
    intro x hx
    cases hx

lemma setDevice_ne (hids : (store.devices.map LinkDeviceRecord.deviceId).Nodup)
    (hlive : store.device route.deviceId = some device) {nonce : Text}
    (hseen : nonce ∉ device.nonces) :
    store.setDevice route.deviceId (LinkState.withNonce nonce device) ≠ store := by
  intro hsame
  obtain ⟨hmem, hid, -⟩ := LinkState.mem_of_device hlive
  have hnext : LinkState.withNonce nonce device ∈ store.devices := by
    rw [← hsame]
    apply mem_map.mpr
    exact ⟨device, hmem, if_pos hid⟩
  have heq := inj_on_of_nodup_map hids hnext hmem rfl
  apply hseen
  rw [← heq]
  simp [LinkState.withNonce]

lemma Inv.timely_of_sound (h : Inv P Sealed g) (hforge : Unforgeable P Sealed)
    (hfresh : FreshNonces Sealed) (hsound : Sound P F g d) :
    Timely P F g d.envelope := by
  obtain ⟨envelope, around⟩ := d
  cases envelope with
  | deviceRequest route =>
    intro device hlive
    by_contra hnot
    obtain ⟨hrec, hold⟩ := not_or.mp hnot
    rw [← h.window device (LinkState.mem_of_device hlive).1] at hrec
    by_cases hread : ∃ request, readDeviceRequest P F route device.secret = .ok request
    · -- the box was carried out before, and is again
      obtain ⟨request, hread⟩ := hread
      obtain ⟨s, hseal, hs⟩ := sealed_of_read hforge hread
      have hrep : ∃ x ∈ g.executed, x.sealed.key = s.key ∧ x.sealed.nonce = s.nonce := by
        by_contra hnone
        apply hold
        refine ⟨⟨request, hread⟩, ?_⟩
        intro s' hseal' x hx hkey hnonce
        obtain rfl : s = s' := Option.some.inj (hseal.symm.trans hseal')
        exact hnone ⟨x, hx, hkey, hnonce⟩
      obtain ⟨x, hx, hkey, hnonce⟩ := hrep
      have hbox := hfresh x.sealed s (h.genuine x hx) hs hkey hnonce
      have honce := hsound.once
      rw [deliver_read hlive hrec hread hseal, map_append, nodup_append] at honce
      exact honce.2.2 s (hbox ▸ mem_map_of_mem hx) s (by simp) rfl
    · -- the envelope does not decrypt, and its nonce is kept
      have hfails : ∀ request, readDeviceRequest P F route device.secret ≠ .ok request :=
        fun request hok => hread ⟨request, hok⟩
      have hfor : ¬ Authentic P F g.store (.deviceRequest route) := by
        rintro ⟨device', request, hlive', hok⟩
        obtain rfl : device = device' := Option.some.inj (hlive.symm.trans hlive')
        exact hfails request hok
      have hunch := hsound.unchanged hfor
      rw [deliver_unread hlive hrec hfails] at hunch
      exact setDevice_ne h.apart.ids hlive hrec hunch
  | _ => trivial

end

/-- In every run of timely deliveries each request is carried out at most once, and a further
delivery is sound exactly where it is timely. -/
theorem requests_run_once (P : LinkPrimitives) (F : LinkFrames) (Sealed : Sealing → Prop)
    (hforge : Unforgeable P Sealed) (hfresh : FreshNonces Sealed) {g₀ g : HostRun}
    {ds : List Delivery} (hstart : (linkHost P F).start g₀)
    (hrun : (linkHost P F).Run (fun g d => Timely P F g d.envelope) g₀ ds g) :
    (g.executed.map Execution.sealed).Nodup ∧ ∀ d, Sound P F g d ↔ Timely P F g d.envelope := by
  have hinit : Inv P Sealed g₀ := by
    obtain ⟨hnone, hapart, hempty⟩ := hstart
    constructor
    · exact hapart
    · simp [hnone]
    · intro device hdev
      rw [hempty device hdev, recentOf, hnone]
      split <;> rfl
    · simp [hnone]
    · simp [hnone]
    · simp [hnone]
  have hinv : Inv P Sealed g := by
    apply hrun.inv (Inv P Sealed) _ hinit
    intro s d t hs htim hnext
    cases hnext
    exact hs.deliver hforge htim
  refine ⟨hinv.once, fun d => ⟨?_, ?_⟩⟩
  · exact hinv.timely_of_sound hforge hfresh
  · exact hinv.sound hforge hfresh

def base64Value (c : Char) : ℕ :=
  "ABCDEFGHIJKLMNOPQRSTUVWXYZabcdefghijklmnopqrstuvwxyz0123456789+/".toList.idxOf c % 64

/-- Four characters, of which the last ones may be padding. -/
def base64Group (a b c d : Char) : Bytes :=
  let bytes := [base64Value a * 4 + base64Value b / 16,
    base64Value b % 16 * 16 + base64Value c / 4, base64Value c % 4 * 64 + base64Value d]
  bytes.take (if c = '=' then 1 else if d = '=' then 2 else 3)

def base64Bytes : Text → Bytes
  | a :: b :: c :: d :: rest => base64Group a b c d ++ base64Bytes rest
  | _ => []

def phoneSecret : Text := List.replicate 43 'A'

def phoneNonce : Text := (List.replicate 8 "-AAA".toList).flatten

def phoneBox : Sealing where
  key := List.replicate 32 0
  nonce := (List.replicate 8 [248, 0, 0]).flatten
  cipher := [0, 0, 0]

/-- A box that nothing but the phone's request opens. -/
def phonePrimitives : LinkPrimitives where
  toByteArray t :=
    if t.length % 4 = 0 then .ok (base64Bytes t)
    else .error "Invalid string. Length must be a multiple of 4".toList
  fromByteArray _ := []
  secretbox _ _ _ := []
  secretboxOpen cipher nonce key :=
    .ok (if (⟨key, nonce, cipher⟩ : Sealing) = phoneBox then some (Utf8.encode "state".toList)
      else none)
  hash seed := seed

def phoneFrames : LinkFrames where
  readRequest _ := .ok ⟨some 1, some "r1".toList, some "state".toList, some []⟩
  readPairRequest t := .error t
  writeResponse _ := []
  writePairAnswer _ := []

def phoneHost : HostRun where
  store :=
    { hostId := "h".toList
      hostName := "Host".toList
      relayUrl := "wss://relay".toList
      invitations := []
      devices := [⟨"phone".toList, "Phone".toList, phoneSecret, 0, false, []⟩] }
  executed := []

def phoneDelivery (nonce payload : Text) : Delivery where
  envelope := .deviceRequest ⟨"h".toList, "phone".toList, nonce, payload, none⟩
  around := ⟨fun _ => .ok [], ⟨0, 0, 0⟩, []⟩

/-- The request as the phone sent it. -/
def phoneRequest : Delivery := phoneDelivery phoneNonce "AAAA".toList

/-- The same bytes, the nonce with `+` for `-`. -/
def respelledRequest : Delivery := phoneDelivery (phoneNonce.map fromUrlChar) "AAAA".toList

def forgedRequest : Delivery := phoneDelivery phoneNonce "AAAB".toList

lemma phone_unforgeable : Unforgeable phonePrimitives (· = phoneBox) := by
  intro cipher nonce key plain h
  simp only [phonePrimitives, Except.ok.injEq] at h
  split_ifs at h with hbox
  exact hbox

lemma phone_fresh : FreshNonces (· = phoneBox) := by
  intro a b ha hb _ _
  exact ha.trans hb.symm

lemma phone_start : (linkHost phonePrimitives phoneFrames).start phoneHost := by
  refine ⟨rfl, ⟨by simp [phoneHost], ?_, by simp [phoneHost], by simp [phoneHost]⟩,
    by simp [phoneHost]⟩
  intro a ha b hb _ _ _
  exact (mem_singleton.mp ha).trans (mem_singleton.mp hb).symm

lemma phone_runs : (deliver phonePrimitives phoneFrames phoneHost phoneRequest).executed =
        [⟨phoneBox, phoneNonce⟩] ∧
      (deliver phonePrimitives phoneFrames
        (deliver phonePrimitives phoneFrames phoneHost phoneRequest) respelledRequest).executed.map
          Execution.sealed = [phoneBox, phoneBox] ∧
      (deliver phonePrimitives phoneFrames phoneHost forgedRequest).store ≠ phoneHost.store ∧
      (deliver phonePrimitives phoneFrames
        (deliver phonePrimitives phoneFrames phoneHost forgedRequest) phoneRequest).executed = [] := by
  decide +kernel

/-- A request is carried out a second time in another spelling, and an envelope that does not
decrypt changes the host, which then refuses the request it has not seen. -/
theorem relay_repeats_and_blocks : (linkHost phonePrimitives phoneFrames).start phoneHost ∧
      Unforgeable phonePrimitives (· = phoneBox) ∧ FreshNonces (· = phoneBox) ∧
      ¬ Sound phonePrimitives phoneFrames
        (deliver phonePrimitives phoneFrames phoneHost phoneRequest) respelledRequest ∧
      ¬ Authentic phonePrimitives phoneFrames phoneHost.store forgedRequest.envelope ∧
      (deliver phonePrimitives phoneFrames phoneHost forgedRequest).store ≠ phoneHost.store ∧
      (deliver phonePrimitives phoneFrames
        (deliver phonePrimitives phoneFrames phoneHost forgedRequest) phoneRequest).executed =
          [] := by
  obtain ⟨-, htwice, hchang, hblock⟩ := phone_runs
  refine ⟨phone_start, phone_unforgeable, phone_fresh, ?_, ?_, hchang, hblock⟩
  · intro hsound
    have honce := hsound.once
    rw [htwice] at honce
    simp at honce
  · rintro ⟨device, request, hlive, hread⟩
    have hfound : phoneHost.store.device "phone".toList =
        some ⟨"phone".toList, "Phone".toList, phoneSecret, 0, false, []⟩ := by
      decide
    obtain rfl := Option.some.inj (hlive.symm.trans hfound)
    have hfails : (readDeviceRequest phonePrimitives phoneFrames
        ⟨"h".toList, "phone".toList, phoneNonce, "AAAB".toList, none⟩ phoneSecret).toOption =
          none := by
      decide +kernel
    rw [hread] at hfails
    cases hfails

lemma phone_timely : Timely phonePrimitives phoneFrames phoneHost phoneRequest.envelope := by
  intro device hlive
  right
  have hfound : phoneHost.store.device "phone".toList =
      some ⟨"phone".toList, "Phone".toList, phoneSecret, 0, false, []⟩ := by
    decide
  obtain rfl := Option.some.inj (hlive.symm.trans hfound)
  have hreads : (readDeviceRequest phonePrimitives phoneFrames
      ⟨"h".toList, "phone".toList, phoneNonce, "AAAA".toList, none⟩ phoneSecret).toOption.isSome =
        true := by
    decide +kernel
  constructor
  · cases hread : readDeviceRequest phonePrimitives phoneFrames
        ⟨"h".toList, "phone".toList, phoneNonce, "AAAA".toList, none⟩ phoneSecret with
    | ok request => exact ⟨request, rfl⟩
    | error error =>
      rw [hread] at hreads
      cases hreads
  · simp [phoneHost]

theorem phone_request_runs_once :
    ((deliver phonePrimitives phoneFrames phoneHost phoneRequest).executed.map
      Execution.sealed).Nodup :=
  (requests_run_once phonePrimitives phoneFrames (· = phoneBox) phone_unforgeable phone_fresh
    phone_start (.single phone_timely rfl)).1

end Redskilled.Link
