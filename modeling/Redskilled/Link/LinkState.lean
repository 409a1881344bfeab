import Redskilled.Foundation.JsText

/-!
# The state of a link

A host knows its own identity, the invitations it made out, and the devices that paired with
them. Each call of the store is a change of this state, or a throw. Times are milliseconds.
-/
namespace Redskilled.Link
open Foundation

structure LinkDeviceRecord where
  deviceId : Text
  deviceName : Text
  secret : Text
  pairedAt : ℤ
  revoked : Bool
  nonces : List Text
  deriving DecidableEq

structure LinkInvitationRecord where
  relayUrl : Text
  hostId : Text
  hostName : Text
  inviteId : Text
  secret : Text
  expiresAt : ℤ
  usedAt : Option ℤ
  deriving DecidableEq

structure LinkState where
  hostId : Text
  hostName : Text
  relayUrl : Text
  invitations : List LinkInvitationRecord
  devices : List LinkDeviceRecord
  deriving DecidableEq

structure NewDevice where
  deviceId : Text
  deviceName : Text
  secret : Text
  deriving DecidableEq

/-- What the clock says in `pair`, one time after the other. -/
structure PairMoment where
  checked : ℤ
  paired : ℤ
  used : ℤ

def isLive (deviceId : Text) (entry : LinkDeviceRecord) : Bool :=
  entry.deviceId == deviceId && !entry.revoked

namespace LinkState

/-- A text that is empty once trimmed counts as none. -/
def given (t : Option Text) : Option Text := (t.map Text.trim).filter (· ≠ [])

def configure (relayUrl hostName : Option Text) (state : LinkState) : LinkState :=
  { state with
    relayUrl := (given relayUrl).getD state.relayUrl
    hostName := (given hostName).getD state.hostName }

def newInvitation (inviteId secret : Text) (now ttlMs : ℤ) (state : LinkState) :
    LinkInvitationRecord where
  relayUrl := state.relayUrl
  hostId := state.hostId
  hostName := state.hostName
  inviteId := inviteId
  secret := secret
  expiresAt := now + ttlMs
  usedAt := none

def createInvitation (inviteId secret : Text) (now ttlMs : ℤ) (state : LinkState) : LinkState :=
  { state with
    invitations := state.invitations ++ [newInvitation inviteId secret now ttlMs state] }

def invitation (state : LinkState) (inviteId : Text) : Option LinkInvitationRecord :=
  state.invitations.find? (·.inviteId == inviteId)

def pairError : Text := "pairing invitation is absent, expired, or already used".toList

def pairedRecord (device : NewDevice) (moment : PairMoment) : LinkDeviceRecord where
  deviceId := device.deviceId
  deviceName := device.deviceName
  secret := device.secret
  pairedAt := moment.paired
  revoked := false
  nonces := []

def markUsed (inviteId : Text) (used : ℤ) (invite : LinkInvitationRecord) : LinkInvitationRecord :=
  if invite.inviteId = inviteId then { invite with usedAt := some used } else invite

/-- The invitation can still be paired with. -/
def isOpen (now : ℤ) (invitation : LinkInvitationRecord) : Bool :=
  invitation.usedAt.isNone && now < invitation.expiresAt

def withDevice (inviteId : Text) (device : NewDevice) (moment : PairMoment) (state : LinkState) :
    LinkState :=
  { state with
    invitations := state.invitations.map (markUsed inviteId moment.used)
    devices := state.devices.filter (·.deviceId ≠ device.deviceId) ++ [pairedRecord device moment] }

def pair (inviteId : Text) (device : NewDevice) (moment : PairMoment) (state : LinkState) :
    Except Text LinkState :=
  if (state.invitation inviteId).any (isOpen moment.checked) then
    .ok (state.withDevice inviteId device moment)
  else .error pairError

def device (state : LinkState) (deviceId : Text) : Option LinkDeviceRecord :=
  state.devices.find? (isLive deviceId)

def markRevoked (deviceId : Text) (entry : LinkDeviceRecord) : LinkDeviceRecord :=
  if entry.deviceId = deviceId then { entry with revoked := true } else entry

def revoke (deviceId : Text) (state : LinkState) : LinkState × Bool :=
  if (state.device deviceId).isSome then
    ({ state with devices := state.devices.map (markRevoked deviceId) }, true)
  else (state, false)

def absentError : Text := "device is not paired or was revoked".toList

def replayError : Text := "replayed redskilled-link request".toList

/-- The nonces that are remembered of a device. -/
def withNonce (nonce : Text) (device : LinkDeviceRecord) : LinkDeviceRecord :=
  { device with nonces := device.nonces.rtake 63 ++ [nonce] }

def setDevice (deviceId : Text) (next : LinkDeviceRecord) (state : LinkState) : LinkState :=
  { state with
    devices := state.devices.map fun entry => if entry.deviceId = deviceId then next else entry }

def acceptNonce (deviceId nonce : Text) (state : LinkState) :
    Except Text (LinkState × LinkDeviceRecord) :=
  match state.device deviceId with
  | none => .error absentError
  | some device =>
    if nonce ∈ device.nonces then .error replayError
    else .ok (state.setDevice deviceId (withNonce nonce device), withNonce nonce device)

end LinkState

lemma LinkState.acceptNonce_eq_ok {deviceId nonce : Text} {state next : LinkState}
    {device : LinkDeviceRecord} (h : state.acceptNonce deviceId nonce = .ok (next, device)) :
    ∃ old, state.device deviceId = some old ∧ nonce ∉ old.nonces ∧ device = withNonce nonce old ∧
      next = state.setDevice deviceId (withNonce nonce old) := by
  rw [acceptNonce] at h
  split at h
  · cases h
  · next old hold =>
    split_ifs at h with hseen
    cases h
    exact ⟨old, hold, hseen, rfl, rfl⟩

lemma LinkState.pair_eq_ok {inviteId : Text} {paired : NewDevice} {moment : PairMoment}
    {state next : LinkState} (h : state.pair inviteId paired moment = .ok next) :
    ∃ invitation, state.invitation inviteId = some invitation ∧
      isOpen moment.checked invitation = true ∧ next = state.withDevice inviteId paired moment := by
  rw [pair] at h
  split_ifs at h with hopen
  cases h
  obtain ⟨invitation, hfind, hisOp⟩ := Option.any_eq_true _ _ |>.mp hopen
  exact ⟨invitation, hfind, hisOp, rfl⟩

lemma LinkState.mem_of_invitation {state : LinkState} {inviteId : Text}
    {invitation : LinkInvitationRecord} (h : state.invitation inviteId = some invitation) :
    invitation ∈ state.invitations ∧ invitation.inviteId = inviteId :=
  ⟨List.mem_of_find?_eq_some h, by simpa using List.find?_some h⟩

lemma LinkState.mem_of_device {state : LinkState} {deviceId : Text} {device : LinkDeviceRecord}
    (h : state.device deviceId = some device) :
    device ∈ state.devices ∧ device.deviceId = deviceId ∧ device.revoked = false := by
  have hlive := List.find?_some h
  simp only [isLive, Bool.and_eq_true, beq_iff_eq, Bool.not_eq_true'] at hlive
  exact ⟨List.mem_of_find?_eq_some h, hlive.1, hlive.2⟩

end Redskilled.Link
