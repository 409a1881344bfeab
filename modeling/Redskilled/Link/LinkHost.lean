import Redskilled.Foundation.Machine
import Redskilled.Link.LinkCrypto
import Redskilled.Link.LinkState

/-!
# The link host

A relay delivers envelopes to the host. A pair request is decrypted with the secret of its
invitation and pairs a device. A device request has its nonce accepted first, and is then
decrypted with the secret of the device and carried out. What the operator answers, what is
drawn at random and what the clock says come with the delivery. The store works here: a call
of it changes the state as it says.
-/
namespace Redskilled.Link
open Foundation

structure Route where
  hostId : Text
  deviceId : Text
  nonce : Text
  payload : Text
  inviteId : Option Text

def Route.encrypted (route : Route) : EncryptedLinkPayload := ⟨route.nonce, route.payload⟩

inductive RelayEnvelope where
  | hostOnline (hostId : Text)
  | deviceRequest (route : Route)
  | pairRequest (route : Route)
  | hostResponse (route : Route)
  | pairResponse (route : Route)

structure LinkRequest where
  version : Option ℤ
  requestId : Option Text
  operation : Option Text
  params : Option (List (Text × Text))

structure LinkPairRequest where
  version : ℤ
  requestId : Text
  operation : Text
  inviteId : Text
  deviceId : Text
  deviceName : Text

inductive OperatorCall where
  | state
  | dispatch (issueUrl : Option Text)
  | stop (workerId : Option Text)

structure LinkResponse where
  requestId : Option Text
  outcome : Except Text Text

structure LinkPairAnswer where
  requestId : Text
  outcome : Except Text (Text × Text)

structure LinkFrames where
  readRequest : Text → Except Text LinkRequest
  readPairRequest : Text → Except Text LinkPairRequest
  writeResponse : LinkResponse → Text
  writePairAnswer : LinkPairAnswer → Text

structure Circumstances where
  operator : OperatorCall → Except Text Text
  moment : PairMoment
  nonce : Bytes

structure Handled where
  store : LinkState
  request : Option LinkRequest
  answer : Except Text (Option RelayEnvelope)

def invalidRequest : Text := "invalid redskilled-link request".toList

def outsideAllowlist : Text := "operation is outside the Mobile operator allowlist".toList

/-- `Object.keys(undefined)` throws. -/
def noParams : Text := "Cannot convert undefined or null to object".toList

def authenticationFailed (error : Text) : Text := "device authentication failed: ".toList ++ error

def param (params : List (Text × Text)) (name : Text) : Option Text :=
  (params.find? (·.1 == name)).map Prod.snd

def operationOf (request : LinkRequest) : Except Text OperatorCall :=
  if request.version ≠ some 1 ∨ request.requestId.all List.isEmpty then .error invalidRequest
  else if request.operation = some "state".toList then
    match request.params with
    | none => .error noParams
    | some [] => .ok .state
    | some (_ :: _) => .error outsideAllowlist
  else if request.operation = some "ticket_dispatch".toList then
    match request.params with
    | none => .error noParams
    | some [entry] => .ok (.dispatch (param [entry] "issue_url".toList))
    | some _ => .error outsideAllowlist
  else if request.operation = some "worker_stop".toList then
    match request.params with
    | none => .error noParams
    | some [entry] => .ok (.stop (param [entry] "worker_id".toList))
    | some _ => .error outsideAllowlist
  else .error outsideAllowlist

def executeOperation (request : LinkRequest) (operator : OperatorCall → Except Text Text) :
    Except Text Text := do
  operator (← operationOf request)

section
variable (P : LinkPrimitives) (F : LinkFrames)

def readDeviceRequest (route : Route) (secret : Text) : Except Text LinkRequest := do
  F.readRequest (← decryptLinkPayload P route.encrypted secret)

def response (request : LinkRequest) (around : Circumstances) : LinkResponse :=
  ⟨request.requestId, executeOperation request around.operator⟩

def hostResponse (route : Route) (secret : Text) (request : LinkRequest)
    (around : Circumstances) : Except Text (Option RelayEnvelope) := do
  let encrypted ← encryptLinkPayload P around.nonce (F.writeResponse (response request around))
    secret
  .ok (some (.hostResponse
    ⟨route.hostId, route.deviceId, encrypted.nonce, encrypted.payload, none⟩))

def handleAccepted (route : Route) (around : Circumstances) (store : LinkState) (secret : Text) :
    Handled :=
  match readDeviceRequest P F route secret with
  | .error error => ⟨store, none, .error (authenticationFailed error)⟩
  | .ok request => ⟨store, some request, hostResponse P F route secret request around⟩

def handleDevice (route : Route) (around : Circumstances) (store : LinkState) : Handled :=
  match store.acceptNonce route.deviceId route.nonce with
  | .error error => ⟨store, none, .error error⟩
  | .ok (next, device) => handleAccepted P F route around next device.secret

def absentInvitation : Text := "pairing invitation is absent or expired".toList

def invalidPairing : Text := "invalid pairing request".toList

def isPairing (request : LinkPairRequest) (invitation : LinkInvitationRecord) (route : Route) :
    Bool :=
  request.version == 1 && request.operation == "pair".toList &&
    request.inviteId == invitation.inviteId && request.deviceId == route.deviceId &&
    Text.trim request.deviceName != []

def newDevice (request : LinkPairRequest) (secret : Text) : NewDevice :=
  ⟨request.deviceId, Text.trim request.deviceName, secret⟩

def pairResponse (store : LinkState) (request : LinkPairRequest) (secret : Text)
    (error : Option Text) (around : Circumstances) : Except Text (Option RelayEnvelope) := do
  let outcome := match error with
    | none => .ok (store.hostId, store.hostName)
    | some error => .error error
  let encrypted ← encryptLinkPayload P around.nonce
    (F.writePairAnswer ⟨request.requestId, outcome⟩) secret
  .ok (some (.pairResponse
    ⟨store.hostId, request.deviceId, encrypted.nonce, encrypted.payload, none⟩))

def readPairing (route : Route) (invitation : LinkInvitationRecord) :
    Except Text (LinkPairRequest × Text) := do
  let frame ← decryptLinkPayload P route.encrypted invitation.secret
  let request ← F.readPairRequest frame
  if isPairing request invitation route then
    let secret ← deriveDeviceSecret P invitation.secret request.deviceId
    .ok (request, secret)
  else .error invalidPairing

def handlePairing (invitation : LinkInvitationRecord) (request : LinkPairRequest)
    (secret : Text) (around : Circumstances) (store : LinkState) : Handled :=
  match store.pair invitation.inviteId (newDevice request secret) around.moment with
  | .ok next => ⟨next, none, pairResponse P F store request invitation.secret none around⟩
  | .error error =>
    ⟨store, none, pairResponse P F store request invitation.secret (some error) around⟩

def handlePair (route : Route) (around : Circumstances) (store : LinkState) : Handled :=
  match route.inviteId.bind store.invitation with
  | none => ⟨store, none, .error absentInvitation⟩
  | some invitation =>
    match readPairing P F route invitation with
    | .error error => ⟨store, none, .error error⟩
    | .ok (request, secret) => handlePairing P F invitation request secret around store

def handleHostEnvelope (envelope : RelayEnvelope) (around : Circumstances) (store : LinkState) :
    Handled :=
  match envelope with
  | .pairRequest route => handlePair P F route around store
  | .deviceRequest route => handleDevice P F route around store
  | _ => ⟨store, none, .ok none⟩

/-- A device request that was carried out: the box it came in, and how its nonce was spelled. -/
structure Execution where
  sealed : Sealing
  nonce : Text
  deriving DecidableEq

structure HostRun where
  store : LinkState
  executed : List Execution

structure Delivery where
  envelope : RelayEnvelope
  around : Circumstances

def executionOf (store : LinkState) : RelayEnvelope → Option Execution
  | .deviceRequest route =>
    (store.device route.deviceId).bind fun device =>
      (sealing P route.encrypted device.secret).map (⟨·, route.nonce⟩)
  | _ => none

def deliver (g : HostRun) (d : Delivery) : HostRun :=
  let handled := handleHostEnvelope P F d.envelope d.around g.store
  { store := handled.store
    executed := g.executed ++
      if handled.request.isSome then (executionOf P g.store d.envelope).toList else [] }

end

end Redskilled.Link
