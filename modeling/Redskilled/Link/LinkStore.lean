import Redskilled.Foundation.LockedFile
import Redskilled.Link.LinkState

/-!
# The store of a link

The state is kept in one file behind a lock file. Each call of the store changes the content
that it read; where the file cannot be read, whatever the fault, it begins with a fresh state
under a new host id. The public status that is written beside the file is advisory and left
out, and the state is in the file as it is encoded.
-/
namespace Redskilled.Link
open Foundation LockedFile List

structure StoreOptions where
  relayUrl : Option Text
  hostName : Option Text

inductive StoreCall where
  | identity
  | configure (relayUrl hostName : Option Text)
  | createInvitation (ttlMs : ℤ)
  | pair (inviteId : Text) (device : NewDevice)
  | revoke (deviceId : Text)
  | acceptNonce (deviceId nonce : Text)
  deriving DecidableEq

structure StoreRequest where
  options : StoreOptions
  call : StoreCall

structure Draws where
  hostId : Text
  hostname : Text
  inviteId : Text
  secret : Text
  now : ℤ
  moment : PairMoment

def initialState (options : StoreOptions) (draws : Draws) : Option LinkState :=
  (LinkState.given options.relayUrl).map fun relayUrl =>
    { hostId := draws.hostId
      hostName := (LinkState.given options.hostName).getD draws.hostname
      relayUrl := relayUrl
      invitations := []
      devices := [] }

def applyCall (call : StoreCall) (draws : Draws) (state : LinkState) : Option LinkState :=
  match call with
  | .identity => some state
  | .configure relayUrl hostName => some (state.configure relayUrl hostName)
  | .createInvitation ttlMs =>
    some (state.createInvitation draws.inviteId draws.secret draws.now ttlMs)
  | .pair inviteId device => (state.pair inviteId device draws.moment).toOption
  | .revoke deviceId => some (state.revoke deviceId).1
  | .acceptNonce deviceId nonce => (state.acceptNonce deviceId nonce).toOption.map Prod.fst

def linkStore : Store LinkState StoreRequest Draws where
  initial request draws := initialState request.options draws
  apply request draws state := applyCall request.call draws state
  attempts := 100

/-- An invitation that was paired with. -/
def Used (inviteId : Text) (state : LinkState) : Prop :=
  ∃ invitation, state.invitation inviteId = some invitation ∧ invitation.usedAt.isSome = true

def Stored (device : NewDevice) (pairedAt : ℤ) (state : LinkState) : Prop :=
  ∃ entry, state.devices.filter (·.deviceId = device.deviceId) = [entry] ∧
    entry.deviceName = device.deviceName ∧ entry.secret = device.secret ∧ entry.pairedAt = pairedAt

def CutOff (deviceId : Text) (state : LinkState) : Prop := state.device deviceId = none

/-- The call pairs the device. -/
def PairsDevice (deviceId : Text) (request : StoreRequest) : Prop :=
  ∃ inviteId device, request.call = .pair inviteId device ∧ device.deviceId = deviceId

section
variable {call : StoreCall} {draws : Draws} {state next : LinkState} {deviceId inviteId : Text}

lemma apply_pair {device : NewDevice}
    (h : applyCall (.pair inviteId device) draws state = some next) :
    ∃ invitation, state.invitation inviteId = some invitation ∧ invitation.usedAt = none ∧
      draws.moment.checked < invitation.expiresAt ∧
      next = state.withDevice inviteId device draws.moment := by
  cases hpair : state.pair inviteId device draws.moment with
  | error error =>
    rw [applyCall, hpair] at h
    cases h
  | ok paired =>
    rw [applyCall, hpair] at h
    cases h
    obtain ⟨invitation, hfind, hopen, rfl⟩ := LinkState.pair_eq_ok hpair
    simp only [LinkState.isOpen, Bool.and_eq_true, Option.isNone_iff_eq_none,
      decide_eq_true_eq] at hopen
    exact ⟨invitation, hfind, hopen.1, hopen.2, rfl⟩

lemma apply_acceptNonce {nonce : Text}
    (h : applyCall (.acceptNonce deviceId nonce) draws state = some next) :
    ∃ old, state.device deviceId = some old ∧ nonce ∉ old.nonces ∧
      next = state.setDevice deviceId (LinkState.withNonce nonce old) := by
  cases hacc : state.acceptNonce deviceId nonce with
  | error error =>
    rw [applyCall, hacc] at h
    cases h
  | ok accepted =>
    obtain ⟨accepted, device⟩ := accepted
    rw [applyCall, hacc] at h
    cases h
    obtain ⟨old, hold, hseen, -, rfl⟩ := LinkState.acceptNonce_eq_ok hacc
    exact ⟨old, hold, hseen, rfl⟩

lemma apply_hostId (h : applyCall call draws state = some next) : next.hostId = state.hostId := by
  cases call with
  | pair inviteId device =>
    obtain ⟨_, -, -, -, rfl⟩ := apply_pair h
    rfl
  | acceptNonce deviceId nonce =>
    obtain ⟨_, -, -, rfl⟩ := apply_acceptNonce h
    rfl
  | revoke deviceId =>
    cases h
    rw [LinkState.revoke]
    split_ifs <;> rfl
  | _ =>
    cases h
    rfl

lemma invitation_withDevice (other : Text) (device : NewDevice) (moment : PairMoment) :
    (state.withDevice other device moment).invitation inviteId =
      (state.invitation inviteId).map (LinkState.markUsed other moment.used) := by
  have hids : ((fun i : LinkInvitationRecord => i.inviteId == inviteId) ∘
      LinkState.markUsed other moment.used) = fun i => i.inviteId == inviteId := by
    funext i
    simp only [Function.comp_apply, LinkState.markUsed]
    split_ifs <;> rfl
  change (state.invitations.map _).find? _ = _
  rw [find?_map, hids]
  rfl

lemma apply_used (h : applyCall call draws state = some next) (hused : Used inviteId state) :
    Used inviteId next := by
  obtain ⟨invitation, hfind, hsome⟩ := hused
  have hsame : next.invitations = state.invitations → Used inviteId next := by
    intro heq
    exact ⟨invitation, by rw [LinkState.invitation, heq]; exact hfind, hsome⟩
  cases call with
  | createInvitation ttlMs =>
    cases h
    refine ⟨invitation, ?_, hsome⟩
    change (state.invitations ++ _).find? _ = _
    rw [find?_append, ← LinkState.invitation, hfind]
    rfl
  | pair other device =>
    obtain ⟨_, -, -, -, rfl⟩ := apply_pair h
    refine ⟨LinkState.markUsed other draws.moment.used invitation, ?_, ?_⟩
    · rw [invitation_withDevice, hfind]
      rfl
    · rw [LinkState.markUsed]
      split_ifs
      · rfl
      · exact hsome
  | acceptNonce deviceId nonce =>
    obtain ⟨_, -, -, rfl⟩ := apply_acceptNonce h
    exact hsame rfl
  | revoke deviceId =>
    cases h
    apply hsame
    rw [LinkState.revoke]
    split_ifs <;> rfl
  | _ =>
    cases h
    exact hsame rfl

lemma used_of_pair {device : NewDevice}
    (h : applyCall (.pair inviteId device) draws state = some next) : Used inviteId next := by
  obtain ⟨invitation, hfind, -, -, rfl⟩ := apply_pair h
  refine ⟨LinkState.markUsed inviteId draws.moment.used invitation, ?_, ?_⟩
  · rw [invitation_withDevice, hfind]
    rfl
  · rw [LinkState.markUsed, if_pos (LinkState.mem_of_invitation hfind).2]
    rfl

lemma filter_map_id {devices : List LinkDeviceRecord} {f : LinkDeviceRecord → LinkDeviceRecord}
    (hid : ∀ entry ∈ devices, (f entry).deviceId = entry.deviceId) :
    (devices.map f).filter (·.deviceId = deviceId) =
      (devices.filter (·.deviceId = deviceId)).map f := by
  rw [filter_map]
  congr 1
  apply filter_congr
  intro entry hentry
  simp [hid entry hentry]

lemma apply_stored {device : NewDevice} {pairedAt : ℤ} (h : applyCall call draws state = some next)
    (hstor : Stored device pairedAt state) :
    (∃ inviteId other, call = .pair inviteId other ∧ other.deviceId = device.deviceId) ∨
      Stored device pairedAt next := by
  have hsame : next.devices = state.devices → Stored device pairedAt next := by
    intro heq
    rw [Stored, heq]
    exact hstor
  obtain ⟨entry, hfilt, hname, hsecr, hpaired⟩ := hstor
  cases call with
  | pair inviteId other =>
    obtain ⟨_, -, -, -, rfl⟩ := apply_pair h
    by_cases hoth : other.deviceId = device.deviceId
    · exact .inl ⟨inviteId, other, rfl, hoth⟩
    · right
      refine ⟨entry, ?_, hname, hsecr, hpaired⟩
      have hlast : [LinkState.pairedRecord other draws.moment].filter
          (·.deviceId = device.deviceId) = [] := by
        simp [LinkState.pairedRecord, hoth]
      change (state.devices.filter _ ++ _).filter _ = _
      rw [filter_append, hlast, append_nil, filter_filter, ← hfilt]
      apply filter_congr
      intro e _
      by_cases he : e.deviceId = device.deviceId
      · simp [he, Ne.symm hoth]
      · simp [he]
  | acceptNonce deviceId nonce =>
    obtain ⟨old, hold, -, rfl⟩ := apply_acceptNonce h
    obtain ⟨hmem, hid, -⟩ := LinkState.mem_of_device hold
    right
    have hmap := @filter_map_id device.deviceId state.devices
      (fun e => if e.deviceId = deviceId then LinkState.withNonce nonce old else e) (by
        intro e _
        split_ifs with he
        · exact hid.trans he.symm
        · rfl)
    rw [hfilt] at hmap
    by_cases he : entry.deviceId = deviceId
    · have hentry : old = entry := by
        have hin : entry ∈ state.devices.filter (·.deviceId = device.deviceId) := by
          rw [hfilt]
          exact mem_singleton_self _
        have hsam : entry.deviceId = device.deviceId := by
          simpa using (mem_filter.mp hin).2
        have hin' : old ∈ state.devices.filter (·.deviceId = device.deviceId) := by
          apply mem_filter.mpr
          refine ⟨hmem, ?_⟩
          simp [hid, ← he, hsam]
        rw [hfilt] at hin'
        exact mem_singleton.mp hin'
      refine ⟨LinkState.withNonce nonce old, ?_, ?_, ?_, ?_⟩
      · change (state.devices.map _).filter _ = _
        rw [hmap]
        simp [he]
      · exact hentry ▸ hname
      · exact hentry ▸ hsecr
      · exact hentry ▸ hpaired
    · refine ⟨entry, ?_, hname, hsecr, hpaired⟩
      change (state.devices.map _).filter _ = _
      rw [hmap]
      simp [he]
  | revoke deviceId =>
    cases h
    right
    rw [LinkState.revoke]
    split_ifs
    · refine ⟨LinkState.markRevoked deviceId entry, ?_, ?_, ?_, ?_⟩
      · change (state.devices.map _).filter _ = _
        rw [filter_map_id, hfilt]
        · rfl
        · intro e _
          rw [LinkState.markRevoked]
          split_ifs <;> rfl
      all_goals
        rw [LinkState.markRevoked]
        split_ifs <;> assumption
    · exact ⟨entry, hfilt, hname, hsecr, hpaired⟩
  | _ =>
    cases h
    exact .inr (hsame rfl)

lemma stored_of_pair {device : NewDevice}
    (h : applyCall (.pair inviteId device) draws state = some next) :
    Stored device draws.moment.paired next := by
  obtain ⟨_, -, -, -, rfl⟩ := apply_pair h
  refine ⟨LinkState.pairedRecord device draws.moment, ?_, rfl, rfl, rfl⟩
  change (state.devices.filter _ ++ _).filter _ = _
  have hnone : (state.devices.filter (·.deviceId ≠ device.deviceId)).filter
      (·.deviceId = device.deviceId) = [] := by
    apply filter_eq_nil_iff.mpr
    intro e he
    simpa using (mem_filter.mp he).2
  rw [filter_append, hnone]
  simp [LinkState.pairedRecord]

lemma cutOff_iff : CutOff deviceId state ↔ ∀ e ∈ state.devices, isLive deviceId e = false := by
  rw [CutOff, LinkState.device, find?_eq_none]
  simp only [Bool.not_eq_true]

lemma apply_cutOff (h : applyCall call draws state = some next) (hcut : CutOff deviceId state) :
    (∃ inviteId device, call = .pair inviteId device ∧ device.deviceId = deviceId) ∨
      CutOff deviceId next := by
  have hsame : next.devices = state.devices → CutOff deviceId next := by
    intro heq
    rw [CutOff, LinkState.device, heq]
    exact hcut
  have hlive := cutOff_iff.mp hcut
  cases call with
  | pair inviteId other =>
    obtain ⟨_, -, -, -, rfl⟩ := apply_pair h
    by_cases hoth : other.deviceId = deviceId
    · exact .inl ⟨inviteId, other, rfl, hoth⟩
    · right
      apply cutOff_iff.mpr
      intro e he
      rcases mem_append.mp he with hold | hlast
      · exact hlive e (mem_of_mem_filter hold)
      · obtain rfl := mem_singleton.mp hlast
        simp [isLive, LinkState.pairedRecord, hoth]
  | acceptNonce other nonce =>
    obtain ⟨old, hold, -, rfl⟩ := apply_acceptNonce h
    obtain ⟨hmem, hid, -⟩ := LinkState.mem_of_device hold
    right
    apply cutOff_iff.mpr
    intro e he
    obtain ⟨e, hin, rfl⟩ := mem_map.mp he
    split_ifs
    · exact hlive old hmem
    · exact hlive e hin
  | revoke other =>
    cases h
    right
    rw [LinkState.revoke]
    split_ifs
    · apply cutOff_iff.mpr
      intro e he
      obtain ⟨e, hin, rfl⟩ := mem_map.mp he
      rw [LinkState.markRevoked]
      split_ifs
      · simp [isLive]
      · exact hlive e hin
    · exact hcut
  | _ =>
    cases h
    exact .inr (hsame rfl)

lemma cutOff_of_revoke (h : applyCall (.revoke deviceId) draws state = some next) :
    CutOff deviceId next := by
  cases h
  rw [LinkState.revoke]
  split_ifs with hlive
  · apply cutOff_iff.mpr
    intro e he
    obtain ⟨e, hin, rfl⟩ := mem_map.mp he
    rw [LinkState.markRevoked]
    split_ifs with hid
    · simp [isLive]
    · simp [isLive, hid]
  · simpa [CutOff] using hlive

end

/-- What holds of the changes in place and of the file, in a state of a run. -/
structure PairingsKept (g : LockedFile.State LinkState StoreRequest Draws) : Prop where
  /-- An invitation is paired with while it is open, and not again. -/
  once : ∀ (before after : List (Commit LinkState StoreRequest Draws)) c,
    g.commits = before ++ c :: after → ∀ inviteId device,
    c.request.call = .pair inviteId device →
      (∃ invitation, c.base.invitation inviteId = some invitation ∧ invitation.usedAt = none ∧
        c.draw.moment.checked < invitation.expiresAt) ∧
      ∀ c' ∈ after, ∀ device', c'.request.call ≠ .pair inviteId device'
  /-- A device stays stored until it is paired again. -/
  stored : ∀ (before after : List (Commit LinkState StoreRequest Draws)) c,
    g.commits = before ++ c :: after → ∀ inviteId device,
    c.request.call = .pair inviteId device →
      (∃ c' ∈ after, PairsDevice device.deviceId c'.request) ∨
      ∃ s, g.file = some s ∧ Stored device c.draw.moment.paired s
  /-- Between a revocation and an accepted nonce of a device it is paired. -/
  revoked : ∀ (before mid after : List (Commit LinkState StoreRequest Draws)) c c',
    g.commits = before ++ c :: mid ++ c' :: after →
    ∀ deviceId nonce, c.request.call = .revoke deviceId →
      c'.request.call = .acceptNonce deviceId nonce →
      ∃ p ∈ mid, PairsDevice deviceId p.request
  /-- The host id is that of every state that was in the file. -/
  hostId : ∀ c ∈ g.commits, c.next.hostId = c.base.hostId ∧
    ∃ s, g.file = some s ∧ s.hostId = c.next.hostId
  /-- A call that returned has made its change, and one that was rejected has made none. -/
  returned : ∀ i request, g.calls i = some ⟨request, .returned⟩ →
    ∃ c ∈ g.commits, c.call = i ∧ c.request = request
  rejected : ∀ i request, g.calls i = some ⟨request, .rejected⟩ → ∀ c ∈ g.commits, c.call ≠ i

section
variable {origin : Option LinkState} {commits before after : List (Commit LinkState StoreRequest Draws)}
  {c : Commit LinkState StoreRequest Draws}

lemma applied (h : Serial linkStore origin commits) (hspl : commits = before ++ c :: after)
    {call : StoreCall} (hcall : c.request.call = call) :
    applyCall call c.draw c.base = some c.next := by
  have hnext := (h.split hspl).2.next
  rw [← hcall]
  exact hnext

lemma serial_until_paired {I : LinkState → Prop} {deviceId : Text}
    (hstep : ∀ call draws state next, applyCall call draws state = some next → I state →
      (∃ inviteId device, call = .pair inviteId device ∧ device.deviceId = deviceId) ∨ I next)
    (h : Serial linkStore origin (before ++ c :: after)) (hc : I c.next) :
    (∃ c' ∈ after, PairsDevice deviceId c'.request) ∨
      ∃ s, contentAfter origin (before ++ c :: after) = some s ∧ I s := by
  apply h.persists _ hc
  intro request draw s s' happly hI
  exact hstep request.call draw s s' happly hI

lemma serial_once (h : Serial linkStore origin (before ++ c :: after)) {inviteId : Text}
    {device : NewDevice} (hcall : c.request.call = .pair inviteId device) :
    ∀ c' ∈ after, ∀ device', c'.request.call ≠ .pair inviteId device' := by
  intro c' hc' device' hcall'
  obtain ⟨mid, rest, rfl⟩ := append_of_mem hc'
  have hspl : before ++ c :: (mid ++ c' :: rest) = (before ++ c :: mid) ++ c' :: rest := by simp
  obtain ⟨hfront, hfoll⟩ := h.split hspl
  have hused : ∀ request draw s s', linkStore.apply request draw s = some s' →
      Used inviteId s → False ∨ Used inviteId s' :=
    fun request draw s s' happly hu => .inr (apply_used happly hu)
  rcases hfront.persists hused (used_of_pair (applied h rfl hcall)) with ⟨_, -, hno⟩ | ⟨s, hs, hu⟩
  · exact hno
  · have hbase := hfoll.base
    rw [hs, Option.some_or, Option.some.injEq] at hbase
    obtain ⟨invitation, hfind, hfree, -⟩ := apply_pair (applied h hspl hcall')
    obtain ⟨found, hfound, hsome⟩ := hu
    rw [← hbase, hfound, Option.some.injEq] at hfind
    rw [← hfind] at hfree
    rw [hfree] at hsome
    cases hsome

lemma serial_revoked {mid rest : List (Commit LinkState StoreRequest Draws)}
    {c' : Commit LinkState StoreRequest Draws}
    (h : Serial linkStore origin (before ++ c :: mid ++ c' :: rest)) {deviceId nonce : Text}
    (hcall : c.request.call = .revoke deviceId)
    (hcall' : c'.request.call = .acceptNonce deviceId nonce) :
    ∃ p ∈ mid, PairsDevice deviceId p.request := by
  obtain ⟨hfront, hfoll⟩ := h.split rfl
  have hcut := cutOff_of_revoke (applied hfront rfl hcall)
  rcases serial_until_paired (fun _ _ _ _ => apply_cutOff) hfront hcut with hpaired | ⟨s, hs, hI⟩
  · exact hpaired
  · have hbase := hfoll.base
    rw [hs, Option.some_or, Option.some.injEq] at hbase
    obtain ⟨old, hold, -, -⟩ := apply_acceptNonce (applied h rfl hcall')
    rw [← hbase, hI] at hold
    cases hold

end

/-- In every run whose reads are harmless the pairings are kept. -/
theorem pairings_kept {g₀ g : LockedFile.State LinkState StoreRequest Draws}
    {as : List (LockedFile.Step StoreRequest Draws)} (hstart : (machine linkStore).start g₀)
    (hrun : (machine linkStore).Run (Reads linkStore) g₀ as g) :
    PairingsKept g ∧ ∀ s₀, g₀.file = some s₀ → ∃ s, g.file = some s ∧ s.hostId = s₀.hostId := by
  have hinv := inv_of_run hstart hrun
  have hhost : ∀ request draw s s' (id : Text), linkStore.apply request draw s = some s' →
      s.hostId = id → False ∨ s'.hostId = id :=
    fun request draw s s' id happly hid => .inr ((apply_hostId happly).trans hid)
  constructor
  · constructor
    · intro before after c hspl inviteId device hcall
      have hser := hinv.serial
      rw [hspl] at hser
      obtain ⟨invitation, hfind, hfree, hunexp, -⟩ := apply_pair (applied hser rfl hcall)
      exact ⟨⟨invitation, hfind, hfree, hunexp⟩, serial_once hser hcall⟩
    · intro before after c hspl inviteId device hcall
      have hser := hinv.serial
      rw [hspl] at hser
      rw [hinv.file, hspl]
      exact serial_until_paired (fun _ _ _ _ => apply_stored) hser
        (stored_of_pair (applied hser rfl hcall))
    · intro before mid after c c' hspl deviceId nonce hcall hcall'
      have hser := hinv.serial
      rw [hspl] at hser
      exact serial_revoked hser hcall hcall'
    · intro c hc
      obtain ⟨before, after, hspl⟩ := append_of_mem hc
      have hser := hinv.serial
      rw [hspl] at hser
      refine ⟨apply_hostId (applied hser rfl rfl), ?_⟩
      rcases hser.persists (fun r d s s' => hhost r d s s' c.next.hostId) rfl with
        ⟨_, -, hno⟩ | hstays
      · exact hno.elim
      · rw [hinv.file, hspl]
        exact hstays
    · exact fun i request hcall => hinv.returned hcall
    · exact fun i request hcall => hinv.rejected hcall
  · intro s₀ hs₀
    cases hcomm : g.commits with
    | nil =>
      refine ⟨s₀, ?_, rfl⟩
      rw [hinv.file, hcomm, hs₀]
      rfl
    | cons c after =>
      have hser : Serial linkStore g₀.file ([] ++ c :: after) := by
        rw [nil_append, ← hcomm]
        exact hinv.serial
      have hbase := (hser.split rfl).2.base
      rw [hs₀, contentAfter_nil, Option.some_or, Option.some.injEq] at hbase
      have hfirst : c.next.hostId = s₀.hostId := by
        rw [hbase]
        exact apply_hostId (applied hser rfl rfl)
      rcases hser.persists (fun r d s s' => hhost r d s s' s₀.hostId) hfirst with
        ⟨_, -, hno⟩ | hstays
      · exact hno.elim
      · rw [hinv.file, hcomm, hs₀]
        rw [hs₀] at hstays
        exact hstays

def sampleOptions : StoreOptions := ⟨some "wss://relay".toList, some "Host".toList⟩

def sampleDraws (hostId : Text) : Draws :=
  ⟨hostId, "box".toList, "i1".toList, "s1".toList, 0, ⟨1, 1, 1⟩⟩

def sampleDevice : NewDevice := ⟨"d1".toList, "Phone".toList, "k1".toList⟩

def wholeCall (i : ℕ) (call : StoreCall) (fails : Bool) (hostId : Text) :
    List (LockedFile.Step StoreRequest Draws) :=
  [.call i ⟨sampleOptions, call⟩, .mkdir i false, .openLock i false,
    .read i fails (sampleDraws hostId), .write i false, .rename i false, .close i false,
    .remove i false]

def emptyStore : LockedFile.State LinkState StoreRequest Draws where
  file := none
  lock := none
  calls _ := none
  commits := []

def pairingSteps (fails : Bool) : List (LockedFile.Step StoreRequest Draws) :=
  wholeCall 0 (.createInvitation 600000) false "h1".toList ++
    wholeCall 1 (.pair "i1".toList sampleDevice) false "h2".toList ++
    wholeCall 2 .identity fails "h3".toList

def storeView (g : LockedFile.State LinkState StoreRequest Draws) :
    Option (Text × List Text) × List (StoreCall × Text) :=
  (g.file.map fun s => (s.hostId, s.devices.map LinkDeviceRecord.deviceId),
    g.commits.map fun c => (c.request.call, c.next.hostId))

lemma pairing_run : (((machine linkStore).execIf (fun _ a => !a.fails) emptyStore
    (pairingSteps false)).map storeView) =
      some (some ("h1".toList, ["d1".toList]),
        [(.createInvitation 600000, "h1".toList),
          (.pair "i1".toList sampleDevice, "h1".toList), (.identity, "h1".toList)]) := by
  decide +kernel

lemma failing_run : (((machine linkStore).exec emptyStore (pairingSteps true)).map storeView) =
    some (some ("h3".toList, []),
      [(.createInvitation 600000, "h1".toList),
        (.pair "i1".toList sampleDevice, "h1".toList), (.identity, "h3".toList)]) := by
  decide +kernel

lemma emptyStore_start : (machine linkStore).start emptyStore := ⟨rfl, fun _ => rfl, rfl⟩

/-- A read that fails counts as an empty file, and the pairing is overwritten. -/
theorem failed_read_loses_pairing : ∃ g, (machine linkStore).Reach anyStep g ∧
    g.commits.length = 3 ∧ g.file.map (·.devices) = some [] ∧ ¬ PairingsKept g := by
  obtain ⟨g, hexec, hview⟩ := Option.map_eq_some_iff.mp failing_run
  simp only [storeView, Prod.mk.injEq] at hview
  obtain ⟨hfile, hcomm⟩ := hview
  obtain ⟨s, hs, hfields⟩ := Option.map_eq_some_iff.mp hfile
  simp only [Prod.mk.injEq, map_eq_nil_iff] at hfields
  refine ⟨g, Machine.reach_of_exec emptyStore_start hexec, ?_, ?_, ?_⟩
  · have hlength := congrArg length hcomm
    simpa using hlength
  · rw [hs, Option.map_some, hfields.2]
  · intro hkept
    obtain ⟨c, hc, hcview⟩ := mem_map.mp (hcomm ▸ mem_cons_self)
    simp only [Prod.mk.injEq] at hcview
    obtain ⟨-, s', hs', hid⟩ := hkept.hostId c hc
    obtain rfl := Option.some.inj (hs.symm.trans hs')
    rw [hcview.2, hfields.1] at hid
    exact absurd hid (by decide)

theorem pairing_is_kept : ∃ g, g.commits.length = 3 ∧ PairingsKept g := by
  obtain ⟨g, hexec, hview⟩ := Option.map_eq_some_iff.mp pairing_run
  simp only [storeView, Prod.mk.injEq] at hview
  refine ⟨g, ?_, ?_⟩
  · have hlength := congrArg length hview.2
    simpa using hlength
  · apply (pairings_kept emptyStore_start ((Machine.run_of_execIf hexec).mono _)).1
    intro s a hok
    apply reads_of_not_fails
    simpa using hok

end Redskilled.Link
