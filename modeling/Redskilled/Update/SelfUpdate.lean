import Redskilled.Foundation.Dialogue
import Redskilled.Update.Version

/-!
# Serving a version, and updating it

The version that is served is read from a pointer and from the bundles in the cache; where
the cache has a newer bundle than the pointer, the pointer is moved. An update runs in the
background: it asks the registry for the newest version in range, fetches its bundles into
the cache, and moves the pointer last.

Both are programs that ask for one operation on the files after the other. Any operation
can throw.
-/
namespace Redskilled.Update
open Foundation Foundation.Text Dialogue

inductive Path where
  | cache (name : Text)
  | packaged (root relative : Text)
  deriving DecidableEq

inductive FileOp where
  | present (path : Path)
  | readFile (path : Path)
  | writeFile (name content : Text)
  | rename (source target : Text)
  | readdir
  | materialize (spec stagingDir : Text)
  | fetchText (url : Text)
  deriving DecidableEq

abbrev Answer : FileOp → Type
  | .present _ => Bool
  | .readFile _ => Text
  | .writeFile .. => Unit
  | .rename .. => Unit
  | .readdir => List Text
  | .materialize .. => Text
  | .fetchText _ => Text

abbrev Program (α : Type) := Dialogue FileOp Answer α

inductive SelfUpdateStatus where
  | updated | upToDate | skippedChannel | error
  deriving DecidableEq

def SelfUpdateStatus.text : SelfUpdateStatus → Text
  | .updated => "updated".toList
  | .upToDate => "up-to-date".toList
  | .skippedChannel => "skipped-channel".toList
  | .error => "error".toList

structure SelfUpdateState where
  lastCheckAtMs : Option ℤ
  lastSuccessAtMs : Option ℤ
  lastFailureAtMs : Option ℤ
  lastError : Option Text
  lastStatus : Option SelfUpdateStatus

def SelfUpdateState.empty : SelfUpdateState := ⟨none, none, none, none, none⟩

/-- How the record is spelled. What cannot be read is the empty record. -/
structure StatusFormat where
  readState : Text → SelfUpdateState
  encodeState : SelfUpdateState → Text

section
variable (format : StatusFormat) (plugin : Text)

def readStateFile : Program SelfUpdateState := do
  let read ← caught (do
    if ← need (.present (.cache (statusFileName plugin))) then
      let body ← need (.readFile (.cache (statusFileName plugin)))
      pure (format.readState body)
    else pure .empty)
  pure (read.getD .empty)

def tryWriteStateFile (patch : SelfUpdateState → SelfUpdateState) : Program Unit := do
  let _ ← caught (do
    let prior ← readStateFile format plugin
    need (FileOp.writeFile (statusFileName plugin) (format.encodeState (patch prior))))
  pure ()

end

structure ResolveInput where
  plugin : Text
  installedVersion : Text
  cacheDir : Text
  channel : ReleaseChannel

structure ResolveOptions where
  nowMs : ℤ
  staleAfterMs : ℤ

structure Served where
  version : Text
  pointerVersion : Option Text

structure Resolution where
  version : Text
  pointerVersion : Option Text
  laneNewestVersion : Option Text
  /-- The pointer before and after it was moved. -/
  reconciled : Option (Option Text × Text)
  staleFailure : Option (ℤ × Option Text)
  /-- The status, when it was formed, and its age. -/
  selfUpdateStatus : Option (SelfUpdateStatus × ℤ × ℤ)
  staleSuccess : Option (SelfUpdateStatus × ℤ)
  logNotes : List Text

def formatAgeMs (ms : ℤ) : Text :=
  let s := (max 0 ms).toNat / 1000
  if s < 60 then number s ++ "s".toList
  else if s / 60 < 60 then number (s / 60) ++ "m".toList
  else number (s / 60 / 60) ++ "h".toList

def pointerTemp (plugin version : Text) : Text :=
  pointerFileName plugin ++ ".".toList ++ version ++ ".tmp".toList

def swapPointer (plugin version : Text) : Program Unit := do
  need (FileOp.writeFile (pointerTemp plugin version) (pointerContent version))
  need (FileOp.rename (pointerTemp plugin version) (pointerFileName plugin))

section
variable (input : ResolveInput)

def pointedVersion : Program Text := do
  let read ← caught (do
    if ← need (.present (.cache (pointerFileName input.plugin))) then
      let body ← need (.readFile (.cache (pointerFileName input.plugin)))
      pure (readPointer body)
    else pure [])
  pure (read.getD [])

/-- The pointer is a candidate: in range, and not a downgrade. -/
def isCandidate (pointed : Text) : Bool :=
  !pointed.isEmpty && isInRange input.installedVersion pointed &&
    0 ≤ compareSemver pointed input.installedVersion

/-- A candidate is honoured where its bundle is in the cache. A version that cannot key a
bundle throws. -/
def honourPointer (pointed : Text) : Program Served :=
  if isCandidate input pointed then
    match bundleFileName input.plugin pointed input.channel with
    | none => .fail
    | some name => do
        let cached ← need (.present (.cache name))
        pure (if cached then ⟨pointed, some pointed⟩ else ⟨input.installedVersion, none⟩)
  else pure ⟨input.installedVersion, none⟩

def newestCachedLaneVersion : Program (Option Text) := do
  let entries ← attempt .readdir
  pure (entries.bind fun names => newestOf input.plugin input.installedVersion names)

def reconcileTo (served : Served) (lane : Option Text) : Option Text :=
  lane.filter fun newest => 0 < compareSemver newest served.version

def reconcileNote (served : Served) (newest : Text) : Text :=
  "self-update reconciled pointer ".toList ++ served.pointerVersion.getD "none".toList ++
    " -> ".toList ++ newest ++ " from cached lane".toList

def reconcile (served : Served) (lane : Option Text) : Program Served :=
  match reconcileTo served lane with
  | none => pure served
  | some newest => do
      swapPointer input.plugin newest
      pure ⟨newest, some newest⟩

def describe (options : ResolveOptions) (pointer served : Served) (lane : Option Text)
    (state : SelfUpdateState) : Resolution :=
  let nowMs := options.nowMs
  let selfUpdateStatus :=
    match state.lastStatus, state.lastCheckAtMs with
    | some status, some checkedAtMs => some (status, checkedAtMs, max 0 (nowMs - checkedAtMs))
    | _, _ => none
  let staleFailure :=
    match state.lastFailureAtMs with
    | some failedAtMs =>
      if state.lastSuccessAtMs.getD 0 < failedAtMs ∧ options.staleAfterMs < nowMs - failedAtMs then
        some (nowMs - failedAtMs, state.lastError)
      else none
    | none => none
  let success := selfUpdateStatus.filter fun found => found.1 = .updated || found.1 = .upToDate
  let staleSuccess := (success.filter fun found => options.staleAfterMs < found.2.2).map
    fun found => (found.1, found.2.2)
  { version := served.version
    pointerVersion := served.pointerVersion
    laneNewestVersion := lane
    reconciled := (reconcileTo pointer lane).map fun newest => (pointer.pointerVersion, newest)
    staleFailure := staleFailure
    selfUpdateStatus := selfUpdateStatus
    staleSuccess := staleSuccess
    logNotes :=
      ((reconcileTo pointer lane).map (reconcileNote pointer)).toList ++
      (staleFailure.map fun found =>
        "self-update stale: last check failed ".toList ++ formatAgeMs found.1 ++
          " ago".toList).toList ++
      (success.map fun found =>
        "self-update ".toList ++ found.1.text ++ ": checked ".toList ++ formatAgeMs found.2.2 ++
          " ago".toList).toList ++
      (staleSuccess.map fun found =>
        "self-update stale: last successful check was ".toList ++ formatAgeMs found.2 ++
          " ago".toList).toList }

def plainResolution : Resolution where
  version := input.installedVersion
  pointerVersion := none
  laneNewestVersion := none
  reconciled := none
  staleFailure := none
  selfUpdateStatus := none
  staleSuccess := none
  logNotes := []

variable (format : StatusFormat) (options : ResolveOptions)

def afterPointer (pointer : Served) : Program Resolution := do
  let lane ← newestCachedLaneVersion input
  let served ← reconcile input pointer lane
  let state ← readStateFile format input.plugin
  pure (describe options pointer served lane state)

def resolveActiveVersionDetailed : Program Resolution :=
  if input.channel ≠ .stable ∨ input.installedVersion = [] then pure (plainResolution input)
  else do
    let pointed ← pointedVersion input
    let pointer ← honourPointer input pointed
    afterPointer input format options pointer

end

def npmPackage : Text := "@reddb-io/red-skills".toList

def devWarmBundle : Text := "redskilled".toList

/-- The bundles that ship beside a plugin. -/
def companionBundlePlugins (plugin : Text) : List Text :=
  if plugin = devWarmBundle then ["rsp".toList, "rsp-core".toList] else []

def packagedBundleRelPath (plugin : Text) : Text := "dist/".toList ++ plugin ++ bundleSuffix

/-- The package that owns one bundle. -/
def npmBundlePackage (plugin : Text) : Text :=
  if plugin ∈ "code-nav".toList :: devWarmBundle :: companionBundlePlugins devWarmBundle then
    npmPackage
  else npmPackage ++ "-".toList ++ plugin

def npmRef (version : Text) (channel : ReleaseChannel) : Text :=
  if channel = .canary then "canary".toList else version

def npmSpec (package version : Text) (channel : ReleaseChannel) : Text :=
  package ++ "@".toList ++ npmRef version channel

def joinPath (dir name : Text) : Text :=
  if "/".toList.isSuffixOf dir then dir ++ name else dir ++ "/".toList ++ name

structure EnsureInput where
  plugin : Text
  version : Text
  cacheDir : Text
  installRoot : Option Text
  channel : ReleaseChannel

structure Fetch where
  plugin : Text
  root : Text
  dest : Text

def allExist : List Text → Program Bool
  | [] => pure true
  | name :: names => do
      if ← need (.present (.cache name)) then allExist names else pure false

def writeBundles : List Fetch → Program Unit
  | [] => pure ()
  | fetch :: rest => do
      let source := Path.packaged fetch.root (packagedBundleRelPath fetch.plugin)
      if ← need (.present source) then
        let body ← need (.readFile source)
        need (FileOp.writeFile fetch.dest body)
        writeBundles rest
      else .fail

/-- Best effort: an entry without a version is moved aside. -/
def retireUnversionedEntries : List Text → Program Unit
  | [] => pure ()
  | plugin :: plugins => do
      let stale := unversionedBundleFileName plugin
      let _ ← caught (do
        if ← need (.present (.cache stale)) then
          need (FileOp.rename stale (stale ++ ".unversioned".toList))
        else pure ())
      retireUnversionedEntries plugins

section
variable (input : EnsureInput)

/-- `<root>/versions/v<version>`, and the bundle in it. -/
def installedBundlePath (installRoot : Text) : Option Path :=
  if isCacheableVersion input.version then
    some (.packaged
      (joinPath (joinPath installRoot "versions".toList) ("v".toList ++ trim input.version))
      (packagedBundleRelPath input.plugin))
  else none

def installedExists : Program (Option Path) :=
  match input.installRoot with
  | none => pure none
  | some installRoot =>
    if input.channel = .canary ∨ installRoot = [] then pure none
    else
      match installedBundlePath input installRoot with
      | none => .fail
      | some path => do
          if ← need (.present path) then pure (some path) else pure none

def isCached (dest : Text) (companionDests : List Text) : Program Bool :=
  if input.channel = .canary then pure false
  else do
    if ← need (.present (.cache dest)) then allExist companionDests else pure false

def stagingDir : Text :=
  joinPath input.cacheDir (".staging-".toList ++ input.plugin ++ "-".toList ++
    npmRef input.version input.channel)

/-- The root of core, and the version it pins, for a canary of another package. -/
def canaryCore : Program (Option (Text × Text)) :=
  if input.channel = .canary ∧ npmBundlePackage input.plugin ≠ npmPackage then do
    let root ← need (FileOp.materialize (npmSpec npmPackage input.version input.channel)
      (stagingDir input ++ "-core".toList))
    let manifest ← need (.readFile (.packaged root "package.json".toList))
    match Json.parse manifest with
    | some (.object fields) =>
      match fields.lookup "version".toList with
      | some (.string version) =>
        if isCacheableVersion version then pure (some (root, version)) else .fail
      | _ => .fail
    | _ => .fail
  else pure none

def companionRoot (core : Option (Text × Text)) (companions : List (Text × Text)) (root : Text) :
    Program Text :=
  match core with
  | some (coreRoot, _) => pure coreRoot
  | none =>
    if companions ≠ [] ∧ npmBundlePackage input.plugin ≠ npmPackage then
      need (FileOp.materialize (npmSpec npmPackage input.version input.channel)
        (stagingDir input ++ "-core".toList))
    else pure root

def fetchBundles (dest : Text) (companions : List (Text × Text)) : Program Unit := do
  let core ← canaryCore input
  let package := npmBundlePackage input.plugin
  let spec := match core with
    | none => npmSpec package input.version input.channel
    | some (_, version) => npmSpec package version .stable
  let root ← need (FileOp.materialize spec (stagingDir input))
  let companionRoot ← companionRoot input core companions root
  writeBundles (⟨input.plugin, root, dest⟩ ::
    companions.map fun companion => ⟨companion.1, companionRoot, companion.2⟩)

def ensureBundle : Program Path :=
  let companions := companionBundlePlugins input.plugin
  match bundleFileName input.plugin input.version input.channel,
    companions.mapM fun companion => bundleFileName companion input.version input.channel with
  | some dest, some companionDests => do
      match ← installedExists input with
      | some path => pure path
      | none =>
        if ← isCached input dest companionDests then pure (.cache dest)
        else
          fetchBundles input dest (companions.zip companionDests)
          retireUnversionedEntries (input.plugin :: companions)
          pure (.cache dest)
  | _, _ => .fail

end

def parseRegistryVersions (text : Text) : List Text :=
  match Json.parse text with
  | some (.object fields) =>
    match fields.lookup "versions".toList with
    | some (.object versions) => versions.map Prod.fst
    | _ => []
  | _ => []

def newestSameMajor (versions : List Text) (installed : Text) : Option Text :=
  versions.foldl (fun best version =>
    if !isInRange installed version then best
    else
      match best with
      | none => some version
      | some newest => if 0 < compareSemver version newest then some version else best) none

def registryPackageUrl : Text :=
  "https://registry.npmjs.org/@reddb-io%2Fred-skills".toList

def fetchNewestSameMajor (installed : Text) : Program (Option Text) := do
  let text ← need (.fetchText registryPackageUrl)
  pure (newestSameMajor (parseRegistryVersions text) installed)

structure SelfUpdateResult where
  status : SelfUpdateStatus
  version : Option Text
  error : Option Text

section
variable (input : ResolveInput) (format : StatusFormat) (options : ResolveOptions)

def checkedAt (status : SelfUpdateStatus) (_ : SelfUpdateState) : SelfUpdateState where
  lastCheckAtMs := some options.nowMs
  lastSuccessAtMs := some options.nowMs
  lastFailureAtMs := none
  lastError := none
  lastStatus := some status

def failedAt (error : Text) (prior : SelfUpdateState) : SelfUpdateState where
  lastCheckAtMs := some options.nowMs
  lastSuccessAtMs := prior.lastSuccessAtMs
  lastFailureAtMs := some options.nowMs
  lastError := some error
  lastStatus := some .error

def selectTarget : Program (Text × Option Text) := do
  let current ← resolveActiveVersionDetailed input format options
  let candidate ← fetchNewestSameMajor input.installedVersion
  pure (current.version, candidate.bind fun candidate =>
    selectInRangeUpdate input.installedVersion current.version candidate input.channel)

def adoptTarget (target : Text) : Program SelfUpdateResult := do
  let _ ← ensureBundle ⟨input.plugin, target, input.cacheDir, none, input.channel⟩
  swapPointer input.plugin target
  tryWriteStateFile format input.plugin (checkedAt options .updated)
  pure ⟨.updated, some target, none⟩

/-- Every failure is a result. What it says of the failure is `error`. -/
def backgroundSelfUpdate (error : Text) : Program SelfUpdateResult :=
  if input.channel ≠ .stable ∨ parseSemver input.installedVersion = none then
    pure ⟨.skippedChannel, none, none⟩
  else do
    let result ← caught (do
      let (current, target) ← selectTarget input format options
      match target with
      | none => do
          tryWriteStateFile format input.plugin (checkedAt options .upToDate)
          pure ⟨.upToDate, some current, none⟩
      | some target => adoptTarget input format options target)
    match result with
    | some result => pure result
    | none => do
        tryWriteStateFile format input.plugin (failedAt options error)
        pure ⟨.error, none, some error⟩

end
end Redskilled.Update
