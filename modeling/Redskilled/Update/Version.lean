import Redskilled.Foundation.Digits
import Redskilled.Foundation.Json

/-!
# Versions and the files they key

A version is `x.y.z` with an optional tag. Two of them are compared by their numbers
alone, and are in range of each other on the same major line. A version keys a bundle in
the cache, and a bundle found in the cache has the version that keys it.
-/
namespace Redskilled.Update
open Foundation Foundation.Text

inductive ReleaseChannel where
  | stable | canary
  deriving DecidableEq

structure Semver where
  major : ℕ
  minor : ℕ
  patch : ℕ

def readCore (t : Text) : Option (Semver × Text) :=
  match digitsAt t with
  | some (major, '.' :: t) =>
    match digitsAt t with
    | some (minor, '.' :: t) => (digitsAt t).map fun found => (⟨major, minor, found.1⟩, found.2)
    | _ => none
  | _ => none

def parseSemver (version : Text) : Option Semver := (readCore (trim version)).map Prod.fst

/-- Major, then minor, then patch. -/
def Semver.compare (a b : Semver) : ℤ :=
  if (a.major : ℤ) - b.major ≠ 0 then a.major - b.major
  else if (a.minor : ℤ) - b.minor ≠ 0 then a.minor - b.minor
  else a.patch - b.patch

/-- A version that is none compares equal to any. -/
def compareSemver (a b : Text) : ℤ :=
  match parseSemver a, parseSemver b with
  | some pa, some pb => pa.compare pb
  | _, _ => 0

def isInRange (installed candidate : Text) : Bool :=
  match parseSemver installed, parseSemver candidate with
  | some pi, some pc => pi.major == pc.major
  | _, _ => false

def selectInRangeUpdate (installed current candidate : Text) (channel : ReleaseChannel) :
    Option Text :=
  if channel ≠ .stable then none
  else if !isInRange installed candidate then none
  else if compareSemver candidate current ≤ 0 then none
  else some candidate

/-- `(?:[-+][…]+)?$` with the given class. -/
def isTag (allowed : Char → Bool) : Text → Bool
  | [] => true
  | sign :: tag => (sign == '-' || sign == '+') && !tag.isEmpty && tag.all allowed

/-- The class `[A-Za-z0-9.-]`. -/
def isLaneTagChar (c : Char) : Bool := c.isAlphanum || c == '.' || c == '-'

/-- The class `[0-9A-Za-z.+-]`. -/
def isCacheTagChar (c : Char) : Bool := isLaneTagChar c || c == '+'

/-- A version as the listing of the cache finds it. -/
def isLaneVersion (version : Text) : Bool :=
  (readCore version).any fun found => isTag isLaneTagChar found.2

def isCacheableVersion (version : Text) : Bool :=
  (readCore (trim version)).any fun found => isTag isCacheTagChar found.2

def bundleSuffix : Text := ".bundle.min.mjs".toList

def bundleFileName (plugin version : Text) (channel : ReleaseChannel) : Option Text :=
  if channel = .canary then some (plugin ++ "-canary".toList ++ bundleSuffix)
  else if isCacheableVersion version then some (plugin ++ "-".toList ++ trim version ++ bundleSuffix)
  else none

def unversionedBundleFileName (plugin : Text) : Text := plugin ++ "-".toList ++ bundleSuffix

def pointerFileName (plugin : Text) : Text := plugin ++ "-stable.current".toList

def statusFileName (plugin : Text) : Text := plugin ++ "-stable.self-update.json".toList

def between (front back t : Text) : Option Text :=
  if front.isPrefixOf t && back.isSuffixOf (t.drop front.length) then
    some ((t.drop front.length).take (t.length - front.length - back.length))
  else none

def laneVersion (plugin name : Text) : Option Text :=
  (between (plugin ++ "-".toList) bundleSuffix name).filter isLaneVersion

def pointerContent (version : Text) : Text :=
  (Json.object [("version".toList, .string version)]).stringify

def readPointer (text : Text) : Text :=
  let trimmed := trim text
  let bare := if (readCore trimmed).isSome then trimmed else []
  match Json.parse trimmed with
  | some (.object fields) =>
    match fields.lookup "version".toList with
    | some (.string version) => trim version
    | _ => bare
  | _ => bare

/-- The newest version that the names of the cache offer: in range of the installed one,
and newer than it. -/
def newestOf (plugin installed : Text) (entries : List Text) : Option Text :=
  entries.foldl (fun best name =>
    match laneVersion plugin name with
    | none => best
    | some version =>
      if !isInRange installed version then best
      else if compareSemver version installed ≤ 0 then best
      else
        match best with
        | none => some version
        | some newest => if 0 < compareSemver version newest then some version else best) none

end Redskilled.Update
