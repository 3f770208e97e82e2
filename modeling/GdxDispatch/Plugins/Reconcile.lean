import Mathlib.Data.List.Lex
import Mathlib.Data.Prod.Lex
import Mathlib.Data.Sum.Order
import Mathlib.Data.Char
import GdxDispatch.Plugins.Removal

/-! Bringing the volume to the desired state: `reconcile`, `desired_versions` and `detect_stale` of
    `plugin_host/reconcile.py`.

    The rows of the registry are installed one after another, then the newest artifact of each distribution, and what an
    operator removed goes last. The staleness check asks a dict of desired versions instead.

    The volume is read as the metadata on it: the name and the version of each distribution there. What pip brings for a
    package or a file is a parameter, and so is which distributions a recorded removal drops. -/

namespace Gdx
open Lib

/-- A row of `plugin_registry`, in the order of the query. -/
structure RegistryRow where
  package : Text
  version : Option Text
  deriving DecidableEq

/-- `if version`. -/
def RegistryRow.pinned (row : RegistryRow) : Option Text := row.version.filter (· ≠ [])

/-- The name and version in a `*.dist-info` of the volume. -/
abbrev DistInfo := Text × Text

/-- What pip brings for a package, under its version or none, and for a file. -/
structure Pip where
  package : Text → Option Text → DistInfo
  artifact : Text → DistInfo

/-- `_SAFE_NAME`. -/
def isSafeName (base : Text) : Bool :=
  (base.all fun c => c.isAlphanum || c = '.' || c = '_' || c = '+' || c = '-') &&
    [".whl", ".tar.gz"].any fun ext => endsWith base ext && decide (ext.toList.length < base.length)

namespace HostRuntime
variable {V : Type} (rt : HostRuntime V)

/-- `safe_artifact_name`. -/
def safeArtifactName (filename : Text) : Option Text :=
  let base := basename (rt.strip filename)
  if isSafeName base then some base else none

/-- The versions of a distribution on the volume, by its canonical name. -/
def versionsAt (vol : List DistInfo) (canon : Text) : List Text :=
  (vol.filter fun info => rt.canon info.1 = canon).map Prod.snd

variable [LinearOrder V]

/-- `max(versions, key=Version)`, by the text where one does not parse. -/
def highest (versions : List Text) : Option Text :=
  if versions.all fun v => (rt.parse v).isSome then
    maxBy (fun a b => (rt.parse a).any fun x => (rt.parse b).any (decide <| x < ·)) versions
  else maxBy (fun a b => decide (a < b)) versions

/-- `effective_version`. -/
def runningVersion (vol : List DistInfo) (distribution : Text) : Option Text :=
  rt.highest (rt.versionsAt vol (rt.canon distribution))

/-- `is_installed`. -/
def isInstalled (vol : List DistInfo) (distribution version : Text) : Bool :=
  (rt.runningVersion vol distribution).any fun running => rt.versionsEqual running version

/-- `prune_other_versions`. -/
def pruneOtherVersions (vol : List DistInfo) (distribution keep : Text) : List DistInfo :=
  vol.filter fun info => !(rt.canon info.1 = rt.canon distribution && !rt.versionsEqual info.2 keep)

/-- `_install_replacing`, once pip has built the new install. -/
def installReplacing (vol : List DistInfo) (distribution version : Text) (brought : DistInfo) : List DistInfo :=
  rt.pruneOtherVersions ((vol.filter fun info => rt.canon info.1 ≠ rt.canon distribution) ++ [brought]) distribution version

/-- A version wanted of a distribution: kept where it runs, put in the place of another one, else installed. -/
def landVersion (vol : List DistInfo) (distribution version : Text) (brought : DistInfo) : List DistInfo :=
  if rt.isInstalled vol distribution version then rt.pruneOtherVersions vol distribution version
  else
    match rt.runningVersion vol distribution with
    | some present =>
      if present ≠ [] ∧ rt.versionsEqual present version = false then rt.installReplacing vol distribution version brought
      else rt.pruneOtherVersions (vol ++ [brought]) distribution version
    | none => rt.pruneOtherVersions (vol ++ [brought]) distribution version

/-- The pass of `reconcile` for one row of the registry; a row that names a file is never given to pip. -/
def reconcileRow (pip : Pip) (vol : List DistInfo) (row : RegistryRow) : List DistInfo :=
  if rt.looksLikeArtifactFilename row.package then
    match rt.artifactNameVersion row.package with
    | some (dist, version) =>
      if rt.isInstalled vol dist version then rt.pruneOtherVersions vol dist version else vol
    | none => vol
  else
    match row.pinned with
    | some version => rt.landVersion vol row.package version (pip.package row.package (some version))
    | none => vol ++ [pip.package row.package none]

/-- `install_artifact`, of bytes as uploaded. -/
def installArtifact (pip : Pip) (vol : List DistInfo) (filename : Text) : List DistInfo :=
  match rt.safeArtifactName filename with
  | none => vol
  | some safe =>
    match rt.artifactNameVersion safe with
    | some (dist, version) => rt.landVersion vol dist version (pip.artifact safe)
    | none => vol ++ [pip.artifact safe]

/-- `_canon(dist or filename)`. -/
def artifactCanon (filename : Text) : Text :=
  match rt.artifactNameVersion filename with
  | some (dist, _) => rt.canon dist
  | none => rt.canon filename

/-- A version in the order of the sort key: one that does not parse comes before all that do. -/
def versionRank (version : Text) : Text ⊕ₗ V :=
  match rt.parse version with
  | some v => toLex (.inr v)
  | none => toLex (.inl version)

/-- `_artifact_sort_key`. -/
def artifactSortKey (filename : Text) : Text ×ₗ ((Text ⊕ₗ V) ×ₗ Text) :=
  match rt.artifactNameVersion filename with
  | some (dist, version) => toLex (rt.canon dist, toLex (rt.versionRank version, filename))
  | none =>
    match rt.parse "0".toList with
    | some zero => toLex (rt.canon filename, toLex (toLex (.inr zero), filename))
    | none => toLex (rt.canon filename, toLex (toLex (.inl []), filename))

/-- `desired_artifacts`. -/
def desiredArtifacts (uploads : List Text) : List Text :=
  uploads.insertionSort fun a b => rt.artifactSortKey a ≤ rt.artifactSortKey b

/-- The last artifact of a distribution. -/
def newestFor (uploads : List Text) (canon : Text) : Option Text :=
  ((rt.desiredArtifacts uploads).filter fun filename => rt.artifactCanon filename = canon).getLast?

/-- The dict `newest`, the distributions in the order they came up. -/
def newestArtifacts (uploads : List Text) : List Text :=
  (((rt.desiredArtifacts uploads).map rt.artifactCanon).dedup).filterMap (rt.newestFor uploads)

/-- The set `desired` of `reconcile`. -/
def desiredNames (rows : List RegistryRow) (uploads : List Text) : List Text :=
  (rows.filterMap fun row =>
    if rt.looksLikeArtifactFilename row.package then
      (rt.artifactNameVersion row.package).map fun (dist, _) => rt.canon dist
    else some (rt.canon ((rt.specDistribution row.package).getD row.package))) ++
    uploads.map rt.artifactCanon

/-- `reconcile`, where a recorded removal drops the distributions of `dropped` that no row wants. -/
def reconcile (pip : Pip) (rows : List RegistryRow) (uploads : List Text) (dropped : Text → Bool) (vol : List DistInfo) :
    List DistInfo :=
  let afterRows := rows.foldl (rt.reconcileRow pip) vol
  let afterArtifacts := (rt.newestArtifacts uploads).foldl (rt.installArtifact pip) afterRows
  afterArtifacts.filter fun info => decide (rt.canon info.1 ∈ rt.desiredNames rows uploads) || !dropped (rt.canon info.1)

/-! ### The staleness check -/

/-- The assignments that make the dict of `desired_versions`. -/
def desiredVersions (rows : List RegistryRow) (uploads : List Text) : List (Text × Text) :=
  (rows.filterMap fun row => row.pinned.map fun version => (rt.canon row.package, version)) ++
    (rt.desiredArtifacts uploads).filterMap fun filename =>
      (rt.artifactNameVersion filename).map fun (dist, version) => (rt.canon dist, version)

/-- `desired.get(canon)`: the last assignment wins. -/
def desiredVersion (rows : List RegistryRow) (uploads : List Text) (canon : Text) : Option Text :=
  ((rt.desiredVersions rows uploads).filter (·.1 = canon)).getLast?.map Prod.snd

/-- `detect_stale`, over manifest keys and distribution names: the plugin, what is installed and what is desired. -/
def detectStale (desired : Text → Option Text) (vol : List DistInfo) :
    List Text → List (Text × Option Text) → List (Text × Text × Text)
  | _, [] => []
  | seen, (key, dist) :: discovered =>
    if key ∈ seen then detectStale desired vol seen discovered
    else
      match dist.filter (· ≠ []) with
      | none => detectStale desired vol (key :: seen) discovered
      | some name =>
        match (desired (rt.canon name)).filter (· ≠ []) with
        | none => detectStale desired vol (key :: seen) discovered
        | some want =>
          if rt.isInstalled vol name want then detectStale desired vol (key :: seen) discovered
          else
            (key, ((rt.runningVersion vol name).filter (· ≠ [])).getD "unknown".toList, want) ::
              detectStale desired vol (key :: seen) discovered

end HostRuntime

end Gdx
