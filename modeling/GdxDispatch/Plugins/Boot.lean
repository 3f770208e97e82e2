import Mathlib.Data.List.Sort
import Mathlib.Data.List.Dedup
import Mathlib.Order.MinMax
import Mathlib.Logic.Function.Basic

/-! Boots of the plugin host: `reconcile` of `plugin_host/reconcile.py`.

    The volume holds top-level names with the code that stands there, and metadata records. A release is a
    distribution at a version; it installs the top-level names that `tops` gives. `pip install --target` is taken as it
    is documented to behave: where it succeeds it writes the metadata and each top-level name that is absent, and skips
    the names that are there.

    An action of a boot is a list of single writes, worked out from the volume the action finds, and a boot can die
    after any of them. The names are cleared in the order of the directory listing, given as a rank. Left out: the
    uploaded wheels, digests (a mismatch is a failed install) and what licenses a removal. -/

namespace Gdx

/-- A distribution at a version. -/
structure Release (D V : Type) where
  dist : D
  version : V
  deriving DecidableEq

/-- The volume: the code that stands under each top-level name, and the metadata directories. -/
structure CodeVolume (D V N : Type) where
  files : N → Option (Release D V)
  infos : List (Release D V)

/-- A write to the volume. -/
inductive VolumeOp (D V N : Type) where
  | drop (name : N)
  | dropInfo (info : Release D V)
  | put (name : N) (code : Release D V)
  | record (info : Release D V)
  | pip (wheels : List (Release D V))

/-- What a successful pip brings: the requested release and its dependencies, one version of each. -/
structure PipInstall (D V : Type) where
  wheels : List (Release D V)
  single : ∀ w ∈ wheels, ∀ w' ∈ wheels, w.dist = w'.dist → w = w'

/-- A row of the registry: the filename of a wheel, a package at a version, or a package at any; with what pip would
    answer. -/
inductive PackageRow (D V : Type) where
  | filename (release : Release D V)
  | pinned (release : Release D V) (pip : Option (PipInstall D V))
  | unpinned (dist : D) (pip : Option (PipInstall D V))

/-- An uploaded artifact: the distribution and version that its filename names, or the filename and no version; with what
    pip would answer. -/
structure ArtifactRow (D V : Type) where
  name : D
  version : Option V
  pip : Option (PipInstall D V)

/-- What a boot does, row by row: find a release of a filename, bring a release in, bring a package in at any version,
    or clear a distribution. -/
inductive HostAction (D V : Type) where
  | find (release : Release D V)
  | ensure (release : Release D V) (pip : Option (PipInstall D V))
  | latest (dist : D) (pip : Option (PipInstall D V))
  | remove (dist : D)

/-- A boot: the rows, the plugins whose removal is licensed, and the number of writes after which it dies, if it does. -/
structure HostBoot (D V : Type) where
  packages : List (PackageRow D V)
  artifacts : List (ArtifactRow D V)
  removals : List D
  dies : Option ℕ

/-- A report that a release is installed, with the volume at that moment. -/
structure InstallReport (D V N : Type) where
  release : Release D V
  volume : CodeVolume D V N

variable {D V N : Type} [DecidableEq D] [LinearOrder V] [DecidableEq N]

namespace CodeVolume

/-- The code pip writes under a name: that of the first wheel that has it. -/
def staged (tops : Release D V → List N) (wheels : List (Release D V)) (n : N) : Option (Release D V) :=
  wheels.find? fun w => decide (n ∈ tops w)

def apply (tops : Release D V → List N) (vol : CodeVolume D V N) : VolumeOp D V N → CodeVolume D V N
  | .drop n => { vol with files := Function.update vol.files n none }
  | .dropInfo i => { vol with infos := vol.infos.filter (· ≠ i) }
  | .put n code => { vol with files := Function.update vol.files n (some code) }
  | .record i => { vol with infos := vol.infos.filter (· ≠ i) ++ [i] }
  | .pip wheels =>
    { files := fun n => (vol.files n).or (staged tops wheels n)
      infos := vol.infos ++ wheels.filter (· ∉ vol.infos) }

def run (tops : Release D V → List N) (vol : CodeVolume D V N) (ops : List (VolumeOp D V N)) : CodeVolume D V N :=
  ops.foldl (apply tops) vol

/-- The metadata of a distribution. -/
def infosOf (vol : CodeVolume D V N) (d : D) : List (Release D V) := vol.infos.filter (·.dist = d)

/-- `effective_version`: the highest version among the metadata. -/
def effective (vol : CodeVolume D V N) (d : D) : Option V := ((vol.infosOf d).map (·.version)).max?

/-- `is_installed`. -/
def isInstalled (vol : CodeVolume D V N) (r : Release D V) : Bool := vol.effective r.dist = some r.version

/-- A name that the metadata of another distribution claims. -/
def claimedByOther (tops : Release D V → List N) (vol : CodeVolume D V N) (d : D) (n : N) : Bool :=
  vol.infos.any fun i => decide (i.dist ≠ d) && decide (n ∈ tops i)

/-- `prune_other_versions`. -/
def pruneOps (vol : CodeVolume D V N) (r : Release D V) : List (VolumeOp D V N) :=
  ((vol.infosOf r.dist).filter (·.version ≠ r.version)).map .dropInfo

/-- `remove_installed_dist`: the names no other distribution claims and the metadata, in the order of the listing. -/
def clearOps (tops : Release D V → List N) (rank : N ⊕ Release D V → ℕ) (vol : CodeVolume D V N) (d : D) :
    List (VolumeOp D V N) :=
  let owned := ((vol.infosOf d).flatMap tops).dedup.filter (!vol.claimedByOther tops d ·)
  let items : List (N ⊕ Release D V) := owned.map .inl ++ (vol.infosOf d).map .inr
  (items.insertionSort (rank · ≤ rank ·)).map (Sum.elim .drop .dropInfo)

/-- The moves of `_install_replacing` out of the staging folder: code first, metadata last. `before` is the volume
    before the distribution was cleared, `vol` after. -/
def moveOps (tops : Release D V → List N) (before vol : CodeVolume D V N) (d : D) (wheels : List (Release D V)) :
    List (VolumeOp D V N) :=
  ((wheels.flatMap tops).dedup.flatMap fun n =>
      if before.claimedByOther tops d n && (vol.files n).isSome then []
      else VolumeOp.drop n :: (staged tops wheels n).toList.map (VolumeOp.put n)) ++
    (wheels.filter (· ∉ vol.infos)).map .record

/-- `_install_replacing`, once pip has filled the staging folder. -/
def replaceOps (tops : Release D V → List N) (rank : N ⊕ Release D V → ℕ) (vol : CodeVolume D V N)
    (r : Release D V) (wheels : List (Release D V)) : List (VolumeOp D V N) :=
  let clear := vol.clearOps tops rank r.dist
  let move := moveOps tops vol (vol.run tops clear) r.dist wheels
  clear ++ move ++ (vol.run tops (clear ++ move)).pruneOps r

/-- A pip straight into the volume, and the metadata of other versions pruned. -/
def installOps (tops : Release D V → List N) (vol : CodeVolume D V N) (r : Release D V) (wheels : List (Release D V)) :
    List (VolumeOp D V N) :=
  .pip wheels :: (vol.run tops [.pip wheels]).pruneOps r

/-- The writes of an action, and the release it reports as installed. -/
def actionOps (tops : Release D V → List N) (rank : N ⊕ Release D V → ℕ) (vol : CodeVolume D V N) :
    HostAction D V → List (VolumeOp D V N) × Option (Release D V)
  | .find r => if vol.isInstalled r then (vol.pruneOps r, some r) else ([], none)
  | .ensure r pip =>
    if vol.isInstalled r then (vol.pruneOps r, some r)
    else
      match pip with
      | none => ([], none)
      | some p =>
        if (vol.effective r.dist).isSome then
          if p.wheels = [] then ([], none) else (vol.replaceOps tops rank r p.wheels, some r)
        else (vol.installOps tops r p.wheels, some r)
  | .latest d pip =>
    match pip with
    | none => ([], none)
    | some p => ([.pip p.wheels], p.wheels.find? (·.dist = d))
  | .remove d => (vol.clearOps tops rank d, none)

/-- The actions of a boot in order, until it dies. -/
def runActions (tops : Release D V → List N) (rank : N ⊕ Release D V → ℕ) :
    Option ℕ → CodeVolume D V N → List (HostAction D V) → CodeVolume D V N × List (InstallReport D V N)
  | _, vol, [] => (vol, [])
  | dies, vol, action :: actions =>
    let (ops, report) := vol.actionOps tops rank action
    if dies.any (· < ops.length) then (vol.run tops (ops.take (dies.getD 0)), [])
    else
      let vol' := vol.run tops ops
      let (last, reports) := runActions tops rank (dies.map (· - ops.length)) vol' actions
      (last, report.toList.map (⟨·, vol'⟩) ++ reports)

end CodeVolume

/-- The action of a registry row. -/
def PackageRow.action : PackageRow D V → HostAction D V
  | .filename r => .find r
  | .pinned r pip => .ensure r pip
  | .unpinned d pip => .latest d pip

/-- The newest artifact under each name; of equal versions the last. -/
def newestArtifacts (rows : List (ArtifactRow D V)) : List (ArtifactRow D V) :=
  (rows.map (·.name)).dedup.filterMap fun d =>
    ((rows.filter (·.name = d)).insertionSort fun row row' =>
      row.version.all fun v => row'.version.any (v ≤ ·)).getLast?

/-- `install_artifact`: one without a version goes straight to pip on every boot. -/
def ArtifactRow.action (row : ArtifactRow D V) : HostAction D V :=
  match row.version with
  | some v => .ensure ⟨row.name, v⟩ row.pip
  | none => .latest row.name row.pip

/-- What a boot does: the registry's packages, the newest artifacts, then the licensed removals. -/
def HostBoot.actions (boot : HostBoot D V) : List (HostAction D V) :=
  boot.packages.map (·.action) ++ (newestArtifacts boot.artifacts).map (·.action) ++
    boot.removals.map .remove

/-- `reconcile`: the volume it leaves and what it reports. -/
def CodeVolume.reconcile (tops : Release D V → List N) (rank : N ⊕ Release D V → ℕ) (vol : CodeVolume D V N)
    (boot : HostBoot D V) : CodeVolume D V N × List (InstallReport D V N) :=
  vol.runActions tops rank boot.dies boot.actions

/-- A volume before the first boot. -/
def emptyVolume : CodeVolume D V N := ⟨fun _ => none, []⟩

end Gdx
