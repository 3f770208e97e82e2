import GdxDispatch.Lib.Text
import GdxDispatch.Lib.Words

/-! Removing plugins from the volume: `plugin_host/reconcile.py`.

    The volume is a directory whose entries are packages, modules and the metadata directories of distributions
    (`*.dist-info`), with a folder of uploaded wheels and a staging folder beside them. What a distribution installed
    is read from the lines of its RECORD, and what an operator removed from the audit trail.

    The parser of versions is a library's, and so are lower case and white space: they are parameters. An entry that
    is a symbolic link may lead out of the volume, and any deletion may fail. Left out: log texts, and metadata other
    than `*.dist-info` directories. -/

namespace Gdx
open Lib

/-- What the host's Python gives: the version parser of `packaging`, `str.lower` and the white space of `str.strip`. -/
structure HostRuntime (V : Type) where
  parse : Text → Option V
  lower : Text → Text
  isSpace : Char → Bool

/-! ### Names and versions -/

/-- Runs of `-`, `_` and `.` as one `_`; the flag says that the last character was of such a run. -/
def collapseSeparators : Bool → Text → Text
  | _, [] => []
  | inRun, c :: cs =>
    if c = '-' ∨ c = '_' ∨ c = '.' then
      if inRun then collapseSeparators true cs else '_' :: collapseSeparators true cs
    else c :: collapseSeparators false cs

/-- `os.path.basename`. -/
def basename (path : Text) : Text := (path.splitOn '/').getLastD []

/-- `max` of Python: the first of the greatest. -/
def maxBy {α : Type} (lt : α → α → Bool) : List α → Option α
  | [] => none
  | x :: xs => some (xs.foldl (fun best y => if lt best y then y else best) x)

def endsWith (t : Text) (ext : String) : Bool := ext.toList.isSuffixOf t

namespace HostRuntime
variable {V : Type} (rt : HostRuntime V)

/-- `str.strip`. -/
def strip (t : Text) : Text := trim rt.isSpace t

/-- `_canon`. -/
def canon (name : Text) : Text := rt.lower (collapseSeparators false name)

/-- `_versions_equal`. -/
def versionsEqual [DecidableEq V] (a b : Text) : Bool :=
  match rt.parse a, rt.parse b with
  | some x, some y => x = y
  | _, _ => a = b

/-- `artifact_name_version`. -/
def artifactNameVersion (filename : Text) : Option (Text × Text) :=
  let base := basename (rt.strip filename)
  match [".whl", ".tar.gz"].find? (endsWith (rt.lower base)) with
  | none => none
  | some ext =>
    match (base.take (base.length - ext.toList.length)).splitOn '-' with
    | dist :: version :: _ => if dist = [] ∨ version = [] then none else some (dist, version)
    | _ => none

/-- `looks_like_artifact_filename`. -/
def looksLikeArtifactFilename (name : Text) : Bool :=
  let s := rt.lower (rt.strip name)
  s.contains '/' || s.contains '\\' || [".whl", ".tar.gz", ".tgz", ".zip", ".egg"].any (endsWith s)

/-- `spec_distribution`: the longest run of name characters at the front that ends in a letter or a digit. -/
def specDistribution (spec : Text) : Option Text :=
  let run := (spec.dropWhile rt.isSpace).takeWhile fun c => c.isAlphanum || c = '.' || c = '_' || c = '-'
  if run.head?.any (·.isAlphanum) then some (run.reverse.dropWhile (!·.isAlphanum)).reverse else none

end HostRuntime

/-! ### The volume -/

/-- A name that stands for an entry of the directory it is joined to, and for nothing else. -/
def EntryName (name : Text) : Prop := name ≠ [] ∧ '/' ∉ name ∧ name ≠ ['.'] ∧ name ≠ ['.', '.']

instance (name : Text) : Decidable (EntryName name) := inferInstanceAs (Decidable (_ ∧ _ ∧ _ ∧ _))

/-- An entry of the volume: whether it resolves to a place inside the volume and, for a metadata directory, what its
    files hold where they can be read. -/
structure TopEntry where
  name : Text
  plain : EntryName name
  inside : Bool
  metadata : Option (Text × Text)
  record : Option (List Text)
  entryPoints : Option (List Text)
  mtime : Option ℤ
  deriving DecidableEq

/-- The volume: its entries, and the files in the folder of uploaded wheels. -/
structure PluginVolume where
  entries : List TopEntry
  artifacts : List Text
  deriving DecidableEq

/-- The later of two times, where none is `inf`. -/
def laterOf : Option ℤ → Option ℤ → Option ℤ
  | some a, some b => some (max a b)
  | _, _ => none

/-- What the file system says besides the entries: which deletions fail, and which names that are no plain name lead to
    something inside the volume. -/
structure VolumePaths where
  stuck : Text → Bool
  beyond : Text → Bool

/-- The path of a name is there and `_within` the volume. -/
def PluginVolume.reaches (vol : PluginVolume) (fs : VolumePaths) (name : Text) : Bool :=
  if EntryName name then vol.entries.any fun e => e.name = name && e.inside else fs.beyond name

def TopEntry.isDistInfo (e : TopEntry) : Bool := endsWith e.name ".dist-info"

/-- The folders beside the installed entries. -/
def RESERVED : List Text := ["_artifacts".toList, "_staging".toList]

def PluginVolume.distInfos (vol : PluginVolume) : List TopEntry := vol.entries.filter (·.isDistInfo)

namespace HostRuntime
variable {V : Type} (rt : HostRuntime V)

/-- The distribution and version that the name of a metadata directory gives. -/
def distInfoName (e : TopEntry) : Option (Text × Text) :=
  rt.artifactNameVersion (e.name.take (e.name.length - ".dist-info".toList.length) ++ ".whl".toList)

/-- The name of a metadata directory is of a distribution. -/
def ofDist (e : TopEntry) (distribution : Text) : Bool :=
  (rt.distInfoName e).any fun (name, _) => rt.canon name = rt.canon distribution

/-- `_dist_info_dirs`. -/
def distInfoDirs (vol : PluginVolume) (distribution : Text) : List TopEntry :=
  vol.distInfos.filter fun e => rt.ofDist e distribution

/-- The first component of the path that a line of a RECORD names, unless the path is absolute or leaves the volume,
    or the component is one of the folders. -/
def recordHead (line : Text) : Option Text :=
  let path := rt.strip (line.takeWhile (· ≠ ','))
  if path = [] ∨ '\x00' ∈ path ∨ path.head? = some '/' ∨ path.head? = some '\\' then none
  else
    let head := (path.map fun c => if c = '\\' then '/' else c).takeWhile (· ≠ '/')
    if head = [] ∨ head = ['.'] ∨ head = ['.', '.'] ∨ head ∈ RESERVED then none else some head

/-- `_record_top_levels`. -/
def recordTopLevels (e : TopEntry) : List Text := (e.record.getD []).filterMap rt.recordHead

/-- `installed_versions`. -/
def installedVersions (vol : PluginVolume) (distribution : Text) : List Text :=
  vol.distInfos.filterMap fun e =>
    e.metadata.bind fun (name, version) => if rt.canon name = rt.canon distribution then some version else none

/-- `effective_version`: the highest version, by the text where one does not parse. -/
def effectiveVersion [LinearOrder V] (vol : PluginVolume) (distribution : Text) : Option Text :=
  let versions := rt.installedVersions vol distribution
  if versions.all fun v => (rt.parse v).isSome then
    maxBy (fun a b => (rt.parse a).any fun x => (rt.parse b).any (decide <| x < ·)) versions
  else maxBy (fun a b => decide (a < b)) versions

/-- `plugin_dists_on_volume`, as pairs of the canonical and the given name, sorted. -/
def pluginDistsOnVolume (vol : PluginVolume) : List (Text × Text) :=
  let declares (e : TopEntry) : Bool := e.entryPoints.any (·.any fun line => rt.strip line = "[gdx.modules]".toList)
  let names := (vol.distInfos.filter declares).filterMap fun e => (rt.distInfoName e).map (·.1)
  let last (canon : Text) : Option Text := (names.filter fun name => rt.canon name = canon).getLast?
  ((names.map rt.canon).dedup.insertionSort (· ≤ ·)).filterMap fun canon => (last canon).map (canon, ·)

/-- The loop of `remove_installed_dist`: the names that go, one by one. A name that is not there, that leads out of
    the volume or that cannot be deleted stays. -/
def removeNames (fs : VolumePaths) : List Text → PluginVolume → PluginVolume × List Text
  | [], vol => (vol, [])
  | name :: names, vol =>
    if name ∈ RESERVED then removeNames fs names vol
    else if vol.reaches fs name && !fs.stuck name then
      let (last, removed) := removeNames fs names { vol with entries := vol.entries.filter (·.name ≠ name) }
      (last, name :: removed)
    else removeNames fs names vol

/-- `remove_installed_dist`. -/
def removeInstalledDist (fs : VolumePaths) (vol : PluginVolume) (distribution : Text) : PluginVolume × List Text :=
  let mine := rt.distInfoDirs vol distribution
  if mine = [] then (vol, [])
  else
    let owned := mine.flatMap rt.recordTopLevels
    let shared := (vol.distInfos.filter fun e => e.name ∉ mine.map (·.name)).flatMap rt.recordTopLevels
    removeNames fs (((owned.filter (· ∉ shared)) ++ mine.map (·.name)).dedup.insertionSort (· ≤ ·)) vol

end HostRuntime

/-! ### Recorded removals -/

/-- The audit actions that record a removal. -/
inductive RemovalAction where
  | artifactDeleted
  | unregistered
  deriving DecidableEq

/-- A row of the audit trail with one of these actions; a row may lack a time. -/
structure RemovalRow where
  action : RemovalAction
  entityId : Text
  createdAt : Option ℤ
  userId : Option Text

/-- `RemovalIntent`. -/
structure RemovalIntent where
  recordedAt : ℤ
  action : RemovalAction
  entityId : Text
  recordedBy : Option Text
  deriving DecidableEq

/-- An entry of the dict of `recorded_removals`: by distribution and version, the version none for a whole package. -/
structure RemovalEntry where
  canon : Text
  version : Option Text
  intent : RemovalIntent
  deriving DecidableEq

namespace HostRuntime
variable {V : Type} (rt : HostRuntime V)

/-- The entry that one row of the trail makes. -/
def removalEntry (row : RemovalRow) : Option RemovalEntry :=
  let named : Option (Text × Option Text) :=
    if row.action = .artifactDeleted ∨ rt.looksLikeArtifactFilename row.entityId = true then
      (rt.artifactNameVersion row.entityId).map fun (name, version) => (name, some version)
    else (rt.specDistribution row.entityId).map fun name => (name, none)
  match named, row.createdAt with
  | some (name, version), some recordedAt =>
    some ⟨rt.canon name, version, ⟨recordedAt, row.action, row.entityId, row.userId⟩⟩
  | _, _ => none

/-- `per_version[version] = intent`, where it is the first or later than the one there. -/
def noteRemoval (entries : List RemovalEntry) (entry : RemovalEntry) : List RemovalEntry :=
  match entries.find? fun e => e.canon = entry.canon && e.version = entry.version with
  | none => entries ++ [entry]
  | some known =>
    if known.intent.recordedAt < entry.intent.recordedAt then
      entries.map fun e => if e.canon = entry.canon ∧ e.version = entry.version then entry else e
    else entries

/-- `recorded_removals`. -/
def recordedRemovals (trail : List RemovalRow) : List RemovalEntry :=
  (trail.filterMap rt.removalEntry).foldl noteRemoval []

/-- `_applicable_removal`: the latest of those that name no version or the running one. -/
def applicableRemoval [DecidableEq V] (entries : List RemovalEntry) (running : Option Text) : Option RemovalIntent :=
  maxBy (fun a b => decide (a.recordedAt < b.recordedAt))
    ((entries.filter fun e => e.version.all fun v => running.any (rt.versionsEqual v)).map (·.intent))

/-- When the newest copy of a distribution landed on the volume; none is `inf`, where that cannot be read. -/
def installedAt (vol : PluginVolume) (distribution : Text) : Option ℤ :=
  match (rt.distInfoDirs vol distribution).map (·.mtime) with
  | [] => none
  | time :: times => times.foldl laterOf time

/-- `_drop_staged_wheels`: the wheels that go, of one version or of all. -/
def stagedWheels [DecidableEq V] (vol : PluginVolume) (canon : Text) (versions : Option (Option Text)) : List Text :=
  vol.artifacts.filter fun entry =>
    (rt.artifactNameVersion entry).any fun (name, version) =>
      rt.canon name = canon && versions.all fun running => running.any (rt.versionsEqual version)

/-- The removal of one plugin: the volume it found, the removal that licensed it, and what it deleted. -/
structure PluginRemoval where
  found : PluginVolume
  canon : Text
  name : Text
  intent : RemovalIntent
  gone : List Text
  wheels : List Text

/-- The pass of `remove_undesired_plugins` for one plugin. -/
def removePlugin [LinearOrder V] (fs : VolumePaths) (desired : List Text) (entries : List RemovalEntry)
    (vol : PluginVolume) (canon name : Text) : PluginVolume × Option PluginRemoval :=
  if canon ∈ desired then (vol, none)
  else
    let running := rt.effectiveVersion vol name
    match rt.applicableRemoval (entries.filter (·.canon = canon)) running with
    | none => (vol, none)
    | some intent =>
      if (rt.installedAt vol name).all fun landed => decide (intent.recordedAt < landed) then (vol, none)
      else
        let (last, gone) := rt.removeInstalledDist fs vol name
        if gone = [] then (last, none)
        else
          let versions := if intent.action = .unregistered then none else some running
          let wheels := (rt.stagedWheels last canon versions).filter (!fs.stuck ·)
          ({ last with artifacts := last.artifacts.filter (· ∉ wheels) }, some ⟨vol, canon, name, intent, gone, wheels⟩)

/-- `remove_undesired_plugins` over the plugins it found at the start. -/
def removePlugins [LinearOrder V] (fs : VolumePaths) (desired : List Text) (entries : List RemovalEntry) :
    List (Text × Text) → PluginVolume → PluginVolume × List PluginRemoval
  | [], vol => (vol, [])
  | (canon, name) :: plugins, vol =>
    let (vol', removal) := rt.removePlugin fs desired entries vol canon name
    let (last, removals) := removePlugins fs desired entries plugins vol'
    (last, removal.toList ++ removals)

/-- `remove_undesired_plugins`, with the removals read from the audit trail. -/
def removeUndesiredPlugins [LinearOrder V] (fs : VolumePaths) (desired : List Text) (trail : List RemovalRow)
    (vol : PluginVolume) : PluginVolume × List PluginRemoval :=
  rt.removePlugins fs desired (rt.recordedRemovals trail) (rt.pluginDistsOnVolume vol) vol

end HostRuntime

end Gdx
