import Mathlib.Algebra.GroupWithZero.Nat
import DarkFactory.Lib.Lookup
import DarkFactory.Python.Sort

/-!
# DarkFactory.Infra.BackupService

The backup service of `core/infra/backup_service.py`: snapshots on three tiers, their registry, retention and the
restore drill.

* `Tools` — tar, gzip, SHA-256 and AES-GCM, as far as the service relies on them.
* `Key` — where a copy lies: an archive or its encrypted twin in the local backup root, an object in R2, a file on the
  on-premise mirror.
* `createBackup`, `createThreeTierBackup`, `applyRetentionPolicy`, `applyTieredRetentionPolicy` — the calls.
* `saveRegistry`, `loadRegistry` — the registry file, whose records may have stopped validating.
* `runRestoreDrill` — unpacks a copy into an empty directory and checks it against the record.
-/

namespace DarkFactory
namespace Infra
namespace BackupService

abbrev Bytes := List (Fin 256)

abbrev RelPath := List String

abbrev Member := RelPath × Bytes

structure Tools (D : Type) where
  sha256 : Bytes → D
  sha256_inj : Function.Injective sha256
  hexdigest : D → String
  pack : List Member → Bytes
  /-- the files of an archive; none when it cannot be read, or holds what the extraction refuses -/
  unpack : Bytes → Option (List Member)
  unpack_pack : ∀ members, unpack (pack members) = some members
  /-- the salt and the nonce are drawn for each call -/
  encrypt : String → Nat → Bytes → Bytes
  decrypt : String → Bytes → Option Bytes
  decrypt_encrypt : ∀ key salt data, decrypt key (encrypt key salt data) = some data

/-- `snp_{project}_{time}_{uuid}` or `snp3t_…`. -/
structure SnapshotId where
  threeTier : Bool
  projectId : String
  time : Int
  draw : Nat
  deriving DecidableEq

inductive Key where
  | archive (id : SnapshotId)
  | encrypted (id : SnapshotId)
  | r2 (projectId : String) (id : SnapshotId)
  | onprem (projectId : String) (id : SnapshotId)
  deriving DecidableEq

def Key.id : Key → SnapshotId
  | .archive id => id
  | .encrypted id => id
  | .r2 _ id => id
  | .onprem _ id => id

inductive BackupStorageTarget where
  | storedLocal
  | r2
  | onprem
  | threeTier
  deriving DecidableEq

structure BackupSnapshot (D : Type) where
  snapshotId : SnapshotId
  projectId : String
  archiveChecksum : D
  totalBytes : Nat
  filesCount : Nat
  fileManifest : List (RelPath × D)
  storageTarget : BackupStorageTarget
  storageLocation : Key
  createdAt : Int
  encrypted : Bool
  encryptedArchiveChecksum : Option D
  encryptedSizeBytes : Nat
  r2ObjectKey : Option Key
  onpremLocation : Option Key
  postgresDumpChecksum : Option D
  deriving DecidableEq

structure RestoreDrillResult where
  snapshotId : SnapshotId
  success : Bool
  filesRestored : Nat
  integrityVerified : Bool
  errorMessage : Option String
  sourceTier : String
  deriving DecidableEq

/-- The registry file: whether it is JSON, and the records that stand in it with whether they still validate. -/
structure Registry (D : Type) where
  json : Bool
  snapshots : List (BackupSnapshot D × Bool)
  drills : List (RestoreDrillResult × Bool)

/-- The service with the tiers it writes to. `draws` counts the ids drawn so far. -/
structure Service (D : Type) where
  storage : Key → Option Bytes
  registry : Option (Registry D)
  snapshots : List (BackupSnapshot D)
  drills : List RestoreDrillResult
  draws : Nat

variable {D : Type}

def saveRegistry (s : Service D) : Service D :=
  { s with registry := some ⟨true, s.snapshots.map (·, true), s.drills.map (·, true)⟩ }

/-- The loader stops at the first record that does not validate, and keeps what it had. -/
def loadRegistry (registry : Registry D) : List (BackupSnapshot D) × List RestoreDrillResult :=
  if registry.json then
    let read := (registry.snapshots.takeWhile (·.2)).map (·.1)
    (read.foldl (Lookup.put BackupSnapshot.snapshotId) [],
      if registry.snapshots.all (·.2) then (registry.drills.takeWhile (·.2)).map (·.1) else [])
  else ([], [])

def loaded (registry : Option (Registry D)) : List (BackupSnapshot D) × List RestoreDrillResult :=
  match registry with
  | some registry => loadRegistry registry
  | none => ([], [])

/-- `CloudBackupService()` over what lies on the tiers and in the registry file. -/
def construct (s : Service D) : Service D :=
  { s with snapshots := (loaded s.registry).1, drills := (loaded s.registry).2 }

def DEFAULT_BACKUP_IGNORED_DIRS : List String :=
  [".git", ".venv", "venv", "env", "__pycache__", ".pytest_cache", ".mypy_cache", ".ruff_cache", "node_modules",
    ".locks", "test_logs", "backups", "onprem", "worktrees", "workspaces", "tmp", "pids", "runs", "hf15", "models"]

/-- The regular files of a directory, in the order of the walk: no path twice, none below another. -/
structure SourceTree where
  files : List Member
  unique : (files.map Prod.fst).Nodup
  apart : ∀ p ∈ files.map Prod.fst, ∀ q ∈ files.map Prod.fst, p <+: q → p = q
  named : ∀ p ∈ files.map Prod.fst, p ≠ [] ∧ ∀ c ∈ p, c ∉ ["", ".", ".."]

/-- A file is walked unless one of its directories is ignored by name or is one of the service's own. -/
def walked (own : List RelPath) (path : RelPath) : Bool :=
  path.dropLast.all (fun d => decide (d ∉ DEFAULT_BACKUP_IGNORED_DIRS)) &&
    own.all fun dir => dir.isEmpty || !(dir.isPrefixOf path.dropLast)

def SourceTree.members (source : SourceTree) (own : List RelPath) : List Member :=
  source.files.filter fun m => walked own m.1

def PG_REL : RelPath := ["database", "postgres_dump.sql"]

section

variable (T : Tools D)

/-- `file_manifest[rel_path] = hash`, member after member. -/
def manifestOf (members : List Member) : List (RelPath × D) :=
  members.foldl (fun manifest m => Lookup.put Prod.fst manifest (m.1, T.sha256 m.2)) []

def sizeOf (members : List Member) : Nat := (members.map fun m => m.2.length).sum

def store (s : Service D) (key : Key) (data : Bytes) : Service D :=
  { s with storage := Function.update s.storage key (some data) }

def register (s : Service D) (snapshot : BackupSnapshot D) : Service D :=
  saveRegistry { s with snapshots := Lookup.put BackupSnapshot.snapshotId s.snapshots snapshot }

/-- Where the service's own directories lie below the source, and whether the archive gets written. -/
structure Packaging where
  projectId : String
  now : Int
  /-- none when the directory does not exist -/
  source : Option SourceTree
  own : List RelPath
  archived : Bool

def createBackup (s : Service D) (p : Packaging) (target : BackupStorageTarget) :
    Option (BackupSnapshot D) × Service D :=
  match p.source with
  | none => (none, s)
  | some source =>
    let id : SnapshotId := ⟨false, p.projectId, p.now, s.draws⟩
    let s := { s with draws := s.draws + 1 }
    if !p.archived then (none, s)
    else
      let members := source.members p.own
      let archive := T.pack members
      let manifest := manifestOf T members
      let snapshot : BackupSnapshot D := {
        snapshotId := id
        projectId := p.projectId
        archiveChecksum := T.sha256 archive
        totalBytes := sizeOf members
        filesCount := manifest.length
        fileManifest := manifest
        storageTarget := target
        storageLocation := .archive id
        createdAt := p.now
        encrypted := false
        encryptedArchiveChecksum := none
        encryptedSizeBytes := 0
        r2ObjectKey := none
        onpremLocation := none
        postgresDumpChecksum := none }
      (some snapshot, register (store s (.archive id) archive) snapshot)

/-- The first step of a three-tier backup that raises, after the archive. -/
inductive Fault where
  | encryption
  | upload
  | mirror
  deriving DecidableEq

def threeTierMembers (source : SourceTree) (own : List RelPath) (dump : Option Bytes) : List Member :=
  source.members own ++ (dump.map fun data => (PG_REL, data)).toList

def createThreeTierBackup (s : Service D) (p : Packaging) (dump : Option Bytes) (encKey : String) (salt : Nat)
    (fault : Option Fault) : Option (BackupSnapshot D) × Service D :=
  match p.source with
  | none => (none, s)
  | some source =>
    let id : SnapshotId := ⟨true, p.projectId, p.now, s.draws⟩
    let s := { s with draws := s.draws + 1 }
    if !p.archived then (none, s)
    else
      let members := threeTierMembers source p.own dump
      let archive := T.pack members
      let manifest := manifestOf T members
      let s := store s (.archive id) archive
      if fault = some .encryption then (none, s)
      else
        let enc := T.encrypt encKey salt archive
        let s := store s (.encrypted id) enc
        if fault = some .upload then (none, s)
        else
          let s := store s (.r2 p.projectId id) enc
          if fault = some .mirror then (none, s)
          else
            let snapshot : BackupSnapshot D := {
              snapshotId := id
              projectId := p.projectId
              archiveChecksum := T.sha256 archive
              totalBytes := sizeOf members
              filesCount := manifest.length
              fileManifest := manifest
              storageTarget := .threeTier
              storageLocation := .archive id
              createdAt := p.now
              encrypted := true
              encryptedArchiveChecksum := some (T.sha256 enc)
              encryptedSizeBytes := enc.length
              r2ObjectKey := some (.r2 p.projectId id)
              onpremLocation := some (.onprem p.projectId id)
              postgresDumpChecksum := dump.map T.sha256 }
            (some snapshot, register (store s (.onprem p.projectId id) enc) snapshot)

end

def daysBefore (now days : Int) : Int := now - days * 86400000000

def ofProject (s : Service D) (projectId : String) : List (BackupSnapshot D) :=
  s.snapshots.filter fun r => decide (r.projectId = projectId)

def expired (rows : List (BackupSnapshot D)) (maxSnapshots ageLimit : Int) : List (BackupSnapshot D) :=
  ((sortDesc BackupSnapshot.createdAt rows).zipIdx.filter fun entry =>
    !(decide ((entry.2 : Int) < maxSnapshots) && decide (ageLimit ≤ entry.1.createdAt))).map Prod.fst

def without (storage : Key → Option Bytes) (gone : Key → Bool) : Key → Option Bytes := fun key =>
  if gone key then none else storage key

/-- The records of the expired snapshots are dropped, whether or not their archives can be deleted. -/
def applyRetentionPolicy (s : Service D) (projectId : String) (maxSnapshots maxAgeDays now : Int) (works : Key → Bool) :
    List SnapshotId × Service D :=
  let toDelete := expired (ofProject s projectId) maxSnapshots (daysBefore now maxAgeDays)
  let ids := toDelete.map BackupSnapshot.snapshotId
  (ids, saveRegistry { s with
    snapshots := s.snapshots.filter fun r => decide (r.snapshotId ∉ ids)
    storage := without s.storage fun key => toDelete.any (fun r => decide (r.storageLocation = key)) && works key })

def dueR2 (s : Service D) (projectId : String) (cutoff : Int) : List Key :=
  (ofProject s projectId).filterMap fun r => if r.createdAt < cutoff then r.r2ObjectKey else none

def dueOnprem (s : Service D) (projectId : String) (cutoff : Int) : List Key :=
  (ofProject s projectId).filterMap fun r => if r.createdAt < cutoff then r.onpremLocation else none

def applyTieredRetentionPolicy (s : Service D) (projectId : String) (r2MaxAgeDays onpremMaxAgeDays now : Int)
    (works : Key → Bool) : (List Key × List Key) × Service D :=
  let r2 := (dueR2 s projectId (daysBefore now r2MaxAgeDays)).filter works
  let onprem := (dueOnprem s projectId (daysBefore now onpremMaxAgeDays)).filter fun key =>
    (s.storage key).isSome && works key
  ((r2, onprem), { s with storage := without s.storage fun key => decide (key ∈ r2 ++ onprem) })

def above (p q : RelPath) : Bool := p.isPrefixOf q && decide (p ≠ q)

/-- A member is written over the file with its name. With a file where it needs a directory, or a directory where it
is to stand, the extraction raises. -/
def extractMember (files : List Member) (m : Member) : Option (List Member) :=
  if files.any fun f => above f.1 m.1 || above m.1 f.1 then none else some (Lookup.put Prod.fst files m)

/-- `tar.extractall` into an empty directory. -/
def extractAll (members : List Member) : Option (List Member) := members.foldlM extractMember []

/-- The file at `dest_path / rel_path`: empty and `.` components vanish; an absolute path and one with `..` lead to
what the host has there. -/
def restoredFile (host : RelPath → Option Bytes) (files : List Member) (relPath : RelPath) : Option Bytes :=
  if ".." ∈ relPath ∨ (relPath.head? = some "" ∧ relPath ≠ [""]) then host relPath
  else (Lookup.get Prod.fst files (relPath.filter fun c => decide (c ∉ ["", "."]))).map Prod.snd

def posix (path : RelPath) : String := "/".intercalate path

section

variable (T : Tools D) [DecidableEq D]

/-- The entries verified before the first that fails, and its error. -/
def verifyManifest (host : RelPath → Option Bytes) (files : List Member) : List (RelPath × D) → Nat × Option String
  | [] => (0, none)
  | (relPath, expectedHash) :: rest =>
    match restoredFile host files relPath with
    | none => (0, some ("Missing expected restored file: " ++ posix relPath))
    | some data =>
      if T.sha256 data ≠ expectedHash then (0, some ("Checksum mismatch on restored file " ++ posix relPath))
      else
        let verified := verifyManifest host files rest
        (verified.1 + 1, verified.2)

def Key.isEncrypted : Key → Bool
  | .archive _ => false
  | _ => true

/-- The archive of a tier, decrypted; none when it is not there or does not decrypt. -/
def activeTar (s : Service D) (snapshot : BackupSnapshot D) (fromTier encKey : String) : Option Bytes :=
  let decrypted := fun key => (s.storage key).bind (T.decrypt encKey)
  if fromTier = "r2" then snapshot.r2ObjectKey.bind decrypted
  else if fromTier = "onprem" then snapshot.onpremLocation.bind decrypted
  else if snapshot.encrypted && snapshot.storageLocation.isEncrypted then decrypted snapshot.storageLocation
  else s.storage snapshot.storageLocation

/-- The drill's result with the files it leaves in the empty destination; none when it raises. -/
def drill (host : RelPath → Option Bytes) (s : Service D) (snapshot : BackupSnapshot D) (fromTier encKey : String) :
    Option (RestoreDrillResult × List Member) := do
  let archive ← activeTar T s snapshot fromTier encKey
  if T.sha256 archive ≠ snapshot.archiveChecksum then
    some (⟨snapshot.snapshotId, false, 0, false,
      some ("Archive integrity corrupted! Expected " ++ T.hexdigest snapshot.archiveChecksum ++ ", got " ++
        T.hexdigest (T.sha256 archive)), fromTier⟩, [])
  else
    let members ← T.unpack archive
    let files ← extractAll members
    let verified := verifyManifest T host files snapshot.fileManifest
    let allOk := verified.2.isNone
    some (⟨snapshot.snapshotId, allOk, verified.1, allOk, verified.2, fromTier⟩, files)

def runRestoreDrill (host : RelPath → Option Bytes) (s : Service D) (snapshotId : SnapshotId)
    (fromTier encKey : String) : Option (RestoreDrillResult × List Member) × Service D :=
  match (Lookup.get BackupSnapshot.snapshotId s.snapshots snapshotId).bind fun snapshot =>
    drill T host s snapshot fromTier encKey with
  | none => (none, s)
  | some outcome => (some outcome, saveRegistry { s with drills := s.drills ++ [outcome.1] })

end

end BackupService
end Infra
end DarkFactory
