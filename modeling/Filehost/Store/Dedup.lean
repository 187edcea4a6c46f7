import Filehost.Store.Delete

namespace Filehost.Store

open Filehost.Database

/-! # The dedup command -/

structure DedupPair where
  dupId : Uuid
  canonicalId : Uuid

/-- `ORDER BY upload_timestamp DESC, id DESC`. -/
def newerUpload (left right : Upload) : Bool :=
  right.uploadTimestamp < left.uploadTimestamp ||
    (right.uploadTimestamp = left.uploadTimestamp && right.id.octets < left.id.octets)

def canonicalOf (table : Uploads) (hash : List UInt8) : Option Upload :=
  (table.rows.filter fun row => row.active && row.hash = some hash).foldl
    (fun best row => if best.all (newerUpload row) then some row else best) none

def findDedupPairs (table : Uploads) : List DedupPair :=
  table.rows.filterMap fun row => do
    let hash ← row.hash
    let canonical ← canonicalOf table hash
    if row.active && row.id ≠ canonical.id then some ⟨row.id, canonical.id⟩ else none

def groupByCanonical (pairs : List DedupPair) : List (Uuid × List Uuid) :=
  (pairs.map DedupPair.canonicalId).eraseDups.map fun canonicalId =>
    (canonicalId, (pairs.filter fun pair => pair.canonicalId = canonicalId).map DedupPair.dupId)

/-- Which call of `replace_with_symlink` fails. -/
inductive LinkFault where
  | none
  | remove
  | symlink
  | rename
deriving DecidableEq

/-- The link is made under a temporary name, then renamed over the file. -/
def replaceWithSymlink (fault : LinkFault) (files : FileSystem) (path target : Path) : FileSystem :=
  let tmpPath := path.withFileName (path.fileName ++ ".dedup-tmp".toList)
  let cleared := (files.removeFile tmpPath).getD files
  let linked := Function.update cleared tmpPath (some (.symlink target))
  match fault with
  -- the link cannot be made over a leftover that could not be removed
  | .remove => files
  | .symlink => cleared
  | .rename => linked
  | .none => (FileSystem.rename linked tmpPath path).getD linked

def isRegularFile (files : FileSystem) (path : Path) : Bool :=
  match files path with
  | some (.file _) => true
  | _ => false

/-- Only a regular file becomes a link; a link is left as it is, whatever it
points to. -/
def linkDuplicate (env : StoreEnv) (faults : Uuid → LinkFault) (canonicalId : Uuid)
    (files : FileSystem) (dupId : Uuid) : FileSystem :=
  let dupPath := uuidToPath env.root dupId
  if isRegularFile files dupPath then
    replaceWithSymlink (faults dupId) files dupPath (uuidToPath env.root canonicalId)
  else files

/-- A group whose canonical file is missing or itself a link is skipped. -/
def linkGroup (env : StoreEnv) (faults : Uuid → LinkFault) (files : FileSystem)
    (group : Uuid × List Uuid) : FileSystem :=
  if isRegularFile files (uuidToPath env.root group.1) then
    group.2.foldl (linkDuplicate env faults group.1) files
  else files

/-- `dedup`, without its counts: a dry run changes nothing. -/
def dedup (env : StoreEnv) (dryRun : Bool) (faults : Uuid → LinkFault) (storage : Storage) :
    Storage :=
  if dryRun then storage
  else
    { storage with
      files := (groupByCanonical (findDedupPairs storage.uploads)).foldl (linkGroup env faults)
        storage.files }

end Filehost.Store
