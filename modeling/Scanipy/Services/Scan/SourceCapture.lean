import Scanipy.Integrations.Scm.GitObjects.Reading
import Scanipy.Python.Strings

/-! The custody of captured sources: a directory tree is walked within limits, and its files are
listed in an inventory and a manifest. The tree does not change while it is read; a change is one
more way to fail.
-/

namespace Scanipy.Services.Scan.SourceCapture

open Library Python
open Integrations.Scm.GitObjects (StatResult)

/-- `SourceCaptureError`, with its message. -/
structure SourceCaptureError where
  message : String
  deriving DecidableEq

/-- `if not condition: raise SourceCaptureError(message)`. -/
def require (condition : Prop) [Decidable condition] (message : String)
    : Except SourceCaptureError Unit :=
  demand condition ⟨message⟩

/-- `CaptureLimits`, which has its ceilings as defaults. -/
structure CaptureLimits where
  maxFiles : Nat := 10000
  maxEntries : Nat := 20000
  maxDepth : Nat := 64
  maxPathBytes : Nat := 1024
  maxFileBytes : Nat := 64 * 1024 * 1024
  maxTotalBytes : Nat := 512 * 1024 * 1024
  maxMetadataBytes : Nat := 1024 * 1024

/-- What a directory has under a name. -/
inductive SourceEntry where
  | file (info : StatResult) (content : Bytes)
  | directory (info : StatResult) (children : List (Text × SourceEntry))
  | special (info : StatResult)

/-- `_check_directory` of a directory that need not be private. -/
def checkDirectory (euid : Int) (info : StatResult) : Except SourceCaptureError Unit := do
  require (info.uid = euid) "directory is not owned by the custody principal"
  require (info.permissions &&& 0o022 = 0) "unsafe directory permissions"

/-- A component that a path may have. -/
def IsComponent (name : Text) : Prop :=
  name ∉ [[], py ".", py "..", py ".git"]
  ∧ ∀ point ∈ name, point.val ≠ 0x5C ∧ point.val ≠ 0x2F ∧ 32 ≤ point.val
      ∧ ¬(127 ≤ point.val ∧ point.val ≤ 159)

instance (name : Text) : Decidable (IsComponent name) :=
  inferInstanceAs (Decidable (_ ∧ _))

/-- `"/".join(parts)`. -/
def joined (parts : List Text) : Text :=
  Text.join (py "/") parts

/-- `_path_bytes`. -/
def pathBytes (limits : CaptureLimits) (parts : List Text) : Except SourceCaptureError Bytes := do
  require (∀ name ∈ parts, IsComponent name) "unsupported source path component"
  require (joined parts).Encodable "source paths require Unicode scalar UTF-8"
  let encoded := (joined parts).utf8
  require (parts.length ≤ limits.maxDepth ∧ encoded.length ≤ limits.maxPathBytes)
    "source path exceeds configured bounds"
  .ok encoded

/-- `_Entry`: a file with its content, or a directory. -/
structure WalkEntry where
  parts : List Text
  file : Option (StatResult × Bytes)

/-- What `_walk` counts. -/
structure Walk where
  entries : List WalkEntry := []
  fileCount : Nat := 0
  total : Int := 0

section Visit

variable (limits : CaptureLimits) (euid : Int) (published : Bool)

/-- The checks of every child. -/
def checkChild (walk : Walk) (parts : List Text) (info : StatResult) (supported : Bool)
    (readOnly : Nat)
    : Except SourceCaptureError Unit := do
  let _ ← pathBytes limits parts
  require (walk.entries.length < limits.maxEntries) "source entry count exceeds limit"
  require (supported = true) "source contains a symlink or special entry"
  require (info.uid = euid ∧ info.permissions &&& 0o022 = 0)
    "source entry ownership/permissions are unsafe"
  require (published = true → info.permissions = readOnly) "published source entry is not read-only"

/-- A file of the walk. -/
def Walk.addFile (walk : Walk) (parts : List Text) (info : StatResult) (content : Bytes)
    : Except SourceCaptureError Walk := do
  require (info.nlink = 1) "source files must have exactly one link"
  let fileCount := walk.fileCount + 1
  let total := walk.total + info.size
  require (fileCount ≤ limits.maxFiles ∧ info.size ≤ limits.maxFileBytes
      ∧ total ≤ limits.maxTotalBytes)
    "source file count/size exceeds limit"
  .ok { entries := walk.entries ++ [⟨parts, some (info, content)⟩], fileCount, total }

mutual

/-- The body of the loop of `visit`. -/
def visitEntry (parts : List Text) (walk : Walk) : SourceEntry → Except SourceCaptureError Walk
  | .special info => do
      checkChild limits euid published walk parts info false 0o444
      .ok walk
  | .file info content => do
      checkChild limits euid published walk parts info true 0o444
      walk.addFile limits parts info content
  | .directory info children => do
      checkChild limits euid published walk parts info true 0o555
      checkDirectory euid info
      visitChildren parts { walk with entries := walk.entries ++ [⟨parts, none⟩] } children

/-- `visit`. -/
def visitChildren (parent : List Text) (walk : Walk)
    : List (Text × SourceEntry) → Except SourceCaptureError Walk
  | [] => .ok walk
  | (name, entry) :: rest => do
      let walk ← visitEntry (parent ++ [name]) walk entry
      visitChildren parent walk rest

end

/-- `_walk`. -/
def walkTree (children : List (Text × SourceEntry)) : Except SourceCaptureError (List WalkEntry) := do
  let walk ← visitChildren limits euid published [] {} children
  .ok (sortedBy (fun entry => joined entry.parts) walk.entries)

end Visit

/-- What one file contributes to the evidence of its tree. -/
structure FileEvidence where
  hashed : Bytes
  record : Json
  size : Nat

variable (sha256 : Bytes → Bytes)

/-- The record of a file in the inventory; its members are in the order in which they are written. -/
def fileRecord (path : Text) (digest : Bytes) (size : Nat) : Json :=
  .obj [(py "path", .str path), (py "sha256", .str (hex digest)), (py "size", .int size)]

/-- The body of the loop of `_tree_evidence`, on a file that does not change. -/
def fileEvidence (limits : CaptureLimits) (entry : WalkEntry) (info : StatResult) (content : Bytes)
    : Except SourceCaptureError FileEvidence := do
  let path ← pathBytes limits entry.parts
  require ((content.length : Int) ≤ info.size) "source file grew while copying"
  require ((content.length : Int) = info.size) "source file changed while copying"
  .ok {
    hashed := toBytes 8 path.length ++ path ++ toBytes 8 content.length ++ content
    record := fileRecord (joined entry.parts) (sha256 content) content.length
    size := content.length }

/-- Directories contribute nothing. -/
def entryEvidence (limits : CaptureLimits) (entry : WalkEntry)
    : Except SourceCaptureError (Option FileEvidence) :=
  match entry.file with
  | none => .ok none
  | some (info, content) => do
      let evidence ← fileEvidence sha256 limits entry info content
      .ok (some evidence)

/-- The document of the inventory; its members are in the order in which they are written. -/
def inventoryDocument (records : List Json) : Json :=
  .obj [
    (py "files", .arr records),
    (py "schema", .str (py "scanipy-execution/source-inventory/1"))]

/-- What `_tree_evidence` returns, with the document that the inventory has. -/
structure TreeEvidence where
  treeDigest : Bytes
  document : Json
  inventory : Bytes
  fileCount : Nat
  contentBytes : Nat

/-- `_tree_evidence`. -/
def treeEvidence (limits : CaptureLimits) (euid : Int) (published : Bool)
    (children : List (Text × SourceEntry))
    : Except SourceCaptureError TreeEvidence := do
  let entries ← walkTree limits euid published children
  let evidence ← Metered.collect (entryEvidence sha256 limits) entries
  let files := evidence.filterMap id
  let document := inventoryDocument (files.map FileEvidence.record)
  let inventory := document.dumps.utf8
  require (inventory.length ≤ limits.maxMetadataBytes) "source inventory exceeds metadata limit"
  .ok {
    treeDigest := sha256 (files.flatMap FileEvidence.hashed)
    document
    inventory
    fileCount := files.length
    contentBytes := (files.map FileEvidence.size).sum }

/-- `CaptureBinding`. -/
structure CaptureBinding where
  orgId : Uuid
  codebaseId : Uuid
  requestId : Uuid
  resolvedCommit : Text

/-- `_digest`. -/
def digestIn (domain : String) (payload : Bytes) : Bytes :=
  sha256 (pyb domain ++ pyb "\n" ++ payload)

/-- `asdict(limits)`, in the order in which it is written. -/
def CaptureLimits.record (limits : CaptureLimits) : Json :=
  .obj [
    (py "max_depth", .int limits.maxDepth),
    (py "max_entries", .int limits.maxEntries),
    (py "max_file_bytes", .int limits.maxFileBytes),
    (py "max_files", .int limits.maxFiles),
    (py "max_metadata_bytes", .int limits.maxMetadataBytes),
    (py "max_path_bytes", .int limits.maxPathBytes),
    (py "max_total_bytes", .int limits.maxTotalBytes)]

/-- The document of the manifest, in the order in which it is written. `json.loads` of the inventory
is the document that was written.
-/
def manifestDocument (objectId : Uuid) (binding : CaptureBinding) (limits : CaptureLimits)
    (evidence : TreeEvidence)
    : Json :=
  .obj [
    (py "codebase_id", .str binding.codebaseId.text),
    (py "commit_algorithm", .str (py "git-sha1")),
    (py "content_bytes", .int evidence.contentBytes),
    (py "custody_profile", .str (py "scanipy-local-source-custody/1")),
    (py "file_count", .int evidence.fileCount),
    (py "inventory", evidence.document),
    (py "inventory_digest",
      .str (hex (digestIn sha256 "scanipy-execution/source-inventory/1" evidence.inventory))),
    (py "limits", limits.record),
    (py "object_id", .str objectId.text),
    (py "org_id", .str binding.orgId.text),
    (py "request_id", .str binding.requestId.text),
    (py "resolved_commit", .str binding.resolvedCommit),
    (py "schema", .str (py "scanipy-source-custody/manifest/1")),
    (py "tree_algorithm", .str (py "sha256-length-prefixed-path-and-content-v1")),
    (py "tree_digest", .str (hex evidence.treeDigest))]

/-- `_manifest`. -/
def manifest (objectId : Uuid) (binding : CaptureBinding) (limits : CaptureLimits)
    (evidence : TreeEvidence)
    : Except SourceCaptureError Bytes := do
  let payload := (manifestDocument sha256 objectId binding limits evidence).dumps.utf8
  require (payload.length ≤ limits.maxMetadataBytes) "source manifest exceeds metadata limit"
  .ok payload

/-- `CaptureReceipt`, with the fields that depend on the tree. -/
structure CaptureReceipt where
  treeDigest : Bytes
  inventoryBytes : Bytes
  inventoryDigest : Bytes
  manifestDigest : Bytes
  fileCount : Nat
  contentBytes : Nat

/-- `LocalSourceCaptureStore.capture`, as far as it depends on the source: the copy reads back as it
was written.
-/
def capture (limits : CaptureLimits) (euid : Int) (objectId : Uuid) (binding : CaptureBinding)
    (children : List (Text × SourceEntry))
    : Except SourceCaptureError CaptureReceipt := do
  let _ ← walkTree limits euid false children
  let evidence ← treeEvidence sha256 limits euid false children
  let written ← manifest sha256 objectId binding limits evidence
  .ok {
    treeDigest := evidence.treeDigest
    inventoryBytes := evidence.inventory
    inventoryDigest := digestIn sha256 "scanipy-execution/source-inventory/1" evidence.inventory
    manifestDigest := digestIn sha256 "scanipy-source-custody/manifest/1" written
    fileCount := evidence.fileCount
    contentBytes := evidence.contentBytes }

variable {sha256} {limits : CaptureLimits} {euid : Int} {published : Bool} {value : Unit}

@[simp]
theorem require_ok_iff {condition : Prop} [Decidable condition] {message : String}
    : require condition message = .ok value ↔ condition :=
  demand_ok

/-- There are no more entries than the limit, and no file is larger than the limit. -/
structure Walk.Within (limits : CaptureLimits) (walk : Walk) : Prop where
  count : walk.entries.length ≤ limits.maxEntries
  sizes : ∀ entry ∈ walk.entries, ∀ found ∈ entry.file, found.1.size ≤ limits.maxFileBytes

variable {walk : Walk}

theorem checkChild_room {parts : List Text} {info : StatResult} {supported : Bool} {readOnly : Nat}
    (passed : checkChild limits euid published walk parts info supported readOnly = .ok value)
    : walk.entries.length < limits.maxEntries := by
  simp only [checkChild, bind_ok, require_ok_iff] at passed
  obtain ⟨_, _, _, room, _⟩ := passed
  exact room

variable {entry : WalkEntry}

/-- A new entry keeps the limits when its file does. -/
theorem Walk.Within.add {after : Walk} (within : walk.Within limits)
    (room : walk.entries.length < limits.maxEntries)
    (size : ∀ found ∈ entry.file, found.1.size ≤ limits.maxFileBytes)
    (entries : after.entries = walk.entries ++ [entry])
    : after.Within limits := by
  constructor
  · rw [entries, List.length_append, List.length_singleton]
    exact room
  · intro other member
    rw [entries, List.mem_append, List.mem_singleton] at member
    rcases member with old | rfl
    · exact within.sizes other old
    · exact size

mutual

/-- What `visit` adds keeps the limits, by recursion on the tree. -/
theorem visitEntry_within {parts : List Text} {walk after : Walk}
    : (entry : SourceEntry) → walk.Within limits
      → visitEntry limits euid published parts walk entry = .ok after → after.Within limits
  | .special _, within, done => by
      simp only [visitEntry, bind_ok] at done
      obtain ⟨_, _, same⟩ := done
      cases same
      exact within
  | .file info content, within, done => by
      simp only [visitEntry, Walk.addFile, bind_ok, require_ok_iff] at done
      obtain ⟨_, checked, _, _, _, small, same⟩ := done
      cases same
      refine within.add (checkChild_room checked) ?_ rfl
      rintro _ ⟨⟩
      exact small.2.1
  | .directory info children, within, done => by
      simp only [visitEntry, bind_ok] at done
      obtain ⟨_, checked, _, _, visited⟩ := done
      refine visitChildren_within children (within.add (checkChild_room checked) ?_ rfl) visited
      rintro _ ⟨⟩

theorem visitChildren_within {parent : List Text} {walk after : Walk}
    : (children : List (Text × SourceEntry)) → walk.Within limits
      → visitChildren limits euid published parent walk children = .ok after
      → after.Within limits
  | [], within, done => by
      cases done
      exact within
  | (_, entry) :: rest, within, done => by
      simp only [visitChildren, bind_ok] at done
      obtain ⟨_, first, later⟩ := done
      exact visitChildren_within rest (visitEntry_within entry within first) later

end

variable {children : List (Text × SourceEntry)}

/-- The walk of a tree is within the limits. -/
theorem walkTree_within {entries : List WalkEntry}
    (walked : walkTree limits euid published children = .ok entries)
    : entries.length ≤ limits.maxEntries
      ∧ ∀ entry ∈ entries, ∀ found ∈ entry.file, found.1.size ≤ limits.maxFileBytes := by
  simp only [walkTree, bind_ok] at walked
  obtain ⟨walk, visited, same⟩ := walked
  cases same
  have start : Walk.Within limits {} :=
    ⟨Nat.zero_le _, fun entry none => absurd none List.not_mem_nil⟩
  have within := visitChildren_within children start visited
  refine ⟨?_, fun entry member => within.sizes entry (mem_sortedBy.mp member)⟩
  rw [(sortedBy_perm _ _).length_eq]
  exact within.count

/-- The evidence of an entry lists a file that is no larger than the limit. -/
theorem entryEvidence_record {evidence : FileEvidence}
    (sizes : ∀ found ∈ entry.file, found.1.size ≤ limits.maxFileBytes)
    (recorded : entryEvidence sha256 limits entry = .ok (some evidence))
    : ∃ path digest size, evidence.record = fileRecord path digest size
      ∧ size ≤ limits.maxFileBytes := by
  unfold entryEvidence at recorded
  split at recorded
  · cases recorded
  · rename_i info content file
    simp only [fileEvidence, bind_ok, require_ok_iff] at recorded
    obtain ⟨_, ⟨_, _, _, _, _, exact_size, made⟩, same⟩ := recorded
    cases same
    cases made
    have small := sizes (info, content) file
    dsimp only at small
    exact ⟨_, _, _, rfl, by omega⟩

/-- The evidence of a tree lists one record for every file. -/
theorem treeEvidence_lists {evidence : TreeEvidence}
    (gathered : treeEvidence sha256 limits euid published children = .ok evidence)
    : ∃ records, evidence.document = inventoryDocument records
      ∧ evidence.inventory = (inventoryDocument records).dumps.utf8
      ∧ evidence.inventory.length ≤ limits.maxMetadataBytes
      ∧ evidence.fileCount = records.length ∧ records.length ≤ limits.maxEntries
      ∧ ∀ record ∈ records, ∃ path digest size, record = fileRecord path digest size
          ∧ size ≤ limits.maxFileBytes := by
  simp only [treeEvidence, bind_ok, require_ok_iff] at gathered
  obtain ⟨entries, walked, found, collected, _, short, same⟩ := gathered
  cases same
  obtain ⟨count, sizes⟩ := walkTree_within walked
  have lengths := (collect_ok_iff.mp collected).length_eq
  have fewer := List.length_filterMap_le id found
  refine ⟨_, rfl, rfl, short, (List.length_map _).symm, ?_, ?_⟩
  · rw [List.length_map]
    omega
  · intro record member
    obtain ⟨file, listed, rfl⟩ := List.mem_map.mp member
    obtain ⟨_, result, rfl⟩ := List.mem_filterMap.mp listed
    obtain ⟨entry, visited, recorded⟩ := exists_mem_of_result collected result
    exact entryEvidence_record (sizes entry visited) recorded

/-- The inventory of a capture. -/
theorem capture_lists {objectId : Uuid} {binding : CaptureBinding} {receipt : CaptureReceipt}
    (captured : capture sha256 limits euid objectId binding children = .ok receipt)
    : ∃ records, receipt.inventoryBytes = (inventoryDocument records).dumps.utf8
      ∧ receipt.inventoryBytes.length ≤ limits.maxMetadataBytes
      ∧ receipt.fileCount = records.length ∧ records.length ≤ limits.maxEntries
      ∧ ∀ record ∈ records, ∃ path digest size, record = fileRecord path digest size
          ∧ size ≤ limits.maxFileBytes := by
  simp only [capture, bind_ok] at captured
  obtain ⟨_, _, evidence, gathered, _, _, same⟩ := captured
  cases same
  obtain ⟨records, _, listed⟩ := treeEvidence_lists gathered
  exact ⟨records, listed⟩

end Scanipy.Services.Scan.SourceCapture
