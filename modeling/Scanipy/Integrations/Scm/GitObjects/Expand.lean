import Scanipy.Integrations.Scm.GitObjects.Objects
import Scanipy.Library.Expansion

/-! Expanding a commit into its files and directories. The walk follows tree entries from the
root tree, refuses a tree inside itself, and accepts only when it has reached every object.
-/

namespace Scanipy.Integrations.Scm.GitObjects

open Library Python

section Index

variable (sha1 sha256 : Bytes → Bytes) (limits : GitCaptureLimits)

/-- The checks of the payload of an object, by its kind. -/
def checkPayload (object : GitObject) : Except GitObjectError Unit :=
  match object.kind, object.payload with
  | .blob, payload => demand (payload = none ∧ object.size ≤ limits.capture.maxFileBytes) .limit
  | _, none => .error .invalidInput
  | kind, some payload => do
      let maximum :=
        if kind = .commit then limits.objects.maxCommitBytes else limits.objects.maxTreeBytes
      demand (object.size ≤ maximum ∧ payload.length = object.size) .limit
      let measured ← metadataObject sha1 sha256 object.oid
        (objectHeader kind object.size ++ payload) limits
      demand (measured = (object.preimageSha256, object.payloadSha256)) .changedInput

/-- The kinds that are supported. -/
def ObjectKind.isKnown : ObjectKind → Bool
  | .other _ => false
  | _ => true

/-- The index and the bytes counted so far. -/
structure IndexState where
  index : Dict Text GitObject := []
  preimageBytes : Int := 0
  treeBytes : Int := 0

/-- One round of the loop over the objects. -/
def indexObject (state : IndexState) (object : GitObject) : Except GitObjectError IndexState := do
  let oid ← checkOid object.oid
  demand (oid ∉ state.index.keys ∧ object.kind.isKnown) .unsupportedObject
  demand (0 ≤ object.size) .invalidInput
  demand (object.preimageSha256.length = 32 ∧ object.payloadSha256.length = 32) .invalidInput
  checkPayload sha1 sha256 limits object
  let preimageBytes :=
    state.preimageBytes + (objectHeader object.kind object.size).length + object.size
  let treeBytes := state.treeBytes + (if object.kind = .tree then object.size else 0)
  demand
    (preimageBytes ≤ limits.objects.maxTotalPreimageBytes
      ∧ treeBytes ≤ limits.objects.maxTotalTreeBytes)
    .limit
  .ok { index := state.index.set oid object, preimageBytes, treeBytes }

end Index

-- The walk

/-- `GitFile`. -/
structure GitFile where
  path : Text
  mode : TreeMode
  blobOid : Text
  size : Int
  payloadSha256 : Bytes
  deriving DecidableEq

/-- `GitDirectory`. -/
structure GitDirectory where
  path : Text
  treeOid : Text
  deriving DecidableEq

/-- `GitTree`. -/
structure GitTree where
  commitOid : Text
  rootTreeOid : Text
  objects : List GitObject
  files : List GitFile
  directories : List GitDirectory
  deriving DecidableEq

/-- What the walk counts and collects. -/
structure WalkState where
  count : Nat := 0
  total : Int := 0
  reached : PySet Text
  files : List GitFile := []
  directories : List GitDirectory := []

section Walk

variable (lookup : Text → Option GitObject) (limits : GitCaptureLimits)

/-- The entries of the tree that a walk enters; it is refused inside itself. -/
def openTree (ancestors : List Text) (oid : Text) : Except GitObjectError (List TreeEntry) :=
  match lookup oid with
  | none => .error .unsupportedObject
  | some object =>
      match object.payload with
      | none => .error .unsupportedObject
      | some payload => do
          demand (object.kind = .tree ∧ oid ∉ ancestors) .unsupportedObject
          treeEntries payload limits.capture

/-- `index.get(child_oid)`. -/
def present (oid : Text) : Except GitObjectError GitObject :=
  match lookup oid with
  | some object => .ok object
  | none => .error .unsupportedObject

/-- A file is measured and collected. -/
def addFile (state : WalkState) (path : Text) (entry : TreeEntry) (child : GitObject)
    : Except GitObjectError WalkState := do
  demand (child.kind = .blob) .unsupportedObject
  demand
    (state.files.length < limits.capture.maxFiles
      ∧ state.total + child.size ≤ limits.capture.maxTotalBytes)
    .limit
  .ok { state with
    total := state.total + child.size
    files := state.files ++ [
      { path, mode := entry.mode, blobOid := entry.oid, size := child.size,
        payloadSha256 := child.payloadSha256 }] }

/-- One entry of the tree `oid`; `descend` walks a subtree. -/
def walkEntry (descend : Text → List Text → List Text → WalkState → Except GitObjectError WalkState)
    (oid : Text) (parent ancestors : List Text) (state : WalkState) (entry : TreeEntry)
    : Except GitObjectError WalkState := do
  demand (state.count + 1 ≤ limits.capture.maxEntries) .limit
  let parts := parent ++ [entry.name]
  let path ← sourcePath parts limits.capture
  let child ← present lookup entry.oid
  let counted := { state with count := state.count + 1, reached := state.reached.add entry.oid }
  if entry.mode = .directory then
    descend entry.oid parts (oid :: ancestors)
      { counted with
        directories := counted.directories ++ [{ path, treeOid := entry.oid }] }
  else addFile limits counted path entry child

/-- `walk`. -/
def walk : Nat → Text → List Text → List Text → WalkState → Except GitObjectError WalkState
  | 0, _, _, _, _ => .error .exhausted
  | rounds + 1, oid, parent, ancestors, state => do
      let entries ← openTree lookup limits ancestors oid
      entries.foldlM (walkEntry lookup limits (walk rounds) oid parent ancestors)
        { state with reached := state.reached.add oid }

end Walk

/-- The root tree of the commit in the index. -/
def rootOid (limits : GitCaptureLimits) (lookup : Text → Option GitObject) (commitOid : Text)
    : Except GitObjectError Text :=
  match lookup commitOid with
  | none => .error .unsupportedObject
  | some commit =>
      match commit.kind, commit.payload with
      | .commit, some payload => commitTree payload limits.objects
      | _, _ => .error .unsupportedObject

/-- `expand_objects`. -/
def expandObjects (sha1 sha256 : Bytes → Bytes) (commitOid : Text) (objects : List GitObject)
    (limits : GitCaptureLimits)
    : Except GitObjectError GitTree := do
  let commitOid ← checkOid commitOid
  demand (objects.length ≤ limits.objects.maxObjects) .limit
  let state ← objects.foldlM (indexObject sha1 sha256 limits) {}
  let rootTreeOid ← rootOid limits state.index.get? commitOid
  let walked ← walk state.index.get? limits (objects.length + 1) rootTreeOid [] []
    { reached := [commitOid] }
  demand
    ((∀ oid ∈ walked.reached, oid ∈ state.index.keys)
      ∧ ∀ oid ∈ state.index.keys, oid ∈ walked.reached)
    .unsupportedObject
  .ok
    { commitOid, rootTreeOid, objects := sortedBy GitObject.oid objects,
      files := sortedBy GitFile.path walked.files,
      directories := sortedBy GitDirectory.path walked.directories }

-- What the walk collects

/-- The entries of a tree; none for what is not a tree that can be read. -/
def entriesOf (lookup : Text → Option GitObject) (limits : GitCaptureLimits) (oid : Text)
    : List TreeEntry :=
  match openTree lookup limits [] oid with
  | .ok entries => entries
  | .error _ => []

/-- The graph of the trees: their entries by name, the directories leading into trees. -/
def listing (lookup : Text → Option GitObject) (limits : GitCaptureLimits)
    : Listing Text Text TreeEntry where
  entries := entriesOf lookup limits
  label := TreeEntry.name
  inner entry := if entry.mode = .directory then some entry.oid else none

variable {lookup : Text → Option GitObject} {limits : GitCaptureLimits}

/-- The object is there, is a tree and can be read. -/
def IsTree (lookup : Text → Option GitObject) (limits : GitCaptureLimits) (oid : Text) : Prop :=
  ∃ object payload entries,
    lookup oid = some object
    ∧ object.kind = .tree
    ∧ object.payload = some payload
    ∧ treeEntries payload limits.capture = .ok entries

/-- The object is there and is a blob. -/
def IsBlob (lookup : Text → Option GitObject) (oid : Text) : Prop :=
  ∃ object, lookup oid = some object ∧ object.kind = .blob

variable {ancestors : List Text} {oid : Text} {entries : List TreeEntry}

theorem openTree_ok
    : openTree lookup limits ancestors oid = .ok entries
      ↔ oid ∉ ancestors
        ∧ ∃ object payload,
            lookup oid = some object
            ∧ object.kind = .tree
            ∧ object.payload = some payload
            ∧ treeEntries payload limits.capture = .ok entries := by
  unfold openTree
  constructor
  · intro opened
    split at opened
    · cases opened
    case h_2 object found =>
      split at opened
      · cases opened
      case h_2 payload given =>
        rw [check_ok, demand_ok] at opened
        exact ⟨opened.1.2, object, payload, found, opened.1.1, given, opened.2⟩
  · rintro ⟨outside, object, payload, found, kind, given, read⟩
    rw [found]
    dsimp only
    rw [given]
    dsimp only
    rw [check_ok, demand_ok]
    exact ⟨⟨kind, outside⟩, read⟩

theorem entriesOf_eq (opened : openTree lookup limits ancestors oid = .ok entries)
    : entriesOf lookup limits oid = entries := by
  have alone : openTree lookup limits [] oid = .ok entries :=
    openTree_ok.mpr ⟨List.not_mem_nil, (openTree_ok.mp opened).2⟩
  rw [entriesOf, alone]

theorem listing_distinct (lookup : Text → Option GitObject) (limits : GitCaptureLimits)
    : (listing lookup limits).Distinct := by
  intro oid
  change ((entriesOf lookup limits oid).map TreeEntry.name).Nodup
  unfold entriesOf
  split
  case h_1 entries opened =>
    obtain ⟨_, _, _, _, _, _, read⟩ := openTree_ok.mp opened
    exact treeEntries_nodup read
  case h_2 => exact List.nodup_nil

/-- The file that an entry under a path stands for. -/
def fileOf (lookup : Text → Option GitObject) (item : List Text × TreeEntry) : Option GitFile :=
  if item.2.mode = .directory then none
  else
    (lookup item.2.oid).map fun child =>
      { path := joined item.1, mode := item.2.mode, blobOid := item.2.oid, size := child.size,
        payloadSha256 := child.payloadSha256 }

/-- The directory that an entry under a path stands for. -/
def directoryOf (item : List Text × TreeEntry) : Option GitDirectory :=
  if item.2.mode = .directory then some { path := joined item.1, treeOid := item.2.oid } else none

/-- The path of an entry is a source path, and its object is there and of its kind. -/
def Fine (lookup : Text → Option GitObject) (limits : GitCaptureLimits)
    (item : List Text × TreeEntry)
    : Prop :=
  (item.1 ≠ [] ∧ ∀ name ∈ item.1, AllowedName name)
  ∧ if item.2.mode = .directory then IsTree lookup limits item.2.oid
    else IsBlob lookup item.2.oid

/-- The walk has collected the items, all of which are fine. -/
structure Grows (lookup : Text → Option GitObject) (limits : GitCaptureLimits)
    (items : List (List Text × TreeEntry)) (before after : WalkState)
    : Prop where
  files : after.files = before.files ++ items.filterMap (fileOf lookup)
  directories : after.directories = before.directories ++ items.filterMap directoryOf
  reached : ∀ oid,
    oid ∈ after.reached ↔ oid ∈ before.reached ∨ ∃ item ∈ items, item.2.oid = oid
  fine : ∀ item ∈ items, Fine lookup limits item

theorem Grows.refl (state : WalkState) : Grows lookup limits [] state state where
  files := by simp
  directories := by simp
  reached oid := by simp
  fine item listed := absurd listed List.not_mem_nil

variable {before after : WalkState}

theorem Grows.trans {items more : List (List Text × TreeEntry)} {middle : WalkState}
    (first : Grows lookup limits items before middle)
    (second : Grows lookup limits more middle after)
    : Grows lookup limits (items ++ more) before after where
  files := by rw [second.files, first.files, List.filterMap_append, List.append_assoc]
  directories := by
    rw [second.directories, first.directories, List.filterMap_append, List.append_assoc]
  reached oid := by
    rw [second.reached, first.reached, or_assoc]
    simp only [List.mem_append, or_and_right, exists_or]
  fine item listed := by
    rcases List.mem_append.mp listed with early | late
    · exact first.fine item early
    · exact second.fine item late

/-- What a walk from a tree does: the tree is read, its expansion ends, and the walk collects
the expansion.
-/
def WalkSpec (lookup : Text → Option GitObject) (limits : GitCaptureLimits) (rounds : Nat)
    (descend : Text → List Text → List Text → WalkState → Except GitObjectError WalkState)
    : Prop :=
  ∀ oid parent ancestors before after,
    descend oid parent ancestors before = .ok after
    → IsTree lookup limits oid
      ∧ (listing lookup limits).Closed rounds oid
      ∧ Grows lookup limits ((listing lookup limits).expand rounds oid parent)
          { before with reached := before.reached.add oid } after

variable {entry : TreeEntry} {count : Nat} {path : Text} {parts : List Text}

/-- An entry that is a file is collected. -/
theorem addFile_grows {child : GitObject}
    (added : addFile limits { before with count, reached := before.reached.add entry.oid } path
      entry child = .ok after) (checked : sourcePath parts limits.capture = .ok path)
    (found : lookup entry.oid = some child) (file : entry.mode ≠ .directory)
    : Grows lookup limits [(parts, entry)] before after := by
  obtain ⟨rfl, nonempty, allowed⟩ := sourcePath_spec checked
  simp only [addFile, check_ok, demand_ok] at added
  obtain ⟨blob, _, same⟩ := added
  cases same
  refine ⟨?_, ?_, ?_, ?_⟩
  · simp [fileOf, file, found]
  · simp [directoryOf, file]
  · intro oid
    simp [eq_comm]
  · intro item listed
    rw [List.mem_singleton.mp listed]
    refine ⟨⟨nonempty, allowed⟩, ?_⟩
    rw [if_neg file]
    exact ⟨child, found, blob⟩

/-- An entry that is a directory is collected before what is below it. -/
theorem directory_grows (checked : sourcePath parts limits.capture = .ok path)
    (tree : IsTree lookup limits entry.oid) (directory : entry.mode = .directory)
    : Grows lookup limits [(parts, entry)] before
        { before with
          count
          reached := (before.reached.add entry.oid).add entry.oid
          directories := before.directories ++ [{ path, treeOid := entry.oid }] } := by
  obtain ⟨rfl, nonempty, allowed⟩ := sourcePath_spec checked
  refine ⟨?_, ?_, ?_, ?_⟩
  · simp [fileOf, directory]
  · simp [directoryOf, directory]
  · intro oid
    simp [eq_comm]
  · intro item listed
    rw [List.mem_singleton.mp listed]
    refine ⟨⟨nonempty, allowed⟩, ?_⟩
    rw [if_pos directory]
    exact tree

theorem present_ok {object : GitObject} (found : present lookup oid = .ok object)
    : lookup oid = some object := by
  unfold present at found
  split at found
  · exact Except.ok.inj found ▸ ‹_›
  · cases found

/-- One entry collects itself and what it leads to. -/
theorem walkEntry_grows {rounds : Nat}
    {descend : Text → List Text → List Text → WalkState → Except GitObjectError WalkState}
    (descends : WalkSpec lookup limits rounds descend) {parent : List Text}
    (done : walkEntry lookup limits descend oid parent ancestors before entry = .ok after)
    : (∀ child ∈ (listing lookup limits).inner entry, (listing lookup limits).Closed rounds child)
      ∧ Grows lookup limits
          ((parent ++ [entry.name], entry)
            :: (listing lookup limits).expandInner rounds entry (parent ++ [entry.name]))
          before after := by
  rw [walkEntry, check_ok] at done
  obtain ⟨path, checked, done⟩ := bind_ok.mp done.2
  obtain ⟨child, found, done⟩ := bind_ok.mp done
  split at done
  case isTrue directory =>
    obtain ⟨tree, closed, grows⟩ := descends _ _ _ _ _ done
    have into : (listing lookup limits).inner entry = some entry.oid := if_pos directory
    refine ⟨?_, ?_⟩
    · intro child same
      rw [into] at same
      cases same
      exact closed
    · rw [Listing.expandInner, into]
      exact (directory_grows checked tree directory).trans grows
  case isFalse file =>
    have into : (listing lookup limits).inner entry = none := if_neg file
    refine ⟨?_, ?_⟩
    · intro child same
      rw [into] at same
      cases same
    · rw [Listing.expandInner, into]
      exact addFile_grows done checked (present_ok found) file

/-- A walk collects the expansion of its tree, by induction on the rounds. -/
theorem walk_spec (lookup : Text → Option GitObject) (limits : GitCaptureLimits) (rounds : Nat)
    : WalkSpec lookup limits rounds (walk lookup limits rounds) := by
  induction rounds with
  | zero =>
      intro oid parent ancestors before after done
      cases done
  | succ rounds ih =>
      intro oid parent ancestors before after done
      obtain ⟨entries, opened, done⟩ := bind_ok.mp done
      have listed : (listing lookup limits).entries oid = entries := entriesOf_eq opened
      obtain ⟨_, object, payload, found, kind, given, read⟩ := openTree_ok.mp opened
      -- the loop collects the blocks of the entries one after another
      have loop := @foldlM_ok_induction _ _ _ _
        (fun items before after =>
          (∀ entry ∈ items, ∀ child ∈ (listing lookup limits).inner entry,
            (listing lookup limits).Closed rounds child)
          ∧ Grows lookup limits
              (items.flatMap fun entry =>
                (parent ++ [entry.name], entry)
                  :: (listing lookup limits).expandInner rounds entry (parent ++ [entry.name]))
              before after)
        (fun state => ⟨fun _ absent => absurd absent List.not_mem_nil, Grows.refl state⟩)
        (fun {entry rest before middle after} step later => by
          obtain ⟨closed, grows⟩ := walkEntry_grows ih step
          refine ⟨?_, ?_⟩
          · intro other member
            rcases List.mem_cons.mp member with rfl | tail
            · exact closed
            · exact later.1 other tail
          · rw [List.flatMap_cons]
            exact grows.trans later.2)
        _ _ _ done
      refine ⟨⟨object, payload, entries, found, kind, given, read⟩, ?_, ?_⟩
      · intro entry member
        rw [listed] at member
        exact loop.1 entry member
      · rw [Listing.expand, listed]
        exact loop.2

end Scanipy.Integrations.Scm.GitObjects
