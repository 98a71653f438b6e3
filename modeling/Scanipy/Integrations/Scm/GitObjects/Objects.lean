import Scanipy.Python.Datetime
import Scanipy.Python.Utf8

/-! Git objects: identifiers, source paths, and the texts of commits and trees. -/

namespace Scanipy.Integrations.Scm.GitObjects

open Library Python

/-- The categories of `GitObjectError`. The last stands for a loop that has not ended after the
given number of rounds.
-/
inductive GitObjectError where
  | invalidInput
  | limit
  | unsupportedObject
  | changedInput
  | exhausted
  deriving DecidableEq, Repr

/-- A limit lies between one and its ceiling. -/
abbrev Bounded (ceiling value : Nat) : Prop :=
  1 ≤ value ∧ value ≤ ceiling

/-- `CaptureLimits`, with what its `__post_init__` checks. -/
structure CaptureLimits where
  maxFiles : Nat := 10000
  maxEntries : Nat := 20000
  maxDepth : Nat := 64
  maxPathBytes : Nat := 1024
  maxFileBytes : Nat := 64 * 1024 * 1024
  maxTotalBytes : Nat := 512 * 1024 * 1024
  maxMetadataBytes : Nat := 1024 * 1024
  files : Bounded 10000 maxFiles := by decide
  entries : Bounded 20000 maxEntries := by decide
  depth : Bounded 64 maxDepth := by decide
  pathBytes : Bounded 1024 maxPathBytes := by decide
  fileBytes : Bounded (64 * 1024 ^ 2) maxFileBytes := by decide
  totalBytes : Bounded (512 * 1024 ^ 2) maxTotalBytes := by decide
  metadataBytes : Bounded (1024 ^ 2) maxMetadataBytes := by decide

/-- `GitObjectLimits`, with what its `__post_init__` checks. -/
structure GitObjectLimits where
  maxObjects : Nat := 20002
  maxCommitBytes : Nat := 1024 ^ 2
  maxCommitHeaderBytes : Nat := 64 * 1024
  maxParentOids : Nat := 64
  maxTreeBytes : Nat := 8 * 1024 ^ 2
  maxTotalTreeBytes : Nat := 32 * 1024 ^ 2
  maxTotalPreimageBytes : Nat := 547 * 1024 ^ 2
  objects : Bounded 20002 maxObjects := by decide
  commitBytes : Bounded (1024 ^ 2) maxCommitBytes := by decide
  commitHeaderBytes : Bounded (64 * 1024) maxCommitHeaderBytes := by decide
  parentOids : Bounded 64 maxParentOids := by decide
  treeBytes : Bounded (8 * 1024 ^ 2) maxTreeBytes := by decide
  totalTreeBytes : Bounded (32 * 1024 ^ 2) maxTotalTreeBytes := by decide
  totalPreimageBytes : Bounded (547 * 1024 ^ 2) maxTotalPreimageBytes := by decide

/-- `GitCaptureLimits`. Both parts hold their checks, so `freeze_limits` returns an equal value. -/
structure GitCaptureLimits where
  capture : CaptureLimits := {}
  objects : GitObjectLimits := {}

/-- `_OID`, and not forty zeros. -/
def IsOid (value : Text) : Prop :=
  fullmatch (List.replicate 40 isHex) value = true
  ∧ value ≠ List.replicate 40 (Fin.ofNat 0x110000 0x30)

instance (value : Text) : Decidable (IsOid value) :=
  inferInstanceAs (Decidable (_ ∧ _))

/-- `check_oid`. -/
def checkOid (value : Text) : Except GitObjectError Text := do
  demand (IsOid value) .invalidInput
  .ok value

def slash : CodePoint := Fin.ofNat 0x110000 0x2F

/-- A control character, of either range. -/
def IsControl (point : CodePoint) : Prop :=
  point.val < 32 ∨ (127 ≤ point.val ∧ point.val ≤ 159)

instance (point : CodePoint) : Decidable (IsControl point) :=
  inferInstanceAs (Decidable (_ ∨ _))

/-- The names that no component of a source path may have. -/
def reservedNames : List Text :=
  [[], py ".", py "..", py ".git"]

/-- A component that `source_path` accepts. -/
def AllowedName (name : Text) : Prop :=
  name ∉ reservedNames
  ∧ slash ∉ name
  ∧ (Fin.ofNat 0x110000 0x5C : CodePoint) ∉ name
  ∧ ∀ point ∈ name, ¬IsControl point

section

local instance : LawfulBEq CodePoint := inferInstance

instance (name : Text) : Decidable (AllowedName name) :=
  @instDecidableAnd _ _ _ (@instDecidableAnd _ _ _
    (@instDecidableAnd _ _ _ (List.decidableBAll (fun point => ¬IsControl point) name)))

end

/-- `"/".join(parts)`. -/
def joined (parts : List Text) : Text :=
  [slash].intercalate parts

/-- The checks of one component. -/
def checkName (limits : CaptureLimits) (name : Text) : Except GitObjectError Unit := do
  demand (name.length ≤ limits.maxPathBytes) .limit
  demand (AllowedName name) .unsupportedObject

/-- The length of a path in UTF-8. -/
def encodedSize (path : Text) : Except GitObjectError Nat :=
  match path.encode with
  | some data => .ok data.length
  | none => .error .unsupportedObject

/-- `source_path`. -/
def sourcePath (parts : List Text) (limits : CaptureLimits) : Except GitObjectError Text := do
  demand (parts ≠ [] ∧ parts.length ≤ limits.maxDepth) .limit
  Metered.visit (checkName limits) parts
  demand ((parts.map List.length).sum + parts.length - 1 ≤ limits.maxPathBytes) .limit
  let size ← encodedSize (joined parts)
  demand (size ≤ limits.maxPathBytes) .limit
  .ok (joined parts)

/-- The kind of an object; `kind` is any string until it is checked. -/
inductive ObjectKind where
  | commit
  | tree
  | blob
  | other (name : Text)
  deriving DecidableEq, Repr

def ObjectKind.bytes : ObjectKind → Bytes
  | .commit => pyb "commit"
  | .tree => pyb "tree"
  | .blob => pyb "blob"
  | .other name => name.utf8

/-- `GitObject`. -/
structure GitObject where
  oid : Text
  kind : ObjectKind
  size : Int
  preimageSha256 : Bytes
  payloadSha256 : Bytes
  payload : Option Bytes
  stamp : Option (List Int) := none
  deriving DecidableEq

/-- `object_header`, for a kind and a size that were checked. -/
def objectHeader (kind : ObjectKind) (size : Int) : Bytes :=
  kind.bytes ++ pyb " " ++ (decimal size.toNat).utf8 ++ [0]

def isDigitByte (byte : Byte) : Bool :=
  0x30 ≤ byte.val && byte.val ≤ 0x39

/-- `(0|[1-9][0-9]*)` and the number it stands for. -/
def headerSize (digits : Bytes) : Option Nat :=
  match digits with
  | [] => none
  | first :: rest =>
      if digits.all isDigitByte && (first.val != 0x30 || rest.isEmpty) then
        some (digits.foldl (fun value digit => value * 10 + (digit.val - 0x30)) 0)
      else none

/-- `_HEADER.fullmatch`. -/
def matchHeader (header : Bytes) : Option (ObjectKind × Nat) :=
  ([ObjectKind.commit, .tree, .blob].find? fun kind => (kind.bytes ++ pyb " ").isPrefixOf header)
  >>= fun kind =>
    (headerSize (header.drop (kind.bytes.length + 1))).map fun size => (kind, size)

/-- `metadata_object`, with what it returns of the digests. -/
def metadataObject (sha1 sha256 : Bytes → Bytes) (oid : Text) (preimage : Bytes)
    (limits : GitCaptureLimits)
    : Except GitObjectError (Bytes × Bytes) := do
  let oid ← checkOid oid
  demand (preimage.length ≤ max limits.objects.maxCommitBytes limits.objects.maxTreeBytes + 64)
    .limit
  let header := preimage.takeWhile (· ≠ 0)
  let payload := preimage.drop (header.length + 1)
  demand ((0 : Byte) ∈ preimage ∧ header.length + 1 ≤ 64) .unsupportedObject
  match matchHeader header with
  | some (.commit, size) => measured oid payload size limits.objects.maxCommitBytes
  | some (.tree, size) => measured oid payload size limits.objects.maxTreeBytes
  | _ => .error .unsupportedObject
where
  /-- The checks of the payload against its header and its name. -/
  measured (oid : Text) (payload : Bytes) (size maximum : Nat)
      : Except GitObjectError (Bytes × Bytes) := do
    demand (size = payload.length ∧ size ≤ maximum) .limit
    demand (hex (sha1 preimage) = oid) .changedInput
    .ok (sha256 preimage, sha256 payload)

/-- `data.find(b"\n\n", 0, stop)`: the start of the first pair of line feeds that ends before
`stop`.
-/
def findBlankLine (stop : Nat) (data : Bytes) : Option Nat :=
  (List.range (min stop data.length - 1)).find? fun start =>
    (data.drop start).take 2 = [0x0A, 0x0A]

/-- `key in (b"tree", b"parent")`, and the identifier after it. -/
def headerOid (value : Bytes) : Except GitObjectError Text :=
  let text : Text := value.map fun byte => Fin.ofNat 0x110000 byte.val
  if (value.all fun byte => byte.val < 0x80) ∧ IsOid text then .ok text else .error .unsupportedObject

/-- One line of the header, with the tree and the number of parents so far. -/
def headerLine (limits : GitObjectLimits) (state : Option Text × Nat) (line : Bytes × Nat)
    : Except GitObjectError (Option Text × Nat) :=
  let (tree, parents) := state
  let (text, index) := line
  if text.head? = some 0x20 then
    if index = 0 then .error .unsupportedObject else .ok state
  else
    let key := text.takeWhile (· ≠ 0x20)
    let value := text.drop (key.length + 1)
    if (0x20 : Byte) ∉ text ∨ key = [] ∨ key.any (fun byte => byte.val < 33 || 126 < byte.val) then
      .error .unsupportedObject
    else if key = pyb "tree" then do
      let parsed ← headerOid value
      demand (index = 0 ∧ tree = none) .unsupportedObject
      .ok (some parsed, parents)
    else if key = pyb "parent" then do
      let _ ← headerOid value
      demand (parents + 1 ≤ limits.maxParentOids) .limit
      .ok (tree, parents + 1)
    else .ok state

/-- `_commit_tree`. -/
def commitTree (payload : Bytes) (limits : GitObjectLimits) : Except GitObjectError Text := do
  match findBlankLine (limits.maxCommitHeaderBytes + 1) payload with
  | none => .error .unsupportedObject
  | some stop =>
      demand (stop + 2 ≤ limits.maxCommitHeaderBytes) .unsupportedObject
      let lines := (payload.take stop).splitOn 0x0A
      demand ((pyb "tree ").isPrefixOf (lines.headD []) = true) .unsupportedObject
      let (tree, _) ← lines.zipIdx.foldlM (headerLine limits) (none, 0)
      match tree with
      | some tree => .ok tree
      | none => .error .unsupportedObject

/-- The modes of tree entries: `40000`, `100644` and `100755`. -/
inductive TreeMode where
  | directory
  | file
  | executable
  deriving DecidableEq, Repr

def TreeMode.bytes : TreeMode → Bytes
  | .directory => pyb "40000"
  | .file => pyb "100644"
  | .executable => pyb "100755"

structure TreeEntry where
  name : Text
  mode : TreeMode
  oid : Text
  deriving DecidableEq

/-- The mode, the name and the identifier in front of a tree, as bytes, and what follows them. -/
def entryParts (limits : CaptureLimits) (rest : Bytes)
    : Except GitObjectError (Bytes × Bytes × Bytes × Bytes) :=
  match (rest.take 8).idxOf? 0x20 with
  | none => .error .unsupportedObject
  | some space =>
      match (rest.drop (space + 1)).idxOf? 0 with
      | none => .error .unsupportedObject
      | some length => do
          let nul := space + 1 + length
          demand (nul + 21 ≤ rest.length) .unsupportedObject
          demand (length ≤ limits.maxPathBytes) .limit
          .ok (rest.take space, (rest.drop (space + 1)).take length, (rest.drop (nul + 1)).take 20,
            rest.drop (nul + 21))

/-- The mode that the bytes name. -/
def treeMode (raw : Bytes) : Except GitObjectError TreeMode :=
  match [TreeMode.directory, .file, .executable].find? fun mode => mode.bytes = raw with
  | some mode => .ok mode
  | none => .error .unsupportedObject

/-- `name_raw.decode("utf-8", "strict")`. -/
def decodeName (raw : Bytes) : Except GitObjectError Text :=
  match Text.decode raw with
  | some name => .ok name
  | none => .error .unsupportedObject

/-- What the order of a tree compares. -/
def orderKey (mode : TreeMode) (raw : Bytes) : Bytes :=
  raw ++ (if mode = .directory then pyb "/" else [0])

/-- The loop of `_tree_entries`, with the entries so far and the last order key. -/
def treeEntriesFrom (limits : CaptureLimits)
    : Nat → Bytes → List TreeEntry → Option Bytes → Except GitObjectError (List TreeEntry)
  | _, [], result, _ => .ok result
  | 0, _ :: _, _, _ => .error .exhausted
  | rounds + 1, first :: others, result, previous => do
      demand (result.length < limits.maxEntries) .limit
      let (modeRaw, nameRaw, oidRaw, rest) ← entryParts limits (first :: others)
      let mode ← treeMode modeRaw
      let name ← decodeName nameRaw
      let _ ← sourcePath [name] limits
      demand (name ∉ result.map TreeEntry.name ∧ ∀ last ∈ previous, last < orderKey mode nameRaw)
        .unsupportedObject
      let oid ← checkOid (hex oidRaw)
      treeEntriesFrom limits rounds rest (result ++ [{ name, mode, oid }])
        (some (orderKey mode nameRaw))

/-- `_tree_entries`. -/
def treeEntries (payload : Bytes) (limits : CaptureLimits)
    : Except GitObjectError (List TreeEntry) :=
  treeEntriesFrom limits payload.length payload [] none

theorem checkOid_ok {value oid : Text} : checkOid value = .ok oid ↔ IsOid value ∧ oid = value := by
  rw [checkOid, check_ok, demand_ok, Except.ok.injEq, eq_comm (a := value)]

variable {limits : CaptureLimits} {rest : Bytes}

/-- What follows an entry is shorter than what it was read from. -/
theorem entryParts_shorter {modeRaw nameRaw oidRaw tail : Bytes}
    (read : entryParts limits rest = .ok (modeRaw, nameRaw, oidRaw, tail))
    : tail.length < rest.length := by
  unfold entryParts at read
  split at read
  · cases read
  · split at read
    · cases read
    · simp only [check_ok, demand_ok, Except.ok.injEq, Prod.mk.injEq] at read
      obtain ⟨enough, _, _, _, _, rfl⟩ := read
      rw [List.length_drop]
      omega

/-- A source path joins components that are all allowed. -/
theorem sourcePath_spec {parts : List Text} {path : Text}
    (checked : sourcePath parts limits = .ok path)
    : path = joined parts ∧ parts ≠ [] ∧ ∀ name ∈ parts, AllowedName name := by
  simp only [sourcePath, check_ok, demand_ok, visit_ok] at checked
  obtain ⟨⟨nonempty, _⟩, names, _, checked⟩ := checked
  obtain ⟨_, _, checked⟩ := bind_ok.mp checked
  rw [check_ok] at checked
  refine ⟨(Except.ok.inj checked.2).symm, nonempty, fun name listed => ?_⟩
  have named := names name listed
  rw [checkName, check_ok, demand_ok, demand_ok] at named
  exact named.2

variable {rounds : Nat} {entries : List TreeEntry}

/-- The names of a tree are distinct.
Witness: induction on the rounds; a name that was listed is refused.
-/
theorem treeEntriesFrom_nodup {result : List TreeEntry} {previous : Option Bytes}
    (read : treeEntriesFrom limits rounds rest result previous = .ok entries)
    (distinct : (result.map TreeEntry.name).Nodup)
    : (entries.map TreeEntry.name).Nodup := by
  induction rounds generalizing rest result previous with
  | zero =>
      cases rest with
      | nil =>
          cases read
          exact distinct
      | cons first others => cases read
  | succ rounds ih =>
      cases rest with
      | nil =>
          cases read
          exact distinct
      | cons first others =>
          rw [treeEntriesFrom, check_ok] at read
          obtain ⟨⟨modeRaw, nameRaw, oidRaw, tail⟩, _, read⟩ := bind_ok.mp read.2
          obtain ⟨mode, _, read⟩ := bind_ok.mp read
          obtain ⟨name, _, read⟩ := bind_ok.mp read
          obtain ⟨_, _, read⟩ := bind_ok.mp read
          rw [check_ok, demand_ok] at read
          obtain ⟨⟨fresh, _⟩, read⟩ := read
          obtain ⟨oid, _, read⟩ := bind_ok.mp read
          refine ih read ?_
          rw [List.map_append]
          refine distinct.append (List.nodup_singleton _) fun other listed single => ?_
          have same : other = name := List.mem_singleton.mp single
          exact fresh (same ▸ listed)

theorem treeEntries_nodup {payload : Bytes} (read : treeEntries payload limits = .ok entries)
    : (entries.map TreeEntry.name).Nodup :=
  treeEntriesFrom_nodup read List.nodup_nil

theorem checkOid_ends (value : Text) : Avoids .exhausted (checkOid value) :=
  .bind (.demand nofun) fun _ _ => .ok _

theorem sourcePath_ends (parts : List Text) (limits : CaptureLimits)
    : Avoids .exhausted (sourcePath parts limits) := by
  have sized : Avoids .exhausted (encodedSize (joined parts)) := by
    unfold encodedSize
    split
    · exact .ok _
    · exact .error nofun
  refine .bind (.demand nofun) fun _ _ => .bind (.visit fun name _ => ?_) fun _ _ =>
    .bind (.demand nofun) fun _ _ => .bind sized fun _ _ => .bind (.demand nofun) fun _ _ => .ok _
  exact .bind (.demand nofun) fun _ _ => .demand nofun

theorem entryParts_ends (limits : CaptureLimits) (rest : Bytes)
    : Avoids .exhausted (entryParts limits rest) := by
  unfold entryParts
  split
  · exact .error nofun
  · split
    · exact .error nofun
    · exact .bind (.demand nofun) fun _ _ => .bind (.demand nofun) fun _ _ => .ok _

theorem treeMode_ends (raw : Bytes) : Avoids .exhausted (treeMode raw) := by
  unfold treeMode
  split
  · exact .ok _
  · exact .error nofun

theorem decodeName_ends (raw : Bytes) : Avoids .exhausted (decodeName raw) := by
  unfold decodeName
  split
  · exact .ok _
  · exact .error (fun same => GitObjectError.noConfusion same)

/-- A tree is read in as many rounds as it has bytes.
Witness: induction on the rounds; each entry takes bytes away.
-/
theorem treeEntriesFrom_ends (enough : rest.length ≤ rounds) (result : List TreeEntry)
    (previous : Option Bytes)
    : Avoids .exhausted (treeEntriesFrom limits rounds rest result previous) := by
  induction rounds generalizing rest result previous with
  | zero =>
      obtain rfl := List.length_eq_zero_iff.mp (Nat.le_zero.mp enough)
      exact .ok _
  | succ rounds ih =>
      cases rest with
      | nil => exact .ok _
      | cons first others =>
          refine .bind (.demand nofun) fun _ _ => .bind (entryParts_ends _ _) ?_
          rintro ⟨modeRaw, nameRaw, oidRaw, tail⟩ read
          have shorter := entryParts_shorter read
          refine .bind (treeMode_ends _) fun _ _ => .bind (decodeName_ends _) fun _ _ =>
            .bind (sourcePath_ends _ _) fun _ _ => .bind (.demand nofun) fun _ _ =>
              .bind (checkOid_ends _) fun _ _ => ih (by omega) _ _

theorem treeEntries_ends (payload : Bytes) (limits : CaptureLimits)
    : Avoids .exhausted (treeEntries payload limits) :=
  treeEntriesFrom_ends le_rfl [] none

theorem headerOid_ends (value : Bytes) : Avoids .exhausted (headerOid value) := by
  unfold headerOid
  dsimp only
  split
  · exact .ok _
  · exact .error nofun

theorem headerLine_ends (limits : GitObjectLimits) (state : Option Text × Nat)
    (line : Bytes × Nat)
    : Avoids .exhausted (headerLine limits state line) := by
  unfold headerLine
  dsimp only
  split
  · split
    · exact .error nofun
    · exact .ok _
  · split
    · exact .error nofun
    · split
      · exact .bind (headerOid_ends _) fun _ _ => .bind (.demand nofun) fun _ _ => .ok _
      · split
        · exact .bind (headerOid_ends _) fun _ _ => .bind (.demand nofun) fun _ _ => .ok _
        · exact .ok _

theorem commitTree_ends (payload : Bytes) (limits : GitObjectLimits)
    : Avoids .exhausted (commitTree payload limits) := by
  unfold commitTree
  split
  · exact .error nofun
  · refine .bind (.demand nofun) fun _ _ => .bind (.demand nofun) fun _ _ =>
      .bind (.foldlM (fun line _ state => headerLine_ends limits state line) _) fun found _ => ?_
    obtain ⟨tree, _⟩ := found
    cases tree with
    | none => exact .error nofun
    | some tree => exact .ok _

end Scanipy.Integrations.Scm.GitObjects
