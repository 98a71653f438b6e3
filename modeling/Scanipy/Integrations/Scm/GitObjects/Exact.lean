import Mathlib.Algebra.BigOperators.Group.List.Basic
import Scanipy.Integrations.Scm.GitObjects.Expand

/-! The expansion of a commit is exact and unambiguous, does not depend on the order of the
objects, and ends for every set of objects.
-/

namespace Scanipy.Integrations.Scm.GitObjects

open Library Python

-- The index

variable {object : GitObject} {objects : List GitObject}

section Index

variable {sha1 sha256 : Bytes → Bytes} {limits : GitCaptureLimits}

/-- The checks of an object that do not look at the others. -/
def ObjectChecked (sha1 sha256 : Bytes → Bytes) (limits : GitCaptureLimits) (object : GitObject)
    : Prop :=
  IsOid object.oid
  ∧ object.kind.isKnown = true
  ∧ 0 ≤ object.size
  ∧ (object.preimageSha256.length = 32 ∧ object.payloadSha256.length = 32)
  ∧ checkPayload sha1 sha256 limits object = .ok ()

/-- The bytes that an object counts for. -/
def preimageSize (object : GitObject) : Int :=
  (objectHeader object.kind object.size).length + object.size

def treeSize (object : GitObject) : Int :=
  if object.kind = .tree then object.size else 0

/-- The state after an object that passes. -/
def indexed (state : IndexState) (object : GitObject) : IndexState where
  index := state.index ++ [(object.oid, object)]
  preimageBytes := state.preimageBytes + preimageSize object
  treeBytes := state.treeBytes + treeSize object

/-- The counted bytes keep to their limits. -/
def WithinTotals (limits : GitCaptureLimits) (preimageBytes treeBytes : Int) : Prop :=
  preimageBytes ≤ limits.objects.maxTotalPreimageBytes
  ∧ treeBytes ≤ limits.objects.maxTotalTreeBytes

theorem indexObject_ok {before after : IndexState}
    : indexObject sha1 sha256 limits before object = .ok after
      ↔ ObjectChecked sha1 sha256 limits object
        ∧ object.oid ∉ before.index.keys
        ∧ WithinTotals limits (indexed before object).preimageBytes
            (indexed before object).treeBytes
        ∧ after = indexed before object := by
  have total : before.preimageBytes + (objectHeader object.kind object.size).length + object.size
      = before.preimageBytes + preimageSize object := by
    rw [preimageSize, add_assoc]
  constructor
  · intro done
    obtain ⟨oid, named, done⟩ := bind_ok.mp done
    obtain ⟨valid, rfl⟩ := checkOid_ok.mp named
    simp only [check_ok, demand_ok] at done
    obtain ⟨⟨fresh, known⟩, size, digests, payload, totals, same⟩ := done
    rw [total] at totals
    refine ⟨⟨valid, known, size, digests, payload⟩, fresh, totals, ?_⟩
    rw [← Except.ok.inj same, Dict.set_of_not_mem fresh, total]
    rfl
  · rintro ⟨⟨valid, known, size, digests, payload⟩, fresh, totals, rfl⟩
    refine bind_ok.mpr ⟨object.oid, checkOid_ok.mpr ⟨valid, rfl⟩, ?_⟩
    simp only [check_ok, demand_ok]
    refine ⟨⟨fresh, known⟩, size, digests, payload, ?_, ?_⟩
    · rw [total]
      exact totals
    · rw [Dict.set_of_not_mem fresh, total]
      rfl

theorem treeSize_nonneg (checked : ObjectChecked sha1 sha256 limits object)
    : 0 ≤ treeSize object := by
  unfold treeSize
  split
  · exact checked.2.2.1
  · exact le_rfl

theorem preimageSize_nonneg (checked : ObjectChecked sha1 sha256 limits object)
    : 0 ≤ preimageSize object :=
  add_nonneg (Int.natCast_nonneg _) checked.2.2.1

/-- What the loop leaves, by list induction. -/
theorem foldl_indexed (objects : List GitObject) (before : IndexState)
    : (objects.foldl indexed before).index
        = before.index ++ objects.map (fun object => (object.oid, object))
      ∧ (objects.foldl indexed before).preimageBytes
        = before.preimageBytes + (objects.map preimageSize).sum
      ∧ (objects.foldl indexed before).treeBytes
        = before.treeBytes + (objects.map treeSize).sum := by
  induction objects generalizing before with
  | nil => simp
  | cons object rest ih =>
      obtain ⟨index, preimage, tree⟩ := ih (indexed before object)
      refine ⟨?_, ?_, ?_⟩
      · rw [List.foldl_cons, index]
        simp [indexed]
      · rw [List.foldl_cons, preimage]
        simp [indexed, add_assoc]
      · rw [List.foldl_cons, tree]
        simp [indexed, add_assoc]

/-- The totals only grow, by list induction. -/
theorem foldl_indexed_mono (checked : ∀ object ∈ objects, ObjectChecked sha1 sha256 limits object)
    (before : IndexState)
    : before.preimageBytes ≤ (objects.foldl indexed before).preimageBytes
      ∧ before.treeBytes ≤ (objects.foldl indexed before).treeBytes := by
  induction objects generalizing before with
  | nil => exact ⟨le_rfl, le_rfl⟩
  | cons object rest ih =>
      have step := checked object List.mem_cons_self
      obtain ⟨preimage, tree⟩ :=
        ih (fun other listed => checked other (List.mem_cons_of_mem _ listed)) (indexed before object)
      have preimageStep := preimageSize_nonneg step
      have treeStep := treeSize_nonneg step
      exact ⟨le_trans (le_add_of_nonneg_right preimageStep) preimage,
        le_trans (le_add_of_nonneg_right treeStep) tree⟩

/-- When the loop over the objects accepts, and what it leaves.
Witness: induction on the objects; the totals only grow, so they keep to the limits all the way
when they do at the end.
-/
theorem index_ok {objects : List GitObject} {before after : IndexState}
    (within : WithinTotals limits before.preimageBytes before.treeBytes)
    (distinct : before.index.keys.Nodup)
    : objects.foldlM (indexObject sha1 sha256 limits) before = .ok after
      ↔ (∀ object ∈ objects, ObjectChecked sha1 sha256 limits object)
        ∧ (before.index.keys ++ objects.map GitObject.oid).Nodup
        ∧ WithinTotals limits (objects.foldl indexed before).preimageBytes
            (objects.foldl indexed before).treeBytes
        ∧ after = objects.foldl indexed before := by
  induction objects generalizing before with
  | nil =>
      simp only [List.foldlM_nil, List.foldl_nil, List.map_nil, List.append_nil]
      constructor
      · intro same
        cases same
        exact ⟨fun _ absent => absurd absent List.not_mem_nil, distinct, within, rfl⟩
      · rintro ⟨_, _, _, rfl⟩
        rfl
  | cons object rest ih =>
      have keys : (indexed before object).index.keys = before.index.keys ++ [object.oid] := by
        simp [indexed, Dict.keys]
      have joins : before.index.keys ++ (object :: rest).map GitObject.oid
          = (indexed before object).index.keys ++ rest.map GitObject.oid := by
        rw [keys]
        simp
      rw [List.foldlM_cons, bind_ok, List.foldl_cons, joins]
      constructor
      · rintro ⟨middle, first, others⟩
        obtain ⟨checked, fresh, totals, rfl⟩ := indexObject_ok.mp first
        have nodup : (indexed before object).index.keys.Nodup := by
          rw [keys]
          exact distinct.append (List.nodup_singleton _) fun oid listed single =>
            fresh (List.mem_singleton.mp single ▸ listed)
        obtain ⟨each, all, final, same⟩ := (ih totals nodup).mp others
        exact ⟨List.forall_mem_cons.mpr ⟨checked, each⟩, all, final, same⟩
      · rintro ⟨each, all, final, same⟩
        obtain ⟨checked, each⟩ := List.forall_mem_cons.mp each
        obtain ⟨preimage, tree⟩ := foldl_indexed_mono each (indexed before object)
        have totals : WithinTotals limits (indexed before object).preimageBytes
            (indexed before object).treeBytes :=
          ⟨le_trans preimage final.1, le_trans tree final.2⟩
        have nodup := (List.nodup_append.mp all).1
        have fresh : object.oid ∉ before.index.keys := by
          rw [keys] at nodup
          exact fun listed => (List.nodup_append.mp nodup).2.2 _ listed _ (List.mem_singleton_self _) rfl
        exact ⟨indexed before object, indexObject_ok.mpr ⟨checked, fresh, totals, rfl⟩,
          (ih totals nodup).mpr ⟨each, all, final, same⟩⟩

end Index

/-- The components of a path are read off it. -/
theorem splitOn_joined {parts : List Text} (nonempty : parts ≠ [])
    (free : ∀ name ∈ parts, slash ∉ name)
    : (joined parts).splitOn slash = parts :=
  List.splitOn_intercalate slash free nonempty

variable {left right : List Text}

theorem joined_injective (leftNonempty : left ≠ []) (rightNonempty : right ≠ [])
    (leftFree : ∀ name ∈ left, slash ∉ name) (rightFree : ∀ name ∈ right, slash ∉ name)
    (same : joined left = joined right)
    : left = right := by
  rw [← splitOn_joined leftNonempty leftFree, same, splitOn_joined rightNonempty rightFree]

/-- A path that starts with another and a slash goes on from its components. -/
theorem prefix_of_joined (leftNonempty : left ≠ []) (rightNonempty : right ≠ [])
    (leftFree : ∀ name ∈ left, slash ∉ name) (rightFree : ∀ name ∈ right, slash ∉ name)
    (below : joined left ++ [slash] <+: joined right)
    : left <+: right ∧ left ≠ right := by
  obtain ⟨rest, same⟩ := below
  rw [List.append_assoc, List.singleton_append] at same
  have parts : left ++ rest.splitOn slash = right := by
    rw [← splitOn_joined rightNonempty rightFree, ← same, List.splitOn_append_cons_self,
      splitOn_joined leftNonempty leftFree]
  refine ⟨⟨_, parts⟩, fun equal => ?_⟩
  rw [equal] at parts
  exact List.splitOn_ne_nil slash rest (List.append_right_eq_self.mp parts)

/-- The index of the objects, as the walk reads it. -/
def lookupIn (objects : List GitObject) : Text → Option GitObject :=
  Dict.get? (objects.map fun object => (object.oid, object))

variable {oid : Text}

theorem lookupIn_eq_some (distinct : (objects.map GitObject.oid).Nodup)
    : lookupIn objects oid = some object ↔ object ∈ objects ∧ object.oid = oid := by
  have keys : Dict.keys (objects.map fun object => (object.oid, object))
      = objects.map GitObject.oid := by
    rw [Dict.keys, List.map_map]
    rfl
  constructor
  · intro found
    obtain ⟨other, listed, same⟩ := List.mem_map.mp (Dict.mem_of_get? found)
    obtain ⟨rfl, rfl⟩ := Prod.mk.inj same
    exact ⟨listed, rfl⟩
  · rintro ⟨listed, rfl⟩
    exact Dict.get?_of_mem (keys ▸ distinct) (List.mem_map_of_mem listed)

variable {others : List GitObject}

/-- The order of the objects does not matter. -/
theorem lookupIn_perm (perm : objects.Perm others) (distinct : (objects.map GitObject.oid).Nodup)
    : lookupIn objects = lookupIn others := by
  have otherDistinct := (perm.map GitObject.oid).nodup_iff.mp distinct
  funext oid
  refine Option.ext fun object => ?_
  rw [lookupIn_eq_some distinct, lookupIn_eq_some otherDistinct, perm.mem_iff]

section Ends

variable {lookup : Text → Option GitObject} {limits : GitCaptureLimits} {keys : List Text}

theorem openTree_ends (ancestors : List Text) (oid : Text)
    : Avoids .exhausted (openTree lookup limits ancestors oid) := by
  unfold openTree
  split
  · exact .error nofun
  · split
    · exact .error nofun
    · exact .bind (.demand nofun) fun _ _ => treeEntries_ends _ _

theorem present_ends (oid : Text) : Avoids .exhausted (present lookup oid) := by
  unfold present
  split
  · exact .ok _
  · exact .error nofun

variable {ancestors : List Text}

/-- Entering a tree leaves fewer trees to enter. -/
theorem remaining_lt (listed : oid ∈ keys) (outside : oid ∉ ancestors)
    : (keys.filter (· ∉ oid :: ancestors)).length < (keys.filter (· ∉ ancestors)).length := by
  have narrower : keys.filter (· ∉ oid :: ancestors)
      = (keys.filter (· ∉ ancestors)).filter (· ≠ oid) := by
    rw [List.filter_filter]
    refine List.filter_congr fun key _ => ?_
    simp
  rw [narrower, List.length_filter_lt_length_iff_exists]
  exact ⟨oid, List.mem_filter.mpr ⟨listed, decide_eq_true outside⟩, by simp⟩

/-- A walk ends within as many rounds as there are trees that are not its ancestors, and one.
Witness: induction on the rounds; a tree that is entered becomes an ancestor.
-/
theorem walk_ends (known : ∀ oid object, lookup oid = some object → oid ∈ keys) {rounds : Nat}
    (enough : (keys.filter (· ∉ ancestors)).length < rounds) (oid : Text) (parent : List Text)
    (state : WalkState)
    : Avoids .exhausted (walk lookup limits rounds oid parent ancestors state) := by
  induction rounds generalizing ancestors oid parent state with
  | zero => exact absurd enough (Nat.not_lt_zero _)
  | succ rounds ih =>
      refine .bind (openTree_ends ancestors oid) fun entries opened => ?_
      obtain ⟨outside, object, _, found, _⟩ := openTree_ok.mp opened
      have fewer := remaining_lt (known oid object found) outside
      refine .foldlM (fun entry _ state => ?_) _
      refine .bind (.demand nofun) fun _ _ => .bind (sourcePath_ends _ _) fun _ _ =>
        .bind (present_ends _) fun _ _ => ?_
      split
      · exact ih (by omega) _ _ _
      · exact .bind (.demand nofun) fun _ _ => .bind (.demand nofun) fun _ _ => .ok _

end Ends

-- The expansion

section Expansion

variable {sha1 sha256 : Bytes → Bytes} {limits : GitCaptureLimits}

theorem metadataObject_ends (oid : Text) (preimage : Bytes)
    : Avoids .exhausted (metadataObject sha1 sha256 oid preimage limits) := by
  have measured (oid : Text) (payload : Bytes) (size maximum : Nat)
      : Avoids .exhausted (metadataObject.measured sha1 sha256 preimage oid payload size maximum) :=
    .bind (.demand nofun) fun _ _ => .bind (.demand nofun) fun _ _ => .ok _
  refine .bind (checkOid_ends _) fun _ _ => .bind (.demand nofun) fun _ _ =>
    .bind (.demand nofun) fun _ _ => ?_
  split
  · exact measured _ _ _ _
  · exact measured _ _ _ _
  · exact .error nofun

theorem indexObject_ends (state : IndexState) (object : GitObject)
    : Avoids .exhausted (indexObject sha1 sha256 limits state object) := by
  have payload : Avoids .exhausted (checkPayload sha1 sha256 limits object) := by
    unfold checkPayload
    split
    · exact .demand nofun
    · exact .error nofun
    · exact .bind (.demand nofun) fun _ _ => .bind (metadataObject_ends _ _) fun _ _ =>
        .demand nofun
  exact .bind (checkOid_ends _) fun _ _ => .bind (.demand nofun) fun _ _ =>
    .bind (.demand nofun) fun _ _ => .bind (.demand nofun) fun _ _ => .bind payload fun _ _ =>
      .bind (.demand nofun) fun _ _ => .ok _

theorem rootOid_ends (lookup : Text → Option GitObject) (commitOid : Text)
    : Avoids .exhausted (rootOid limits lookup commitOid) := by
  unfold rootOid
  split
  · exact .error nofun
  · split
    · exact commitTree_ends _ _
    · exact .error nofun

/-- The checks of all objects, whatever their order. -/
structure ObjectsChecked (sha1 sha256 : Bytes → Bytes) (limits : GitCaptureLimits)
    (objects : List GitObject)
    : Prop where
  each : ∀ object ∈ objects, ObjectChecked sha1 sha256 limits object
  distinct : (objects.map GitObject.oid).Nodup
  totals : WithinTotals limits (objects.map preimageSize).sum (objects.map treeSize).sum

/-- When the loop over all objects accepts, and the index it leaves. -/
theorem index_of_objects {state : IndexState}
    : objects.foldlM (indexObject sha1 sha256 limits) {} = .ok state
      ↔ ObjectsChecked sha1 sha256 limits objects ∧ state = objects.foldl indexed {} := by
  obtain ⟨_, preimage, tree⟩ := foldl_indexed objects {}
  have none : WithinTotals limits 0 0 := ⟨Int.natCast_nonneg _, Int.natCast_nonneg _⟩
  have start : Dict.keys (IndexState.index {}) = [] := rfl
  rw [@index_ok _ _ _ objects {} state none List.nodup_nil, preimage, tree, start,
    List.nil_append, zero_add, zero_add]
  exact ⟨fun ⟨each, distinct, totals, same⟩ => ⟨⟨each, distinct, totals⟩, same⟩,
    fun ⟨⟨each, distinct, totals⟩, same⟩ => ⟨each, distinct, totals, same⟩⟩

theorem ObjectsChecked.perm (perm : objects.Perm others)
    (checked : ObjectsChecked sha1 sha256 limits objects)
    : ObjectsChecked sha1 sha256 limits others where
  each object listed := checked.each object (perm.mem_iff.mpr listed)
  distinct := (perm.map GitObject.oid).nodup_iff.mp checked.distinct
  totals := by
    have totals := checked.totals
    rwa [(perm.map preimageSize).sum_eq, (perm.map treeSize).sum_eq] at totals

/-- The expansion ends for every set of objects. -/
theorem expandObjects_ends (commitOid : Text) (objects : List GitObject)
    : Avoids .exhausted (expandObjects sha1 sha256 commitOid objects limits) := by
  refine .bind (checkOid_ends _) fun _ _ => .bind (.demand nofun) fun _ _ =>
    .bind (.foldlM (fun object _ state => indexObject_ends state object) _) fun state done =>
      .bind (rootOid_ends _ _) fun root _ => .bind ?_ fun _ _ => .bind (.demand nofun) fun _ _ =>
        .ok _
  obtain ⟨checked, rfl⟩ := index_of_objects.mp done
  rw [(foldl_indexed objects {}).1]
  have known (oid : Text) (object : GitObject) (found : lookupIn objects oid = some object)
      : oid ∈ objects.map GitObject.oid := by
    obtain ⟨listed, rfl⟩ := (lookupIn_eq_some checked.distinct).mp found
    exact List.mem_map_of_mem listed
  refine walk_ends known (lt_of_le_of_lt (List.length_filter_le _ _) ?_) _ _ _
  rw [List.length_map]
  exact Nat.lt_succ_self _

/-- The tree of a walk that has reached every object. -/
def treeOf (commitOid rootTreeOid : Text) (objects : List GitObject) (walked : WalkState)
    : GitTree where
  commitOid
  rootTreeOid
  objects := sortedBy GitObject.oid objects
  files := sortedBy GitFile.path walked.files
  directories := sortedBy GitDirectory.path walked.directories

variable {commitOid : Text} {tree : GitTree}

/-- When an expansion returns, and what. -/
theorem expandObjects_ok
    : expandObjects sha1 sha256 commitOid objects limits = .ok tree
      ↔ IsOid commitOid
        ∧ objects.length ≤ limits.objects.maxObjects
        ∧ ObjectsChecked sha1 sha256 limits objects
        ∧ ∃ rootTreeOid walked,
            rootOid limits (lookupIn objects) commitOid = .ok rootTreeOid
            ∧ walk (lookupIn objects) limits (objects.length + 1) rootTreeOid [] []
                { reached := [commitOid] } = .ok walked
            ∧ (∀ oid, oid ∈ walked.reached ↔ oid ∈ objects.map GitObject.oid)
            ∧ tree = treeOf commitOid rootTreeOid objects walked := by
  have keys : Dict.keys (objects.foldl indexed {}).index = objects.map GitObject.oid := by
    rw [(foldl_indexed objects {}).1]
    simp [Dict.keys, Function.comp_def]
  have lookups : Dict.get? (objects.foldl indexed {}).index = lookupIn objects := by
    rw [(foldl_indexed objects {}).1]
    rfl
  constructor
  · intro returned
    obtain ⟨oid, named, rest⟩ := bind_ok.mp returned
    obtain ⟨valid, rfl⟩ := checkOid_ok.mp named
    rw [check_ok, demand_ok] at rest
    obtain ⟨few, rest⟩ := rest
    obtain ⟨state, done, rest⟩ := bind_ok.mp rest
    obtain ⟨checked, rfl⟩ := index_of_objects.mp done
    obtain ⟨root, rooted, rest⟩ := bind_ok.mp rest
    obtain ⟨walked, followed, rest⟩ := bind_ok.mp rest
    rw [check_ok, demand_ok, keys] at rest
    obtain ⟨⟨known, all⟩, same⟩ := rest
    rw [lookups] at rooted followed
    exact ⟨valid, few, checked, root, walked, rooted, followed,
      fun oid => ⟨known oid, all oid⟩, (Except.ok.inj same).symm⟩
  · rintro ⟨valid, few, checked, root, walked, rooted, followed, reached, rfl⟩
    refine bind_ok.mpr ⟨_, checkOid_ok.mpr ⟨valid, rfl⟩, ?_⟩
    rw [check_ok, demand_ok]
    refine ⟨few, bind_ok.mpr ⟨_, index_of_objects.mpr ⟨checked, rfl⟩, ?_⟩⟩
    rw [lookups]
    refine bind_ok.mpr ⟨root, rooted, bind_ok.mpr ⟨walked, followed, ?_⟩⟩
    rw [check_ok, demand_ok, keys]
    exact ⟨⟨fun oid => (reached oid).mp, fun oid => (reached oid).mpr⟩, rfl⟩

/-- The order of the objects does not change the result. -/
theorem expandObjects_perm (perm : objects.Perm others)
    (returned : expandObjects sha1 sha256 commitOid objects limits = .ok tree)
    : expandObjects sha1 sha256 commitOid others limits = .ok tree := by
  obtain ⟨valid, few, checked, root, walked, rooted, followed, reached, rfl⟩ :=
    expandObjects_ok.mp returned
  have lookups := lookupIn_perm perm checked.distinct
  have ordered : sortedBy GitObject.oid objects = sortedBy GitObject.oid others :=
    sortedBy_eq_of_perm perm fun left leftListed right rightListed same =>
      List.inj_on_of_nodup_map checked.distinct leftListed rightListed same
  refine expandObjects_ok.mpr ⟨valid, perm.length_eq ▸ few, checked.perm perm, root, walked,
    lookups ▸ rooted, ?_, ?_, ?_⟩
  · rw [← lookups, ← perm.length_eq]
    exact followed
  · intro oid
    rw [reached, (perm.map GitObject.oid).mem_iff]
  · rw [treeOf, treeOf, ordered]

-- Exactness

/-- The paths of the files and of the directories. -/
def GitTree.paths (tree : GitTree) : List Text :=
  tree.files.map GitFile.path ++ tree.directories.map GitDirectory.path

/-- An expansion without aliases that leaves nothing out: `Follows` is following tree entries by
their names from the root tree.
-/
structure Exact (objects : List GitObject) (limits : GitCaptureLimits) (commitOid : Text)
    (tree : GitTree)
    : Prop where
  root : ∃ commit ∈ objects,
    commit.oid = commitOid
    ∧ commit.kind = .commit
    ∧ ∃ payload ∈ commit.payload, commitTree payload limits.objects = .ok tree.rootTreeOid
  files : ∀ path mode blobOid,
    (∃ file ∈ tree.files, file.path = path ∧ file.mode = mode ∧ file.blobOid = blobOid)
    ↔ ∃ parts entry,
        (listing (lookupIn objects) limits).Follows tree.rootTreeOid parts entry
        ∧ entry.mode ≠ .directory
        ∧ path = joined parts
        ∧ mode = entry.mode
        ∧ blobOid = entry.oid
  directories : ∀ path treeOid,
    (∃ directory ∈ tree.directories, directory.path = path ∧ directory.treeOid = treeOid)
    ↔ ∃ parts entry,
        (listing (lookupIn objects) limits).Follows tree.rootTreeOid parts entry
        ∧ entry.mode = .directory
        ∧ path = joined parts
        ∧ treeOid = entry.oid
  distinct : tree.paths.Nodup
  separate : ∀ file ∈ tree.files, ∀ path ∈ tree.paths, ¬file.path ++ [slash] <+: path
  components : ∀ path ∈ tree.paths, ∀ component ∈ path.splitOn slash, component ∉ reservedNames
  reached : ∀ object ∈ objects,
    object.oid = commitOid
    ∨ object.oid = tree.rootTreeOid
    ∨ ∃ parts entry,
        (listing (lookupIn objects) limits).Follows tree.rootTreeOid parts entry
        ∧ entry.oid = object.oid
  rootIsTree : IsTree (lookupIn objects) limits tree.rootTreeOid
  kinds : ∀ parts entry,
    (listing (lookupIn objects) limits).Follows tree.rootTreeOid parts entry
    → if entry.mode = .directory then IsTree (lookupIn objects) limits entry.oid
      else IsBlob (lookupIn objects) entry.oid

variable {lookup : Text → Option GitObject} {items : List (List Text × TreeEntry)} {path : Text}

theorem mem_files_iff (fine : ∀ item ∈ items, Fine lookup limits item) {mode : TreeMode}
    {blobOid : Text}
    : (∃ file ∈ items.filterMap (fileOf lookup),
        file.path = path ∧ file.mode = mode ∧ file.blobOid = blobOid)
      ↔ ∃ parts entry,
          (parts, entry) ∈ items
          ∧ entry.mode ≠ .directory
          ∧ path = joined parts
          ∧ mode = entry.mode
          ∧ blobOid = entry.oid := by
  constructor
  · rintro ⟨file, listed, rfl, rfl, rfl⟩
    obtain ⟨⟨parts, entry⟩, member, same⟩ := List.mem_filterMap.mp listed
    unfold fileOf at same
    split at same
    · cases same
    case isFalse plain =>
      obtain ⟨child, _, rfl⟩ := Option.map_eq_some_iff.mp same
      exact ⟨parts, entry, member, plain, rfl, rfl, rfl⟩
  · rintro ⟨parts, entry, member, plain, rfl, rfl, rfl⟩
    have kind := (fine _ member).2
    rw [if_neg plain] at kind
    obtain ⟨child, found, _⟩ := kind
    refine ⟨⟨joined parts, entry.mode, entry.oid, child.size, child.payloadSha256⟩,
      List.mem_filterMap.mpr ⟨_, member, ?_⟩, rfl, rfl, rfl⟩
    rw [fileOf, if_neg plain, found]
    rfl

theorem mem_directories_iff {treeOid : Text}
    : (∃ directory ∈ items.filterMap directoryOf,
        directory.path = path ∧ directory.treeOid = treeOid)
      ↔ ∃ parts entry,
          (parts, entry) ∈ items
          ∧ entry.mode = .directory
          ∧ path = joined parts
          ∧ treeOid = entry.oid := by
  constructor
  · rintro ⟨directory, listed, rfl, rfl⟩
    obtain ⟨⟨parts, entry⟩, member, same⟩ := List.mem_filterMap.mp listed
    unfold directoryOf at same
    split at same
    case isTrue inner =>
      cases same
      exact ⟨parts, entry, member, inner, rfl, rfl⟩
    case isFalse => cases same
  · rintro ⟨parts, entry, member, inner, rfl, rfl⟩
    exact ⟨_, List.mem_filterMap.mpr ⟨_, member, if_pos inner⟩, rfl, rfl⟩

/-- The paths of the files and of the directories are those of all entries, by list
induction.
-/
theorem paths_perm (fine : ∀ item ∈ items, Fine lookup limits item)
    : ((items.filterMap (fileOf lookup)).map GitFile.path
        ++ (items.filterMap directoryOf).map GitDirectory.path).Perm
      (items.map fun item => joined item.1) := by
  induction items with
  | nil => exact .refl _
  | cons item rest ih =>
      have later := ih fun other listed => fine other (List.mem_cons_of_mem _ listed)
      by_cases inner : item.2.mode = .directory
      · have file : fileOf lookup item = none := if_pos inner
        have directory : directoryOf item = some ⟨joined item.1, item.2.oid⟩ := if_pos inner
        rw [List.filterMap_cons_none file, List.filterMap_cons_some directory, List.map_cons,
          List.map_cons]
        exact List.perm_middle.trans (later.cons _)
      · have kind := (fine item List.mem_cons_self).2
        rw [if_neg inner] at kind
        obtain ⟨child, found, _⟩ := kind
        have file : fileOf lookup item
            = some ⟨joined item.1, item.2.mode, item.2.oid, child.size, child.payloadSha256⟩ := by
          rw [fileOf, if_neg inner, found]
          rfl
        have directory : directoryOf item = none := if_neg inner
        rw [List.filterMap_cons_some file, List.filterMap_cons_none directory, List.map_cons,
          List.map_cons, List.cons_append]
        exact later.cons _

theorem Fine.free {item : List Text × TreeEntry} (fine : Fine lookup limits item)
    : ∀ name ∈ item.1, slash ∉ name :=
  fun name listed => (fine.1.2 name listed).2.1

theorem rootOid_ok {rootTreeOid : Text}
    (rooted : rootOid limits lookup commitOid = .ok rootTreeOid)
    : ∃ commit,
        lookup commitOid = some commit
        ∧ commit.kind = .commit
        ∧ ∃ payload ∈ commit.payload, commitTree payload limits.objects = .ok rootTreeOid := by
  unfold rootOid at rooted
  split at rooted
  · cases rooted
  case h_2 commit found =>
    split at rooted
    case h_1 payload kind given => exact ⟨commit, found, kind, payload, given, rooted⟩
    case h_2 => cases rooted

/-- An expansion that returns is exact. -/
theorem exact_of_expandObjects
    (returned : expandObjects sha1 sha256 commitOid objects limits = .ok tree)
    : Exact objects limits commitOid tree := by
  obtain ⟨_, _, checked, rootTreeOid, walked, rooted, followed, reached, rfl⟩ :=
    expandObjects_ok.mp returned
  obtain ⟨isTree, closed, grows⟩ := walk_spec _ _ _ _ _ _ _ _ followed
  have distinct := listing_distinct (lookupIn objects) limits
  have follows {parts : List Text} {entry : TreeEntry} := @Listing.mem_expand_iff _ _ _
    (listing (lookupIn objects) limits) (objects.length + 1) rootTreeOid parts entry closed
  have nodup := distinct.nodup_expand (objects.length + 1) rootTreeOid []
  generalize itemsAre : (listing (lookupIn objects) limits).expand (objects.length + 1) rootTreeOid []
    = items at grows follows nodup
  obtain ⟨files, directories, reaches, fine⟩ := grows
  rw [List.nil_append] at files directories
  -- the paths that are listed are those of the items, in some order
  have paths : (treeOf commitOid rootTreeOid objects walked).paths.Perm
      (items.map fun item => joined item.1) := by
    have sortedFiles := (sortedBy_perm GitFile.path walked.files).map GitFile.path
    have sortedDirectories :=
      (sortedBy_perm GitDirectory.path walked.directories).map GitDirectory.path
    refine (sortedFiles.append sortedDirectories).trans ?_
    rw [files, directories]
    exact paths_perm fine
  have itemOf {path : Text} (listed : path ∈ (treeOf commitOid rootTreeOid objects walked).paths)
      : ∃ item ∈ items, joined item.1 = path :=
    List.mem_map.mp (paths.mem_iff.mp listed)
  refine ⟨?_, ?_, ?_, ?_, ?_, ?_, ?_, isTree, ?_⟩
  · obtain ⟨commit, found, kind, payload, given, read⟩ := rootOid_ok rooted
    obtain ⟨listed, named⟩ := (lookupIn_eq_some checked.distinct).mp found
    exact ⟨commit, listed, named, kind, payload, given, read⟩
  · intro path mode blobOid
    simp only [treeOf, mem_sortedBy, files, mem_files_iff fine, follows]
  · intro path treeOid
    simp only [treeOf, mem_sortedBy, directories, mem_directories_iff, follows]
  · rw [paths.nodup_iff]
    refine List.Nodup.map_on (fun left leftListed right rightListed same => ?_) nodup.of_map
    obtain ⟨⟨leftNonempty, _⟩, _⟩ := fine left leftListed
    obtain ⟨⟨rightNonempty, _⟩, _⟩ := fine right rightListed
    exact List.inj_on_of_nodup_map nodup leftListed rightListed
      (joined_injective leftNonempty rightNonempty (fine left leftListed).free
        (fine right rightListed).free same)
  · intro file listed path among below
    have collected : file ∈ items.filterMap (fileOf (lookupIn objects)) :=
      files ▸ mem_sortedBy.mp listed
    obtain ⟨parts, entry, member, plain, named, _, _⟩ :=
      (mem_files_iff fine).mp ⟨file, collected, rfl, rfl, rfl⟩
    obtain ⟨⟨others, other⟩, otherMember, rfl⟩ := itemOf among
    rw [named] at below
    obtain ⟨inside, proper⟩ := prefix_of_joined (fine _ member).1.1 (fine _ otherMember).1.1
      (fine _ member).free (fine _ otherMember).free below
    have leaf : (listing (lookupIn objects) limits).inner entry = none := if_neg plain
    exact proper (distinct.eq_of_prefix (follows.mp member) leaf (follows.mp otherMember) inside).1
  · intro path listed component among
    obtain ⟨item, member, rfl⟩ := itemOf listed
    obtain ⟨⟨nonempty, allowed⟩, _⟩ := fine item member
    rw [splitOn_joined nonempty (fine item member).free] at among
    exact (allowed component among).1
  · intro object listed
    have known := (reached object.oid).mpr (List.mem_map_of_mem listed)
    rcases (reaches object.oid).mp known with early | ⟨⟨parts, entry⟩, member, same⟩
    · simp only [PySet.mem_add, List.mem_singleton] at early
      rcases early with commit | root
      · exact .inl commit
      · exact .inr (.inl root)
    · exact .inr (.inr ⟨parts, entry, follows.mp member, same⟩)
  · intro parts entry met
    exact (fine _ (follows.mpr met)).2

/-- Expanding ends for every set of objects, and where it returns, the result is exact and the
same for every order of the objects.
-/
theorem expand_objects_exact (sha1 sha256 : Bytes → Bytes) (commitOid : Text)
    (objects : List GitObject) (limits : GitCaptureLimits)
    : expandObjects sha1 sha256 commitOid objects limits ≠ .error .exhausted
      ∧ ∀ tree,
          expandObjects sha1 sha256 commitOid objects limits = .ok tree
          → Exact objects limits commitOid tree
            ∧ ∀ others, objects.Perm others
                → expandObjects sha1 sha256 commitOid others limits = .ok tree :=
  ⟨expandObjects_ends commitOid objects, fun _ returned =>
    ⟨exact_of_expandObjects returned, fun _ perm => expandObjects_perm perm returned⟩⟩

/-- A commit with one file, `a`, that holds the line `hi`. -/
def sampleCommit : Bytes :=
  pyb "tree c49897f29f9819a0ab6850d7e22443508a1a29d5\n\n"

def sampleTree : Bytes :=
  pyb "100644 a" ++ [0] ++ toBytes 20 0x45b983be36b73c0788dc9cbcb76cbb80fc7bb057

def sampleSha1 (data : Bytes) : Bytes :=
  (tableHash
    [(objectHeader .commit 47 ++ sampleCommit, 0x06a4dd84cc613a95d6f0adaa87efde7b92a6f33f),
      (objectHeader .tree 29 ++ sampleTree, 0xc49897f29f9819a0ab6850d7e22443508a1a29d5)]
    data).drop 12

def sampleSha256 : Bytes → Bytes :=
  tableHash
    [(objectHeader .commit 47 ++ sampleCommit,
        0xd58be3576b68a86887bf76207a5e1c9c09f452752deb28a07b1efe41337ccfcd),
      (sampleCommit, 0xe2e1dcd764bb6a251e4b88e8e787c6a7f71d5fcbea5bee83170cac68d5b0af1f),
      (objectHeader .tree 29 ++ sampleTree,
        0xed5c05f8c46ff89e1ceb0f16692fc93c01c32907ed98fac51a7aae3e923c9027),
      (sampleTree, 0x00aa5a385ccd17e50a77f24944110970f106a5e8a9d0c7f0671d412912cdb39d)]

def sampleObjects : List GitObject :=
  [{ oid := py "06a4dd84cc613a95d6f0adaa87efde7b92a6f33f", kind := .commit, size := 47,
      preimageSha256 := sampleSha256 (objectHeader .commit 47 ++ sampleCommit),
      payloadSha256 := sampleSha256 sampleCommit, payload := some sampleCommit },
    { oid := py "c49897f29f9819a0ab6850d7e22443508a1a29d5", kind := .tree, size := 29,
      preimageSha256 := sampleSha256 (objectHeader .tree 29 ++ sampleTree),
      payloadSha256 := sampleSha256 sampleTree, payload := some sampleTree },
    { oid := py "45b983be36b73c0788dc9cbcb76cbb80fc7bb057", kind := .blob, size := 3,
      preimageSha256 := toBytes 32
        0x96c18f0297e38d01f4b2dacddea4259aea6b2961eb0822bd2c0c3f6029030045,
      payloadSha256 := toBytes 32
        0x98ea6e4f216f2fb4b69fff9b3a44842c38686ca685f3f55dc48c5d3fb1107be4,
      payload := none }]

theorem sample_returns
    : ((expandObjects sampleSha1 sampleSha256 (py "06a4dd84cc613a95d6f0adaa87efde7b92a6f33f")
        sampleObjects {}).toOption.map fun tree => tree.files.map GitFile.path)
      = some [py "a"] := by
  decide +kernel

theorem expand_objects_exact_sample
    : ∃ tree,
        expandObjects sampleSha1 sampleSha256 (py "06a4dd84cc613a95d6f0adaa87efde7b92a6f33f")
          sampleObjects {} = .ok tree
        ∧ tree.files.map GitFile.path = [py "a"]
        ∧ Exact sampleObjects {} (py "06a4dd84cc613a95d6f0adaa87efde7b92a6f33f") tree := by
  obtain ⟨tree, returned, files⟩ := Option.map_eq_some_iff.mp sample_returns
  have same : expandObjects sampleSha1 sampleSha256
      (py "06a4dd84cc613a95d6f0adaa87efde7b92a6f33f") sampleObjects {} = .ok tree := by
    cases result : expandObjects sampleSha1 sampleSha256
      (py "06a4dd84cc613a95d6f0adaa87efde7b92a6f33f") sampleObjects {} with
    | error raised =>
        rw [result] at returned
        cases returned
    | ok value =>
        rw [result] at returned
        cases returned
        rfl
  exact ⟨tree, same, files, ((expand_objects_exact sampleSha1 sampleSha256 _ sampleObjects {}).2
    tree same).1⟩

end Expansion

end Scanipy.Integrations.Scm.GitObjects
