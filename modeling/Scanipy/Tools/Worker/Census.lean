import Mathlib.Tactic.Ring
import Scanipy.Library.Outcome
import Scanipy.Python.Text

/-! The packed census: rows of 256 bytes, edited at computed offsets, that hold one file stamp and one
auxiliary string for each path. Whatever calls have succeeded, the rows are a finite map of the paths.
-/

namespace Scanipy.Tools.Worker.RuntimeEvidence

open Library Python

/-- `_FileStamp`. -/
structure FileStamp where
  device : Int
  inode : Int
  fullMode : Int
  uid : Int
  gid : Int
  nlink : Int
  size : Int
  mtimeNs : Int
  ctimeNs : Int
  deriving DecidableEq

/-- The arguments of `pack_into`. -/
def FileStamp.fields (stamp : FileStamp) : List Int :=
  [stamp.device, stamp.inode, stamp.fullMode, stamp.uid, stamp.gid, stamp.nlink, stamp.size,
    stamp.mtimeNs, stamp.ctimeNs]

/-- `_FileStamp(*fields)`; there are always nine. -/
def FileStamp.ofFields : List Int → FileStamp
  | [device, inode, fullMode, uid, gid, nlink, size, mtimeNs, ctimeNs] =>
      ⟨device, inode, fullMode, uid, gid, nlink, size, mtimeNs, ctimeNs⟩
  | _ => ⟨0, 0, 0, 0, 0, 0, 0, 0, 0⟩

/-- `_PACK`: the width of every field, and whether it is signed. -/
def formats : List (Nat × Bool) :=
  [(8, false), (8, false), (4, false), (4, false), (4, false), (8, false), (8, false), (8, true),
    (8, true)]

/-- The integers that `struct` packs into a field. -/
def Packs (format : Nat × Bool) (value : Int) : Prop :=
  if format.2 then -(256 ^ format.1) ≤ 2 * value ∧ 2 * value < 256 ^ format.1
  else 0 ≤ value ∧ value < 256 ^ format.1

instance (format : Nat × Bool) (value : Int) : Decidable (Packs format value) :=
  inferInstanceAs (Decidable (ite _ _ _))

/-- `int.from_bytes(data, "big")`. -/
def fromBytes (data : Bytes) : Nat :=
  data.foldl (fun value byte => value * 256 + byte.val) 0

def packField (format : Nat × Bool) (value : Int) : Bytes :=
  toBytes format.1 (value % 256 ^ format.1).toNat

def unpackField (format : Nat × Bool) (data : Bytes) : Int :=
  let value : Int := fromBytes data
  if format.2 ∧ 256 ^ format.1 ≤ 2 * value then value - 256 ^ format.1 else value

/-- The bytes of `_PACK.pack_into`. -/
def pack : List (Nat × Bool) → List Int → Bytes
  | format :: formats, value :: values => packField format value ++ pack formats values
  | _, _ => []

/-- `_PACK.unpack_from`. -/
def unpack : List (Nat × Bool) → Bytes → List Int
  | [], _ => []
  | format :: formats, data =>
      unpackField format (data.take format.1) :: unpack formats (data.drop format.1)

inductive CensusError where
  | limit
  | conflict
  | invalidInput
  | struct

/-- `_ROW`. -/
def rowSize : Nat := 256

/-- `_AUX`. -/
def auxAt : Nat := 190

/-- `_Census`, with what is left of the copies of its meter. -/
structure Census where
  data : Bytes := []
  copies : Nat

/-- `data[offset : offset + len(piece)] = piece`. -/
def splice (data : Bytes) (offset : Nat) (piece : Bytes) : Bytes :=
  data.take offset ++ piece ++ data.drop (offset + piece.length)

/-- `work.charge("copies", amount)`. -/
def Census.charge (census : Census) (amount : Nat) : Except CensusError Census := do
  demand (amount ≤ census.copies) .limit
  .ok { census with copies := census.copies - amount }

/-- The loop of `_offset` from an offset on. -/
def search (path : Bytes) : Nat → Bytes → Nat → Option Nat
  | 0, _, _ => none
  | fuel + 1, rest, offset =>
      if rest = [] then none
      else if fromBytes (rest.take 2) = path.length ∧ (rest.drop 2).take path.length = path then
        some offset
      else search path fuel (rest.drop rowSize) (offset + rowSize)

/-- `_offset`; a path is given by its ASCII bytes. -/
def Census.offset (census : Census) (path : Bytes)
    : Except CensusError (Option Nat × Census) := do
  let census ← census.charge path.length
  demand (path.length ≤ 128) .limit
  .ok (search path census.data.length census.data 0, census)

/-- The offset to write at, behind the rows where the search found none. -/
def Census.slot (census : Census) : Option Nat → Except CensusError (Nat × Bytes)
  | some offset => .ok (offset, census.data)
  | none => do
      demand (census.data.length / rowSize < 16384) .limit
      .ok (census.data.length, census.data ++ List.replicate rowSize 0)

/-- The size, the path and the stamp of a row are written. -/
def writeRow (data : Bytes) (offset : Nat) (path : Bytes) (stamp : FileStamp) : Bytes :=
  splice (splice (splice data offset (toBytes 2 path.length)) (offset + 2) path) (offset + 130)
    (pack formats stamp.fields)

/-- `put`. -/
def Census.put (census : Census) (path : Bytes) (stamp : FileStamp) (aux : Option Bytes)
    : Except CensusError Census := do
  let census ← census.charge 512
  demand (0 < path.length ∧ path.length ≤ 128) .limit
  let (found, census) ← census.offset path
  let (offset, data) ← census.slot found
  demand (∀ field ∈ formats.zip stamp.fields, Packs field.1 field.2) .struct
  let written := writeRow data offset path stamp
  match aux with
  | none => .ok { census with data := written }
  | some aux => do
      demand (aux.length = 65) .invalidInput
      .ok { census with data := splice written (offset + auxAt) aux }

/-- The stamp and the auxiliary string of the row at an offset. -/
def readRow (data : Bytes) (offset : Nat) : FileStamp × Bytes :=
  (.ofFields (unpack formats (data.drop (offset + 130))), (data.drop (offset + auxAt)).take 65)

/-- `get`. -/
def Census.get (census : Census) (path : Bytes)
    : Except CensusError ((FileStamp × Bytes) × Census) := do
  let census ← census.charge 130
  let (found, census) ← census.offset path
  match found with
  | none => .error .conflict
  | some offset => .ok (readRow census.data offset, census)

/-- `remove`. -/
def Census.remove (census : Census) (path : Bytes) : Except CensusError Census := do
  let census ← census.charge 512
  let (found, census) ← census.offset path
  match found with
  | none => .error .conflict
  | some offset =>
      let moved := splice census.data offset (census.data.drop (census.data.length - rowSize))
      .ok { census with data := moved.take (moved.length - rowSize) }

/-- The loop of `rows` from an offset on. -/
def rowsFrom (start : Bytes)
    : Nat → Bytes → Census → Except CensusError (List (Bytes × FileStamp × Bytes) × Census)
  | 0, _, census => .ok ([], census)
  | fuel + 1, rest, census =>
      if rest = [] then .ok ([], census)
      else
        let size := fromBytes (rest.take 2)
        if start.length ≤ size ∧ (rest.drop 2).take start.length = start then do
          let census ← census.charge (2 * size + 130)
          let (others, census) ← rowsFrom start fuel (rest.drop rowSize) census
          .ok (((rest.drop 2).take size, readRow rest 0) :: others, census)
        else rowsFrom start fuel (rest.drop rowSize) census

/-- `rows`, with all that it yields. -/
def Census.rows (census : Census) (start : Bytes)
    : Except CensusError (List (Bytes × FileStamp × Bytes) × Census) := do
  let census ← census.charge start.length
  rowsFrom start census.data.length census.data census

-- Packed fields read back.

theorem foldl_toBytes (width value start : Nat)
    : (toBytes width value).foldl (fun value byte => value * 256 + byte.val) start
      = start * 256 ^ width + value % 256 ^ width := by
  induction width generalizing start with
  | zero => simp [toBytes, Nat.mod_one]
  | succ width ih =>
      rw [toBytes, List.foldl_cons, ih, pow_succ, Nat.mod_mul, Fin.val_ofNat]
      ring

theorem fromBytes_toBytes {width value : Nat} (small : value < 256 ^ width)
    : fromBytes (toBytes width value) = value := by
  rw [fromBytes, foldl_toBytes, Nat.mod_eq_of_lt small, Nat.zero_mul, Nat.zero_add]

theorem unpackField_packField {format : Nat × Bool} {value : Int} (packs : Packs format value)
    : unpackField format (packField format value) = value := by
  obtain ⟨width, signed⟩ := format
  have positive : (0 : Int) < 256 ^ width := by positivity
  have below := Int.emod_lt_of_pos value positive
  have above := Int.emod_nonneg value positive.ne'
  have small : (value % 256 ^ width).toNat < 256 ^ width :=
    (Int.toNat_lt above).mpr (by exact_mod_cast below)
  simp only [unpackField, packField, fromBytes_toBytes small, Int.toNat_of_nonneg above]
  cases signed with
  | false =>
      simp only [Packs] at packs
      simp [Int.emod_eq_of_lt packs.1 packs.2]
  | true =>
      simp only [Packs, if_true] at packs
      rcases Int.le_total 0 value with nonneg | negative
      · rw [Int.emod_eq_of_lt nonneg (by omega), if_neg (by omega)]
      · rcases negative.eq_or_lt with rfl | negative
        · simp
        · have wrapped : value % 256 ^ width = value + 256 ^ width := by
            rw [← Int.add_emod_right, Int.emod_eq_of_lt (by omega) (by omega)]
          rw [wrapped, if_pos ⟨rfl, by omega⟩, Int.add_sub_cancel]

variable {values : List Int}

theorem length_pack {formats : List (Nat × Bool)} (same : formats.length = values.length)
    : (pack formats values).length = (formats.map Prod.fst).sum := by
  induction formats generalizing values with
  | nil => rfl
  | cons format formats ih =>
      cases values with
      | nil => cases same
      | cons value values =>
          rw [pack, List.length_append, ih (Nat.succ.inj same), packField, length_toBytes]
          rfl

/-- Packed fields read back, by list induction. -/
theorem unpack_pack {formats : List (Nat × Bool)} (same : formats.length = values.length)
    (packs : ∀ field ∈ formats.zip values, Packs field.1 field.2) (rest : Bytes)
    : unpack formats (pack formats values ++ rest) = values := by
  induction formats generalizing values with
  | nil => exact (List.length_eq_zero_iff.mp same.symm).symm
  | cons format formats ih =>
      cases values with
      | nil => cases same
      | cons value values =>
          obtain ⟨first, others⟩ := List.forall_mem_cons.mp packs
          have width : (packField format value).length = format.1 := length_toBytes _ _
          rw [pack, List.append_assoc, unpack, List.take_left' width, List.drop_left' width,
            unpackField_packField first, ih (Nat.succ.inj same) others]

-- One row.

/-- A stored path with its stamp and its auxiliary string. -/
structure Row where
  path : Bytes
  stamp : FileStamp
  aux : Bytes

/-- A row that the layout can hold. -/
structure Row.Valid (row : Row) : Prop where
  named : 0 < row.path.length
  short : row.path.length ≤ 128
  packs : ∀ field ∈ formats.zip row.stamp.fields, Packs field.1 field.2
  aux : row.aux.length = 65

/-- The parts of a row: the size, the path and its padding, the stamp and the auxiliary string. -/
def layout (size path padding packed aux : Bytes) : Bytes :=
  size ++ (path ++ (padding ++ (packed ++ (aux ++ [0]))))

/-- The 256 bytes of a row. -/
def Row.encode (row : Row) : Bytes :=
  layout (toBytes 2 row.path.length) row.path (List.replicate (128 - row.path.length) 0)
    (pack formats row.stamp.fields) row.aux

theorem length_stamp (stamp : FileStamp) : (pack formats stamp.fields).length = 60 :=
  length_pack rfl

variable {row : Row}

theorem Row.Valid.length (valid : row.Valid) : row.encode.length = rowSize := by
  have short := valid.short
  simp only [Row.encode, layout, List.length_append, length_toBytes, List.length_replicate, length_stamp,
    valid.aux, List.length_singleton, rowSize]
  omega

theorem Row.Valid.ne_nil (valid : row.Valid) (rest : Bytes)
    : row.encode ++ rest ≠ [] := by
  intro empty
  have size := valid.length
  rw [(List.append_eq_nil_iff.mp empty).1] at size
  cases size

/-- What the search reads of a row. -/
theorem Row.Valid.read_name (valid : row.Valid) (rest : Bytes)
    : fromBytes ((row.encode ++ rest).take 2) = row.path.length
      ∧ ∃ padding, (row.encode ++ rest).drop 2 = row.path ++ padding := by
  have width : (toBytes 2 row.path.length).length = 2 := length_toBytes _ _
  have short := valid.short
  rw [Row.encode, layout, List.append_assoc, List.take_left' width, List.drop_left' width,
    fromBytes_toBytes (by omega), List.append_assoc]
  exact ⟨rfl, _, rfl⟩

theorem Row.Valid.named_iff (valid : row.Valid) (path rest : Bytes)
    : fromBytes ((row.encode ++ rest).take 2) = path.length
          ∧ ((row.encode ++ rest).drop 2).take path.length = path
      ↔ row.path = path := by
  obtain ⟨size, padding, text⟩ := valid.read_name rest
  rw [size, text]
  constructor
  · rintro ⟨same, read⟩
    rwa [List.take_left' same] at read
  · rintro rfl
    exact ⟨rfl, List.take_left' rfl⟩

/-- What is read of a row is what it holds. -/
theorem Row.Valid.read (valid : row.Valid) (before rest : Bytes)
    : readRow (before ++ (row.encode ++ rest)) before.length = (row.stamp, row.aux) := by
  have short := valid.short
  have parts : row.encode ++ rest
      = toBytes 2 row.path.length ++ row.path ++ List.replicate (128 - row.path.length) 0
        ++ (pack formats row.stamp.fields ++ (row.aux ++ ([0] ++ rest))) := by
    simp only [Row.encode, layout, List.append_assoc]
  have fields : (before ++ (row.encode ++ rest)).drop (before.length + 130)
      = pack formats row.stamp.fields ++ (row.aux ++ ([0] ++ rest)) := by
    rw [List.drop_length_add_append, parts]
    refine List.drop_left' ?_
    simp only [List.length_append, length_toBytes, List.length_replicate]
    omega
  have auxiliary : (before ++ (row.encode ++ rest)).drop (before.length + auxAt)
      = row.aux ++ ([0] ++ rest) := by
    rw [show auxAt = 130 + 60 from rfl, ← Nat.add_assoc, ← List.drop_drop, fields]
    exact List.drop_left' (length_stamp row.stamp)
  rw [readRow, fields, auxiliary, unpack_pack rfl valid.packs, List.take_left' valid.aux]
  rfl

variable {before after : Bytes}

theorem splice_append {old piece : Bytes} (same : piece.length = old.length)
    : splice (before ++ (old ++ after)) before.length piece = before ++ (piece ++ after) := by
  rw [splice, List.take_left, List.drop_length_add_append, List.drop_left' same.symm,
    List.append_assoc]

variable {path : Bytes} {size padding packed aux : Bytes} {stamp : FileStamp}

/-- The pieces that `put` writes replace those parts of a row. -/
theorem writeRow_layout {name : Bytes} (sized : size.length = 2) (named : path.length = name.length)
    (padded : name.length + padding.length = 128) (stamped : packed.length = 60)
    : writeRow (before ++ (layout size name padding packed aux ++ after)) before.length path stamp
      = before ++ (layout (toBytes 2 path.length) path padding (pack formats stamp.fields) aux
        ++ after) := by
  have width : (toBytes 2 path.length).length = 2 := length_toBytes _ _
  have second : before.length + 2 = (before ++ toBytes 2 path.length).length := by
    rw [List.length_append, width]
  have third : before.length + 130
      = (before ++ toBytes 2 path.length ++ path ++ padding).length := by
    simp only [List.length_append]
    omega
  simp only [writeRow, layout, List.append_assoc]
  rw [splice_append (width.trans sized.symm), ← List.append_assoc before, second,
    splice_append named, ← List.append_assoc, ← List.append_assoc, third,
    splice_append ((length_stamp stamp).trans stamped.symm)]
  simp only [List.append_assoc]

theorem splice_aux {newAux : Bytes} (sized : size.length = 2)
    (padded : path.length + padding.length = 128) (stamped : packed.length = 60)
    (same : newAux.length = aux.length)
    : splice (before ++ (layout size path padding packed aux ++ after)) (before.length + auxAt) newAux
      = before ++ (layout size path padding packed newAux ++ after) := by
  have start : before.length + auxAt = (before ++ size ++ path ++ padding ++ packed).length := by
    simp only [List.length_append, auxAt]
    omega
  simp only [layout, List.append_assoc]
  rw [← List.append_assoc before, ← List.append_assoc (before ++ size),
    ← List.append_assoc (before ++ size ++ path),
    ← List.append_assoc (before ++ size ++ path ++ padding), start, splice_append same]
  simp only [List.append_assoc]

-- All rows.

/-- The data of a list of rows with distinct paths. -/
structure Holds (data : Bytes) (rows : List Row) : Prop where
  data : data = rows.flatMap Row.encode
  valid : ∀ row ∈ rows, row.Valid
  distinct : (rows.map Row.path).Nodup

variable {rows : List Row}

theorem length_rows (valid : ∀ row ∈ rows, row.Valid)
    : (rows.flatMap Row.encode).length = rowSize * rows.length := by
  induction rows with
  | nil => rfl
  | cons row rows ih =>
      obtain ⟨first, others⟩ := List.forall_mem_cons.mp valid
      rw [List.flatMap_cons, List.length_append, first.length, ih others, List.length_cons,
        Nat.mul_succ, Nat.add_comm]

variable {fuel : Nat}

/-- The search finds the row of a path, or none; by list induction. -/
theorem search_eq (valid : ∀ row ∈ rows, row.Valid) (path : Bytes) (enough : rows.length ≤ fuel)
    (offset : Nat)
    : (path ∉ rows.map Row.path ∧ search path fuel (rows.flatMap Row.encode) offset = none)
      ∨ ∃ before, ∃ row : Row, ∃ after, rows = before ++ row :: after ∧ row.path = path
        ∧ search path fuel (rows.flatMap Row.encode) offset
          = some (offset + (before.flatMap Row.encode).length) := by
  induction rows generalizing fuel offset with
  | nil => exact .inl ⟨List.not_mem_nil, by cases fuel <;> rfl⟩
  | cons row rows ih =>
      obtain ⟨first, others⟩ := List.forall_mem_cons.mp valid
      cases fuel with
      | zero => exact absurd enough (Nat.not_succ_le_zero _)
      | succ fuel =>
          have read := first.named_iff path (rows.flatMap Row.encode)
          rw [List.flatMap_cons, search, if_neg (first.ne_nil _)]
          by_cases named : row.path = path
          · rw [if_pos (read.mpr named)]
            exact .inr ⟨[], row, rows, rfl, named, rfl⟩
          · rw [if_neg (mt read.mp named), List.drop_left' first.length]
            rcases ih others (Nat.le_of_succ_le_succ enough) (offset + rowSize) with
              ⟨absent, missed⟩ | ⟨before, found, after, rfl, same, hit⟩
            · refine .inl ⟨fun listed => ?_, missed⟩
              rcases List.mem_cons.mp listed with same | listed
              · exact named same.symm
              · exact absent listed
            · refine .inr ⟨row :: before, found, after, rfl, same, ?_⟩
              rw [hit, List.flatMap_cons, List.length_append, first.length, Nat.add_assoc]

/-- What the paths stand for: a stamp and an auxiliary string each. -/
abbrev Store : Type :=
  Bytes → Option (FileStamp × Bytes)

/-- The rows hold the entries of the store. -/
def Represents (data : Bytes) (store : Store) : Prop :=
  ∃ rows, Holds data rows
    ∧ ∀ path stamp aux, store path = some (stamp, aux) ↔ ⟨path, stamp, aux⟩ ∈ rows

def noAux : Bytes :=
  List.replicate 65 0

/-- The stamp is replaced, and the auxiliary string where one is given. -/
def Store.put (store : Store) (path : Bytes) (stamp : FileStamp) (aux : Option Bytes) : Store :=
  Function.update store path (some (stamp, aux.getD ((store path).elim noAux Prod.snd)))

def Store.remove (store : Store) (path : Bytes) : Store :=
  Function.update store path none

/-- A call that changes the census. -/
inductive Call where
  | put (path : Bytes) (stamp : FileStamp) (aux : Option Bytes)
  | remove (path : Bytes)

def Census.call (census : Census) : Call → Except CensusError Census
  | .put path stamp aux => census.put path stamp aux
  | .remove path => census.remove path

def Store.call (store : Store) : Call → Store
  | .put path stamp aux => store.put path stamp aux
  | .remove path => store.remove path

variable {census : Census}

theorem charge_ok {after : Census} {amount : Nat} (charged : census.charge amount = .ok after)
    : after.data = census.data := by
  obtain ⟨_, done⟩ := check_ok.mp charged
  cases done
  rfl

theorem offset_ok {after : Census} {found : Option Nat}
    (searched : census.offset path = .ok (found, after))
    : path.length ≤ 128 ∧ after.data = census.data
      ∧ found = search path census.data.length census.data 0 := by
  obtain ⟨charged, paid, searched⟩ := bind_ok.mp searched
  obtain ⟨short, done⟩ := check_ok.mp searched
  cases done
  rw [charge_ok paid]
  exact ⟨demand_ok.mp short, rfl, rfl⟩

variable {data : Bytes}

/-- The search of the rows of a census: the path has no row, or the offset is that of its row. -/
theorem Holds.searched (holds : Holds data rows) (path : Bytes)
    : (path ∉ rows.map Row.path ∧ search path data.length data 0 = none)
      ∨ ∃ before, ∃ row : Row, ∃ after, rows = before ++ row :: after ∧ row.path = path
        ∧ search path data.length data 0 = some (before.flatMap Row.encode).length := by
  have enough : rows.length ≤ data.length := by
    rw [holds.data, length_rows holds.valid, rowSize]
    omega
  have found := search_eq holds.valid path enough 0
  rw [← holds.data] at found
  simpa only [Nat.zero_add] using found

/-- The row of the path, if there is one, and the other rows. -/
structure Placed (rows : List Row) (path : Bytes) (old : Option Row) (others : List Row)
    : Prop where
  perm : rows.Perm (old.toList ++ others)
  own : ∀ row ∈ old, row.path = path
  apart : ∀ row ∈ others, row.path ≠ path

namespace Placed

variable {rows others changed before after : List Row} {path : Bytes} {old new : Option Row}
  {row : Row} {store : Store}

theorem absent (absent : path ∉ rows.map Row.path) : Placed rows path none rows :=
  ⟨.refl _, by simp, fun _ listed same => absent (same ▸ List.mem_map_of_mem listed)⟩

theorem found (distinct : ((before ++ row :: after).map Row.path).Nodup)
    : Placed (before ++ row :: after) row.path (some row) (before ++ after) := by
  have apart := (List.perm_middle.map Row.path).nodup_iff.mp distinct
  rw [List.map_cons, List.nodup_cons] at apart
  refine ⟨List.perm_middle, ?_, fun other listed same => apart.1 ?_⟩
  · intro own same
    cases same
    rfl
  · exact same ▸ List.mem_map_of_mem listed

theorem mem_iff_of_ne (placed : Placed rows path old others) (other : row.path ≠ path)
    : row ∈ rows ↔ row ∈ others := by
  rw [placed.perm.mem_iff, List.mem_append, Option.mem_toList]
  exact or_iff_right fun listed => other (placed.own row listed)

theorem entry_iff (placed : Placed rows path old others)
    : old.map (fun row => (row.stamp, row.aux)) = some (stamp, aux) ↔ ⟨path, stamp, aux⟩ ∈ rows := by
  rw [placed.perm.mem_iff, List.mem_append, Option.mem_toList,
    or_iff_left fun listed => placed.apart _ listed rfl, Option.map_eq_some_iff]
  constructor
  · rintro ⟨⟨named, held, kept⟩, own, fields⟩
    cases fields
    cases placed.own _ own
    exact own
  · exact fun own => ⟨_, own, rfl⟩

/-- The row of the path is replaced, or removed, and the others are as before. -/
theorem represents (placed : Placed rows path old others) (distinct : (rows.map Row.path).Nodup)
    (entries : ∀ path stamp aux, store path = some (stamp, aux) ↔ ⟨path, stamp, aux⟩ ∈ rows)
    (now : Placed changed path new others) (valid : ∀ row ∈ changed, row.Valid)
    : Represents (changed.flatMap Row.encode)
        (Function.update store path (new.map fun row => (row.stamp, row.aux))) := by
  refine ⟨changed, ⟨rfl, valid, ?_⟩, fun wanted stamp aux => ?_⟩
  · have both := (placed.perm.map Row.path).nodup_iff.mp distinct
    rw [List.map_append] at both
    have kept := (List.nodup_append.mp both).2.1
    rw [(now.perm.map Row.path).nodup_iff, List.map_append]
    cases new with
    | none => exact kept
    | some row =>
        refine List.nodup_cons.mpr ⟨fun listed => ?_, kept⟩
        obtain ⟨other, among, same⟩ := List.mem_map.mp listed
        exact now.apart other among (same.trans (now.own row rfl))
  · by_cases same : wanted = path
    · subst same
      rw [Function.update_self]
      exact now.entry_iff
    · rw [Function.update_of_ne same, entries, placed.mem_iff_of_ne same, now.mem_iff_of_ne same]

end Placed

/-- A slot is the row of the path, or a row of zeros behind the others. -/
theorem Holds.slot (holds : Holds census.data rows) (short : path.length ≤ 128) {offset : Nat}
    (placed : census.slot (search path census.data.length census.data 0) = .ok (offset, data))
    : ∃ before after old, Placed rows path old (before ++ after)
      ∧ offset = (before.flatMap Row.encode).length
      ∧ ∀ stamp, writeRow data offset path stamp
        = (before ++ ⟨path, stamp, old.elim noAux Row.aux⟩ :: after).flatMap Row.encode := by
  rcases holds.searched path with ⟨absent, missed⟩ | ⟨before, row, after, rfl, rfl, found⟩
  · rw [missed] at placed
    obtain ⟨_, done⟩ := check_ok.mp placed
    cases done
    refine ⟨rows, [], none, ?_, by rw [← holds.data], fun stamp => ?_⟩
    · rw [List.append_nil]
      exact .absent absent
    have blank : List.replicate rowSize 0
        = layout (List.replicate 2 0) (List.replicate path.length 0)
            (List.replicate (128 - path.length) 0) (List.replicate 60 0) noAux ++ [] := by
      have last : [(0 : Byte)] = List.replicate 1 0 := rfl
      simp only [layout, noAux, last, List.append_nil, List.replicate_append_replicate]
      congr 1
      rw [rowSize]
      omega
    rw [blank, writeRow_layout List.length_replicate (by rw [List.length_replicate])
      (by simp only [List.length_replicate]; omega) List.length_replicate, holds.data,
      List.flatMap_append, List.flatMap_cons, List.flatMap_nil]
    rfl
  · rw [found] at placed
    cases placed
    refine ⟨before, after, some row, .found holds.distinct, rfl, fun stamp => ?_⟩
    rw [holds.data, List.flatMap_append, List.flatMap_cons, Row.encode,
      writeRow_layout (length_toBytes _ _) rfl (by simp only [List.length_replicate]; omega)
        (length_stamp _), List.flatMap_append, List.flatMap_cons]
    rfl

variable {result : Census} {store : Store}

theorem represents_put {aux : Option Bytes} (represents : Represents census.data store)
    (done : census.put path stamp aux = .ok result)
    : Represents result.data (store.put path stamp aux) := by
  obtain ⟨rows, holds, entries⟩ := represents
  obtain ⟨charged, paid, done⟩ := bind_ok.mp done
  obtain ⟨sized, done⟩ := check_ok.mp done
  obtain ⟨⟨found, now⟩, searched, done⟩ := bind_ok.mp done
  obtain ⟨⟨offset, data⟩, placed, done⟩ := bind_ok.mp done
  obtain ⟨packs, done⟩ := check_ok.mp done
  obtain ⟨short, same, rfl⟩ := offset_ok searched
  dsimp only at placed done
  rw [← charge_ok paid, ← same] at holds
  rw [← same] at placed
  obtain ⟨before, after, old, around, rfl, written⟩ := holds.slot short placed
  have kept : (store path).elim noAux Prod.snd = old.elim noAux Row.aux := by
    have stored : store path = old.map fun row => (row.stamp, row.aux) :=
      Option.ext fun entry => (entries _ _ _).trans around.entry_iff.symm
    rw [stored]
    cases old <;> rfl
  have oldAux : (old.elim noAux Row.aux).length = 65 := by
    cases old with
    | none => exact List.length_replicate
    | some row => exact (holds.valid row (around.perm.mem_iff.mpr List.mem_cons_self)).aux
  have ends (new : Bytes) (length : new.length = 65)
      : Represents ((before ++ ⟨path, stamp, new⟩ :: after).flatMap Row.encode)
          (Function.update store path (some (stamp, new))) := by
    have now : Placed (before ++ ⟨path, stamp, new⟩ :: after) path (some ⟨path, stamp, new⟩)
        (before ++ after) := ⟨List.perm_middle, by simp, around.apart⟩
    refine around.represents holds.distinct entries now fun row listed => ?_
    rcases List.mem_cons.mp (List.perm_middle.mem_iff.mp listed) with rfl | other
    · exact ⟨(demand_ok.mp sized).1, short, demand_ok.mp packs, length⟩
    · exact holds.valid row (around.perm.mem_iff.mpr (List.mem_append_right _ other))
  unfold Store.put
  rw [kept]
  cases aux with
  | none =>
      cases done
      dsimp only
      rw [written]
      exact ends _ oldAux
  | some aux =>
      obtain ⟨length, done⟩ := check_ok.mp done
      cases done
      have length := demand_ok.mp length
      have padded : path.length + (List.replicate (128 - path.length) (0 : Byte)).length = 128 := by
        rw [List.length_replicate]
        omega
      dsimp only
      rw [written, List.flatMap_append, List.flatMap_cons, Row.encode,
        splice_aux (length_toBytes _ _) padded (length_stamp stamp) (length.trans oldAux.symm)]
      have done := ends aux length
      rwa [List.flatMap_append, List.flatMap_cons] at done

/-- The last 256 bytes, and what is before them. -/
theorem split_last {last : Bytes} (length : last.length = rowSize)
    : (before ++ last).drop ((before ++ last).length - rowSize) = last
      ∧ (before ++ last).take ((before ++ last).length - rowSize) = before := by
  rw [List.length_append, length, Nat.add_sub_cancel]
  exact ⟨List.drop_left, List.take_left⟩

theorem represents_remove (represents : Represents census.data store)
    (done : census.remove path = .ok result)
    : Represents result.data (store.remove path) := by
  obtain ⟨rows, holds, entries⟩ := represents
  obtain ⟨charged, paid, done⟩ := bind_ok.mp done
  obtain ⟨⟨found, now⟩, searched, done⟩ := bind_ok.mp done
  obtain ⟨_, same, rfl⟩ := offset_ok searched
  rw [← charge_ok paid, ← same] at holds
  rw [← same] at done
  rcases holds.searched path with ⟨absent, missed⟩ | ⟨before, row, after, rfl, rfl, found⟩
  · rw [missed] at done
    cases done
  · rw [found] at done
    obtain rfl := Except.ok.inj done
    have around := Placed.found holds.distinct
    have valid := holds.valid
    have removed (changed : List Row) (perm : changed.Perm (before ++ after)) {data : Bytes}
        (written : data = changed.flatMap Row.encode)
        : Represents data (store.remove row.path) := by
      subst written
      have now : Placed changed row.path none (before ++ after) := ⟨perm, by simp, around.apart⟩
      refine around.represents holds.distinct entries now fun other listed => ?_
      exact valid other (around.perm.mem_iff.mpr (List.mem_append_right _ (perm.mem_iff.mp listed)))
    have width := (valid row (List.mem_append_right _ List.mem_cons_self)).length
    have split : now.data
        = before.flatMap Row.encode ++ (row.encode ++ after.flatMap Row.encode) := by
      rw [holds.data, List.flatMap_append, List.flatMap_cons]
    dsimp only
    rw [split]
    -- The last row moves into the gap, which may be the last row itself.
    rcases List.eq_nil_or_concat after with rfl | ⟨mid, last, rfl⟩
    · refine removed before (by rw [List.append_nil]) ?_
      have whole : splice (before.flatMap Row.encode ++ (row.encode ++ []))
          (before.flatMap Row.encode).length row.encode
          = before.flatMap Row.encode ++ (row.encode ++ []) := splice_append rfl
      rw [List.append_nil] at whole
      rw [List.flatMap_nil, List.append_nil, (split_last width).1, whole, (split_last width).2]
    · have lastWidth := (valid last (by simp)).length
      refine removed (before ++ last :: mid) ?_ ?_
      · refine List.Perm.append_left before ?_
        rw [List.concat_eq_append]
        exact (List.perm_append_singleton last mid).symm
      · have pieces : before.flatMap Row.encode ++ (row.encode ++ (mid.concat last).flatMap Row.encode)
            = before.flatMap Row.encode ++ (row.encode ++ mid.flatMap Row.encode) ++ last.encode := by
          simp [List.append_assoc]
        have moved : before.flatMap Row.encode ++ (last.encode ++ (mid.concat last).flatMap Row.encode)
            = (before ++ last :: mid).flatMap Row.encode ++ last.encode := by
          simp [List.append_assoc]
        have lastRow : List.drop ((before.flatMap Row.encode
            ++ (row.encode ++ (mid.concat last).flatMap Row.encode)).length - rowSize)
              (before.flatMap Row.encode ++ (row.encode ++ (mid.concat last).flatMap Row.encode))
            = last.encode := by
          rw [pieces]
          exact (split_last lastWidth).1
        rw [lastRow, splice_append (lastWidth.trans width.symm), moved, (split_last lastWidth).2]

/-- What the loop of `rows` yields, by list induction. -/
theorem rowsFrom_eq (valid : ∀ row ∈ rows, row.Valid) (start : Bytes) (enough : rows.length ≤ fuel)
    (census : Census) (paid : 2 * (rowSize * rows.length) ≤ census.copies)
    : ∃ after, rowsFrom start fuel (rows.flatMap Row.encode) census
      = .ok ((rows.filter fun row => start <+: row.path).map
          fun row => (row.path, row.stamp, row.aux), after) := by
  induction rows generalizing fuel census with
  | nil => exact ⟨census, by cases fuel <;> rfl⟩
  | cons row rows ih =>
      obtain ⟨first, others⟩ := List.forall_mem_cons.mp valid
      cases fuel with
      | zero => exact absurd enough (Nat.not_succ_le_zero _)
      | succ fuel =>
          have short := first.short
          have read := first.read [] (rows.flatMap Row.encode)
          obtain ⟨size, padding, text⟩ := first.read_name (rows.flatMap Row.encode)
          have starts : start.length ≤ row.path.length
                ∧ (row.path ++ padding).take start.length = start
              ↔ start <+: row.path := by
            constructor
            · rintro ⟨fits, same⟩
              rw [List.take_append_of_le_length fits] at same
              exact same ▸ List.take_prefix _ _
            · intro begins
              refine ⟨begins.length_le, ?_⟩
              rw [List.take_append_of_le_length begins.length_le]
              exact (List.prefix_iff_eq_take.mp begins).symm
          rw [List.length_cons, Nat.mul_succ, rowSize] at paid
          rw [List.flatMap_cons, rowsFrom, if_neg (first.ne_nil _), size, text,
            List.drop_left' first.length]
          by_cases begins : start <+: row.path
          · obtain ⟨after, done⟩ := ih others (Nat.le_of_succ_le_succ enough)
              { census with copies := census.copies - (2 * row.path.length + 130) }
              (by rw [rowSize]; dsimp only; omega)
            have kept : (row :: rows).filter (fun row => start <+: row.path)
                = row :: rows.filter fun row => start <+: row.path :=
              List.filter_cons_of_pos (by simpa using begins)
            refine ⟨after, ?_⟩
            rw [if_pos (starts.mpr begins), Census.charge, demand, if_pos (by omega), ok_bind, ok_bind,
              done, ok_bind, List.take_left, kept, List.map_cons]
            exact congrArg (fun entry => Except.ok ((row.path, entry) :: _, after)) read
          · obtain ⟨after, done⟩ := ih others (Nat.le_of_succ_le_succ enough) census
              (by rw [rowSize]; omega)
            have kept : (row :: rows).filter (fun row => start <+: row.path)
                = rows.filter fun row => start <+: row.path :=
              List.filter_cons_of_neg (by simpa using begins)
            exact ⟨after, by rw [if_neg (mt starts.mp begins), done, kept]⟩

/-- Every call keeps the rows and the store in step. -/
theorem represents_calls {copies : Nat} {calls : List Call}
    (ran : calls.foldlM Census.call { copies } = .ok census)
    : Represents census.data (calls.foldl Store.call fun _ => none) := by
  have empty : Represents [] fun _ => none :=
    ⟨[], ⟨rfl, fun _ listed => absurd listed List.not_mem_nil, List.nodup_nil⟩, by simp⟩
  have step : ∀ store, Represents [] store → Represents census.data (calls.foldl Store.call store) := by
    refine foldlM_ok_induction (motive := fun calls before after => ∀ store,
      Represents before.data store → Represents after.data (calls.foldl Store.call store))
      (fun _ _ represents => represents) ?_ ran
    intro call rest before middle after called later store represents
    refine later _ ?_
    cases call with
    | put path stamp aux => exact represents_put represents called
    | remove path => exact represents_remove represents called
  exact step _ empty

/-- A path is got exactly when the rows have it. -/
theorem Holds.get (holds : Holds census.data rows) (paid : 130 + path.length ≤ census.copies)
    (stamp : FileStamp) (aux : Bytes)
    : (∃ after, census.get path = .ok ((stamp, aux), after)) ↔ ⟨path, stamp, aux⟩ ∈ rows := by
  have got {before after : List Row} {row : Row} (split : rows = before ++ row :: after)
      : readRow census.data (before.flatMap Row.encode).length = (row.stamp, row.aux) := by
    rw [holds.data, split, List.flatMap_append, List.flatMap_cons]
    exact (holds.valid row (by rw [split]; simp)).read _ _
  have room : 130 ≤ census.copies := by omega
  have rest : path.length ≤ census.copies - 130 := by omega
  simp only [Census.get, Census.offset, Census.charge, demand, if_pos room, if_pos rest, ok_bind]
  by_cases short : path.length ≤ 128
  · rw [if_pos short, ok_bind, ok_bind]
    rcases holds.searched path with ⟨absent, missed⟩ | ⟨before, row, after, rfl, rfl, found⟩
    · simp only [missed]
      refine iff_of_false (by simp) fun listed => absent (List.mem_map_of_mem listed)
    · simp only [found, got rfl]
      rw [← (Placed.found holds.distinct).entry_iff]
      simp
  · rw [if_neg short]
    refine iff_of_false ?_ fun listed => short (holds.valid _ listed).short
    rintro ⟨after, done⟩
    cases done

/-- For every sequence of calls of `put` and `remove` that succeeds on an empty census, a path is got
exactly when the calls leave it stored, with the stamp and the auxiliary string they leave; and the
rows of a prefix are the stored paths with that prefix, each once.
-/
theorem census_map {copies : Nat} {calls : List Call}
    (ran : calls.foldlM Census.call { copies } = .ok census)
    : (∀ path entry, 130 + path.length ≤ census.copies →
        ((∃ after, census.get path = .ok (entry, after))
          ↔ calls.foldl Store.call (fun _ => none) path = some entry))
      ∧ ∀ start, start.length + 2 * census.data.length ≤ census.copies →
        ∃ listed after, census.rows start = .ok (listed, after)
          ∧ (listed.map Prod.fst).Nodup
          ∧ ∀ path entry, (path, entry) ∈ listed
            ↔ start <+: path ∧ calls.foldl Store.call (fun _ => none) path = some entry := by
  obtain ⟨rows, holds, entries⟩ := represents_calls ran
  refine ⟨fun path entry paid => ?_, fun start paid => ?_⟩
  · rw [holds.get paid entry.1 entry.2, entries]
  · have size : census.data.length = rowSize * rows.length := by
      rw [holds.data, length_rows holds.valid]
    have enough : rows.length ≤ census.data.length := by
      rw [size, rowSize]
      omega
    let listed := (rows.filter fun row => start <+: row.path).map
      fun row => (row.path, row.stamp, row.aux)
    obtain ⟨after, done⟩ : ∃ after, census.rows start = .ok (listed, after) := by
      rw [Census.rows, Census.charge, demand, if_pos (by omega), ok_bind, ok_bind]
      have yields := rowsFrom_eq holds.valid start enough
        { census with copies := census.copies - start.length } (by dsimp only; omega)
      rwa [← holds.data] at yields
    refine ⟨listed, after, done, ?_, fun path entry => ?_⟩
    · rw [List.map_map]
      exact (List.filter_sublist.map _).nodup holds.distinct
    · obtain ⟨stamp, aux⟩ := entry
      rw [entries, List.mem_map]
      constructor
      · rintro ⟨row, listed, same⟩
        cases same
        obtain ⟨among, begins⟩ := List.mem_filter.mp listed
        exact ⟨of_decide_eq_true begins, among⟩
      · rintro ⟨begins, listed⟩
        exact ⟨_, List.mem_filter.mpr ⟨listed, decide_eq_true begins⟩, rfl⟩

/-- Two paths are stored, and the first one is removed. -/
def sampleCalls : List Call :=
  [.put [97] (.ofFields []) none, .put [98] (.ofFields []) none, .remove [97]]

theorem census_map_stored
    : ∃ census : Census, sampleCalls.foldlM Census.call { copies := 2000 } = .ok census
        ∧ ∃ after, census.get [98] = .ok ((.ofFields [], noAux), after) := by
  have paid : ((sampleCalls.foldlM Census.call { copies := 2000 }).toOption.map Census.copies)
      = some 461 := by
    decide +kernel
  cases ran : sampleCalls.foldlM Census.call { copies := 2000 } with
  | error raised =>
      rw [ran] at paid
      cases paid
  | ok census =>
      rw [ran] at paid
      refine ⟨census, rfl, ((census_map ran).1 [98] _ ?_).mpr rfl⟩
      rw [Option.some.inj paid]
      decide

end Scanipy.Tools.Worker.RuntimeEvidence
