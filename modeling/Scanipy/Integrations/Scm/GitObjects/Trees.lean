import Mathlib.Data.List.Chain
import Scanipy.Integrations.Scm.GitObjects.Objects
import Scanipy.Python.Uuid

/-! Exactness of the tree parser: what it accepts are the canonical texts of trees, and the
entries it returns write the text again.
-/

namespace Scanipy.Integrations.Scm.GitObjects

open Library Python

/-- An entry of a canonical tree, with its identifier as bytes. -/
structure CanonicalEntry (limits : CaptureLimits) where
  mode : TreeMode
  name : Text
  id : Bytes
  allowed : sourcePath [name] limits = .ok name
  sized : id.length = 20
  nonzero : id ≠ List.replicate 20 0

variable {limits : CaptureLimits}

/-- Mode, space, name, NUL and identifier. -/
def CanonicalEntry.bytes (entry : CanonicalEntry limits) : Bytes :=
  entry.mode.bytes ++ pyb " " ++ entry.name.utf8 ++ [0] ++ entry.id

/-- The name as git sorts it: that of a directory as if it ended in a slash. -/
def CanonicalEntry.sortName (entry : CanonicalEntry limits) : Bytes :=
  entry.name.utf8 ++ (if entry.mode = .directory then pyb "/" else [])

/-- The triple that `_tree_entries` lists for an entry. -/
def CanonicalEntry.listed (entry : CanonicalEntry limits) : TreeEntry where
  name := entry.name
  mode := entry.mode
  oid := hex entry.id

/-- A tree within the limits whose names are distinct and in git's strict order. -/
structure CanonicalTree (tree : List (CanonicalEntry limits)) : Prop where
  bounded : tree.length ≤ limits.maxEntries
  distinct : (tree.map CanonicalEntry.name).Nodup
  ordered : tree.Pairwise fun first second => first.sortName < second.sortName

/-- `bytes.fromhex`, for digits in pairs. -/
def oidBytes : Text → Bytes
  | high :: low :: rest =>
      Fin.ofNat 256 ((Json.hexValue high).getD 0 * 16 + (Json.hexValue low).getD 0) :: oidBytes rest
  | _ => []

/-- A returned entry, written as a line of a tree. -/
def TreeEntry.bytes (entry : TreeEntry) : Bytes :=
  entry.mode.bytes ++ pyb " " ++ entry.name.utf8 ++ [0] ++ oidBytes entry.oid

variable {byte : Byte}

/-- The first place of a byte splits the data there. -/
theorem idxOf?_split {data : Bytes} {place : Nat} (found : data.idxOf? byte = some place)
    : data = data.take place ++ byte :: data.drop (place + 1) ∧ byte ∉ data.take place
      ∧ place < data.length := by
  rw [List.idxOf?_eq_some_iff] at found
  obtain ⟨inside, here, before⟩ := found
  refine ⟨?_, fun listed => ?_, inside⟩
  · conv_lhs => rw [← List.take_append_drop place data, List.drop_eq_getElem_cons inside, here]
  · obtain ⟨earlier, bound, same⟩ := List.mem_iff_getElem.mp listed
    rw [List.length_take] at bound
    rw [List.getElem_take] at same
    exact before earlier (by omega) same

variable {rest : Bytes}

/-- A byte that is not in front of the data is found behind it. -/
theorem idxOf?_append_cons {front : Bytes} (absent : byte ∉ front)
    : (front ++ byte :: rest).idxOf? byte = some front.length := by
  rw [List.idxOf?_eq_some_iff]
  refine ⟨by simp, by simp, fun earlier before same => absent ?_⟩
  rw [List.getElem_append_left before] at same
  exact same ▸ List.getElem_mem before

variable {modeRaw nameRaw oidRaw tail : Bytes}

/-- The parts of an entry are read exactly where its separators stand.
Witness: the first space of the window ends the mode, the first NUL behind it ends the name.
-/
theorem entryParts_ok
    : entryParts limits rest = .ok (modeRaw, nameRaw, oidRaw, tail)
      ↔ rest = modeRaw ++ 0x20 :: (nameRaw ++ 0 :: (oidRaw ++ tail))
        ∧ (0x20 : Byte) ∉ modeRaw ∧ modeRaw.length < 8 ∧ (0 : Byte) ∉ nameRaw
        ∧ oidRaw.length = 20 ∧ nameRaw.length ≤ limits.maxPathBytes := by
  constructor
  · intro read
    unfold entryParts at read
    split at read
    · cases read
    next space spaced =>
    split at read
    · cases read
    next length ended =>
    simp only [check_ok, demand_ok, Except.ok.injEq, Prod.mk.injEq] at read
    obtain ⟨enough, short, rfl, rfl, rfl, rfl⟩ := read
    obtain ⟨_, modeClean, window⟩ := idxOf?_split spaced
    obtain ⟨nameSplit, nameClean, _⟩ := idxOf?_split ended
    rw [List.length_take] at window
    rw [List.take_take, Nat.min_eq_left (by omega)] at modeClean
    have spaceHere : rest = rest.take space ++ 0x20 :: rest.drop (space + 1) := by
      rw [List.idxOf?_eq_some_iff] at spaced
      obtain ⟨inside, here, _⟩ := spaced
      rw [List.getElem_take] at here
      conv_lhs => rw [← List.take_append_drop space rest,
        List.drop_eq_getElem_cons (by omega : space < rest.length), here]
    refine ⟨?_, modeClean, by rw [List.length_take]; omega, nameClean,
      by rw [List.length_take, List.length_drop]; omega, by rw [List.length_take]; omega⟩
    have behind : (rest.drop (space + 1)).drop (length + 1)
        = (rest.drop (space + 1 + length + 1)).take 20 ++ rest.drop (space + 1 + length + 21) := by
      have later : rest.drop (space + 1 + length + 21)
          = (rest.drop (space + 1 + length + 1)).drop 20 := by rw [List.drop_drop]
      rw [later, List.take_append_drop, List.drop_drop, Nat.add_assoc (space + 1)]
    rw [← behind, ← nameSplit]
    exact spaceHere
  · rintro ⟨rfl, modeClean, window, nameClean, sized, short⟩
    have spaced : ((modeRaw ++ 0x20 :: (nameRaw ++ 0 :: (oidRaw ++ tail))).take 8).idxOf? 0x20
        = some modeRaw.length := by
      rw [List.take_append, List.take_of_length_le (by omega),
        show 8 - modeRaw.length = (7 - modeRaw.length) + 1 by omega, List.take_succ_cons]
      exact idxOf?_append_cons modeClean
    have dropped : (modeRaw ++ 0x20 :: (nameRaw ++ 0 :: (oidRaw ++ tail))).drop (modeRaw.length + 1)
        = nameRaw ++ 0 :: (oidRaw ++ tail) := by simp
    unfold entryParts
    rw [spaced]
    dsimp only
    rw [dropped, idxOf?_append_cons nameClean]
    have enough : modeRaw.length + 1 + nameRaw.length + 21
        ≤ (modeRaw ++ 0x20 :: (nameRaw ++ 0 :: (oidRaw ++ tail))).length := by
      simp only [List.length_append, List.length_cons, sized]
      omega
    have behind : (modeRaw ++ 0x20 :: (nameRaw ++ 0 :: (oidRaw ++ tail))).drop
        (modeRaw.length + 1 + nameRaw.length + 1) = oidRaw ++ tail := by
      rw [Nat.add_assoc (modeRaw.length + 1), ← List.drop_drop, dropped]
      simp
    have later : (modeRaw ++ 0x20 :: (nameRaw ++ 0 :: (oidRaw ++ tail))).drop
        (modeRaw.length + 1 + nameRaw.length + 21) = (oidRaw ++ tail).drop 20 := by
      have further := congrArg (List.drop 20) behind
      rwa [List.drop_drop] at further
    rw [check_ok, check_ok, demand_ok, demand_ok, behind,
      later, List.take_left' sized, List.drop_left' sized]
    exact ⟨enough, short, by simp⟩

/-- An ASCII byte of a text is one of its points. Witness: other points have no such byte. -/
theorem exists_point_of_ascii {text : Text} (ascii : byte.val < 0x80) (listed : byte ∈ text.utf8)
    : ∃ point ∈ text, point.val = byte.val := by
  obtain ⟨point, member, inside⟩ := List.mem_flatMap.mp listed
  refine ⟨point, member, ?_⟩
  have bound := point.isLt
  unfold CodePoint.utf8 at inside
  dsimp only at inside
  split_ifs at inside
  all_goals
    simp only [List.mem_cons, List.not_mem_nil, or_false, Fin.ext_iff, Fin.val_ofNat] at inside
    omega

variable {name : Text} {path : Text}

/-- A name is a source path of its own exactly when it is allowed, encodable and short. -/
theorem sourcePath_single
    : sourcePath [name] limits = .ok path
      ↔ path = name ∧ AllowedName name ∧ name.Encodable
        ∧ name.utf8.length ≤ limits.maxPathBytes := by
  have alone : joined [name] = name := by simp [joined, List.intercalate]
  have depth := limits.depth.1
  constructor
  · intro checked
    have spec := sourcePath_spec checked
    simp only [sourcePath, check_ok, alone] at checked
    obtain ⟨size, sized, checked⟩ := bind_ok.mp checked.2.2.2
    rw [check_ok, demand_ok] at checked
    unfold encodedSize Text.encode at sized
    split_ifs at sized with encodable
    cases sized
    exact ⟨(Except.ok.inj checked.2).symm, spec.2.2 name List.mem_cons_self, encodable, checked.1⟩
  · rintro ⟨rfl, allowed, encodable, short⟩
    have shorter := path.length_le_utf8
    have encoded : encodedSize path = .ok path.utf8.length := by
      rw [encodedSize, Text.encode, if_pos encodable]
    simp only [sourcePath, check_ok, demand_ok, visit_ok, alone, encoded,
      ok_bind]
    refine ⟨⟨List.cons_ne_nil _ _, depth⟩, ?_, by simp; omega, short, trivial⟩
    intro name listed
    obtain rfl := List.mem_singleton.mp listed
    rw [checkName, check_ok, demand_ok, demand_ok]
    exact ⟨by omega, allowed⟩

/-- No byte of an allowed name is a NUL or a slash. -/
theorem AllowedName.clean (allowed : AllowedName name)
    : (0 : Byte) ∉ name.utf8 ∧ (0x2F : Byte) ∉ name.utf8 := by
  obtain ⟨_, slashless, _, printable⟩ := allowed
  constructor
  · intro listed
    obtain ⟨point, member, value⟩ := exists_point_of_ascii (by decide) listed
    exact printable point member (.inl (by rw [value]; decide))
  · intro listed
    obtain ⟨point, member, value⟩ := exists_point_of_ascii (by decide) listed
    exact slashless (by rwa [← show point = slash from Fin.ext value])

/-- Comparing names that end in a NUL or a slash is comparing them as git sorts them.
Witness: induction on the names; no byte of a name equals what may end the other.
-/
theorem orderKey_lt {firstMode secondMode : TreeMode} {first second : Bytes}
    (firstClean : (0 : Byte) ∉ first ∧ (0x2F : Byte) ∉ first)
    (secondClean : (0 : Byte) ∉ second ∧ (0x2F : Byte) ∉ second)
    : orderKey firstMode first < orderKey secondMode second
      ↔ first ++ (if firstMode = .directory then pyb "/" else [])
        < second ++ (if secondMode = .directory then pyb "/" else []) := by
  have bar : pyb "/" = [0x2F] := rfl
  unfold orderKey
  rw [bar]
  induction first generalizing second with
  | nil =>
      cases second with
      | nil => cases firstMode <;> cases secondMode <;> decide
      | cons byte others =>
          have nonzero : (0 : Byte) < byte :=
            Fin.pos_of_ne_zero fun same => secondClean.1 (same ▸ List.mem_cons_self)
          have other : (0x2F : Byte) ≠ byte := fun same =>
            secondClean.2 (same ▸ List.mem_cons_self)
          by_cases directory : firstMode = .directory
          · simp [directory, List.cons_lt_cons_iff, other]
          · simp [directory, List.cons_lt_cons_iff, nonzero]
  | cons byte others ih =>
      cases second with
      | nil =>
          have nonzero : byte ≠ 0 := fun same => firstClean.1 (same ▸ List.mem_cons_self)
          have other : byte ≠ 0x2F := fun same => firstClean.2 (same ▸ List.mem_cons_self)
          by_cases directory : secondMode = .directory
          · simp [directory, List.cons_lt_cons_iff, other]
          · simp [directory, List.cons_lt_cons_iff, nonzero]
      | cons other more =>
          have firstLater : (0 : Byte) ∉ others ∧ (0x2F : Byte) ∉ others :=
            ⟨fun listed => firstClean.1 (List.mem_cons_of_mem _ listed),
              fun listed => firstClean.2 (List.mem_cons_of_mem _ listed)⟩
          have secondLater : (0 : Byte) ∉ more ∧ (0x2F : Byte) ∉ more :=
            ⟨fun listed => secondClean.1 (List.mem_cons_of_mem _ listed),
              fun listed => secondClean.2 (List.mem_cons_of_mem _ listed)⟩
          rw [List.cons_append, List.cons_append, List.cons_append, List.cons_append,
            List.cons_lt_cons_iff, List.cons_lt_cons_iff]
          exact or_congr Iff.rfl (and_congr Iff.rfl (ih firstLater secondLater))

/-- Reading the digits of bytes gives the bytes, by induction on them. -/
theorem oidBytes_hex (data : Bytes) : oidBytes (hex data) = data := by
  induction data with
  | nil => rfl
  | cons byte rest ih =>
      have bound := byte.isLt
      have digits : hex (byte :: rest)
          = Json.hexDigit (byte.val / 16) :: Json.hexDigit (byte.val % 16) :: hex rest := rfl
      rw [digits, oidBytes, ih, Json.hexValue_hexDigit (by omega), Json.hexValue_hexDigit (by omega)]
      exact congrArg (· :: rest) (byte_ofNat byte (by dsimp only [Option.getD_some]; omega))

/-- Twenty bytes have the digits of an identifier, unless they are all zero. -/
theorem isOid_hex_iff {id : Bytes} (sized : id.length = 20)
    : IsOid (hex id) ↔ id ≠ List.replicate 20 0 := by
  have length : (hex id).length = 40 := by rw [length_hex, sized]
  have digits : fullmatch (List.replicate 40 isHex) (hex id) = true :=
    fullmatch_replicate_iff.mpr ⟨length, isHex_of_mem_hex⟩
  have zeros : hex (List.replicate 20 0) = List.replicate 40 (Fin.ofNat 0x110000 0x30) := by decide
  rw [IsOid, ← zeros]
  exact ⟨fun oid same => oid.2 (congrArg hex same), fun other =>
    ⟨digits, fun same => other (hex_injective same)⟩⟩

/-- `CanonicalEntry.bytes`, one part behind the other. -/
theorem CanonicalEntry.bytes_append (entry : CanonicalEntry limits) (tail : Bytes)
    : entry.bytes ++ tail
      = entry.mode.bytes ++ 0x20 :: (entry.name.utf8 ++ 0 :: (entry.id ++ tail)) := by
  simp [CanonicalEntry.bytes, show pyb " " = [0x20] from rfl]

theorem CanonicalEntry.bytes_ne_nil (entry : CanonicalEntry limits) : entry.bytes ≠ [] := by
  simp [CanonicalEntry.bytes]

/-- What a canonical entry in front of a tree is read as. Witness: none of its parts holds the
separator that ends it.
-/
theorem CanonicalEntry.read (entry : CanonicalEntry limits) (tail : Bytes)
    : entryParts limits (entry.bytes ++ tail)
        = .ok (entry.mode.bytes, entry.name.utf8, entry.id, tail)
      ∧ treeMode entry.mode.bytes = .ok entry.mode
      ∧ decodeName entry.name.utf8 = .ok entry.name
      ∧ checkOid (hex entry.id) = .ok (hex entry.id) := by
  obtain ⟨_, allowed, encodable, short⟩ := sourcePath_single.mp entry.allowed
  refine ⟨entryParts_ok.mpr ⟨entry.bytes_append tail, ?_, ?_, allowed.clean.1, entry.sized,
    short⟩, ?_, ?_, checkOid_ok.mpr ⟨(isOid_hex_iff entry.sized).mpr entry.nonzero, rfl⟩⟩
  · cases entry.mode <;> decide
  · cases entry.mode <;> decide
  · cases entry.mode <;> rfl
  · rw [decodeName, Text.decode_utf8 encodable]

/-- The checks of the loop admit only canonical entries. -/
theorem exists_entry {mode : TreeMode} {oid : Text}
    (parts : entryParts limits rest = .ok (modeRaw, nameRaw, oidRaw, tail))
    (moded : treeMode modeRaw = .ok mode) (named : decodeName nameRaw = .ok name)
    (allowed : sourcePath [name] limits = .ok path) (checked : checkOid (hex oidRaw) = .ok oid)
    : ∃ entry : CanonicalEntry limits, rest = entry.bytes ++ tail ∧ nameRaw = entry.name.utf8
      ∧ entry.listed = { name, mode, oid } := by
  obtain ⟨rfl, _, _, _, sized, _⟩ := entryParts_ok.mp parts
  obtain ⟨identifier, rfl⟩ := checkOid_ok.mp checked
  obtain ⟨rfl, spec⟩ := sourcePath_single.mp allowed
  obtain rfl : modeRaw = mode.bytes := by
    unfold treeMode at moded
    split at moded
    next found listed =>
      cases moded
      have same := List.find?_some listed
      exact (of_decide_eq_true same).symm
    next => cases moded
  obtain rfl : nameRaw = path.utf8 := by
    unfold decodeName at named
    split at named
    next decoded =>
      cases named
      exact (Text.decode_eq_some.mp decoded).2
    next => cases named
  refine ⟨⟨mode, path, oidRaw, allowed, sized, (isOid_hex_iff sized).mp identifier⟩, ?_, rfl, rfl⟩
  rw [CanonicalEntry.bytes_append]

-- The loop

/-- What the loop compares for an entry. -/
def CanonicalEntry.key (entry : CanonicalEntry limits) : Bytes :=
  orderKey entry.mode entry.name.utf8

theorem CanonicalEntry.key_lt {first second : CanonicalEntry limits}
    : first.key < second.key ↔ first.sortName < second.sortName :=
  orderKey_lt (sourcePath_single.mp first.allowed).2.1.clean
    (sourcePath_single.mp second.allowed).2.1.clean

/-- The canonical entries that may go on from the entries so far and the last key. -/
structure Continues (result : List TreeEntry) (previous : Option Bytes)
    (tree : List (CanonicalEntry limits))
    : Prop where
  bounded : result.length + tree.length ≤ limits.maxEntries
  fresh : ∀ entry ∈ tree, entry.name ∉ result.map TreeEntry.name
  distinct : (tree.map CanonicalEntry.name).Nodup
  ordered : (previous.toList ++ tree.map CanonicalEntry.key).IsChain (· < ·)

variable {result : List TreeEntry} {previous : Option Bytes} {tree : List (CanonicalEntry limits)}

/-- One more entry may go on, and others after it. -/
theorem continues_cons_iff {entry : CanonicalEntry limits}
    : Continues result previous (entry :: tree)
      ↔ (entry.name ∉ result.map TreeEntry.name ∧ ∀ last ∈ previous, last < entry.key)
        ∧ Continues (result ++ [entry.listed]) (some entry.key) tree := by
  have key : entry.listed.name = entry.name := rfl
  constructor
  · rintro ⟨bounded, fresh, distinct, ordered⟩
    obtain ⟨later, distinct⟩ := List.nodup_cons.mp distinct
    refine ⟨⟨fresh entry List.mem_cons_self, ?_⟩, ?_, ?_, distinct, ordered.right_of_append⟩
    · rintro last rfl
      exact (List.isChain_cons_cons.mp ordered).1
    · simp only [List.length_append, List.length_cons, List.length_nil] at bounded ⊢
      omega
    · intro other listed
      simp only [List.map_append, List.mem_append, List.map_cons, List.map_nil,
        List.mem_singleton, key, not_or]
      exact ⟨fresh other (List.mem_cons_of_mem _ listed), fun same =>
        later (same ▸ List.mem_map_of_mem listed)⟩
  · rintro ⟨⟨unlisted, below⟩, bounded, fresh, distinct, ordered⟩
    simp only [List.map_append, List.mem_append, List.map_cons, List.map_nil, List.mem_singleton,
      key, not_or] at fresh
    refine ⟨?_, ?_, List.nodup_cons.mpr ⟨?_, distinct⟩, ?_⟩
    · simp only [List.length_append, List.length_cons, List.length_nil] at bounded ⊢
      omega
    · intro other listed
      rcases List.mem_cons.mp listed with rfl | later
      · exact unlisted
      · exact (fresh other later).1
    · intro listed
      obtain ⟨other, later, same⟩ := List.mem_map.mp listed
      exact (fresh other later).2 same
    · cases previous with
      | none => exact ordered
      | some last => exact List.isChain_cons_cons.mpr ⟨below last rfl, ordered⟩

/-- Nothing is left of a tree only when none of its entries are. -/
theorem nil_eq_flatMap_bytes_iff
    : [] = tree.flatMap CanonicalEntry.bytes ↔ tree = [] := by
  cases tree with
  | nil => simp
  | cons entry others => simp [entry.bytes_ne_nil]

variable {rounds : Nat} {entries : List TreeEntry}

/-- At the end of the bytes the loop returns the entries so far, and no entry goes on. -/
theorem treeEntriesFrom_nil_iff (bounded : result.length ≤ limits.maxEntries)
    : treeEntriesFrom limits rounds [] result previous = .ok entries
      ↔ ∃ tree : List (CanonicalEntry limits),
          Continues result previous tree
          ∧ [] = tree.flatMap CanonicalEntry.bytes
          ∧ entries = result ++ tree.map CanonicalEntry.listed := by
  have ended : treeEntriesFrom limits rounds [] result previous = .ok result := by
    cases rounds <;> rfl
  have none : Continues result previous ([] : List (CanonicalEntry limits)) := by
    refine ⟨bounded, by simp, List.nodup_nil, ?_⟩
    cases previous <;> simp
  rw [ended]
  constructor
  · intro same
    cases same
    exact ⟨[], none, rfl, by simp⟩
  · rintro ⟨tree, _, empty, rfl⟩
    obtain rfl := nil_eq_flatMap_bytes_iff.mp empty
    simp

/-- From any state the loop reads exactly the canonical entries that go on from there.
Witness: induction on the rounds; each round takes one entry off both the bytes and the list.
-/
theorem treeEntriesFrom_ok_iff (enough : rest.length ≤ rounds)
    (bounded : result.length ≤ limits.maxEntries)
    : treeEntriesFrom limits rounds rest result previous = .ok entries
      ↔ ∃ tree : List (CanonicalEntry limits),
          Continues result previous tree
          ∧ rest = tree.flatMap CanonicalEntry.bytes
          ∧ entries = result ++ tree.map CanonicalEntry.listed := by
  induction rounds generalizing rest result previous with
  | zero =>
      obtain rfl := List.length_eq_zero_iff.mp (Nat.le_zero.mp enough)
      exact treeEntriesFrom_nil_iff bounded
  | succ rounds ih =>
      cases rest with
      | nil => exact treeEntriesFrom_nil_iff bounded
      | cons first others =>
          constructor
          · intro read
            rw [treeEntriesFrom, check_ok, demand_ok] at read
            obtain ⟨room, read⟩ := read
            obtain ⟨⟨modeRaw, nameRaw, oidRaw, tail⟩, parts, read⟩ := bind_ok.mp read
            obtain ⟨mode, moded, read⟩ := bind_ok.mp read
            obtain ⟨name, named, read⟩ := bind_ok.mp read
            obtain ⟨path, allowed, read⟩ := bind_ok.mp read
            rw [check_ok, demand_ok] at read
            obtain ⟨⟨fresh, below⟩, read⟩ := read
            obtain ⟨oid, checked, read⟩ := bind_ok.mp read
            have shorter := entryParts_shorter parts
            obtain ⟨entry, written, rfl, listed⟩ := exists_entry parts moded named allowed checked
            obtain ⟨rfl, rfl, rfl⟩ : entry.name = name ∧ entry.mode = mode ∧ hex entry.id = oid := by
              injection listed with names modes oids
              exact ⟨names, modes, oids⟩
            rw [ih (by simp at shorter enough; omega) (by simp; omega)] at read
            obtain ⟨tree, going, rfl, rfl⟩ := read
            exact ⟨entry :: tree, continues_cons_iff.mpr ⟨⟨fresh, below⟩, going⟩, written,
              by simp [CanonicalEntry.listed]⟩
          · rintro ⟨tree, going, written, rfl⟩
            cases tree with
            | nil => cases written
            | cons entry tree =>
                obtain ⟨⟨fresh, below⟩, later⟩ := continues_cons_iff.mp going
                rw [List.flatMap_cons] at written
                obtain ⟨parts, moded, named, checked⟩ :=
                  entry.read (tree.flatMap CanonicalEntry.bytes)
                have shorter := entryParts_shorter parts
                have room : result.length < limits.maxEntries := by
                  have fits := going.bounded
                  simp at fits
                  omega
                rw [treeEntriesFrom, check_ok, demand_ok]
                refine ⟨room, ?_⟩
                rw [written, parts, ok_bind]
                dsimp only
                rw [moded, ok_bind, named, ok_bind, entry.allowed, ok_bind, check_ok,
                  demand_ok]
                refine ⟨⟨fresh, below⟩, ?_⟩
                rw [checked, ok_bind, ih (by rw [written] at enough; omega) (by simp; omega)]
                exact ⟨tree, later, rfl, by simp [CanonicalEntry.listed]⟩

/-- From the start, the entries that may go on are those of canonical trees. -/
theorem continues_start_iff
    : Continues [] none tree ↔ CanonicalTree tree := by
  have sorted : (tree.map CanonicalEntry.key).IsChain (· < ·)
      ↔ tree.Pairwise fun first second => first.sortName < second.sortName := by
    rw [List.isChain_iff_pairwise, List.pairwise_map]
    simp only [CanonicalEntry.key_lt]
  constructor
  · rintro ⟨bounded, _, distinct, ordered⟩
    exact ⟨by simpa using bounded, distinct, sorted.mp ordered⟩
  · rintro ⟨bounded, distinct, ordered⟩
    exact ⟨by simpa using bounded, by simp, distinct, sorted.mpr ordered⟩

/-- `_tree_entries` accepts exactly the texts of canonical trees, and the entries that it returns
write the text again. Witness: the loop from its start, with as many rounds as bytes.
-/
theorem tree_entries_exact (limits : CaptureLimits) (payload : Bytes)
    : (∀ entries : List TreeEntry,
        treeEntries payload limits = .ok entries
        ↔ ∃ tree : List (CanonicalEntry limits),
            CanonicalTree tree
            ∧ payload = tree.flatMap CanonicalEntry.bytes
            ∧ entries = tree.map CanonicalEntry.listed)
      ∧ ∀ entries : List TreeEntry,
          treeEntries payload limits = .ok entries → entries.flatMap TreeEntry.bytes = payload := by
  have exact : ∀ entries : List TreeEntry,
      treeEntries payload limits = .ok entries
      ↔ ∃ tree : List (CanonicalEntry limits),
          CanonicalTree tree
          ∧ payload = tree.flatMap CanonicalEntry.bytes
          ∧ entries = tree.map CanonicalEntry.listed := by
    intro entries
    rw [treeEntries, treeEntriesFrom_ok_iff le_rfl (Nat.zero_le _)]
    simp only [continues_start_iff, List.nil_append]
  refine ⟨exact, fun entries read => ?_⟩
  obtain ⟨tree, _, rfl, rfl⟩ := (exact entries).mp read
  rw [List.flatMap_map]
  refine congrArg (fun write => tree.flatMap write) (funext fun entry => ?_)
  rw [TreeEntry.bytes, CanonicalEntry.listed, oidBytes_hex, CanonicalEntry.bytes]

/-- In git's order a file `a-b` stands before a directory `a`. -/
def sampleEntries : List TreeEntry :=
  [⟨py "a-b", .file, hex (List.replicate 20 1)⟩, ⟨py "a", .directory, hex (List.replicate 20 2)⟩]

theorem tree_entries_exact_sample
    : treeEntries (sampleEntries.flatMap TreeEntry.bytes) {} = .ok sampleEntries
      ∧ ∃ tree : List (CanonicalEntry {}),
          CanonicalTree tree ∧ sampleEntries = tree.map CanonicalEntry.listed := by
  have read : treeEntries (sampleEntries.flatMap TreeEntry.bytes) {} = .ok sampleEntries := by
    decide
  obtain ⟨tree, canonical, _, listed⟩ := ((tree_entries_exact {} _).1 _).mp read
  exact ⟨read, tree, canonical, listed⟩

end Scanipy.Integrations.Scm.GitObjects
