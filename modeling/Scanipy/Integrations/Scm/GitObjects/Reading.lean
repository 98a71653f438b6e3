import Scanipy.Integrations.Scm.GitObjects.Trees

/-! Reading an object from a file, block by block, and reading it from a preimage that is kept. On a
file that does not change both return the same, however its bytes arrive.
-/

namespace Scanipy.Integrations.Scm.GitObjects

open Library Python

/-- What `os.fstat` returns. -/
structure StatResult where
  dev : Int
  ino : Int
  mode : Nat
  nlink : Int
  size : Int
  mtimeNs : Int
  ctimeNs : Int
  uid : Int

/-- `file_stamp`. -/
def fileStamp (info : StatResult) : List Int :=
  [info.dev, info.ino, info.mode, info.nlink, info.size, info.mtimeNs, info.ctimeNs, info.uid]

/-- `stat.S_ISREG`. -/
def StatResult.IsRegular (info : StatResult) : Prop :=
  info.mode &&& 0o170000 = 0o100000

/-- `stat.S_IMODE`. -/
def StatResult.permissions (info : StatResult) : Nat :=
  info.mode &&& 0o7777

/-- The checks of `check_regular` before the size: a regular file of the user, under one name, that
nobody else can use.
-/
structure StatResult.IsPrivate (info : StatResult) (euid : Int) : Prop where
  regular : info.IsRegular
  nlink : info.nlink = 1
  uid : info.uid = euid
  size : 0 ≤ info.size
  permissions : info.permissions &&& 0o077 = 0

instance (info : StatResult) (euid : Int) : Decidable (info.IsPrivate euid) :=
  decidable_of_iff
    ((info.mode &&& 0o170000 = 0o100000) ∧ info.nlink = 1 ∧ info.uid = euid ∧ 0 ≤ info.size
      ∧ info.permissions &&& 0o077 = 0)
    ⟨fun checks => ⟨checks.1, checks.2.1, checks.2.2.1, checks.2.2.2.1, checks.2.2.2.2⟩,
      fun checks => ⟨checks.regular, checks.nlink, checks.uid, checks.size, checks.permissions⟩⟩

/-- `check_regular`, for a private file. -/
def checkRegular (euid : Int) (info : StatResult) (maximum : Nat) : Except GitObjectError Unit := do
  demand (info.IsPrivate euid) .invalidInput
  demand (info.size ≤ maximum) .limit

/-- An open file: what `os.fstat` returns before and after it is read, and what `os.read` returns at
an offset for a number of bytes that is asked for.
-/
structure OpenFile where
  before : StatResult
  after : StatResult
  read : (offset requested : Nat) → Bytes

/-- `CHUNK`. -/
def chunk : Nat := 64 * 1024

/-- What has been read after the header: how much, what the content hash was fed, what is kept and
what is written to the output.
-/
structure Progress where
  count : Nat := 0
  content : Bytes := []
  retained : Bytes := []
  output : Option Bytes

/-- A block that was counted. -/
def Progress.feed (progress : Progress) (kind : ObjectKind) (block : Bytes) : Progress where
  count := progress.count + block.length
  content := progress.content ++ block
  retained := if kind = .blob then progress.retained else progress.retained ++ block
  output := progress.output.map (· ++ block)

/-- The loop of `_read_object`, with the block that was read last. It asks for one byte more than is
missing, so that a file that grew is noticed.
-/
def readBlocks (file : OpenFile) (kind : ObjectKind) (start size : Nat) (progress : Progress)
    (block : Bytes)
    : Except GitObjectError Progress :=
  let fed := progress.feed kind block
  if block ≠ [] ∧ size < fed.count then .error .changedInput
  else
    let next := file.read (start + fed.count) (min chunk (size - fed.count + 1))
    if next = [] then .ok fed else readBlocks file kind start size fed next
termination_by (size - progress.count) + if block = [] then 1 else 0
decreasing_by
  rename_i within more
  rw [if_neg more]
  by_cases empty : block = []
  · simp [empty, Progress.feed]
  · have longer := List.length_pos_iff.mpr empty
    have counted : (progress.feed kind block).count ≤ size :=
      not_lt.mp fun beyond => within ⟨empty, beyond⟩
    simp only [Progress.feed, if_neg empty] at counted ⊢
    omega

section Objects

local instance : LawfulBEq Byte := inferInstance

variable (sha1 sha256 : Bytes → Bytes)

/-- The most that an object of the kind may hold. -/
def kindBound (limits : GitCaptureLimits) : ObjectKind → Nat
  | .commit => limits.objects.maxCommitBytes
  | .tree => limits.objects.maxTreeBytes
  | _ => limits.capture.maxFileBytes

/-- `_read_object`, with what it wrote to the output. -/
def readObject (euid : Int) (file : OpenFile) (oid : Text) (limits : GitCaptureLimits)
    (output : Option Bytes) (treeRemaining : Option Int)
    : Except GitObjectError (GitObject × Option Bytes) := do
  checkRegular euid file.before limits.objects.maxTotalPreimageBytes
  let taken := file.read 0 64
  let header := taken.takeWhile (· ≠ 0)
  let first := taken.drop (header.length + 1)
  demand ((0 : Byte) ∈ taken) .unsupportedObject
  match matchHeader header with
  | none => .error .unsupportedObject
  | some (kind, size) => do
      demand (size ≤ kindBound limits kind) .limit
      demand (¬(kind = .tree ∧ ∃ remaining ∈ treeRemaining, (size : Int) > remaining)) .limit
      demand (file.before.size = (header.length + 1 + size : Nat)) .changedInput
      demand (output = none ∨ kind = .blob) .unsupportedObject
      let progress ← readBlocks file kind (header.length + 1) size { output } first
      let preimage := header ++ [0] ++ progress.content
      demand (progress.count = size ∧ hex (sha1 preimage) = oid
        ∧ fileStamp file.after = fileStamp file.before) .changedInput
      .ok ({
        oid := oid
        kind := kind
        size := size
        preimageSha256 := sha256 preimage
        payloadSha256 := sha256 progress.content
        payload := if kind = .blob then none else some progress.retained
        stamp := some (fileStamp file.before) }, progress.output)

/-- `metadata_object`, with all that it returns. -/
def metadataGitObject (oid : Text) (preimage : Bytes) (limits : GitCaptureLimits)
    : Except GitObjectError GitObject := do
  let oid ← checkOid oid
  demand (preimage.length ≤ max limits.objects.maxCommitBytes limits.objects.maxTreeBytes + 64)
    .limit
  let header := preimage.takeWhile (· ≠ 0)
  let payload := preimage.drop (header.length + 1)
  demand ((0 : Byte) ∈ preimage ∧ header.length + 1 ≤ 64) .unsupportedObject
  match matchHeader header with
  | none => .error .unsupportedObject
  | some (kind, size) => do
      demand (kind ≠ .blob) .unsupportedObject
      let maximum :=
        if kind = .commit then limits.objects.maxCommitBytes else limits.objects.maxTreeBytes
      demand (size = payload.length ∧ size ≤ maximum) .limit
      demand (hex (sha1 preimage) = oid) .changedInput
      .ok {
        oid := oid
        kind := kind
        size := size
        preimageSha256 := sha256 preimage
        payloadSha256 := sha256 payload
        payload := some payload }

end Objects

-- Files that do not change

/-- The file holds the data and does not change. The first read returns its front; every later one
returns some of what is asked for, until the end.
-/
structure OpenFile.Holds (file : OpenFile) (data : Bytes) : Prop where
  size : file.before.size = data.length
  unchanged : fileStamp file.after = fileStamp file.before
  first : file.read 0 64 = data.take 64
  splits : ∀ offset requested, 0 < offset → 0 < requested
    → ∃ count, 0 < count ∧ count ≤ requested ∧ file.read offset requested
      = (data.drop offset).take count

/-- The progress has read the front of the payload. -/
structure Progress.Fed (progress : Progress) (kind : ObjectKind) (payload : Bytes) : Prop where
  content : progress.content = payload.take progress.count
  count : progress.count ≤ payload.length
  retained : kind ≠ .blob → progress.retained = progress.content

variable {kind : ObjectKind} {payload : Bytes} {progress : Progress} {block : Bytes}

theorem Progress.Fed.feed (fed : progress.Fed kind payload)
    (next : block <+: payload.drop progress.count)
    : (progress.feed kind block).Fed kind payload := by
  obtain ⟨rest, split⟩ := next
  have length := congrArg List.length split
  rw [List.length_append, List.length_drop] at length
  refine ⟨?_, ?_, ?_⟩
  · have whole : payload = payload.take progress.count ++ (block ++ rest) := by
      rw [split, List.take_append_drop]
    have front : (payload.take progress.count).length = progress.count :=
      List.length_take_of_le fed.count
    simp only [Progress.feed, fed.content]
    conv_rhs => rw [whole, ← List.append_assoc]
    rw [List.take_left' (by rw [List.length_append, front])]
  · have within := fed.count
    simp only [Progress.feed]
    omega
  · intro other
    simp only [Progress.feed, if_neg other, fed.retained other]

variable {file : OpenFile} {head : Bytes}

/-- A read after the header returns some of the payload that is missing, until its end. -/
theorem OpenFile.Holds.reads (holds : file.Holds (head ++ payload)) (nonempty : head ≠ [])
    (count missing : Nat)
    : ∃ length, 0 < length
        ∧ file.read (head.length + count) (min chunk (missing + 1))
          = (payload.drop count).take length := by
  have positive := List.length_pos_iff.mpr nonempty
  obtain ⟨length, some, _, read⟩ := holds.splits (head.length + count) (min chunk (missing + 1))
    (by omega) (lt_min (by decide) (Nat.succ_pos missing))
  refine ⟨length, some, ?_⟩
  rw [read, List.drop_append, List.drop_of_length_le (Nat.le_add_right ..), List.nil_append,
    Nat.add_sub_cancel_left]

/-- The loop reads the payload to its end, however it is split. Witness: induction along the loop;
every block continues what was read.
-/
theorem readBlocks_holds (holds : file.Holds (head ++ payload)) (nonempty : head ≠ [])
    (fed : progress.Fed kind payload) (next : block <+: payload.drop progress.count)
    : ∃ final, readBlocks file kind head.length payload.length progress block = .ok final
        ∧ final.Fed kind payload ∧ final.count = payload.length
        ∧ (progress.output = none → final.output = none) := by
  fun_induction readBlocks file kind head.length payload.length progress block with
  | case1 progress block current beyond => exact absurd (fed.feed next).count (not_le.mpr beyond.2)
  | case2 progress block current _ bytes ended =>
      have further : current.Fed kind payload := fed.feed next
      obtain ⟨length, some, read⟩ :=
        holds.reads nonempty current.count (payload.length - current.count)
      have rest : (payload.drop current.count).take length = [] := read.symm.trans ended
      rw [List.take_eq_nil_iff, List.drop_eq_nil_iff] at rest
      have whole := rest.resolve_left some.ne'
      refine ⟨current, rfl, further, le_antisymm further.count whole, ?_⟩
      intro silent
      simp [current, Progress.feed, silent]
  | case3 progress block current _ bytes more ih =>
      have further : current.Fed kind payload := fed.feed next
      obtain ⟨length, some, read⟩ :=
        holds.reads nonempty current.count (payload.length - current.count)
      have continues : bytes <+: payload.drop current.count := by
        rw [show bytes = (payload.drop current.count).take length from read]
        exact List.take_prefix ..
      obtain ⟨final, done, fed, count, quiet⟩ := ih further continues
      refine ⟨final, done, fed, count, fun silent => quiet ?_⟩
      simp [current, Progress.feed, silent]

section Agreement

variable {sha1 sha256 : Bytes → Bytes} {oid : Text} {limits : GitCaptureLimits}

/-- The object that a preimage stands for. -/
def objectOf (sha256 : Bytes → Bytes) (oid : Text) (preimage : Bytes) (kind : ObjectKind)
    (payload : Bytes)
    : GitObject where
  oid
  kind
  size := payload.length
  preimageSha256 := sha256 preimage
  payloadSha256 := sha256 payload
  payload := some payload

/-- The preimage of a commit or a tree: a header that fits, and a payload of the size it states. -/
structure Preimage (sha1 : Bytes → Bytes) (oid : Text) (limits : GitCaptureLimits)
    (preimage header payload : Bytes) (kind : ObjectKind) : Prop where
  split : preimage = header ++ [0] ++ payload
  nulFree : 0 ∉ header
  short : header.length + 1 ≤ 64
  header : matchHeader header = some (kind, payload.length)
  named : kind = .commit ∨ kind = .tree
  bounded : payload.length ≤ kindBound limits kind
  hashed : hex (sha1 preimage) = oid

variable {header : Bytes}

/-- The front of a text up to its first zero. -/
theorem takeWhile_zero (nulFree : 0 ∉ header)
    : (header ++ [0] ++ payload).takeWhile (· ≠ 0) = header := by
  have inside : ∀ byte ∈ header, decide (byte ≠ 0) = true := by
    rintro byte listed
    refine decide_eq_true ?_
    rintro rfl
    exact nulFree listed
  rw [List.append_assoc, List.takeWhile_append_of_pos inside]
  simp

theorem drop_zero
    : (header ++ [0] ++ payload).drop (header.length + 1) = payload :=
  List.drop_left' (by simp)

/-- A text with a zero splits at the first. -/
theorem exists_split {data : Bytes} (zero : 0 ∈ data)
    : ∃ header payload, data = header ++ [0] ++ payload ∧ 0 ∉ header := by
  obtain ⟨header, payload, split, nulFree⟩ := List.eq_append_cons_of_mem zero
  exact ⟨header, payload, by simpa using split, nulFree⟩

/-- The kinds that a header can name. -/
theorem matchHeader_kind {size : Nat} (named : matchHeader header = some (kind, size))
    : kind = .commit ∨ kind = .tree ∨ kind = .blob := by
  unfold matchHeader at named
  obtain ⟨found, looked, rest⟩ := Option.bind_eq_some_iff.mp named
  obtain ⟨_, _, same⟩ := Option.map_eq_some_iff.mp rest
  have listed := List.mem_of_find?_eq_some looked
  cases same
  simpa using listed

theorem metadataGitObject_ok_iff {preimage : Bytes} (identified : IsOid oid)
    {object : GitObject}
    : metadataGitObject sha1 sha256 oid preimage limits = .ok object
      ↔ ∃ header payload kind, Preimage sha1 oid limits preimage header payload kind
        ∧ object = objectOf sha256 oid preimage kind payload := by
  have checked : checkOid oid = .ok oid := checkOid_ok.mpr ⟨identified, rfl⟩
  simp only [metadataGitObject, checked, ok_bind, check_ok, demand_ok]
  constructor
  · rintro ⟨within, ⟨zero, short⟩, done⟩
    obtain ⟨header, payload, rfl, nulFree⟩ := exists_split zero
    simp only [takeWhile_zero nulFree, drop_zero] at short done
    split at done
    · cases done
    next kind size named =>
      simp only [check_ok, demand_ok, Except.ok.injEq] at done
      obtain ⟨notBlob, ⟨rfl, bounded⟩, hashed, rfl⟩ := done
      refine ⟨header, payload, kind, ⟨rfl, nulFree, short, named, ?_, ?_, hashed⟩, rfl⟩
      · rcases matchHeader_kind named with commit | tree | blob
        · exact .inl commit
        · exact .inr tree
        · exact absurd blob notBlob
      · rcases matchHeader_kind named with rfl | rfl | rfl
        · exact bounded
        · exact bounded
        · exact absurd rfl notBlob
  · rintro ⟨header, payload, kind, is, rfl⟩
    obtain ⟨rfl, nulFree, short, named, kinds, bounded, hashed⟩ := is
    have whole : (header ++ [0] ++ payload).length = header.length + 1 + payload.length := by
      simp only [List.length_append, List.length_singleton]
    have maximum : kindBound limits kind = if kind = .commit then limits.objects.maxCommitBytes
        else limits.objects.maxTreeBytes := by
      rcases kinds with rfl | rfl
      · rfl
      · rfl
    refine ⟨?_, ⟨by simp, ?_⟩, ?_⟩
    · rw [whole]
      rcases kinds with rfl | rfl
      · exact (by simp only [kindBound] at bounded; omega)
      · exact (by simp only [kindBound] at bounded; omega)
    · rwa [takeWhile_zero nulFree]
    · simp only [takeWhile_zero nulFree, drop_zero, named, check_ok, demand_ok,
        ← maximum]
      refine ⟨?_, ⟨trivial, bounded⟩, hashed, rfl⟩
      rcases kinds with rfl | rfl
      · decide
      · decide

/-- The first read has the header where it is short enough. -/
theorem zero_mem_take_iff (nulFree : 0 ∉ header)
    : (0 : Byte) ∈ (header ++ [0] ++ payload).take 64 ↔ header.length + 1 ≤ 64 := by
  constructor
  · intro early
    by_contra long
    have inside : (header ++ [0] ++ payload).take 64 <+: header := by
      rw [List.append_assoc, List.take_append_of_le_length (by omega)]
      exact List.take_prefix ..
    exact nulFree (inside.subset early)
  · intro short
    rw [List.take_append, List.take_of_length_le (by simpa using short)]
    simp

theorem take_split (short : header.length + 1 ≤ 64)
    : (header ++ [0] ++ payload).take 64
      = header ++ [0] ++ payload.take (64 - (header.length + 1)) := by
  rw [List.take_append, List.take_of_length_le (by simpa using short)]
  simp

/-- The blocks of a file are its payload. -/
theorem readBlocks_payload (holds : file.Holds (header ++ [0] ++ payload)) (other : kind ≠ .blob)
    : readBlocks file kind (header.length + 1) payload.length { output := none }
        (payload.take (64 - (header.length + 1)))
      = .ok { count := payload.length, content := payload, retained := payload, output := none } := by
  have fed : Progress.Fed { output := none } kind payload :=
    ⟨by simp, Nat.zero_le _, fun _ => rfl⟩
  have first : payload.take (64 - (header.length + 1)) <+: payload.drop 0 := List.take_prefix ..
  obtain ⟨final, done, fed, count, quiet⟩ := readBlocks_holds holds (by simp) fed first
  have content : final.content = payload := by rw [fed.content, count, List.take_length]
  have length : (header ++ [0]).length = header.length + 1 := by simp
  rw [length] at done
  rw [done]
  obtain ⟨_, _, _, _⟩ := final
  simp only at count content quiet
  have retained := fed.retained other
  simp_all

theorem readObject_ok_iff {euid : Int} {file : OpenFile} {preimage : Bytes}
    {treeRemaining : Option Int} (holds : file.Holds preimage)
    (owned : file.before.IsPrivate euid)
    (fits : preimage.length ≤ limits.objects.maxTotalPreimageBytes)
    (notBlob : ∀ size, matchHeader (preimage.takeWhile (· ≠ 0)) ≠ some (.blob, size))
    (remaining : ∀ size, matchHeader (preimage.takeWhile (· ≠ 0)) = some (.tree, size)
      → ∀ left ∈ treeRemaining, (size : Int) ≤ left)
    {object : GitObject} {output : Option Bytes}
    : readObject sha1 sha256 euid file oid limits none treeRemaining = .ok (object, output)
      ↔ output = none ∧ ∃ header payload kind, Preimage sha1 oid limits preimage header payload kind
        ∧ object = { objectOf sha256 oid preimage kind payload with
            stamp := some (fileStamp file.before) } := by
  have regular : checkRegular euid file.before limits.objects.maxTotalPreimageBytes = .ok () := by
    simp only [checkRegular, check_ok, demand_ok]
    exact ⟨owned, by rw [holds.size]; exact_mod_cast fits⟩
  simp only [readObject, regular, ok_bind, holds.first, check_ok, demand_ok]
  constructor
  · rintro ⟨early, done⟩
    obtain ⟨header, payload, rfl, nulFree⟩ := exists_split (List.mem_of_mem_take early)
    have short := (zero_mem_take_iff nulFree).mp early
    simp only [take_split short, takeWhile_zero nulFree, drop_zero] at done
    rw [takeWhile_zero nulFree] at notBlob
    split at done
    · cases done
    next kind size named =>
      simp only [check_ok, demand_ok, holds.size] at done
      obtain ⟨bounded, _, sized, _, done⟩ := done
      have kinds : kind = .commit ∨ kind = .tree := by
        rcases matchHeader_kind named with commit | tree | rfl
        · exact .inl commit
        · exact .inr tree
        · exact absurd named (notBlob size)
      have other : kind ≠ .blob := by
        rcases kinds with rfl | rfl
        · decide
        · decide
      obtain rfl : payload.length = size := by
        simp only [List.length_append, List.length_singleton] at sized
        omega
      simp only [readBlocks_payload holds other, ok_bind, check_ok, demand_ok,
        if_neg other] at done
      obtain ⟨⟨-, hashed, -⟩, done⟩ := done
      obtain ⟨rfl, rfl⟩ := Prod.mk.inj (Except.ok.inj done)
      exact ⟨rfl, header, payload, kind, ⟨rfl, nulFree, short, named, kinds, bounded, hashed⟩, rfl⟩
  · rintro ⟨rfl, header, payload, kind, is, rfl⟩
    obtain ⟨rfl, nulFree, short, named, kinds, bounded, hashed⟩ := is
    rw [takeWhile_zero nulFree] at remaining
    have other : kind ≠ .blob := by
      rcases kinds with rfl | rfl
      · decide
      · decide
    refine ⟨(zero_mem_take_iff nulFree).mpr short, ?_⟩
    simp only [take_split short, takeWhile_zero nulFree, drop_zero, named,
      readBlocks_payload holds other, ok_bind, check_ok, demand_ok, if_neg other]
    refine ⟨bounded, ?_, ?_, .inl trivial, ⟨trivial, hashed, holds.unchanged⟩, rfl⟩
    · rintro ⟨rfl, left, given, beyond⟩
      exact absurd (remaining _ named left given) (not_le.mpr beyond)
    · rw [holds.size]
      simp only [List.length_append, List.length_singleton]

/-- Both readers reject, or both return the object, which only the reading of a file stamps. -/
theorem readObject_agrees {euid : Int} {file : OpenFile} {preimage : Bytes}
    {treeRemaining : Option Int} (identified : IsOid oid) (holds : file.Holds preimage)
    (owned : file.before.IsPrivate euid)
    (fits : preimage.length ≤ limits.objects.maxTotalPreimageBytes)
    (notBlob : ∀ size, matchHeader (preimage.takeWhile (· ≠ 0)) ≠ some (.blob, size))
    (remaining : ∀ size, matchHeader (preimage.takeWhile (· ≠ 0)) = some (.tree, size)
      → ∀ left ∈ treeRemaining, (size : Int) ≤ left)
    : (∃ raised refused,
        readObject sha1 sha256 euid file oid limits none treeRemaining = .error raised
        ∧ metadataGitObject sha1 sha256 oid preimage limits = .error refused)
      ∨ ∃ object,
        readObject sha1 sha256 euid file oid limits none treeRemaining
          = .ok ({ object with stamp := some (fileStamp file.before) }, none)
        ∧ metadataGitObject sha1 sha256 oid preimage limits = .ok object := by
  have streamed := @readObject_ok_iff sha1 sha256 oid limits euid file preimage treeRemaining
    holds owned fits notBlob remaining
  have kept := @metadataGitObject_ok_iff sha1 sha256 oid limits preimage identified
  by_cases accepted : ∃ header payload kind, Preimage sha1 oid limits preimage header payload kind
  · obtain ⟨header, payload, kind, is⟩ := accepted
    exact .inr ⟨objectOf sha256 oid preimage kind payload,
      streamed.mpr ⟨rfl, header, payload, kind, is, rfl⟩, kept.mpr ⟨header, payload, kind, is, rfl⟩⟩
  · left
    cases read : readObject sha1 sha256 euid file oid limits none treeRemaining with
    | ok found =>
        obtain ⟨_, header, payload, kind, is, _⟩ := streamed.mp read
        exact absurd ⟨header, payload, kind, is⟩ accepted
    | error raised =>
        cases replayed : metadataGitObject sha1 sha256 oid preimage limits with
        | ok object =>
            obtain ⟨header, payload, kind, is, _⟩ := kept.mp replayed
            exact absurd ⟨header, payload, kind, is⟩ accepted
        | error refused => exact ⟨raised, refused, rfl, rfl⟩

end Agreement

/-- `hashlib.sha1` on the preimage of the empty tree. -/
def emptyTreeSha1 : Bytes → Bytes :=
  fun _ => oidBytes (py "4b825dc642cb6eb9a060e54bf8d69288fbee4904")

/-- `hashlib.sha256` on the preimage of the empty tree and on its payload. -/
def emptyTreeSha256 : Bytes → Bytes
  | [] => oidBytes (py "e3b0c44298fc1c149afbf4c8996fb92427ae41e4649b934ca495991b7852b855")
  | _ => oidBytes (py "6ef19b41225c5369f1c104d45d8d85efa9b057b53b14b4b9b939dd74decc5321")

/-- The empty tree in a private file that is read byte by byte after the first read. -/
def emptyTreeFile : OpenFile where
  before := ⟨1, 2, 0o100600, 1, 7, 3, 4, 1000⟩
  after := ⟨1, 2, 0o100600, 1, 7, 3, 4, 1000⟩
  read offset requested :=
    ((objectHeader .tree 0).drop offset).take (if offset = 0 then requested else 1)

theorem readObject_agrees_emptyTree
    : ∃ object,
        readObject emptyTreeSha1 emptyTreeSha256 1000 emptyTreeFile
            (py "4b825dc642cb6eb9a060e54bf8d69288fbee4904") {} none (some 0)
          = .ok ({ object with stamp := some (fileStamp emptyTreeFile.before) }, none)
        ∧ metadataGitObject emptyTreeSha1 emptyTreeSha256
            (py "4b825dc642cb6eb9a060e54bf8d69288fbee4904") (objectHeader .tree 0) {}
          = .ok object := by
  have header : (objectHeader .tree 0).takeWhile (· ≠ 0) = pyb "tree 0" := by decide
  have holds : emptyTreeFile.Holds (objectHeader .tree 0) := by
    refine ⟨by decide, rfl, rfl, ?_⟩
    intro offset requested later asked
    refine ⟨1, Nat.one_pos, asked, ?_⟩
    simp only [emptyTreeFile, if_neg later.ne']
  have agrees := @readObject_agrees emptyTreeSha1 emptyTreeSha256
    (py "4b825dc642cb6eb9a060e54bf8d69288fbee4904") {} 1000 emptyTreeFile (objectHeader .tree 0)
    (some 0) (by decide) holds (by decide) (by decide)
    (by rw [header]; intro size named; cases named) (by
      rw [header]
      rintro size named left given
      cases named
      cases given
      decide)
  refine agrees.resolve_left ?_
  rintro ⟨_, refused, -, refuses⟩
  have accepts : (metadataGitObject emptyTreeSha1 emptyTreeSha256
      (py "4b825dc642cb6eb9a060e54bf8d69288fbee4904") (objectHeader .tree 0) {}).toBool = true := by
    decide
  rw [refuses] at accepts
  cases accepts

end Scanipy.Integrations.Scm.GitObjects
