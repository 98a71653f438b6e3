import Scanipy.Db.Accepted.Scanning
import Scanipy.Services.Scan.SourceCapture

/-! What sealing a capture reserves: the work grows with the product of the length of an envelope and
the number of its values, so an inventory of many files exhausts the meter that no envelope of few
values does.
-/

namespace Scanipy.Db.Accepted

open Library
open Library.Charged (Costs costOf lift_ok bind_apply)
open Python
open Integrations.Scm.GitObjects (StatResult)
open Services.Scan.SourceCapture

-- Reservations

/-- What `v1_concat_reserve` reserves for one copy of an envelope. -/
def concatCost (size values : Nat) : Nat :=
  8 * (size + 1) * (values + 1) + 16 * size + 4096

/-- How the operations of the execution ledger are scanned before they are called. -/
def wideLimits : LexicalLimits :=
  ⟨1048576, 1048576, 32⟩

variable {meter : Meter Bucket} {bucket : Bucket}

theorem costOf_fits_iff {amount : Nat}
    : meter.Fits (costOf bucket amount) ↔ amount ≤ meter.room bucket := by
  constructor
  · intro fits
    simpa [costOf] using fits bucket
  · intro fits other
    by_cases same : other = bucket
    · simpa [costOf, same] using fits
    · simp [costOf, same]

variable {after : Meter Bucket}

theorem needs_ok {condition : Prop} [Decidable condition] {reason : String} {value : Unit}
    : needs condition reason meter = .ok (value, after) ↔ condition ∧ after = meter := by
  rw [needs, Charged.need, lift_ok, demand_ok]

variable {values : Nat}

/-- A reservation succeeds when it is within its own bounds and fits, and pays its cost. -/
theorem concatReserve_ok {size : Nat} (shorter : size ≤ 1049088) (fewer : values ≤ 1048640)
    : concatReserve size values 1 meter = .ok ((), after)
      ↔ concatCost size values ≤ 2147483648
        ∧ concatCost size values ≤ meter.room .concatenation
        ∧ after = meter.pay (costOf .concatenation (concatCost size values)) := by
  have copies : size ≤ 1049088 ∧ values ≤ 1048640 ∧ 1 ≤ 1 ∧ 1 ≤ 3 :=
    ⟨shorter, fewer, Nat.le_refl 1, by decide⟩
  have paid : Costs (charge .concatenation (concatCost size values * 1)) ()
      (costOf .concatenation (concatCost size values)) := by
    rw [Nat.mul_one]
    exact Costs.charge _ _ _
  unfold concatReserve
  simp only [Charged.bind_ok, needs_ok, Nat.div_one, ← concatCost.eq_1 size values]
  constructor
  · rintro ⟨_, _, ⟨_, rfl⟩, _, _, ⟨small, rfl⟩, charged⟩
    obtain ⟨fits, _, same⟩ := paid.fits_of_ok charged
    exact ⟨small, costOf_fits_iff.mp fits, same⟩
  · rintro ⟨small, fits, rfl⟩
    exact ⟨(), meter, ⟨copies, rfl⟩, (), meter, ⟨small, rfl⟩, paid.runs (costOf_fits_iff.mpr fits)⟩

variable {data : Bytes}

/-- A payload of `register` is scanned, and reserves for its values. -/
theorem preflightPayload_ok {place : Nat}
    (scanned : lexical wideLimits 1048576 data = .ok values) (fewer : values ≤ 1048640)
    (short : data.length ≤ 1048576)
    : preflightPayload .register (data, place) meter = .ok ((), after)
      ↔ concatCost data.length values ≤ 2147483648
        ∧ concatCost data.length values ≤ meter.room .concatenation
        ∧ after = meter.pay (costOf .concatenation (concatCost data.length values)) := by
  rw [← concatReserve_ok (by omega) fewer]
  have lifted : (Charged.lift (lexical wideLimits 1048576 data) : Work Nat) meter
      = .ok (values, meter) :=
    lift_ok.mpr ⟨scanned, rfl⟩
  have unended : needs (Helper.register.IsEnd → data.length ≤ 65536 ∧ values ≤ 64) "invalid-input"
      meter = .ok ((), meter) :=
    needs_ok.mpr ⟨fun ended => absurd ended (by decide), rfl⟩
  have same : preflightPayload .register (data, place) meter
      = (concatReserve data.length values 1 >>= fun _ => pure ()) meter := by
    unfold preflightPayload
    rw [bind_apply, ← wideLimits, lifted]
    dsimp only
    rw [bind_apply, unended]
    rfl
  rw [same, Charged.bind_ok]
  constructor
  · rintro ⟨_, _, ran, ended⟩
    cases ended
    exact ran
  · exact fun ran => ⟨_, _, ran, rfl⟩

theorem room_pay (amount : Nat)
    : (meter.pay (costOf bucket amount)).room bucket = meter.room bucket - amount := by
  simp only [Meter.room, Meter.pay, costOf, if_true]
  omega

/-- The preflight of a sealing succeeds exactly where the reservations of the three envelopes fit
together into what is left of the meter, which is never more than one reservation may be.
-/
theorem register_preflight_iff {first second third : Bytes} {a b c : Nat}
    (firstScan : lexical wideLimits 1048576 first = .ok a ∧ a ≤ 1048640)
    (secondScan : lexical wideLimits 1048576 second = .ok b ∧ b ≤ 1048640)
    (thirdScan : lexical wideLimits 1048576 third = .ok c ∧ c ≤ 1048640)
    (short : first.length ≤ 1048576 ∧ second.length ≤ 1048576 ∧ third.length ≤ 1048576)
    (capped : meter.room .concatenation ≤ 2147483648)
    : (∃ after, lowerPreflight .register [first, second, third] meter = .ok ((), after))
      ↔ concatCost first.length a + concatCost second.length b + concatCost third.length c
        ≤ meter.room .concatenation := by
  have sized : byteArray [first, second, third] 3
      = .ok (first.length + second.length + third.length) := by
    have total : ([first, second, third].map List.length).sum
        = first.length + second.length + third.length := by
      simp [Nat.add_assoc]
    have each : [first, second, third].all (fun part => part.length ≤ 1048576) = true := by
      simp [short]
    unfold byteArray
    simp only [bind_ok, valid_ok, total]
    refine ⟨(), Nat.le_refl 3, (), each, (), ?_, ?_⟩
    · omega
    · trivial
  have run (after : Meter Bucket) : lowerPreflight .register [first, second, third] meter
        = .ok ((), after)
      ↔ ∃ one two, preflightPayload .register (first, 0) meter = .ok ((), one)
          ∧ preflightPayload .register (second, 1) one = .ok ((), two)
          ∧ preflightPayload .register (third, 2) two = .ok ((), after) := by
    simp only [lowerPreflight, Charged.bind_ok, lift_ok, needs_ok, sized,
      List.zipIdx_cons, List.zipIdx_nil, Metered.visit]
    constructor
    · rintro ⟨_, _, ⟨_, rfl⟩, _, _, ⟨_, rfl⟩, _, _, ⟨_, _, one, _, _, two, _, _, three, ended⟩, last⟩
      cases ended
      cases last
      exact ⟨_, _, one, two, three⟩
    · rintro ⟨_, _, one, two, three⟩
      exact ⟨_, meter, ⟨rfl, rfl⟩, (), meter, ⟨rfl, rfl⟩, (), after,
        ⟨(), _, one, (), _, two, (), _, three, rfl⟩, rfl⟩
  simp only [run]
  constructor
  · rintro ⟨_, _, _, one, two, three⟩
    rw [preflightPayload_ok firstScan.1 firstScan.2 short.1] at one
    obtain ⟨_, one, rfl⟩ := one
    rw [preflightPayload_ok secondScan.1 secondScan.2 short.2.1] at two
    obtain ⟨_, two, rfl⟩ := two
    rw [preflightPayload_ok thirdScan.1 thirdScan.2 short.2.2] at three
    obtain ⟨_, three, rfl⟩ := three
    rw [room_pay] at two three
    rw [room_pay] at three
    omega
  · intro fits
    refine ⟨_, _, _, (preflightPayload_ok firstScan.1 firstScan.2 short.1).mpr
      ⟨by omega, by omega, rfl⟩,
      (preflightPayload_ok secondScan.1 secondScan.2 short.2.1).mpr
      ⟨by omega, by rw [room_pay]; omega, rfl⟩,
      (preflightPayload_ok thirdScan.1 thirdScan.2 short.2.2).mpr
      ⟨by omega, by rw [room_pay, room_pay]; omega, rfl⟩⟩

theorem tokens_fileRecord (path : Text) (digest : Bytes) (size : Nat)
    : tokens (fileRecord path digest size) = 7 :=
  rfl

variable {records : List Json}

/-- Five values, and seven for every file. -/
theorem tokens_inventory (each : ∀ record ∈ records, tokens record = 7)
    : tokens (inventoryDocument records) = 7 * records.length + 5 := by
  have items : tokensItems records = 7 * records.length := by
    rw [tokensItems_eq_sum, List.map_congr_left each, List.map_const', List.sum_replicate_nat,
      Nat.mul_comm]
  simp only [inventoryDocument, tokens, tokensMembers, items]
  omega

theorem scannable_inventory
    (each : ∀ record ∈ records, ∃ path digest size, record = fileRecord path digest size
      ∧ size < 2 ^ 63)
    : Scannable 32 0 (inventoryDocument records) := by
  have names : [py "files", py "schema"].Pairwise (· < ·) := by decide
  have fields : [py "path", py "sha256", py "size"].Pairwise (· < ·) := by decide
  refine ⟨by decide, names, ⟨by decide, scannableItems_iff.mpr ?_⟩, trivial, trivial⟩
  intro record member
  obtain ⟨path, digest, size, rfl, small⟩ := each record member
  exact ⟨by decide, fields, trivial, trivial, ⟨by omega, by omega⟩, trivial⟩

variable {sha256 : Bytes → Bytes}

/-- The inventory of a capture is scanned before it is sealed, and its values are counted. -/
theorem inventory_scanned {euid : Int} {objectId : Uuid} {binding : CaptureBinding}
    {children : List (Text × SourceEntry)} {receipt : CaptureReceipt}
    (captured : capture sha256 {} euid objectId binding children = .ok receipt)
    : lexical wideLimits 1048576 receipt.inventoryBytes = .ok (7 * receipt.fileCount + 5)
      ∧ 7 * receipt.fileCount + 5 ≤ 1048576 ∧ receipt.inventoryBytes.length ≤ 1048576 := by
  obtain ⟨records, written, short, count, few, each⟩ := capture_lists captured
  have few' : records.length ≤ 20000 := few
  have short' : receipt.inventoryBytes.length ≤ 1048576 := short
  have total : tokens (inventoryDocument records) = 7 * receipt.fileCount + 5 := by
    rw [count]
    refine tokens_inventory fun record member => ?_
    obtain ⟨path, digest, size, rfl, _⟩ := each record member
    exact tokens_fileRecord path digest size
  have scannable : Scannable wideLimits.depth 0 (inventoryDocument records) := by
    refine scannable_inventory fun record member => ?_
    obtain ⟨path, digest, size, rfl, small⟩ := each record member
    have small' : size ≤ 64 * 1024 * 1024 := small
    exact ⟨path, digest, size, rfl, by omega⟩
  refine ⟨?_, by omega, short'⟩
  rw [written] at short' ⊢
  rw [← total]
  refine lexical_dumps scannable ?_ short' (by decide)
  show tokens (inventoryDocument records) ≤ 1048576
  omega

/-- A scanned envelope of at most `65536` bytes and `1000` values. -/
structure SmallEnvelope (data : Bytes) (values : Nat) : Prop where
  scanned : lexical wideLimits 1048576 data = .ok values
  length : data.length ≤ 65536
  values : values ≤ 1000

theorem SmallEnvelope.cost (small : SmallEnvelope data values)
    : concatCost data.length values ≤ 525872968 := by
  have product : (data.length + 1) * (values + 1) ≤ 65537 * 1001 :=
    Nat.mul_le_mul (by have := small.length; omega) (by have := small.values; omega)
  have length := small.length
  rw [concatCost, Nat.mul_assoc]
  omega

/-- A capture of a source can be reserved for sealing exactly when the reservations of its seal, of
its inventory, which has five values and seven for every file, and of its content fit together into
the meter; an inventory whose own reservation is at most `1095737712` fits with every seal and every
content. Witness: `register_preflight_iff`, on the scan of the inventory.
-/
theorem capture_reserved_iff {sha256 : Bytes → Bytes} {euid : Int} {objectId : Uuid}
    {binding : CaptureBinding} {children : List (Text × SourceEntry)} {receipt : CaptureReceipt}
    {sealBytes contentBytes : Bytes} {sealValues contentValues : Nat} {meter : Meter Bucket}
    (captured : capture sha256 {} euid objectId binding children = .ok receipt)
    (sealSmall : SmallEnvelope sealBytes sealValues)
    (contentSmall : SmallEnvelope contentBytes contentValues)
    (unused : meter.room .concatenation = 2147483648)
    : ((∃ after, lowerPreflight .register [sealBytes, receipt.inventoryBytes, contentBytes] meter
          = .ok ((), after))
        ↔ concatCost sealBytes.length sealValues
            + concatCost receipt.inventoryBytes.length (7 * receipt.fileCount + 5)
            + concatCost contentBytes.length contentValues
          ≤ 2147483648)
      ∧ (concatCost receipt.inventoryBytes.length (7 * receipt.fileCount + 5) ≤ 1095737712
          → ∃ after, lowerPreflight .register [sealBytes, receipt.inventoryBytes, contentBytes] meter
              = .ok ((), after)) := by
  obtain ⟨scanned, few, short⟩ := inventory_scanned captured
  have sealLength := sealSmall.length
  have contentLength := contentSmall.length
  have reserved := register_preflight_iff
    ⟨sealSmall.scanned, sealSmall.values.trans (by decide)⟩ ⟨scanned, few.trans (by decide)⟩
    ⟨contentSmall.scanned, contentSmall.values.trans (by decide)⟩
    ⟨by omega, short, by omega⟩ unused.le
  rw [unused] at reserved
  refine ⟨reserved, fun fits => reserved.mpr ?_⟩
  have sealCost := sealSmall.cost
  have contentCost := contentSmall.cost
  omega

-- Sources of many files

/-- An empty file that its owner alone may write. -/
def emptyFile (index : Nat) : StatResult where
  dev := 0
  ino := index
  mode := 0o100644
  nlink := 1
  size := 0
  mtimeNs := 0
  ctimeNs := 0
  uid := 0

/-- A directory of empty files with numbers as their names. -/
def numbered (count : Nat) : List (Text × SourceEntry) :=
  (List.range count).map fun index => (decimal index, .file (emptyFile index) [])

def numberedBinding : CaptureBinding where
  orgId := 1
  codebaseId := 2
  requestId := 3
  resolvedCommit := py "0000000000000000000000000000000000000000"

/-- What the walk has for a file. -/
def numberedEntry (index : Nat) : WalkEntry :=
  ⟨[decimal index], some (emptyFile index, [])⟩

theorem decimal_isComponent (index : Nat) : IsComponent (decimal index) := by
  constructor
  · intro listed
    have dotted : decimal index ≠ [] → (Fin.ofNat 0x110000 0x2E : CodePoint) ∈ decimal index := by
      intro nonempty
      have others : decimal index ∈ [py ".", py "..", py ".git"] :=
        (List.mem_cons.mp listed).resolve_left nonempty
      have each : ∀ name ∈ [py ".", py "..", py ".git"],
          (Fin.ofNat 0x110000 0x2E : CodePoint) ∈ name := by
        decide
      exact each _ others
    obtain ⟨_, _, _, _, same, _⟩ := Json.decimal_shape index
    have digit := decimal_ascii index _ (dotted (by rw [same]; exact List.cons_ne_nil _ _))
    exact absurd digit.1 (by decide)
  · intro point member
    have range := decimal_ascii index point member
    omega

theorem length_decimal_utf8 (index : Nat) : (decimal index).utf8.length = (decimal index).length :=
  Json.length_utf8_ascii fun point member => by
    have range := decimal_ascii index point member
    omega

variable {index : Nat}

theorem pathBytes_decimal (small : index < 1000)
    : pathBytes {} [decimal index] = .ok (decimal index).utf8 := by
  have length : (decimal index).length ≤ 3 := length_decimal_le (by decide) small
  have components : ∀ name ∈ [decimal index], IsComponent name := by
    intro name member
    rw [List.mem_singleton.mp member]
    exact decimal_isComponent index
  simp only [pathBytes, bind_ok,
    Services.Scan.SourceCapture.require_ok_iff]
  refine ⟨(), components, (), decimal_encodable index, (), ⟨?_, ?_⟩, rfl⟩
  · show 1 ≤ 64
    decide
  · show (decimal index).utf8.length ≤ 1024
    rw [length_decimal_utf8]
    omega

/-- The walk takes every file. By list induction. -/
theorem visitChildren_numbered (indices : List Nat) {walk : Walk}
    (entries : walk.entries.length + indices.length ≤ 20000)
    (files : walk.fileCount + indices.length ≤ 10000) (total : walk.total = 0)
    (small : ∀ index ∈ indices, index < 1000)
    : visitChildren {} 0 false [] walk
        (indices.map fun index => (decimal index, .file (emptyFile index) []))
      = .ok {
          entries := walk.entries ++ indices.map numberedEntry
          fileCount := walk.fileCount + indices.length
          total := 0 } := by
  induction indices generalizing walk with
  | nil => simp [visitChildren, ← total]
  | cons index rest ih =>
      rw [List.length_cons] at entries files
      have checked : checkChild {} 0 false walk [decimal index] (emptyFile index) true 0o444
          = .ok () := by
        simp only [checkChild, bind_ok,
    Services.Scan.SourceCapture.require_ok_iff]
        refine ⟨_, pathBytes_decimal (small index List.mem_cons_self), (), ?_, (), trivial, (), ?_, ?_⟩
        · show walk.entries.length < 20000
          omega
        · have writable : 0o100644 &&& 0o7777 &&& 0o022 = 0 := by decide
          exact ⟨rfl, writable⟩
        · exact fun published => absurd published (by decide)
      have added : walk.addFile {} [decimal index] (emptyFile index) []
          = .ok ⟨walk.entries ++ [numberedEntry index], walk.fileCount + 1, 0⟩ := by
        simp only [Walk.addFile, bind_ok,
    Services.Scan.SourceCapture.require_ok_iff]
        refine ⟨(), rfl, (), ⟨?_, ?_, ?_⟩, ?_⟩
        · show walk.fileCount + 1 ≤ 10000
          omega
        · exact Int.natCast_nonneg _
        · rw [total]
          exact Int.natCast_nonneg _
        · rw [total]
          rfl
      rw [List.map_cons, visitChildren, List.nil_append, visitEntry, checked, ok_bind, added,
        ok_bind, ih]
      · simp [List.append_assoc, Nat.add_assoc, Nat.add_comm 1]
      · simp only [List.length_append, List.length_singleton]
        omega
      · dsimp only
        omega
      · rfl
      · exact fun other later => small other (List.mem_cons_of_mem _ later)

/-- The length of an inventory, by its tokens. -/
theorem length_inventory (records : List Json)
    : (inventoryDocument records).dumps.utf8.length
      = 60 + (records.length - 1) + (records.map fun record => record.dumps.utf8.length).sum := by
  have each := Json.length_utf8_dumpsItems 2 records
  rw [Json.dumpsItems_eq, List.map_map] at each
  have names : Json.quoteCost (py "files") = 7 ∧ Json.quoteCost (py "schema") = 8
      ∧ Json.quoteCost (py "scanipy-execution/source-inventory/1") = 38 := by
    simp only [py, toList_literal]
    decide +kernel
  rw [Json.length_utf8_dumps 0]
  simp only [inventoryDocument, Json.tokens, Json.tokensMembers, Json.cost_cons, Json.cost_append,
    Json.cost_nil, Json.Token.cost, List.length_cons, List.length_nil, names, ← each,
    Function.comp_def]
  omega

theorem quoteCost_hex (data : Bytes) : Json.quoteCost (hex data) = 2 * data.length + 2 := by
  rw [Json.quoteCost_plain, length_hex]
  intro point member
  have digit := isHex_of_mem_hex point member
  simp only [isHex, isDigit, between, Bool.or_eq_true, Bool.and_eq_true, decide_eq_true_eq] at digit
  omega

theorem length_fileRecord {digest : Bytes} (short : digest.length = 32)
    : (fileRecord (decimal index) digest 0).dumps.utf8.length = 96 + (decimal index).length := by
  have names : Json.quoteCost (py "path") = 6 ∧ Json.quoteCost (py "sha256") = 8
      ∧ Json.quoteCost (py "size") = 6 ∧ (Json.numeral ((0 : Nat) : Int)).length = 1 := by
    simp only [py, toList_literal]
    decide +kernel
  have path : Json.quoteCost (decimal index) = (decimal index).length + 2 := by
    apply Json.quoteCost_plain
    intro point member
    have range := decimal_ascii index point member
    omega
  rw [Json.length_utf8_dumps 0]
  simp only [fileRecord, Json.tokens, Json.tokensMembers, Json.cost_cons, Json.cost_append,
    Json.cost_nil, Json.Token.cost, List.length_cons, List.length_nil, names, path, quoteCost_hex,
    short]
  omega

/-- A manifest is not much longer than its inventory. -/
theorem length_manifest (digests : ∀ data, (sha256 data).length = 32) {evidence : TreeEvidence}
    (tree : evidence.treeDigest.length = 32) (few : evidence.fileCount < 10 ^ 9)
    (empty : evidence.contentBytes = 0)
    : (manifestDocument sha256 0 numberedBinding {} evidence).dumps.utf8.length
      ≤ evidence.document.dumps.utf8.length + 1200 := by
  have files : (Json.numeral (evidence.fileCount : Int)).length ≤ 9 :=
    length_decimal_le (by decide) few
  have names : Json.quoteCost (py "codebase_id") = 13
      ∧ Json.quoteCost (py "commit_algorithm") = 18
      ∧ Json.quoteCost (py "git-sha1") = 10
      ∧ Json.quoteCost (py "content_bytes") = 15
      ∧ Json.quoteCost (py "custody_profile") = 17
      ∧ Json.quoteCost (py "scanipy-local-source-custody/1") = 32
      ∧ Json.quoteCost (py "file_count") = 12
      ∧ Json.quoteCost (py "inventory") = 11
      ∧ Json.quoteCost (py "inventory_digest") = 18
      ∧ Json.quoteCost (py "limits") = 8
      ∧ Json.quoteCost (py "object_id") = 11
      ∧ Json.quoteCost (py "org_id") = 8
      ∧ Json.quoteCost (py "request_id") = 12
      ∧ Json.quoteCost (py "resolved_commit") = 17
      ∧ Json.quoteCost (py "0000000000000000000000000000000000000000") = 42
      ∧ Json.quoteCost (py "schema") = 8
      ∧ Json.quoteCost (py "scanipy-source-custody/manifest/1") = 35
      ∧ Json.quoteCost (py "tree_algorithm") = 16
      ∧ Json.quoteCost (py "sha256-length-prefixed-path-and-content-v1") = 44
      ∧ Json.quoteCost (py "tree_digest") = 13 := by
    simp only [py, toList_literal]
    decide +kernel
  have ids : Json.quoteCost (Uuid.text 0) = 38 ∧ Json.quoteCost (Uuid.text 1) = 38
      ∧ Json.quoteCost (Uuid.text 2) = 38 ∧ Json.quoteCost (Uuid.text 3) = 38 := by
    decide
  have limits : Json.cost (Json.tokens 1 (CaptureLimits.record {})) = 159 := by
    decide
  have none : (Json.numeral ((0 : Nat) : Int)).length = 1 := by
    decide
  rw [Json.length_utf8_dumps 0, Json.length_utf8_dumps 1 evidence.document]
  simp only [manifestDocument, numberedBinding, Json.tokens, Json.tokensMembers, Json.cost_cons,
    Json.cost_append, Json.cost_nil, Json.Token.cost, List.length_cons, List.length_nil,
    quoteCost_hex, digestIn, digests, tree, empty, names, ids, none, Nat.zero_add, limits]
  omega

/-- What a file contributes to the evidence. -/
def numberedEvidence (sha256 : Bytes → Bytes) (index : Nat) : FileEvidence where
  hashed := toBytes 8 (decimal index).utf8.length ++ (decimal index).utf8 ++ toBytes 8 0
  record := fileRecord (decimal index) (sha256 []) 0
  size := 0

theorem entryEvidence_numbered (small : index < 1000)
    : entryEvidence sha256 {} (numberedEntry index) = .ok (some (numberedEvidence sha256 index)) := by
  have path : pathBytes {} (numberedEntry index).parts = .ok (decimal index).utf8 :=
    pathBytes_decimal small
  have recorded : fileEvidence sha256 {} (numberedEntry index) (emptyFile index) []
      = .ok (numberedEvidence sha256 index) := by
    simp only [fileEvidence, path, ok_bind, bind_ok,
      Services.Scan.SourceCapture.require_ok_iff]
    refine ⟨(), Int.le_refl 0, (), rfl, ?_⟩
    rw [List.append_nil]
    rfl
  show (do
      let evidence ← fileEvidence sha256 {} (numberedEntry index) (emptyFile index) []
      .ok (some evidence)) = _
  rw [recorded, ok_bind]

/-- A sum of values between bounds, by list induction. -/
theorem sum_between {items : List Nat} {size : Nat → Nat} {low high : Nat}
    (each : ∀ item ∈ items, low ≤ size item ∧ size item ≤ high)
    : low * items.length ≤ (items.map size).sum ∧ (items.map size).sum ≤ high * items.length := by
  induction items with
  | nil => simp
  | cons head rest ih =>
      have first := each head List.mem_cons_self
      have others := ih fun item later => each item (List.mem_cons_of_mem _ later)
      rw [List.map_cons, List.sum_cons, List.length_cons, Nat.mul_succ, Nat.mul_succ]
      omega

/-- The evidence of the files in some order. -/
def numberedTree (sha256 : Bytes → Bytes) (indices : List Nat) : TreeEvidence :=
  let files := indices.map (numberedEvidence sha256)
  let document := inventoryDocument (files.map FileEvidence.record)
  { treeDigest := sha256 (files.flatMap FileEvidence.hashed)
    document
    inventory := document.dumps.utf8
    fileCount := files.length
    contentBytes := (files.map FileEvidence.size).sum }

/-- An inventory of empty files has between `97` and `100` bytes for every file. -/
theorem length_numberedTree (digests : ∀ data, (sha256 data).length = 32) {indices : List Nat}
    (small : ∀ index ∈ indices, index < 1000)
    : 97 * indices.length ≤ (numberedTree sha256 indices).inventory.length
      ∧ (numberedTree sha256 indices).inventory.length ≤ 100 * indices.length + 60 := by
  have sizes : ∀ index ∈ indices, 97 ≤ (numberedEvidence sha256 index).record.dumps.utf8.length
      ∧ (numberedEvidence sha256 index).record.dumps.utf8.length ≤ 99 := by
    intro index member
    have long : 0 < (decimal index).length := by
      obtain ⟨_, _, _, _, same, _⟩ := Json.decimal_shape index
      rw [same]
      exact Nat.succ_pos _
    have short : (decimal index).length ≤ 3 := length_decimal_le (by decide) (small index member)
    rw [numberedEvidence, length_fileRecord (digests [])]
    omega
  have total := sum_between sizes
  simp only [numberedTree, length_inventory, List.length_map, List.map_map, Function.comp_def]
  omega

variable {count : Nat}

/-- The evidence of a directory of empty files lists them in the order of their paths. -/
theorem treeEvidence_numbered (digests : ∀ data, (sha256 data).length = 32) (few : count ≤ 1000)
    : ∃ indices, indices.length = count ∧ (∀ index ∈ indices, index < 1000)
      ∧ treeEvidence sha256 {} 0 false (numbered count) = .ok (numberedTree sha256 indices) := by
  have small : ∀ index ∈ List.range count, index < 1000 :=
    fun index member => lt_of_lt_of_le (List.mem_range.mp member) few
  have room : ({} : Walk).entries.length + (List.range count).length ≤ 20000
      ∧ ({} : Walk).fileCount + (List.range count).length ≤ 10000 := by
    simp only [List.length_range, List.length_nil]
    omega
  have visited := visitChildren_numbered (List.range count) room.1 room.2 rfl small
  let indices := sortedBy (fun index => joined (numberedEntry index).parts) (List.range count)
  have walked : walkTree {} 0 false (numbered count) = .ok (indices.map numberedEntry) := by
    rw [walkTree, numbered, visited, ok_bind, List.nil_append, sortedBy_map]
  have number : indices.length = count := by
    rw [(sortedBy_perm _ _).length_eq, List.length_range]
  have listed : ∀ index ∈ indices, index < 1000 :=
    fun index member => small index (mem_sortedBy.mp member)
  have collected : Metered.collect (entryEvidence sha256 {}) (indices.map numberedEntry)
      = .ok (indices.map fun index => some (numberedEvidence sha256 index)) := by
    rw [collect_ok_iff, List.forall₂_map_left_iff, List.forall₂_map_right_iff, List.forall₂_same]
    exact fun index member => entryEvidence_numbered (listed index member)
  have files : (indices.map fun index => some (numberedEvidence sha256 index)).filterMap id
      = indices.map (numberedEvidence sha256) := by
    rw [List.filterMap_map, ← List.filterMap_eq_map]
    rfl
  have short := (length_numberedTree digests listed).2
  refine ⟨indices, number, listed, ?_⟩
  simp only [treeEvidence, walked, collected, ok_bind, files, bind_ok,
    Services.Scan.SourceCapture.require_ok_iff]
  refine ⟨(), ?_, rfl⟩
  show (numberedTree sha256 indices).inventory.length ≤ 1048576
  omega

/-- The capture takes a directory of empty files. -/
theorem capture_numbered (digests : ∀ data, (sha256 data).length = 32) (few : count ≤ 1000)
    : ∃ receipt, capture sha256 {} 0 0 numberedBinding (numbered count) = .ok receipt
      ∧ receipt.fileCount = count ∧ 97 * count ≤ receipt.inventoryBytes.length
      ∧ receipt.inventoryBytes.length ≤ 100 * count + 60 := by
  obtain ⟨indices, number, small, gathered⟩ := treeEvidence_numbered digests few
  obtain ⟨long, short⟩ := length_numberedTree digests small
  have files : (numberedTree sha256 indices).fileCount = count := by
    rw [← number]
    exact List.length_map _
  have empty : (numberedTree sha256 indices).contentBytes = 0 := by
    simp [numberedTree, numberedEvidence, Function.comp_def]
  have written := length_manifest digests (digests _) (by rw [files]; omega) empty
  have manifested : manifest sha256 0 numberedBinding {} (numberedTree sha256 indices)
      = .ok (manifestDocument sha256 0 numberedBinding {} (numberedTree sha256 indices)).dumps.utf8 := by
    simp only [manifest, bind_ok, Services.Scan.SourceCapture.require_ok_iff]
    refine ⟨(), Nat.le_trans written ?_, trivial⟩
    show (numberedTree sha256 indices).inventory.length + 1200 ≤ 1048576
    omega
  have walked : ∃ entries, walkTree {} 0 false (numbered count) = .ok entries := by
    simp only [treeEvidence, bind_ok] at gathered
    obtain ⟨entries, walked, _⟩ := gathered
    exact ⟨entries, walked⟩
  obtain ⟨entries, walked⟩ := walked
  let tree := numberedTree sha256 indices
  let written := (manifestDocument sha256 0 numberedBinding {} tree).dumps.utf8
  have captured : capture sha256 {} 0 0 numberedBinding (numbered count) = .ok {
      treeDigest := tree.treeDigest
      inventoryBytes := tree.inventory
      inventoryDigest := digestIn sha256 "scanipy-execution/source-inventory/1" tree.inventory
      manifestDigest := digestIn sha256 "scanipy-source-custody/manifest/1" written
      fileCount := tree.fileCount
      contentBytes := tree.contentBytes } := by
    rw [capture, walked, ok_bind, gathered, ok_bind, manifested, ok_bind]
  rw [number] at long short
  exact ⟨_, captured, files, long, short⟩

/-- An empty object. -/
def emptyEnvelope : Bytes :=
  pyb "\x7b\x7d"

theorem emptyEnvelope_small : SmallEnvelope emptyEnvelope 1 :=
  ⟨by decide, by decide, by decide⟩

/-- The digests of what a capture of one empty file hashes. -/
def oneFileDigests (data : Bytes) : Bytes :=
  toBytes 32
    (if data = [] then 0xe3b0c44298fc1c149afbf4c8996fb92427ae41e4649b934ca495991b7852b855
    else if data.length = 17 then 0xdb98b8225174cc52b62e8ff3f7d846dcfb55a04cf4893ecde7a9f1f65b39ea29
    else if data.length = 194 then
      0x1190b29b440b32d684b02058a2ff9390a8e904cf6d05abd21d5193f976cf13dd
    else 0x6e9c816ce07b5024a935f0bf4e9da79bcaffa110f5823d340b03d53ff9c5eca3)

theorem capture_reserved_one_file
    : ∃ receipt, capture oneFileDigests {} 0 0 numberedBinding (numbered 1) = .ok receipt
      ∧ ∃ after, lowerPreflight .register [emptyEnvelope, receipt.inventoryBytes, emptyEnvelope]
          Action.sealBoundCapture.meter = .ok ((), after) := by
  obtain ⟨receipt, captured, files, _, short⟩ :=
    capture_numbered (fun _ => length_toBytes _ _) (by decide : 1 ≤ 1000)
  refine ⟨receipt, captured, ?_⟩
  refine (capture_reserved_iff captured emptyEnvelope_small emptyEnvelope_small rfl).2 ?_
  rw [files, concatCost]
  omega

/-- A directory of `700` empty files is captured, but no preflight lets it be sealed, even with an
empty seal and an empty content. Witness: its inventory has `67900` bytes and `4905` values.
-/
theorem wide_capture_refused
    : ¬∃ sha256 : Bytes → Bytes, (∀ data, (sha256 data).length = 32)
      ∧ ∀ receipt, capture sha256 {} 0 0 numberedBinding (numbered 700) = .ok receipt
        → ∃ after, lowerPreflight .register [emptyEnvelope, receipt.inventoryBytes, emptyEnvelope]
            Action.sealBoundCapture.meter = .ok ((), after) := by
  rintro ⟨sha256, digests, admits⟩
  obtain ⟨receipt, captured, files, long, _⟩ := capture_numbered digests (by decide : 700 ≤ 1000)
  have admitted := admits receipt captured
  obtain ⟨scanned, few, short⟩ := inventory_scanned captured
  have small := emptyEnvelope_small
  rw [files] at scanned
  rw [register_preflight_iff ⟨small.scanned, by decide⟩ ⟨scanned, by decide⟩
    ⟨small.scanned, by decide⟩ ⟨by decide, short, by decide⟩ (by decide)] at admitted
  have room : Action.sealBoundCapture.meter.room .concatenation = 2147483648 := rfl
  have product : (67900 + 1) * (7 * 700 + 5 + 1)
      ≤ (receipt.inventoryBytes.length + 1) * (7 * 700 + 5 + 1) :=
    Nat.mul_le_mul_right _ (by omega)
  simp only [room, concatCost, Nat.mul_assoc] at admitted
  omega

end Scanipy.Db.Accepted
