import Mathlib.Data.Finset.Card
import Scanipy.Library.Decimals
import Scanipy.Python.Errors
import Scanipy.Python.JsonTokens
import Scanipy.Python.Utf8
import Scanipy.Services.Scan.DetectorWorker

/-! The oracle pipeline of the attestor: how many of the findings of one run are found again in
another. Findings are compared as a set of bytes, and the rate is rounded.
-/

namespace Scanipy.Services.Scan.Attestor

open Library Python

/-- `SARIFRun`, with the fields that the attestor reads. -/
structure SARIFRun where
  canonicalBytes : Bytes
  sarifHash : Text

/-- `SARIFLog`, with its core run and its oracle run. -/
structure SARIFLog where
  core : SARIFRun
  oracle : SARIFRun

/-- What `dict` keeps of the pairs that `json.loads` reads. -/
def plainPairs (members : List (Text × Json)) : Except PyError (List (Text × Json)) :=
  .ok (Dict.ofPairs members)

/-- `json.loads`, of canonical bytes; these have no floats. -/
def loadRun (run : SARIFRun) : Except PyError Json :=
  match Text.decode run.canonicalBytes with
  | none => .error (.valueError "invalid UTF-8")
  | some text => Json.loads plainPairs (.valueError "invalid JSON") text

/-- `doc.get("results", [])`, of a document that is a `dict`. -/
def results : Json → Except PyError (List Json)
  | .obj members =>
      match Dict.get? members (py "results") with
      | none => .ok []
      | some (.arr items) => .ok items
      | some _ => .error .typeError
  | _ => .error .typeError

/-- The canonical bytes of a Result. -/
def resultBytes (result : Json) : Except PyError Bytes :=
  match result.dumps.encode with
  | some data => .ok data
  | none => .error .unicodeEncodeError

/-- The findings of the oracle run, in order, as their canonical bytes. -/
def oracleFindings (log : SARIFLog) : Except PyError (List Bytes) := do
  let doc ← loadRun log.oracle
  let items ← results doc
  Metered.collect resultBytes items

/-- `_oracle_result_bytes`. -/
def oracleResultBytes (log : SARIFLog) : Except PyError (PySet Bytes) := do
  let findings ← oracleFindings log
  .ok (PySet.update [] findings)

/-- `Decimal(reproduced) / Decimal(total)`, in the default context of 28 digits. -/
def quotient (reproduced total : Nat) : ℚ :=
  roundDigits 28 (reproduced / total)

/-- `rate.quantize(Decimal("0.0001"))`. -/
def quantized (rate : ℚ) : ℚ :=
  roundTo (1 / 10000) rate

/-- The rate of two sets of findings. -/
def rateOf (first second : PySet Bytes) : ℚ :=
  if first = [] then 1
  else
    let reproduced := first.filter (· ∈ second)
    quantized (quotient reproduced.length first.length)

/-- `_oracle_reproduction_rate`. -/
def oracleReproductionRate (run1 run2 : SARIFLog) : Except PyError ℚ := do
  let set1 ← oracleResultBytes run1
  let set2 ← oracleResultBytes run2
  .ok (rateOf set1 set2)

/-- `AttestationVerdict`, of the oracle partition: its `result` is always `rate-only`, and it has no
summary of a difference.
-/
structure OracleVerdict where
  scanId : Uuid
  attestorHash : Bytes
  reproductionRate : ℚ
  sVersion : Text
  envDigest : Text
  signedChainId : Option Uuid

/-- `_attest_oracle`, on the logs that the runner returns first and second. -/
def attestOracle (scanId : Uuid) (log1 log2 : SARIFLog) (sVersion envDigest : Text)
    (appendAttestation : Option ((scanId : Uuid) → (attestorHash : Bytes) → Uuid))
    : Except PyError OracleVerdict := do
  let reproductionRate ← oracleReproductionRate log1 log2
  match fromHex log1.oracle.sarifHash with
  | none => .error (.valueError "non-hexadecimal number found in fromhex() arg")
  | some attestorHash =>
      .ok {
        scanId
        attestorHash
        reproductionRate
        sVersion
        envDigest
        signedChainId := appendAttestation.map fun append => append scanId attestorHash }

variable {value : ℚ}

/-- Rounding stays within the decade of the first digit, or on its ends. -/
theorem roundDigits_decade (positive : 0 < value) (place : ℤ)
    : value < 10 ^ place ∧ roundDigits 28 value ≤ 10 ^ place
      ∨ Int.log 10 value = place
      ∨ 10 ^ (place + 1) ≤ value ∧ 10 ^ (place + 1) ≤ roundDigits 28 value := by
  have lower : (10 : ℚ) ^ Int.log 10 value ≤ value := by
    exact_mod_cast Int.zpow_log_le_self (by norm_num) positive
  have upper : value < (10 : ℚ) ^ (Int.log 10 value + 1) := by
    exact_mod_cast Int.lt_zpow_succ_log_self (by norm_num) value
  have bounds := roundDigits_bounds (show 0 < 28 by norm_num) positive
  rcases lt_trichotomy (Int.log 10 value) place with small | same | large
  · have most : (10 : ℚ) ^ (Int.log 10 value + 1) ≤ 10 ^ place :=
      zpow_le_zpow_right₀ (by norm_num) (by omega)
    exact .inl ⟨upper.trans_le most, bounds.2.trans most⟩
  · exact .inr (.inl same)
  · have least : (10 : ℚ) ^ (place + 1) ≤ 10 ^ Int.log 10 value :=
      zpow_le_zpow_right₀ (by norm_num) (by omega)
    exact .inr (.inr ⟨least.trans lower, least.trans bounds.1⟩)

/-- The quotient reaches what is rounded up to one: by the place of the first digit. -/
theorem le_quotient_iff (nonneg : 0 ≤ value) (most : value ≤ 1)
    : 99995 / 100000 ≤ roundDigits 28 value
      ↔ 99995 / 100000 - 1 / (2 * 10 ^ 28) ≤ value := by
  rcases nonneg.eq_or_lt with rfl | positive
  · norm_num [roundDigits]
  rcases roundDigits_decade positive (-1) with ⟨small, kept⟩ | tenth | ⟨large, kept⟩
  · norm_num at small kept ⊢
    exact iff_of_false (by linarith) (by linarith)
  · have place : lastPlace 28 value = 1 / 10 ^ 28 := by
      rw [lastPlace, tenth]
      norm_num
    have same : (99995 / 100000 : ℚ) = (99995 * 10 ^ 23 : ℤ) * (1 / 10 ^ 28) := by norm_num
    have middle : ((99995 * 10 ^ 23 : ℤ) - 1 / 2 : ℚ) * (1 / 10 ^ 28)
        = 99995 / 100000 - 1 / (2 * 10 ^ 28) := by norm_num
    rw [roundDigits_of_pos positive, place, same, le_roundTo (by norm_num), middle, ← same,
      le_iff_lt_or_eq]
    refine or_congr_right ⟨fun reached => reached.1.symm, fun reached => ⟨reached.symm, ?_⟩⟩
    norm_num
  · norm_num at large kept ⊢
    exact iff_of_true (by linarith) (by linarith)

/-- The quotient stays below what is rounded down to zero: by the place of the first digit. -/
theorem quotient_le_iff (nonneg : 0 ≤ value)
    : roundDigits 28 value ≤ 5 / 100000
      ↔ value ≤ 5 / 100000 + 1 / (2 * 10 ^ 32) := by
  rcases nonneg.eq_or_lt with rfl | positive
  · norm_num [roundDigits]
  rcases roundDigits_decade positive (-5) with ⟨small, kept⟩ | fifth | ⟨large, kept⟩
  · norm_num at small kept ⊢
    exact iff_of_true (by linarith) (by linarith)
  · have place : lastPlace 28 value = 1 / 10 ^ 32 := by
      rw [lastPlace, fifth]
      norm_num
    have same : (5 / 100000 : ℚ) = (5 * 10 ^ 27 : ℤ) * (1 / 10 ^ 32) := by norm_num
    have middle : ((5 * 10 ^ 27 : ℤ) + 1 / 2 : ℚ) * (1 / 10 ^ 32)
        = 5 / 100000 + 1 / (2 * 10 ^ 32) := by norm_num
    rw [roundDigits_of_pos positive, place, same, roundTo_le (by norm_num), middle, ← same,
      le_iff_lt_or_eq]
    refine or_congr_right ⟨fun reached => reached.1, fun reached => ⟨reached, ?_⟩⟩
    norm_num
  · norm_num at large kept ⊢
    exact iff_of_false (by linarith) (by linarith)

variable {rate : ℚ}

theorem quantized_le_one (most : rate ≤ 1) : quantized rate ≤ 1 := by
  have place : (0 : ℚ) < 1 / 10000 := by norm_num
  have one : (1 : ℚ) = (10000 : ℤ) * (1 / 10000) := by norm_num
  rw [one] at most ⊢
  exact (roundTo_mono place most).trans_eq (roundTo_mul place 10000)

theorem quantized_nonneg (nonneg : 0 ≤ rate) : 0 ≤ quantized rate := by
  have place : (0 : ℚ) < 1 / 10000 := by norm_num
  have zero : (0 : ℚ) = (0 : ℤ) * (1 / 10000) := by norm_num
  rw [zero] at nonneg ⊢
  exact (roundTo_mul place 0).symm.trans_le (roundTo_mono place nonneg)

theorem quantized_eq_one_iff (most : rate ≤ 1)
    : quantized rate = 1 ↔ 99995 / 100000 ≤ rate := by
  have place : (0 : ℚ) < 1 / 10000 := by norm_num
  have one : (1 : ℚ) = (10000 : ℤ) * (1 / 10000) := by norm_num
  have middle : ((10000 : ℤ) - 1 / 2 : ℚ) * (1 / 10000) = 99995 / 100000 := by norm_num
  have top : quantized rate = 1 ↔ 1 ≤ quantized rate :=
    ⟨fun same => same.ge, fun reached => le_antisymm (quantized_le_one most) reached⟩
  rw [top, one, quantized, le_roundTo place, middle, le_iff_lt_or_eq]
  exact or_congr_right ⟨fun reached => reached.1.symm, fun reached => ⟨reached.symm, by norm_num⟩⟩

theorem quantized_eq_zero_iff (nonneg : 0 ≤ rate)
    : quantized rate = 0 ↔ rate ≤ 5 / 100000 := by
  have place : (0 : ℚ) < 1 / 10000 := by norm_num
  have zero : (0 : ℚ) = (0 : ℤ) * (1 / 10000) := by norm_num
  have middle : ((0 : ℤ) + 1 / 2 : ℚ) * (1 / 10000) = 5 / 100000 := by norm_num
  have bottom : quantized rate = 0 ↔ quantized rate ≤ 0 :=
    ⟨fun same => same.le, fun reached => le_antisymm reached (quantized_nonneg nonneg)⟩
  rw [bottom, zero, quantized, roundTo_le place, middle, le_iff_lt_or_eq]
  exact or_congr_right ⟨fun reached => reached.1, fun reached => ⟨reached, by norm_num⟩⟩

-- The ends of the rate

variable {first second : PySet Bytes}

theorem rateOf_of_ne_nil (some : first ≠ [])
    : rateOf first second
      = quantized (quotient (first.filter (· ∈ second)).length first.length) :=
  if_neg some

theorem fraction_bounds (first second : PySet Bytes)
    : 0 ≤ ((first.filter (· ∈ second)).length : ℚ) / first.length
      ∧ ((first.filter (· ∈ second)).length : ℚ) / first.length ≤ 1 := by
  constructor
  · positivity
  · exact div_le_one_of_le₀ (by exact_mod_cast List.length_filter_le _ first) (by positivity)

theorem quotient_bounds (first second : PySet Bytes)
    : 0 ≤ quotient (first.filter (· ∈ second)).length first.length
      ∧ quotient (first.filter (· ∈ second)).length first.length ≤ 1 := by
  obtain ⟨nonneg, most⟩ := fraction_bounds first second
  have low := roundDigits_mono (show 0 < 28 by norm_num) le_rfl nonneg
  have high := roundDigits_mono (show 0 < 28 by norm_num) nonneg most
  have zero : roundDigits 28 0 = 0 := if_pos rfl
  have one : roundDigits 28 1 = 1 := by
    simpa using roundDigits_zpow (show 0 < 28 by norm_num) 0
  rw [zero] at low
  rw [one] at high
  exact ⟨low, high⟩

theorem rateOf_bounds (first second : PySet Bytes)
    : 0 ≤ rateOf first second ∧ rateOf first second ≤ 1 := by
  unfold rateOf
  split
  · norm_num
  · obtain ⟨nonneg, most⟩ := quotient_bounds first second
    exact ⟨quantized_nonneg nonneg, quantized_le_one most⟩

/-- The rate is one where what is missing is lost in rounding. -/
theorem rateOf_eq_one_iff
    : rateOf first second = 1
      ↔ 2 * 10 ^ 28 * (first.filter (· ∉ second)).length
        ≤ (10 ^ 24 + 1) * first.length := by
  by_cases none : first = []
  · simp [rateOf, none]
  obtain ⟨nonneg, most⟩ := fraction_bounds first second
  have total : (0 : ℚ) < first.length := by
    exact_mod_cast List.length_pos_iff.mpr none
  have parts := List.length_eq_length_filter_add (l := first) (fun item => decide (item ∈ second))
  simp only [← decide_not] at parts
  rw [rateOf_of_ne_nil none, quantized_eq_one_iff (quotient_bounds first second).2, quotient,
    le_quotient_iff nonneg most, le_div_iff₀ total, ← Nat.cast_le (α := ℚ)]
  have split : (first.length : ℚ) = (first.filter (· ∈ second)).length
      + (first.filter (· ∉ second)).length := by
    exact_mod_cast parts
  push_cast
  constructor
  · intro reached
    linarith
  · intro within
    linarith

/-- The rate is zero where what is reproduced is lost in rounding. -/
theorem rateOf_eq_zero_iff
    : rateOf first second = 0
      ↔ first ≠ []
        ∧ 2 * 10 ^ 32 * (first.filter (· ∈ second)).length
          ≤ (10 ^ 28 + 1) * first.length := by
  by_cases none : first = []
  · simp [rateOf, none]
  obtain ⟨nonneg, most⟩ := fraction_bounds first second
  have total : (0 : ℚ) < first.length := by
    exact_mod_cast List.length_pos_iff.mpr none
  rw [rateOf_of_ne_nil none, quantized_eq_zero_iff (quotient_bounds first second).1, quotient,
    quotient_le_iff nonneg, div_le_iff₀ total, ← Nat.cast_le (α := ℚ)]
  push_cast
  constructor
  · intro within
    exact ⟨none, by linarith⟩
  · rintro ⟨_, within⟩
    linarith

/-- What is found again is found again among more. -/
theorem rateOf_mono (first : PySet Bytes) {more : PySet Bytes}
    (within : ∀ item ∈ second, item ∈ more)
    : rateOf first second ≤ rateOf first more := by
  by_cases none : first = []
  · simp [rateOf, none]
  have fewer : (first.filter (· ∈ second)).length ≤ (first.filter (· ∈ more)).length := by
    refine (List.monotone_filter_right first ?_).length_le
    simpa using within
  rw [rateOf_of_ne_nil none, rateOf_of_ne_nil none]
  refine roundTo_mono (by norm_num) (roundDigits_mono (by norm_num) (by positivity) ?_)
  exact div_le_div_of_nonneg_right (by exact_mod_cast fewer) (by positivity)

/-- Members are counted without repetitions. -/
theorem length_filter_update (findings : List Bytes) (keep : Bytes → Bool)
    : ((PySet.update [] findings).filter keep).length
      = (findings.toFinset.filter fun item => keep item = true).card := by
  have distinct : (PySet.update [] findings).Nodup := PySet.nodup_update List.nodup_nil findings
  rw [← List.toFinset_card_of_nodup (distinct.filter _)]
  congr 1
  ext item
  simp

theorem length_update (findings : List Bytes)
    : (PySet.update [] findings).length = findings.toFinset.card := by
  simpa using length_filter_update findings fun _ => true

theorem oracleResultBytes_of_findings {log : SARIFLog} {findings : List Bytes}
    (read : oracleFindings log = .ok findings)
    : oracleResultBytes log = .ok (PySet.update [] findings) := by
  rw [oracleResultBytes, read]
  rfl

variable {log1 log2 : SARIFLog}

theorem oracleReproductionRate_of_findings {first second : List Bytes}
    (read1 : oracleFindings log1 = .ok first) (read2 : oracleFindings log2 = .ok second)
    : oracleReproductionRate log1 log2
      = .ok (rateOf (PySet.update [] first) (PySet.update [] second)) := by
  rw [oracleReproductionRate, oracleResultBytes_of_findings read1,
    oracleResultBytes_of_findings read2]
  rfl

/-- A verdict carries the rate of its two runs. -/
theorem attestOracle_rate {scanId : Uuid} {sVersion envDigest : Text}
    {append : Option (Uuid → Bytes → Uuid)} {verdict : OracleVerdict}
    (attested : attestOracle scanId log1 log2 sVersion envDigest append = .ok verdict)
    : oracleReproductionRate log1 log2 = .ok verdict.reproductionRate := by
  unfold attestOracle at attested
  obtain ⟨rate, measured, attested⟩ := bind_ok.mp attested
  split at attested
  next => cases attested
  next =>
    cases attested
    exact measured

/-- A run of given results, as it is emitted. -/
def runOf (items : List Json) : SARIFRun where
  canonicalBytes := (Json.obj [(py "results", .arr items)]).dumps.utf8
  sarifHash := py "ab"

theorem plainPairs_keeps : Json.KeepsDistinct plainPairs := by
  intro members distinct
  rw [plainPairs, Dict.ofPairs_eq_self distinct]

/-- Results that are canonical and encode are read as their bytes, in order. -/
theorem oracleFindings_runOf (core : SARIFRun) {items : List Json}
    (canonical : Json.CanonicalItems items) (encodable : Json.EncodableItems items)
    : oracleFindings ⟨core, runOf items⟩ = .ok (items.map fun item => item.dumps.utf8) := by
  have document : (Json.obj [(py "results", .arr items)]).Canonical := by simp [canonical]
  have ascii : (py "results").Encodable := by decide
  have written : (Json.obj [(py "results", .arr items)]).dumps.Encodable :=
    Json.dumps_encodable _ ⟨ascii, encodable, trivial⟩
  have read : Json.loads plainPairs (.valueError "invalid JSON")
      ((Json.obj [(py "results", .arr items)]).dumps ++ []) = .ok _ :=
    Json.loads_dumps plainPairs_keeps document Json.endsNumber_nil rfl
  rw [List.append_nil] at read
  have loaded : loadRun (runOf items) = .ok (.obj [(py "results", .arr items)]) := by
    rw [loadRun, runOf, Text.decode_utf8 written]
    exact read
  have listed : results (.obj [(py "results", .arr items)]) = .ok items := by
    simp [results, Dict.get?]
  rw [oracleFindings, loaded, ok_bind, listed, ok_bind, collect_ok_iff,
    List.forall₂_map_right_iff, List.forall₂_same]
  intro item among
  have each : item.dumps.Encodable := by
    clear * - encodable among
    induction items with
    | nil => cases among
    | cons head rest ih =>
        rcases List.mem_cons.mp among with rfl | later
        · exact Json.dumps_encodable _ encodable.1
        · exact ih encodable.2 later
  rw [resultBytes, Text.encode, if_pos each]

/-- As many findings, with different numbers for their results. -/
def numbered (count : Nat) : List Json :=
  (List.range count).map fun number : Nat => .int number

/-- The bytes of a numbered finding. -/
def numberBytes (number : Nat) : Bytes :=
  (decimal number).utf8

theorem numberBytes_injective : Function.Injective numberBytes :=
  Text.utf8_injective.comp decimal_injective

theorem oracleFindings_numbered (core : SARIFRun) (count : Nat)
    : oracleFindings ⟨core, runOf (numbered count)⟩
      = .ok ((List.range count).map numberBytes) := by
  have canonical : Json.CanonicalItems (numbered count) := by
    rw [Json.canonicalItems_iff]
    simp [numbered]
  have encodable : Json.EncodableItems (numbered count) := by
    unfold numbered
    induction List.range count with
    | nil => trivial
    | cons head rest ih => exact ⟨trivial, ih⟩
  rw [oracleFindings_runOf core canonical encodable, numbered, List.map_map]
  rfl

theorem card_numbered (count : Nat) : ((List.range count).map numberBytes).toFinset.card = count := by
  rw [List.toFinset_card_of_nodup (List.nodup_range.map numberBytes_injective), List.length_map,
    List.length_range]

variable {few many : Nat}

theorem sdiff_numbered (within : few ≤ many)
    : (((List.range many).map numberBytes).toFinset
        \ ((List.range few).map numberBytes).toFinset).card = many - few := by
  rw [Finset.card_sdiff_of_subset, card_numbered, card_numbered]
  intro item
  simp only [List.mem_toFinset, List.mem_map, List.mem_range]
  rintro ⟨number, small, rfl⟩
  exact ⟨number, by omega, rfl⟩

theorem inter_numbered (within : few ≤ many)
    : (((List.range many).map numberBytes).toFinset
        ∩ ((List.range few).map numberBytes).toFinset).card = few := by
  have split := Finset.card_sdiff_add_card_inter
    ((List.range many).map numberBytes).toFinset ((List.range few).map numberBytes).toFinset
  rw [sdiff_numbered within, card_numbered] at split
  omega

-- What the rate says

/-- The ends of the rate of two runs, by the distinct findings that are missing and that are found
again.
-/
theorem rateOf_findings (first second : List Bytes)
    : (rateOf (PySet.update [] first) (PySet.update [] second) = 1
        ↔ 2 * 10 ^ 28 * (first.toFinset \ second.toFinset).card
          ≤ (10 ^ 24 + 1) * first.toFinset.card)
      ∧ (rateOf (PySet.update [] first) (PySet.update [] second) = 0
        ↔ first ≠ []
          ∧ 2 * 10 ^ 32 * (first.toFinset ∩ second.toFinset).card
            ≤ (10 ^ 28 + 1) * first.toFinset.card) := by
  have missing : (first.toFinset \ second.toFinset).card
      = ((PySet.update [] first).filter (· ∉ PySet.update [] second)).length := by
    rw [length_filter_update]
    congr 1
    ext item
    simp
  have reproduced : (first.toFinset ∩ second.toFinset).card
      = ((PySet.update [] first).filter (· ∈ PySet.update [] second)).length := by
    rw [length_filter_update]
    congr 1
    ext item
    simp
  have empty : PySet.update [] first = [] ↔ first = [] := by
    rw [← List.length_eq_zero_iff, length_update]
    simp
  constructor
  · rw [rateOf_eq_one_iff, missing, ← length_update]
  · rw [rateOf_eq_zero_iff, reproduced, ← length_update, Ne, empty]

/-- The attested rate is between zero and one. It is one where so few of the distinct findings of
the first run are missing from the second that rounding loses them, and zero where the first run has
findings and so few of them are found again that rounding loses them; and it is no lower where the
second run has more findings. Witness: the sets that the rate is taken of.
-/
theorem attested_rate_meaning (scanId : Uuid) (log1 log2 : SARIFLog) (sVersion envDigest : Text)
    (append : Option (Uuid → Bytes → Uuid)) (verdict : OracleVerdict) (first second : List Bytes)
    (read1 : oracleFindings log1 = .ok first) (read2 : oracleFindings log2 = .ok second)
    (attested : attestOracle scanId log1 log2 sVersion envDigest append = .ok verdict)
    : 0 ≤ verdict.reproductionRate
      ∧ verdict.reproductionRate ≤ 1
      ∧ (verdict.reproductionRate = 1
        ↔ 2 * 10 ^ 28 * (first.toFinset \ second.toFinset).card
          ≤ (10 ^ 24 + 1) * first.toFinset.card)
      ∧ (verdict.reproductionRate = 0
        ↔ first ≠ []
          ∧ 2 * 10 ^ 32 * (first.toFinset ∩ second.toFinset).card
            ≤ (10 ^ 28 + 1) * first.toFinset.card)
      ∧ ∀ more log3, oracleFindings log3 = .ok more → second ⊆ more
        → ∃ rate, oracleReproductionRate log1 log3 = .ok rate
          ∧ verdict.reproductionRate ≤ rate := by
  have measured := attestOracle_rate attested
  rw [oracleReproductionRate_of_findings read1 read2, Except.ok.injEq] at measured
  rw [← measured]
  obtain ⟨nonneg, most⟩ := rateOf_bounds (PySet.update [] first) (PySet.update [] second)
  obtain ⟨one, zero⟩ := rateOf_findings first second
  refine ⟨nonneg, most, one, zero, ?_⟩
  intro more log3 read3 within
  refine ⟨_, oracleReproductionRate_of_findings read1 read3, rateOf_mono _ ?_⟩
  intro item among
  simp only [PySet.mem_update, List.not_mem_nil, false_or] at among ⊢
  exact within among

theorem oracleReproductionRate_half
    : oracleReproductionRate ⟨runOf [], runOf (numbered 2)⟩ ⟨runOf [], runOf (numbered 1)⟩
      = .ok (rateOf (PySet.update [] [numberBytes 0, numberBytes 1])
        (PySet.update [] [numberBytes 0])) :=
  oracleReproductionRate_of_findings (oracleFindings_numbered _ 2) (oracleFindings_numbered _ 1)

/-- Of two findings, one is found again. -/
theorem attested_rate_meaning_half
    : rateOf (PySet.update [] [numberBytes 0, numberBytes 1]) (PySet.update [] [numberBytes 0]) ≠ 1
      ∧ rateOf (PySet.update [] [numberBytes 0, numberBytes 1]) (PySet.update [] [numberBytes 0])
        ≠ 0 := by
  have meaning := attested_rate_meaning 0 ⟨runOf [], runOf (numbered 2)⟩
    ⟨runOf [], runOf (numbered 1)⟩ [] [] none
    ⟨0, [0xAB], rateOf (PySet.update [] [numberBytes 0, numberBytes 1])
      (PySet.update [] [numberBytes 0]), [], [], none⟩
    [numberBytes 0, numberBytes 1] [numberBytes 0]
    (oracleFindings_numbered _ 2) (oracleFindings_numbered _ 1)
    (by rw [attestOracle, oracleReproductionRate_half]; rfl)
  obtain ⟨_, _, one, zero, _⟩ := meaning
  constructor
  · intro same
    exact absurd (one.mp same) (by decide)
  · intro same
    exact absurd (zero.mp same) (by decide)

/-- A finding that is listed twice and found once gives the rate one, and so does one that is missing
among 20001; one that is found among 20000 gives the rate zero.
-/
theorem rates_that_mislead
    : (∃ log1 log2 first second finding, oracleFindings log1 = .ok first
        ∧ oracleFindings log2 = .ok second
        ∧ oracleReproductionRate log1 log2 = .ok 1
        ∧ second.count finding < first.count finding)
      ∧ (∃ log1 log2 first second finding, oracleFindings log1 = .ok first
        ∧ oracleFindings log2 = .ok second
        ∧ oracleReproductionRate log1 log2 = .ok 1
        ∧ finding ∈ first ∧ finding ∉ second)
      ∧ ∃ log1 log2 first second finding, oracleFindings log1 = .ok first
        ∧ oracleFindings log2 = .ok second
        ∧ oracleReproductionRate log1 log2 = .ok 0
        ∧ finding ∈ first ∧ finding ∈ second := by
  refine ⟨?_, ?_, ?_⟩
  · have twice : oracleFindings ⟨runOf [], runOf [.int 0, .int 0]⟩
        = .ok [numberBytes 0, numberBytes 0] :=
      oracleFindings_runOf _ ⟨trivial, trivial, trivial⟩ ⟨trivial, trivial, trivial⟩
    refine ⟨_, _, _, _, numberBytes 0, twice, oracleFindings_numbered (runOf []) 1, ?_, ?_⟩
    · rw [oracleReproductionRate_of_findings twice (oracleFindings_numbered _ 1),
        Except.ok.injEq, (rateOf_findings _ _).1]
      decide
    · decide
  · refine ⟨_, _, _, _, numberBytes 20000, oracleFindings_numbered (runOf []) 20001,
      oracleFindings_numbered (runOf []) 20000, ?_, ?_, ?_⟩
    · rw [oracleReproductionRate_of_findings (oracleFindings_numbered _ 20001)
        (oracleFindings_numbered _ 20000), Except.ok.injEq, (rateOf_findings _ _).1,
        sdiff_numbered (by omega), card_numbered]
      norm_num
    · exact List.mem_map_of_mem (List.mem_range.mpr (by omega))
    · rw [List.mem_map_of_injective numberBytes_injective, List.mem_range]
      omega
  · refine ⟨_, _, _, _, numberBytes 0, oracleFindings_numbered (runOf []) 20000,
      oracleFindings_numbered (runOf []) 1, ?_, ?_, ?_⟩
    · rw [oracleReproductionRate_of_findings (oracleFindings_numbered _ 20000)
        (oracleFindings_numbered _ 1), Except.ok.injEq, (rateOf_findings _ _).2,
        inter_numbered (by omega), card_numbered]
      refine ⟨?_, by norm_num⟩
      rw [Ne, List.map_eq_nil_iff, List.range_eq_nil]
      omega
    · exact List.mem_map_of_mem (List.mem_range.mpr (by omega))
    · exact List.mem_map_of_mem (List.mem_range.mpr (by omega))

end Scanipy.Services.Scan.Attestor
