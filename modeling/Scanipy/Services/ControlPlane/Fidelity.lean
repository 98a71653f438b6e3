import Scanipy.Library.Decimals
import Scanipy.Python.Text

/-! The fidelity gate of a language: the four rates of an extraction against a corpus, and the
verdict of the thresholds on them. A rate is a decimal of six places, so that a ratio within half of
the last place below a threshold may meet it.
-/

namespace Scanipy.Services.ControlPlane

open Library Python

/-- `MetricName`. -/
inductive MetricName where
  | parseSuccessRate | callEdgePrecision | callEdgeRecall | pdgRecall
  deriving DecidableEq, Repr

/-- `Overall`. -/
inductive Overall where
  | gatePass | gateFail | ungated
  deriving DecidableEq, Repr

/-- The thresholds, in thousandths. -/
def MetricName.thousandths : MetricName → Nat
  | parseSuccessRate => 995
  | callEdgePrecision => 900
  | callEdgeRecall => 850
  | pdgRecall => 800

/-- `THRESHOLDS`. -/
def threshold (metric : MetricName) : ℚ :=
  metric.thousandths / 1000

/-- `_METRIC_ORDER`. -/
def metricOrder : List MetricName :=
  [.parseSuccessRate, .callEdgePrecision, .callEdgeRecall, .pdgRecall]

/-- `FidelityMetrics`. -/
structure FidelityMetrics where
  parseSuccessRate : ℚ
  callEdgePrecision : ℚ
  callEdgeRecall : ℚ
  pdgRecall : ℚ
  filesParsed : Nat
  filesTotal : Nat
  callEdgesPredicted : Nat
  callEdgesGroundTruth : Nat
  pdgEdgesPredicted : Nat
  pdgEdgesGroundTruth : Nat
  deriving DecidableEq

/-- `rate`. -/
def FidelityMetrics.rate (metrics : FidelityMetrics) : MetricName → ℚ
  | .parseSuccessRate => metrics.parseSuccessRate
  | .callEdgePrecision => metrics.callEdgePrecision
  | .callEdgeRecall => metrics.callEdgeRecall
  | .pdgRecall => metrics.pdgRecall

/-- `FidelityVerdict`; the time of the evaluation is that of its argument or of the clock. -/
structure FidelityVerdict where
  language : Text
  corpusVersion : Text
  envDigest : Text
  metrics : FidelityMetrics
  thresholdResults : List (MetricName × Bool)
  overall : Overall
  failingMetrics : List MetricName
  gateStrength : Bool
  evaluatedAt : Int
  deriving DecidableEq

/-- `GroundTruthItem`. -/
structure GroundTruthItem where
  itemId : Text
  parsed : Bool
  callEdgesGroundTruth : Nat
  pdgEdgesGroundTruth : Nat

/-- `ExtractedItem`. -/
structure ExtractedItem where
  itemId : Text
  parsed : Bool
  callEdgesTruePositive : Nat
  callEdgesFalsePositive : Nat
  callEdgesFalseNegative : Nat
  pdgEdgesTruePositive : Nat
  pdgEdgesFalseNegative : Nat

/-- `CorpusPort`. -/
structure CorpusPort where
  corpusVersion : Text
  gateStrength : Bool
  groundTruth : List GroundTruthItem

/-- `ExtractionPort`. -/
structure ExtractionPort where
  envDigest : Text
  extract : GroundTruthItem → ExtractedItem

/-- `_safe_ratio`: a division of decimals to 28 digits, and six places of it. A ratio here is at
most one, so that `quantize` has the digits for it.
-/
def safeRatio (numerator denominator : Nat) : ℚ :=
  if denominator = 0 then 1
  else roundTo (1 / 10 ^ 6) (roundDigits 28 (numerator / denominator))

/-- The counters of `compute_metrics`. -/
structure Counters where
  filesParsed : Nat := 0
  ceTp : Nat := 0
  ceFp : Nat := 0
  ceFn : Nat := 0
  ceGt : Nat := 0
  pdgTp : Nat := 0
  pdgFn : Nat := 0
  pdgGt : Nat := 0

/-- One turn of the loop of `compute_metrics`. -/
def Counters.count (extraction : ExtractionPort) (counters : Counters) (item : GroundTruthItem)
    : Counters :=
  let extracted := extraction.extract item
  { filesParsed := counters.filesParsed + if extracted.parsed then 1 else 0
    ceTp := counters.ceTp + extracted.callEdgesTruePositive
    ceFp := counters.ceFp + extracted.callEdgesFalsePositive
    ceFn := counters.ceFn + extracted.callEdgesFalseNegative
    ceGt := counters.ceGt + item.callEdgesGroundTruth
    pdgTp := counters.pdgTp + extracted.pdgEdgesTruePositive
    pdgFn := counters.pdgFn + extracted.pdgEdgesFalseNegative
    pdgGt := counters.pdgGt + item.pdgEdgesGroundTruth }

/-- The counters after the loop. -/
def countersOf (corpus : CorpusPort) (extraction : ExtractionPort) : Counters :=
  corpus.groundTruth.foldl (Counters.count extraction) {}

/-- `compute_metrics`. -/
def computeMetrics (corpus : CorpusPort) (extraction : ExtractionPort) : FidelityMetrics :=
  let counters := countersOf corpus extraction
  let filesTotal := corpus.groundTruth.length
  { parseSuccessRate := if filesTotal = 0 then 1 else safeRatio counters.filesParsed filesTotal
    callEdgePrecision := safeRatio counters.ceTp (counters.ceTp + counters.ceFp)
    callEdgeRecall := safeRatio counters.ceTp (counters.ceTp + counters.ceFn)
    pdgRecall := safeRatio counters.pdgTp (counters.pdgTp + counters.pdgFn)
    filesParsed := counters.filesParsed
    filesTotal
    callEdgesPredicted := counters.ceTp + counters.ceFp
    callEdgesGroundTruth := counters.ceGt
    pdgEdgesPredicted := counters.pdgTp
    pdgEdgesGroundTruth := counters.pdgGt }

/-- `_verdict_from_metrics`. -/
def verdictFromMetrics (language : Text) (corpus : CorpusPort) (envDigest : Text)
    (metrics : FidelityMetrics) (evaluatedAt : Int) : FidelityVerdict :=
  let failing := metricOrder.filter fun metric => ¬threshold metric ≤ metrics.rate metric
  { language
    corpusVersion := corpus.corpusVersion
    envDigest
    metrics
    thresholdResults :=
      metricOrder.map fun metric => (metric, decide (threshold metric ≤ metrics.rate metric))
    overall :=
      if corpus.gateStrength = false then .ungated
      else if failing ≠ [] then .gateFail
      else .gatePass
    failingMetrics := failing
    gateStrength := corpus.gateStrength
    evaluatedAt }

/-- `_UNGATED_ENV_DIGEST`. -/
def ungatedEnvDigest : Text :=
  py "sha256:0000000000000000000000000000000000000000000000000000000000000000"

/-- The production port that is not there yet. -/
inductive NotImplementedError where
  | corpus | extraction
  deriving DecidableEq, Repr

/-- `evaluate_fidelity`. -/
def evaluateFidelity (language : Text) (corpus : Option CorpusPort)
    (extraction : Option ExtractionPort) (evaluatedAt : Int)
    : Except NotImplementedError FidelityVerdict :=
  match corpus with
  | none => .error .corpus
  | some corpus =>
      if corpus.gateStrength = false then
        .ok (verdictFromMetrics language corpus ungatedEnvDigest
          ⟨0, 0, 0, 0, 0, corpus.groundTruth.length, 0, 0, 0, 0⟩ evaluatedAt)
      else
        match extraction with
        | none => .error .extraction
        | some extraction =>
            .ok (verdictFromMetrics language corpus extraction.envDigest
              (computeMetrics corpus extraction) evaluatedAt)

/-- What is counted of a metric, and of how many. -/
def counted (corpus : CorpusPort) (extraction : ExtractionPort) : MetricName → Nat × Nat
  | .parseSuccessRate => ((countersOf corpus extraction).filesParsed, corpus.groundTruth.length)
  | .callEdgePrecision =>
      let counters := countersOf corpus extraction
      (counters.ceTp, counters.ceTp + counters.ceFp)
  | .callEdgeRecall =>
      let counters := countersOf corpus extraction
      (counters.ceTp, counters.ceTp + counters.ceFn)
  | .pdgRecall =>
      let counters := countersOf corpus extraction
      (counters.pdgTp, counters.pdgTp + counters.pdgFn)

/-- Every rate is the ratio of what is counted. -/
theorem rate_computeMetrics (corpus : CorpusPort) (extraction : ExtractionPort)
    (metric : MetricName)
    : (computeMetrics corpus extraction).rate metric
      = safeRatio (counted corpus extraction metric).1 (counted corpus extraction metric).2 := by
  cases metric
  case parseSuccessRate =>
    simp only [FidelityMetrics.rate, computeMetrics, counted]
    by_cases empty : corpus.groundTruth.length = 0
    · rw [if_pos empty, safeRatio, if_pos empty]
    · rw [if_neg empty]
  all_goals rfl

/-- The files parsed are at most the files, by induction on them. -/
theorem filesParsed_le (extraction : ExtractionPort) (items : List GroundTruthItem)
    (counters : Counters)
    : (items.foldl (Counters.count extraction) counters).filesParsed
      ≤ counters.filesParsed + items.length := by
  induction items generalizing counters with
  | nil => exact le_rfl
  | cons item items ih =>
      have step : (counters.count extraction item).filesParsed ≤ counters.filesParsed + 1 := by
        simp only [Counters.count]
        split <;> omega
      have rest := ih (counters.count extraction item)
      rw [List.foldl_cons, List.length_cons]
      omega

theorem counted_le (corpus : CorpusPort) (extraction : ExtractionPort) (metric : MetricName)
    : (counted corpus extraction metric).1 ≤ (counted corpus extraction metric).2 := by
  cases metric
  case parseSuccessRate => exact (filesParsed_le extraction _ {}).trans_eq (Nat.zero_add _)
  all_goals exact Nat.le_add_right _ _

/-- The last place of a number of 28 digits between a tenth and one. -/
theorem lastPlace_tenth {value : ℚ} (above : 1 / 10 ≤ value) (below : value < 1)
    : lastPlace 28 value = 1 / 10 ^ 28 := by
  have positive : 0 < value := by linarith
  have least : (-1 : ℤ) ≤ Int.log 10 value :=
    (Int.zpow_le_iff_le_log (by norm_num) positive).mp (by norm_num; linarith)
  have most : Int.log 10 value < 0 :=
    (Int.lt_zpow_iff_log_lt (by norm_num) positive).mp (by norm_num; exact below)
  have log : Int.log 10 value = -1 := by omega
  rw [lastPlace, log]
  norm_num

/-- The rate of a ratio. -/
def rateOf (ratio : ℚ) : ℚ :=
  roundTo (1 / 10 ^ 6) (roundDigits 28 ratio)

theorem rateOf_mono {small large : ℚ} (nonneg : 0 ≤ small) (within : small ≤ large)
    : rateOf small ≤ rateOf large :=
  roundTo_mono (by norm_num) (roundDigits_mono (by norm_num) nonneg within)

/-- A ratio of three places between a tenth and one is kept. -/
theorem rateOf_thousandths {count : Nat} (above : 100 ≤ count) (below : count < 1000)
    : rateOf (count / 1000) = count / 1000 := by
  have least : (100 : ℚ) ≤ count := by exact_mod_cast above
  have most : (count : ℚ) < 1000 := by exact_mod_cast below
  have tenth : (1 : ℚ) / 10 ≤ count / 1000 := by linarith
  have digits : roundDigits 28 (count / 1000 : ℚ) = count / 1000 := by
    have place := lastPlace_tenth tenth (by linarith)
    have multiple : (count / 1000 : ℚ) = (count * 10 ^ 25 : ℤ) * (1 / 10 ^ 28) := by
      push_cast
      ring
    rw [roundDigits_of_pos (by linarith), place, multiple, roundTo_mul (by norm_num)]
  have multiple : (count / 1000 : ℚ) = (count * 1000 : ℤ) * (1 / 10 ^ 6) := by
    push_cast
    ring
  rw [rateOf, digits, multiple, roundTo_mul (by norm_num)]

/-- What a rate may be above its ratio at most. -/
def tolerance : ℚ :=
  5 / 10 ^ 7 + 5 / 10 ^ 29

/-- A ratio that is further below a threshold does not meet it: its 28 digits are below the half of
the last of its six places.
-/
theorem rateOf_lt {count : Nat} (above : 100 < count) (below : count < 1000) {ratio : ℚ}
    (nonneg : 0 ≤ ratio) (short : ratio + tolerance < count / 1000)
    : rateOf ratio < count / 1000 := by
  have least : (100 : ℚ) < count := by exact_mod_cast above
  have most : (count : ℚ) < 1000 := by exact_mod_cast below
  rw [tolerance] at short
  rcases lt_or_ge ratio (1 / 10) with small | tenth
  · have kept := rateOf_thousandths (le_refl 100) (by norm_num)
    have within := rateOf_mono nonneg (small.le.trans_eq (by norm_num : (1 : ℚ) / 10 = (100 : ℕ) / 1000))
    rw [kept] at within
    refine within.trans_lt ?_
    push_cast
    linarith
  · have place := lastPlace_tenth tenth (by linarith)
    have digits : roundDigits 28 ratio < (count * 1000 - 1 / 2) * (1 / 10 ^ 6) := by
      have half : ((count * 1000 - 1 / 2) * (1 / 10 ^ 6) : ℚ)
          = (count * 10 ^ 25 - 5 * 10 ^ 21 : ℤ) * (1 / 10 ^ 28) := by
        push_cast
        ring
      rw [roundDigits_of_pos (by linarith), place, half, ← not_le, le_roundTo (by norm_num)]
      push_cast
      rintro (more | ⟨same, _⟩) <;> linarith
    have multiple : (count / 1000 : ℚ) = (count * 1000 : ℤ) * (1 / 10 ^ 6) := by
      push_cast
      ring
    rw [rateOf, multiple, ← not_le, le_roundTo (by norm_num)]
    push_cast
    rintro (more | ⟨same, _⟩) <;> linarith

theorem MetricName.thousandths_bounds (metric : MetricName)
    : 100 < metric.thousandths ∧ metric.thousandths < 1000 := by
  cases metric <;> decide

variable {metric : MetricName} {numerator denominator : Nat}

/-- Where the exact inequality holds, the threshold is met. -/
theorem threshold_le_safeRatio (met : metric.thousandths * denominator ≤ 1000 * numerator)
    : threshold metric ≤ safeRatio numerator denominator := by
  obtain ⟨above, below⟩ := metric.thousandths_bounds
  have most : (metric.thousandths : ℚ) < 1000 := by exact_mod_cast below
  rw [threshold, safeRatio]
  by_cases empty : denominator = 0
  · rw [if_pos empty]
    linarith
  · have positive : (0 : ℚ) < denominator := by exact_mod_cast Nat.pos_of_ne_zero empty
    have exactly : (metric.thousandths : ℚ) / 1000 ≤ numerator / denominator := by
      rw [div_le_div_iff₀ (by norm_num) positive]
      exact_mod_cast met.trans_eq (Nat.mul_comm _ _)
    rw [if_neg empty]
    exact (rateOf_thousandths above.le below).symm.trans_le (rateOf_mono (by positivity) exactly)

/-- Where the ratio is further below the threshold than a rate may be above it, the threshold is not
met.
-/
theorem safeRatio_lt_threshold
    (short : numerator + tolerance * denominator < threshold metric * denominator)
    : ¬threshold metric ≤ safeRatio numerator denominator := by
  obtain ⟨above, below⟩ := metric.thousandths_bounds
  have some : denominator ≠ 0 := by
    rintro rfl
    rw [Nat.cast_zero, mul_zero, mul_zero, add_zero] at short
    exact absurd short (not_lt.mpr (Nat.cast_nonneg numerator))
  have positive : (0 : ℚ) < denominator := by exact_mod_cast Nat.pos_of_ne_zero some
  rw [threshold] at short ⊢
  rw [safeRatio, if_neg some, not_le]
  refine rateOf_lt above below (by positivity) ?_
  rwa [← mul_lt_mul_iff_left₀ positive, add_mul, div_mul_cancel₀ _ positive.ne']

/-- One more of both does not lower a ratio that is at most one. -/
theorem safeRatio_add_le (within : numerator ≤ denominator) (more : Nat)
    : safeRatio numerator denominator ≤ safeRatio (numerator + more) (denominator + more) := by
  have one : rateOf 1 = 1 := by
    have digits : roundDigits 28 ((10 : ℚ) ^ (0 : ℤ)) = 10 ^ (0 : ℤ) :=
      roundDigits_zpow (by norm_num) 0
    have places : roundTo (1 / 10 ^ 6) (((10 ^ 6 : ℤ) : ℚ) * (1 / 10 ^ 6))
        = ((10 ^ 6 : ℤ) : ℚ) * (1 / 10 ^ 6) :=
      roundTo_mul (by norm_num) (10 ^ 6)
    rw [zpow_zero] at digits
    rw [rateOf, digits]
    norm_num at places ⊢
    exact places
  by_cases empty : denominator + more = 0
  · rw [safeRatio, safeRatio, if_pos empty, if_pos (by omega)]
  · have after : (0 : ℚ) < (denominator + more : ℕ) := by exact_mod_cast Nat.pos_of_ne_zero empty
    rw [safeRatio, safeRatio, if_neg empty]
    by_cases before : denominator = 0
    · obtain rfl : numerator = 0 := by omega
      rw [if_pos before, before, div_self (by rw [before] at after; exact after.ne')]
      exact one.ge
    · have positive : (0 : ℚ) < denominator := by exact_mod_cast Nat.pos_of_ne_zero before
      have order : (numerator : ℚ) ≤ denominator := by exact_mod_cast within
      rw [if_neg before]
      refine rateOf_mono (by positivity) ?_
      rw [div_le_div_iff₀ positive after]
      push_cast
      nlinarith [mul_le_mul_of_nonneg_right order (Nat.cast_nonneg (α := ℚ) more)]

/-- An item among the others is counted as if it came last: the counters are sums. -/
theorem countersOf_insert (corpus : CorpusPort) (extraction : ExtractionPort)
    (front back : List GroundTruthItem) (item : GroundTruthItem)
    (items : corpus.groundTruth = front ++ back)
    : countersOf { corpus with groundTruth := front ++ item :: back } extraction
      = (countersOf corpus extraction).count extraction item := by
  have commutes : RightCommutative (Counters.count extraction) :=
    ⟨fun counters first second => by
      simp only [Counters.count, Nat.add_right_comm]⟩
  have moved : (front ++ item :: back).Perm ((front ++ back) ++ [item]) :=
    List.perm_middle.trans (List.perm_append_singleton item _).symm
  rw [countersOf, countersOf, items]
  dsimp only
  rw [moved.foldl_eq, List.foldl_append]
  rfl

/-- The item of a file that is parsed, all of whose edges are right. -/
structure ExtractedItem.Flawless (extracted : ExtractedItem) : Prop where
  parsed : extracted.parsed = true
  callEdgesFalsePositive : extracted.callEdgesFalsePositive = 0
  callEdgesFalseNegative : extracted.callEdgesFalseNegative = 0
  pdgEdgesFalseNegative : extracted.pdgEdgesFalseNegative = 0

/-- A flawless item adds as much to what is counted as to how many. -/
theorem counted_insert (corpus : CorpusPort) (extraction : ExtractionPort)
    (front back : List GroundTruthItem) (item : GroundTruthItem)
    (items : corpus.groundTruth = front ++ back)
    (flawless : (extraction.extract item).Flawless) (metric : MetricName)
    : ∃ more, counted { corpus with groundTruth := front ++ item :: back } extraction metric
      = ((counted corpus extraction metric).1 + more,
        (counted corpus extraction metric).2 + more) := by
  have sums := countersOf_insert corpus extraction front back item items
  cases metric
  case parseSuccessRate =>
    refine ⟨1, ?_⟩
    simp only [counted, sums, Counters.count, flawless.parsed, items, List.length_append,
      List.length_cons, if_true, Prod.mk.injEq, true_and]
    omega
  case callEdgePrecision =>
    refine ⟨(extraction.extract item).callEdgesTruePositive, ?_⟩
    simp only [counted, sums, Counters.count, flawless.callEdgesFalsePositive, Prod.mk.injEq,
      true_and]
    omega
  case callEdgeRecall =>
    refine ⟨(extraction.extract item).callEdgesTruePositive, ?_⟩
    simp only [counted, sums, Counters.count, flawless.callEdgesFalseNegative, Prod.mk.injEq,
      true_and]
    omega
  case pdgRecall =>
    refine ⟨(extraction.extract item).pdgEdgesTruePositive, ?_⟩
    simp only [counted, sums, Counters.count, flawless.pdgEdgesFalseNegative, Prod.mk.injEq,
      true_and]
    omega

/-- The verdict on a corpus of gate strength. -/
theorem evaluateFidelity_gated (language : Text) {corpus : CorpusPort}
    (strength : corpus.gateStrength = true) (extraction : ExtractionPort) (evaluatedAt : Int)
    : evaluateFidelity language (some corpus) (some extraction) evaluatedAt
      = .ok (verdictFromMetrics language corpus extraction.envDigest
        (computeMetrics corpus extraction) evaluatedAt) := by
  simp only [evaluateFidelity, strength, Bool.true_eq_false, if_false]

/-- A metric is listed when its rate is below its threshold. -/
theorem mem_failing (language : Text) (corpus : CorpusPort) (envDigest : Text)
    (metrics : FidelityMetrics) (evaluatedAt : Int) (metric : MetricName)
    : metric ∈ (verdictFromMetrics language corpus envDigest metrics evaluatedAt).failingMetrics
      ↔ ¬threshold metric ≤ metrics.rate metric := by
  have known : metric ∈ metricOrder := by cases metric <;> decide
  simp only [verdictFromMetrics, List.mem_filter, decide_eq_true_eq, known, true_and]

/-- The gate passes exactly on a corpus of gate strength with no metric listed. -/
theorem overall_eq_gatePass (language : Text) (corpus : CorpusPort) (envDigest : Text)
    (metrics : FidelityMetrics) (evaluatedAt : Int)
    : (verdictFromMetrics language corpus envDigest metrics evaluatedAt).overall = .gatePass
      ↔ corpus.gateStrength = true
        ∧ (verdictFromMetrics language corpus envDigest metrics evaluatedAt).failingMetrics
          = [] := by
  simp only [verdictFromMetrics]
  cases corpus.gateStrength
  · simp
  · split <;> simp_all

/-- A corpus that is not of gate strength is not gated, with every metric listed; on one that is,
the gate passes exactly when no metric is listed. The metrics are listed in their order: one whose
exact inequality holds is not, and one whose ratio is further below its threshold than the rounding
reaches is. One more flawless item among the others keeps a gate that passes. Witness: the two
roundings are monotone and keep the thresholds.
-/
theorem gate_verdict (language : Text) (corpus : CorpusPort) (extraction : ExtractionPort)
    (evaluatedAt : Int)
    : ∃ verdict,
        evaluateFidelity language (some corpus) (some extraction) evaluatedAt = .ok verdict
        ∧ verdict.failingMetrics.Sublist metricOrder
        ∧ (verdict.overall = .gatePass
          ↔ corpus.gateStrength = true ∧ verdict.failingMetrics = [])
        ∧ (corpus.gateStrength = false
          → verdict.overall = .ungated ∧ verdict.failingMetrics = metricOrder)
        ∧ (corpus.gateStrength = true → ∀ metric,
          let counts := counted corpus extraction metric
          (metric.thousandths * counts.2 ≤ 1000 * counts.1 → metric ∉ verdict.failingMetrics)
          ∧ (counts.1 + tolerance * counts.2 < threshold metric * counts.2
            → metric ∈ verdict.failingMetrics))
        ∧ ∀ front back item, corpus.groundTruth = front ++ back
          → (extraction.extract item).Flawless
          → verdict.overall = .gatePass
          → ∃ more, evaluateFidelity language
              (some { corpus with groundTruth := front ++ item :: back }) (some extraction)
              evaluatedAt = .ok more
            ∧ more.overall = .gatePass := by
  by_cases strength : corpus.gateStrength = true
  · refine ⟨_, evaluateFidelity_gated language strength extraction evaluatedAt,
      List.filter_sublist, overall_eq_gatePass .., fun weak => ?_, fun _ metric => ⟨fun met => ?_,
      fun short => ?_⟩, fun front back item items flawless passed => ?_⟩
    · cases strength.symm.trans weak
    · rw [mem_failing, rate_computeMetrics, not_not]
      exact threshold_le_safeRatio met
    · rw [mem_failing, rate_computeMetrics]
      exact safeRatio_lt_threshold short
    · refine ⟨_, evaluateFidelity_gated language (by exact strength) extraction evaluatedAt, ?_⟩
      rw [overall_eq_gatePass] at passed ⊢
      refine ⟨strength, List.eq_nil_iff_forall_not_mem.mpr fun metric listed => ?_⟩
      rw [mem_failing, rate_computeMetrics] at listed
      refine List.eq_nil_iff_forall_not_mem.mp passed.2 metric ((mem_failing ..).mpr fun met => ?_)
      obtain ⟨more, counts⟩ :=
        counted_insert corpus extraction front back item items flawless metric
      rw [rate_computeMetrics] at met
      rw [counts] at listed
      exact listed (met.trans (safeRatio_add_le (counted_le corpus extraction metric) more))
  · have weak := Bool.eq_false_of_not_eq_true strength
    have ungated (metrics : FidelityMetrics) (digest : Text)
        : (verdictFromMetrics language corpus digest metrics evaluatedAt).overall = .ungated := by
      simp only [verdictFromMetrics, weak, if_true]
    refine ⟨_, if_pos weak, List.filter_sublist, overall_eq_gatePass .., fun _ => ⟨ungated _ _, ?_⟩,
      fun strong => absurd strong strength, fun front back item _ _ passed => ?_⟩
    · refine List.filter_eq_self.mpr fun metric _ => decide_eq_true (not_le.mpr ?_)
      cases metric <;> norm_num [FidelityMetrics.rate, threshold, MetricName.thousandths]
    · rw [ungated] at passed
      cases passed

/-- A corpus of gate strength without items passes the gate. -/
theorem empty_corpus_passes
    : ¬∀ (language : Text) (corpus : CorpusPort) (extraction : ExtractionPort) (evaluatedAt : Int)
        (verdict : FidelityVerdict),
        evaluateFidelity language (some corpus) (some extraction) evaluatedAt = .ok verdict
        → verdict.overall = .gatePass
        → corpus.gateStrength = true ∧ corpus.groundTruth ≠ []
          ∧ ∀ metric, metric.thousandths * (counted corpus extraction metric).2
            ≤ 1000 * (counted corpus extraction metric).1 := by
  intro claimed
  let extraction : ExtractionPort := ⟨[], fun item => ⟨item.itemId, true, 0, 0, 0, 0, 0⟩⟩
  have strength : (⟨[], true, []⟩ : CorpusPort).gateStrength = true := rfl
  have passed := evaluateFidelity_gated (py "python") strength extraction 0
  refine (claimed _ _ _ _ _ passed ?_).2.1 rfl
  rw [overall_eq_gatePass]
  refine ⟨rfl, List.filter_eq_nil_iff.mpr fun metric _ => ?_⟩
  rw [rate_computeMetrics]
  cases metric <;> norm_num [counted, countersOf, safeRatio, threshold, MetricName.thousandths]

end Scanipy.Services.ControlPlane
