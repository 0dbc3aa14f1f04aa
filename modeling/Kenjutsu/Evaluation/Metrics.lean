import Kenjutsu.Evaluation.Matching
import Mathlib.Algebra.Order.BigOperators.Group.List
import Mathlib.Algebra.Order.Field.Basic
import Mathlib.Tactic.Positivity

/-!
# The evaluation end to end

The results of a run add up: what a pull request produced is split into true and false
positives, what it expected into matched and missed findings, and the metrics are sums
over the results. So every rate is a part of its whole, none of the divisions is by
zero, and the order of the pull requests does not matter.

The latency reported for the 95th percentile is the one after it when 95 % of the number
of results is an integer (`Computed.isPercentile_iff`).
-/

set_option autoImplicit false

namespace Kenjutsu.Evaluation

open Foundations Foundations.Coroutine Kenjutsu.Models

/-! ## What is claimed -/

/-- The metrics of a corpus account for its results. -/
structure Accounts (corpus : Corpus) (results : List EvalResult) (metrics : EvalMetrics) :
    Prop where
  inOrder : results.map EvalResult.prId = corpus.prs.map BenchmarkPR.prId
  produced : metrics.totalTruePositives + metrics.totalFalsePositives =
    metrics.totalFindingsProduced
  expected : metrics.totalTruePositives + metrics.totalMissed =
    (corpus.prs.map fun pr => pr.expectedFindings.length).sum
  accepted : 0 ≤ metrics.acceptedFindingRate ∧ metrics.acceptedFindingRate ≤ 1
  falsePositives : 0 ≤ metrics.fpRateVerified ∧
    metrics.fpRateVerified ≤ metrics.fpRateHighConfidence ∧ metrics.fpRateHighConfidence ≤ 1
  latencies : metrics.latencyP50Seconds ≤ metrics.latencyP95Seconds

/-- A run of the evaluation against a pipeline that behaves in any way, and that came to
its end. -/
structure EvalRun (variant : String) where
  corpus : Corpus
  Raised : Type
  Server : Type
  respond : Server → (request : EvalRequest) → Except Raised request.Answer × Server
  server : Server
  results : List EvalResult
  ran : ((runEval corpus variant).serve respond () server).1 = .ok results

variable {Raised Server : Type} {variant : String}
  {respond : Server → (request : EvalRequest) → Except Raised request.Answer × Server}

/-- What was seen of each pull request in what was asked and answered. -/
def outcomesIn : List (Exchange EvalRequest.Answer Raised) → List PrOutcome
  | ⟨.monotonic, .ok started⟩ :: ⟨.review .., .ok review⟩ :: ⟨.monotonic, .ok ended⟩ :: rest =>
      ⟨started, review.1, review.2, ended⟩ :: outcomesIn rest
  | _ => []

/-- The pull requests of a run, each with its outcome. -/
def EvalRun.visits (run : EvalRun variant) : List (BenchmarkPR × PrOutcome) :=
  run.corpus.prs.zip
    (outcomesIn ((runEval run.corpus variant).transcript run.respond () run.server))

/-! ## What a run sees -/

/-- An await of the runner that returns. -/
theorem serve_call_cases {request : EvalRequest} {server later : Server} {moved : Unit}
    {answer : request.Answer}
    (ran : (call request : Runner Raised request.Answer).serve respond () server =
      (.ok answer, moved, later)) :
    (call request : Runner Raised request.Answer).transcript respond () server =
      [⟨request, .ok answer⟩] := by
  rw [transcript_call]
  have answered := congrArg Prod.fst ran
  rw [serve_call] at answered
  rw [answered]

/-- The evaluation of one pull request that comes to its end. -/
theorem serve_evaluatePr {pr : BenchmarkPR} {server later : Server} {moved : Unit}
    {result : EvalResult}
    (ran : (evaluatePr variant pr).serve respond () server = (.ok result, moved, later)) :
    ∃ outcome, result = evaluate variant pr outcome ∧
      ∀ rest, outcomesIn ((evaluatePr variant pr).transcript respond () server ++ rest) =
        outcome :: outcomesIn rest := by
  unfold evaluatePr at ran ⊢
  obtain ⟨started, ⟨⟩, afterStart, first, ran⟩ := serve_bind_cases (congrArg Prod.fst ran)
  obtain ⟨review, ⟨⟩, afterReview, second, ran⟩ := serve_bind_cases ran
  obtain ⟨ended, ⟨⟩, afterEnd, third, ran⟩ := serve_bind_cases ran
  refine ⟨⟨started, review.1, review.2, ended⟩, (Except.ok.inj ran).symm, fun rest => ?_⟩
  rw [transcript_bind_of_ok first, transcript_bind_of_ok second, transcript_bind_of_ok third,
    serve_call_cases first, serve_call_cases second, serve_call_cases third]
  rfl

/-- The results of a run are those of its pull requests with what was seen of them. -/
theorem serve_evaluatePrs {prs : List BenchmarkPR} {server : Server} {results : List EvalResult}
    (ran : ((evaluatePrs variant prs).serve respond () server).1 = .ok results) :
    (outcomesIn ((evaluatePrs variant prs).transcript respond () server)).length = prs.length ∧
      results = prs.zipWith (evaluate variant)
        (outcomesIn ((evaluatePrs variant prs).transcript respond () server)) := by
  induction prs generalizing server results with
  | nil => exact ⟨rfl, (Except.ok.inj ran).symm⟩
  | cons pr prs ih =>
      obtain ⟨result, ⟨⟩, later, first, ran⟩ := serve_bind_cases ran
      obtain ⟨others, ⟨⟩, atEnd, rest, ran⟩ := serve_bind_cases ran
      obtain rfl := Except.ok.inj ran
      obtain ⟨outcome, rfl, seen⟩ := serve_evaluatePr first
      obtain ⟨sameLength, sameResults⟩ := ih (congrArg Prod.fst rest)
      have trace : (evaluatePrs variant (pr :: prs)).transcript respond () server =
          (evaluatePr variant pr).transcript respond () server ++
            (evaluatePrs variant prs).transcript respond () later := by
        rw [evaluatePrs, transcript_bind_of_ok first, transcript_bind_of_ok rest]
        exact congrArg (_ ++ ·) (List.append_nil _)
      rw [trace, seen]
      constructor
      · rw [List.length_cons, sameLength, List.length_cons]
      · rw [List.zipWith_cons_cons, ← sameResults]

variable (run : EvalRun variant)

/-- **What a run visits** are the pull requests of its corpus, in order. -/
theorem EvalRun.map_fst_visits : run.visits.map Prod.fst = run.corpus.prs := by
  have sameLength := (serve_evaluatePrs run.ran).1
  exact List.map_fst_zip (by rw [← sameLength]; rfl)

/-- The results of a run are those of its visits. -/
theorem EvalRun.results_eq :
    run.results = run.visits.map fun visit => evaluate variant visit.1 visit.2 := by
  rw [EvalRun.visits, List.map_zip_eq_zipWith]
  exact (serve_evaluatePrs run.ran).2

/-! ## The metrics -/

theorem total_perm (count : EvalResult → Nat) {results others : List EvalResult}
    (perm : results.Perm others) : total count results = total count others :=
  (perm.map count).sum_eq

theorem total_add (first second : EvalResult → Nat) (results : List EvalResult) :
    total first results + total second results =
      total (fun result => first result + second result) results :=
  List.sum_map_add.symm

theorem total_mono {first second : EvalResult → Nat} {results : List EvalResult}
    (le : ∀ result ∈ results, first result ≤ second result) :
    total first results ≤ total second results :=
  List.sum_le_sum le

/-- A part of a whole is a rate. -/
theorem rate_of_le {part whole : Nat} (isPart : part ≤ whole) :
    ∃ value, rate part whole = .ok value ∧ 0 ≤ value ∧ value ≤ 1 := by
  unfold rate divide
  by_cases positive : whole > 0
  · have divisor : (whole : ℚ) ≠ 0 := by
      exact_mod_cast positive.ne'
    rw [if_pos positive, if_neg divisor]
    refine ⟨_, rfl, by positivity, ?_⟩
    rw [div_le_one (by exact_mod_cast positive)]
    exact_mod_cast isPart
  · rw [if_neg positive]
    exact ⟨0, rfl, le_refl _, zero_le_one⟩

/-- A smaller part has a smaller rate. -/
theorem rate_mono {part other whole : Nat} (le : part ≤ other) {value larger : ℚ}
    (isRate : rate part whole = .ok value) (isLarger : rate other whole = .ok larger) :
    value ≤ larger := by
  unfold rate divide at isRate isLarger
  by_cases positive : whole > 0
  · have divisor : (whole : ℚ) ≠ 0 := by
      exact_mod_cast positive.ne'
    rw [if_pos positive, if_neg divisor] at isRate isLarger
    obtain rfl := Except.ok.inj isRate
    obtain rfl := Except.ok.inj isLarger
    have parts : (part : ℚ) ≤ other := by
      exact_mod_cast le
    gcongr
  · rw [if_neg positive] at isRate isLarger
    obtain rfl := Except.ok.inj isRate
    obtain rfl := Except.ok.inj isLarger
    exact le_refl _

/-- Some part of some whole always has a rate. -/
theorem rate_ok (part whole : Nat) : ∃ value, rate part whole = .ok value := by
  unfold rate divide
  split_ifs with positive zero
  · exact absurd (by exact_mod_cast zero) positive.ne'
  · exact ⟨_, rfl⟩
  · exact ⟨_, rfl⟩

/-- The index of the 95th percentile. -/
theorem p95Index_eq {count : Nat} (positive : 0 < count) :
    min (truncate ((count : ℚ) * (95 / 100))).toNat (count - 1) = 19 * count / 20 := by
  have truncated := truncate_mul_div count 95 (by omega : 0 < 100)
  push_cast at truncated
  rw [truncated]
  omega

/-- The latency at the 95th percentile is one of the sorted latencies. -/
theorem latencyP95_ok {results : List EvalResult} (nonempty : results ≠ []) :
    ∃ value, latencyP95 results = .ok value ∧
      (sorted (latencies results))[19 * results.length / 20]? = some value := by
  have positive : 0 < results.length := List.length_pos_iff.mpr nonempty
  have count : (sorted (latencies results)).length = results.length := by
    rw [length_sorted, latencies, List.length_map]
  have within : 19 * results.length / 20 < (sorted (latencies results)).length := by
    omega
  unfold latencyP95
  simp only [count, p95Index_eq positive, List.getElem?_eq_getElem within]
  exact ⟨_, rfl, rfl⟩

/-- The median latency is at most the one at the 95th percentile. -/
theorem statistic_median_le {results : List EvalResult} (nonempty : results ≠ []) {p95 : ℚ}
    (isP95 : latencyP95 results = .ok p95) :
    ∃ p50, statistic (median (latencies results)) = .ok p50 ∧ p50 ≤ p95 := by
  have some : latencies results ≠ [] := by
    simpa [latencies] using nonempty
  obtain ⟨middle, isMiddle, atMost⟩ := median_le some
  obtain ⟨value, found, isValue⟩ := latencyP95_ok nonempty
  obtain rfl := Except.ok.inj (isP95.symm.trans found)
  refine ⟨middle, by rw [isMiddle]; rfl, atMost _ p95 ?_ isValue⟩
  rw [latencies, List.length_map]
  omega

/-- What the metrics say of the results. -/
structure Computed (results : List EvalResult) (metrics : EvalMetrics) : Prop where
  truePositives : metrics.totalTruePositives = total (fun r => r.truePositives.length) results
  falsePositives : metrics.totalFalsePositives = total (fun r => r.falsePositives.length) results
  produced : metrics.totalFindingsProduced = total (fun r => r.findingsProduced.length) results
  missed : metrics.totalMissed = total (fun r => r.missed.length) results
  accepted : rate (total (fun r => r.truePositives.length) results)
    (total (fun r => r.truePositives.length) results + total (fun r => r.missed.length) results) =
      .ok metrics.acceptedFindingRate
  verified : rate (total (falsePositivesOf [.verified]) results)
    (total (fun r => r.findingsProduced.length) results) = .ok metrics.fpRateVerified
  highConfidence : rate (total (falsePositivesOf [.verified, .high]) results)
    (total (fun r => r.findingsProduced.length) results) = .ok metrics.fpRateHighConfidence
  latencyP50 : statistic (median (latencies results)) = .ok metrics.latencyP50Seconds
  latencyP95 : latencyP95 results = .ok metrics.latencyP95Seconds

/-- **Nothing raises.** -/
theorem computeMetrics_ok {results : List EvalResult} (nonempty : results ≠ []) :
    ∃ metrics, computeMetrics results = .ok metrics ∧ Computed results metrics := by
  obtain ⟨comments, isMean⟩ : ∃ comments,
      statistic (mean (results.map fun r => (defectCount r : ℚ))) = .ok comments := by
    rw [mean, if_neg (by simpa using nonempty)]
    exact ⟨_, rfl⟩
  obtain ⟨accepted, isAccepted⟩ := rate_ok (total (fun r => r.truePositives.length) results)
    (total (fun r => r.truePositives.length) results + total (fun r => r.missed.length) results)
  obtain ⟨verified, isVerified⟩ := rate_ok (total (falsePositivesOf [.verified]) results)
    (total (fun r => r.findingsProduced.length) results)
  obtain ⟨high, isHigh⟩ := rate_ok (total (falsePositivesOf [.verified, .high]) results)
    (total (fun r => r.findingsProduced.length) results)
  obtain ⟨p95, isP95, -⟩ := latencyP95_ok nonempty
  obtain ⟨p50, isP50, -⟩ := statistic_median_le nonempty isP95
  obtain ⟨average, isAverage⟩ : ∃ average,
      divide (results.map EvalResult.costUsd).sum results.length = .ok average := by
    rw [divide, if_neg (by simpa using nonempty)]
    exact ⟨_, rfl⟩
  obtain ⟨first, others, rfl⟩ := List.exists_cons_of_ne_nil nonempty
  unfold computeMetrics
  simp only [isMean, isAccepted, isVerified, isHigh, isP95, isP50, isAverage]
  exact ⟨_, rfl, rfl, rfl, rfl, rfl, isAccepted, isVerified, isHigh, isP50, isP95⟩

/-- The total findings of a list of results that split what was produced. -/
def SplitsProduced (results : List EvalResult) : Prop :=
  ∀ result ∈ results, result.truePositives.length + result.falsePositives.length =
    result.findingsProduced.length

/-- True positives are a part of what was expected. -/
theorem Computed.accepted_bounds {results : List EvalResult} {metrics : EvalMetrics}
    (computed : Computed results metrics) :
    0 ≤ metrics.acceptedFindingRate ∧ metrics.acceptedFindingRate ≤ 1 := by
  obtain ⟨value, isRate, bounds⟩ := rate_of_le
    (Nat.le_add_right (total (fun r => r.truePositives.length) results)
      (total (fun r => r.missed.length) results))
  rwa [Except.ok.inj (computed.accepted.symm.trans isRate)]

/-- False positives with a confidence are a part of what was produced. -/
theorem Computed.falsePositive_bounds {results : List EvalResult} {metrics : EvalMetrics}
    (computed : Computed results metrics) (splits : SplitsProduced results) :
    0 ≤ metrics.fpRateVerified ∧ metrics.fpRateVerified ≤ metrics.fpRateHighConfidence ∧
      metrics.fpRateHighConfidence ≤ 1 := by
  have fewer : ∀ confidences result, falsePositivesOf confidences result ≤
      result.falsePositives.length := fun confidences result => List.countP_le_length
  have verifiedIsHigh : total (falsePositivesOf [.verified]) results ≤
      total (falsePositivesOf [.verified, .high]) results := by
    refine total_mono fun result _ => List.countP_mono_left fun finding _ isVerified => ?_
    simp only [List.contains_cons, List.contains_nil, Bool.or_false] at isVerified ⊢
    rw [isVerified, Bool.true_or]
  have highIsProduced : total (falsePositivesOf [.verified, .high]) results ≤
      total (fun r => r.findingsProduced.length) results := by
    refine total_mono fun result member => ?_
    have all := splits result member
    have high := fewer [.verified, .high] result
    omega
  obtain ⟨verified, isVerified, verifiedBounds⟩ :=
    rate_of_le (verifiedIsHigh.trans highIsProduced)
  obtain ⟨high, isHigh, highBounds⟩ := rate_of_le highIsProduced
  rw [Except.ok.inj (computed.verified.symm.trans isVerified),
    Except.ok.inj (computed.highConfidence.symm.trans isHigh)]
  exact ⟨verifiedBounds.1, rate_mono verifiedIsHigh isVerified isHigh, highBounds.2⟩

theorem Computed.latencies_le {results : List EvalResult} {metrics : EvalMetrics}
    (computed : Computed results metrics) (nonempty : results ≠ []) :
    metrics.latencyP50Seconds ≤ metrics.latencyP95Seconds := by
  obtain ⟨p50, isP50, ordered⟩ := statistic_median_le nonempty computed.latencyP95
  rwa [Except.ok.inj (computed.latencyP50.symm.trans isP50)]

/-- The order of the results does not matter if all are of one variant. -/
theorem computeMetrics_perm (variant : String) {results others : List EvalResult}
    (perm : results.Perm others) (oneVariant : ∀ result ∈ results, result.variant = variant) :
    computeMetrics results = computeMetrics others := by
  cases results with
  | nil => rw [perm.nil_eq]
  | cons first rest =>
      cases others with
      | nil => cases perm.eq_nil
      | cons other rest' =>
          have sameVariant : first.variant = other.variant := by
            rw [oneVariant first List.mem_cons_self,
              oneVariant other (perm.mem_iff.mpr List.mem_cons_self)]
          have totals : ∀ count, total count (first :: rest) = total count (other :: rest') :=
            fun count => total_perm count perm
          have means := mean_perm (perm.map fun r => (defectCount r : ℚ))
          have sameLatencies := perm.map fun result => (result.latencyMs : ℚ) / 1000
          have medians : median (latencies (first :: rest)) = median (latencies (other :: rest')) :=
            median_perm sameLatencies
          have percentiles : latencyP95 (first :: rest) = latencyP95 (other :: rest') := by
            rw [latencyP95, latencyP95, latencies, latencies, sorted_perm sameLatencies]
          unfold computeMetrics
          simp only [totals, means, medians, percentiles, sameVariant, perm.length_eq,
            (perm.map EvalResult.costUsd).sum_eq, (perm.map EvalResult.tokensIn).sum_eq,
            (perm.map EvalResult.tokensOut).sum_eq]

/-! ## The 95th percentile -/

/-- The latency at which 95 % of the results lie stands at the rank of the nearest integer
that is not smaller than 95 % of their number. -/
theorem isPercentile_latencies_iff {results : List EvalResult} (nonempty : results ≠ [])
    {value : ℚ} :
    IsPercentile (95 / 100) (latencies results) value ↔
      (sorted (latencies results))[(19 * results.length + 19) / 20 - 1]? = some value := by
  have positive : 0 < results.length := List.length_pos_iff.mpr nonempty
  refine isPercentile_iff fun count => ?_
  have inNumbers : (95 / 100 * ((latencies results).length : ℚ) ≤ count) ↔
      19 * results.length ≤ 20 * count := by
    rw [latencies, List.length_map, ← @Nat.cast_le ℚ]
    push_cast
    constructor <;> intro le <;> linarith
  rw [inNumbers]
  omega

/-- The metrics report the percentile unless 95 % of the number of results is an integer
and the latencies at that rank and the next are different. -/
theorem Computed.isPercentile_iff {results : List EvalResult} (nonempty : results ≠ [])
    {metrics : EvalMetrics} (computed : Computed results metrics) :
    IsPercentile (95 / 100) (latencies results) metrics.latencyP95Seconds ↔
      ¬20 ∣ results.length ∨
        (sorted (latencies results))[19 * results.length / 20 - 1]? =
          (sorted (latencies results))[19 * results.length / 20]? := by
  have positive : 0 < results.length := List.length_pos_iff.mpr nonempty
  obtain ⟨value, returned, isValue⟩ := latencyP95_ok nonempty
  obtain rfl := Except.ok.inj (returned.symm.trans computed.latencyP95)
  rw [isPercentile_latencies_iff nonempty, ← isValue]
  by_cases divides : 20 ∣ results.length
  · have before : (19 * results.length + 19) / 20 - 1 = 19 * results.length / 20 - 1 := by
      omega
    rw [before]
    exact ⟨.inr, fun either => either.resolve_left (not_not.mpr divides)⟩
  · have notInteger : ¬20 ∣ 19 * results.length := fun isMultiple =>
      divides (Nat.Coprime.dvd_of_dvd_mul_left (by decide) isMultiple)
    have same : (19 * results.length + 19) / 20 - 1 = 19 * results.length / 20 := by
      omega
    rw [same]
    exact ⟨fun _ => .inl divides, fun _ => rfl⟩

/-- **When the reported latency is the 95th percentile.** -/
theorem latencyP95_isPercentile_iff {results : List EvalResult} (nonempty : results ≠ []) :
    ∃ metrics, computeMetrics results = .ok metrics ∧
      (IsPercentile (95 / 100) (latencies results) metrics.latencyP95Seconds ↔
        ¬20 ∣ results.length ∨
          (sorted (latencies results))[19 * results.length / 20 - 1]? =
            (sorted (latencies results))[19 * results.length / 20]?) := by
  obtain ⟨metrics, returned, computed⟩ := computeMetrics_ok nonempty
  exact ⟨metrics, returned, computed.isPercentile_iff nonempty⟩

/-- The result of a pull request without findings. -/
def resultAfter (latencyMs : Int) : EvalResult where
  prId := "pr_1"
  variant := "structural"
  findingsProduced := []
  expectedFindings := []
  truePositives := []
  falsePositives := []
  missed := []
  latencyMs := latencyMs
  tokensIn := 0
  tokensOut := 0
  costUsd := 0

/-- Nineteen quick pull requests and a slow one. -/
def oneSlowOfTwenty : List EvalResult :=
  List.replicate 19 (resultAfter 10000) ++ [resultAfter 90000]

/-- A slow pull request among twenty-one does not decide the percentile. -/
theorem latencyP95_isPercentile_oneSlowOfTwentyOne :
    ∃ metrics,
      computeMetrics (resultAfter 90000 :: List.replicate 20 (resultAfter 10000)) = .ok metrics ∧
        IsPercentile (95 / 100)
          (latencies (resultAfter 90000 :: List.replicate 20 (resultAfter 10000)))
          metrics.latencyP95Seconds := by
  obtain ⟨metrics, returned, isPercentile_iff⟩ :=
    latencyP95_isPercentile_iff (List.cons_ne_nil (resultAfter 90000) _)
  exact ⟨metrics, returned, isPercentile_iff.mpr (.inl (by decide))⟩

/-- Among twenty it does. -/
theorem not_isPercentile_oneSlowOfTwenty :
    ¬∃ metrics, computeMetrics oneSlowOfTwenty = .ok metrics ∧
      IsPercentile (95 / 100) (latencies oneSlowOfTwenty) metrics.latencyP95Seconds := by
  rintro ⟨metrics, returned, isPercentile⟩
  have nonempty : oneSlowOfTwenty ≠ [] := List.cons_ne_nil _ _
  obtain ⟨own, returnedOwn, computed⟩ := computeMetrics_ok nonempty
  obtain rfl := Except.ok.inj (returned.symm.trans returnedOwn)
  rcases (computed.isPercentile_iff nonempty).mp isPercentile with notDivides | same
  · exact notDivides (by decide)
  · -- nineteen latencies are at most ten seconds, so the one at rank twenty is not
    have quick : (latencies oneSlowOfTwenty).countP (· ≤ 10) = 19 := by
      simp [latencies, oneSlowOfTwenty, resultAfter]
      norm_num
    obtain ⟨slowest, -, isSlowest⟩ := latencyP95_ok nonempty
    have above := @lt_countP_iff _ _ _ 10 isSlowest
    have below := @lt_countP_iff _ _ _ 10 (same.trans isSlowest)
    rw [quick] at above below
    have within : slowest ≤ 10 := below.mp (by decide)
    exact absurd (above.mpr within) (by decide)

/-! ## End to end -/

/-- The results of visits split what was produced. -/
theorem splitsProduced_visits (variant : String) (visits : List (BenchmarkPR × PrOutcome)) :
    SplitsProduced (visits.map fun visit => evaluate variant visit.1 visit.2) := by
  intro result member
  obtain ⟨visit, -, rfl⟩ := List.mem_map.mp member
  exact length_produced visit.2.findings visit.1.expectedFindings

/-- What the evaluation of a pull request depends on: what the pipeline found and reported, and
how long it took. -/
def measured (visit : BenchmarkPR × PrOutcome) :
    BenchmarkPR × List Finding × Dict String ℚ × ℚ :=
  (visit.1, visit.2.findings, visit.2.telemetry, visit.2.ended - visit.2.started)

theorem evaluate_eq_measured (variant : String) (visit : BenchmarkPR × PrOutcome) :
    evaluate variant visit.1 visit.2 = evaluate variant (measured visit).1
      ⟨0, (measured visit).2.1, (measured visit).2.2.1, (measured visit).2.2.2⟩ := by
  simp only [evaluate, measured, sub_zero]

/-- Runs that measure the same have the same results. -/
theorem EvalRun.results_perm {run other : EvalRun variant}
    (perm : (other.visits.map measured).Perm (run.visits.map measured)) :
    other.results.Perm run.results := by
  have byMeasure : ∀ run : EvalRun variant, run.results = (run.visits.map measured).map
      fun seen => evaluate variant seen.1 ⟨0, seen.2.1, seen.2.2.1, seen.2.2.2⟩ := by
    intro run
    rw [run.results_eq, List.map_map]
    exact List.map_congr_left fun visit _ => evaluate_eq_measured variant visit
  rw [byMeasure, byMeasure]
  exact perm.map _

/-- **The evaluation accounts for everything**, and does so in every order of the pull
requests: a run that finds, reports and takes as long for each of them, in another order, has the
same metrics. -/
theorem evaluation_accounts (run : EvalRun variant) (nonempty : run.corpus.prs ≠ []) :
    ∃ metrics, computeMetrics run.results = .ok metrics ∧
      Accounts run.corpus run.results metrics ∧
      ∀ other : EvalRun variant, (other.visits.map measured).Perm (run.visits.map measured) →
        computeMetrics other.results = .ok metrics := by
  have prs := run.map_fst_visits
  have some : run.results ≠ [] := by
    intro none
    rw [run.results_eq, List.map_eq_nil_iff] at none
    rw [← prs, none] at nonempty
    exact nonempty rfl
  have splits := splitsProduced_visits variant run.visits
  rw [← run.results_eq] at splits
  obtain ⟨metrics, returned, computed⟩ := computeMetrics_ok some
  refine ⟨metrics, returned, ⟨?_, ?_, ?_, computed.accepted_bounds,
    computed.falsePositive_bounds splits, computed.latencies_le some⟩, ?_⟩
  · rw [run.results_eq, List.map_map, ← prs, List.map_map]
    rfl
  · rw [computed.truePositives, computed.falsePositives, computed.produced, total_add]
    exact congrArg List.sum (List.map_congr_left splits)
  · have expected : ∀ visit ∈ run.visits, (evaluate variant visit.1 visit.2).truePositives.length +
        (evaluate variant visit.1 visit.2).missed.length = visit.1.expectedFindings.length :=
      fun visit _ => length_expected visit.2.findings visit.1.expectedFindings
    rw [computed.truePositives, computed.missed, total_add, total, run.results_eq, List.map_map,
      ← prs, List.map_map]
    exact congrArg List.sum (List.map_congr_left expected)
  · intro other perm
    rw [← returned]
    refine computeMetrics_perm variant (EvalRun.results_perm perm) ?_
    intro result member
    rw [other.results_eq] at member
    obtain ⟨visit, -, rfl⟩ := List.mem_map.mp member
    rfl

/-- A pull request with an annotated bug and an annotated leak, -/
def examplePr : BenchmarkPR where
  prId := "repo_1"
  repo := "repo"
  prNumber := 1
  headSha := "abc"
  baseSha := "def"
  expectedFindings := [⟨"src/main.py", (5, 5), .bug⟩, ⟨"src/keys.py", (1, 1), .security⟩]

/-- and one that is clean. -/
def cleanPr : BenchmarkPR :=
  { examplePr with prId := "repo_2", prNumber := 2, expectedFindings := [] }

/-- A finding near the annotated line. -/
def nearbyFinding : Finding where
  filePath := "src/main.py"
  lineStart := 10
  lineEnd := 12
  origin := .llm
  confidence := .high
  severity := .warning
  category := .bug
  description := "Missing input validation"

/-- A pipeline that finds the same in every pull request, in two seconds, and reports no
telemetry. -/
def exampleRespond (now : ℚ) : (request : EvalRequest) → Except Empty request.Answer × ℚ
  | .monotonic => (.ok now, now + 1)
  | .review .. => (.ok ([nearbyFinding], ∅), now + 1)

/-- The pipeline misses the leak, and finds a bug where there is none. -/
def exampleRun : EvalRun "structural" where
  corpus := ⟨[examplePr, cleanPr]⟩
  Raised := Empty
  Server := ℚ
  respond := exampleRespond
  server := 0
  results := [evaluate "structural" examplePr ⟨0, [nearbyFinding], ∅, 0 + 1 + 1⟩,
    evaluate "structural" cleanPr ⟨0 + 1 + 1 + 1, [nearbyFinding], ∅, 0 + 1 + 1 + 1 + 1 + 1⟩]
  ran := rfl

/-- The same in the other order, an hour later. -/
def exampleRunBack : EvalRun "structural" where
  corpus := ⟨[cleanPr, examplePr]⟩
  Raised := Empty
  Server := ℚ
  respond := exampleRespond
  server := 3600
  results := [evaluate "structural" cleanPr ⟨3600, [nearbyFinding], ∅, 3600 + 1 + 1⟩,
    evaluate "structural" examplePr
      ⟨3600 + 1 + 1 + 1, [nearbyFinding], ∅, 3600 + 1 + 1 + 1 + 1 + 1⟩]
  ran := rfl

/-- Both runs have the metrics that account for a match, a false positive and a miss. -/
theorem exampleRun_accounts :
    (exampleRun.results.map fun result => (result.truePositives.length,
      result.falsePositives.length, result.missed.length)) = [(1, 0, 1), (0, 1, 0)] ∧
    ∃ metrics, computeMetrics exampleRun.results = .ok metrics ∧
      Accounts exampleRun.corpus exampleRun.results metrics ∧
        computeMetrics exampleRunBack.results = .ok metrics := by
  obtain ⟨metrics, returned, accounts, others⟩ :=
    evaluation_accounts exampleRun (List.cons_ne_nil _ _)
  refine ⟨by decide, metrics, returned, accounts, others exampleRunBack ?_⟩
  have visits : exampleRun.visits = [(examplePr, ⟨0, [nearbyFinding], ∅, 0 + 1 + 1⟩),
      (cleanPr, ⟨0 + 1 + 1 + 1, [nearbyFinding], ∅, 0 + 1 + 1 + 1 + 1 + 1⟩)] := rfl
  have visitsBack : exampleRunBack.visits =
      [(cleanPr, ⟨3600, [nearbyFinding], ∅, 3600 + 1 + 1⟩), (examplePr,
        ⟨3600 + 1 + 1 + 1, [nearbyFinding], ∅, 3600 + 1 + 1 + 1 + 1 + 1⟩)] := rfl
  have seen : exampleRun.visits.map measured =
      [(examplePr, [nearbyFinding], ∅, 2), (cleanPr, [nearbyFinding], ∅, 2)] := by
    simp only [visits, List.map_cons, List.map_nil, measured]
    norm_num
  have seenBack : exampleRunBack.visits.map measured =
      [(cleanPr, [nearbyFinding], ∅, 2), (examplePr, [nearbyFinding], ∅, 2)] := by
    simp only [visitsBack, List.map_cons, List.map_nil, measured]
    norm_num
  rw [seen, seenBack]
  exact List.Perm.swap _ _ _

end Kenjutsu.Evaluation
