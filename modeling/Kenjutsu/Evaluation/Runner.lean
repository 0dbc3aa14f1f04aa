import Kenjutsu.Foundations.Dicts
import Kenjutsu.Foundations.Statistics
import Kenjutsu.Foundations.Transcripts
import Kenjutsu.Models.Findings

/-!
# The evaluation runner

`run_eval` runs a review pipeline on every pull request of a corpus and matches what it
produced against the annotations; `compute_metrics` adds the results up. Numbers are
exact, and what would raise in the source (a division by zero, a mean of nothing, an
index that is out of range) is an error here.
-/

set_option autoImplicit false

namespace Kenjutsu.Evaluation

open Foundations Foundations.Coroutine Kenjutsu.Models

/-! ## The corpus and the results -/

/-- Ground-truth finding from the benchmark corpus; the line range is inclusive. -/
structure AnnotatedFinding where
  filePath : String
  lineRange : Int × Int
  category : Category
deriving DecidableEq, Repr

/-- One annotated pull request. -/
structure BenchmarkPR where
  prId : String
  repo : String
  prNumber : Int
  headSha : String
  baseSha : String
  expectedFindings : List AnnotatedFinding
deriving DecidableEq, Repr

structure Corpus where
  prs : List BenchmarkPR

/-- The result of one pull request, with what was matched and what was not. -/
structure EvalResult where
  prId : String
  variant : String
  findingsProduced : List Finding
  expectedFindings : List AnnotatedFinding
  truePositives : List Finding
  falsePositives : List Finding
  missed : List AnnotatedFinding
  latencyMs : Int
  tokensIn : Int
  tokensOut : Int
  costUsd : ℚ

/-- Aggregated metrics, with a flag for each target. -/
structure EvalMetrics where
  variant : String
  prCount : Nat
  totalFindingsProduced : Nat
  totalTruePositives : Nat
  totalFalsePositives : Nat
  totalMissed : Nat
  commentsPerPrDefects : ℚ
  acceptedFindingRate : ℚ
  fpRateVerified : ℚ
  fpRateHighConfidence : ℚ
  latencyP50Seconds : ℚ
  latencyP95Seconds : ℚ
  totalTokensIn : Int
  totalTokensOut : Int
  totalCostUsd : ℚ
  avgCostPerPrUsd : ℚ
  meetsCommentsPerPrTarget : Bool
  meetsAcceptedFindingTarget : Bool
  meetsFpVerifiedTarget : Bool
  meetsFpHighConfidenceTarget : Bool
  meetsLatencyP50Target : Bool
  meetsLatencyP95Target : Bool
deriving DecidableEq

/-! ## Matching -/

/-- `_line_ranges_overlap`. -/
def lineRangesOverlap (produced expected : Int × Int) (tolerance : Int := 5) : Bool :=
  let eStartAdj := expected.1 - tolerance
  let eEndAdj := expected.2 + tolerance
  produced.1 ≤ eEndAdj && produced.2 ≥ eStartAdj

/-- The matching rule. -/
def isMatch (finding : Finding) (ann : AnnotatedFinding) : Bool :=
  finding.filePath = ann.filePath && finding.category = ann.category &&
    lineRangesOverlap (finding.lineStart, finding.lineEnd) ann.lineRange

/-- The inner loop: the expected findings that are left when the first match is taken
out, if there is one. -/
def popMatch (finding : Finding) : List AnnotatedFinding → Option (List AnnotatedFinding)
  | [] => none
  | ann :: expected =>
      if isMatch finding ann then some expected
      else (popMatch finding expected).map (ann :: ·)

/-- The classification that `match_findings` returns. -/
structure Matched where
  truePositives : List Finding
  falsePositives : List Finding
  missed : List AnnotatedFinding
deriving DecidableEq, Repr

/-- `match_findings`. -/
def matchFindings : List Finding → List AnnotatedFinding → Matched
  | [], unmatchedExpected => ⟨[], [], unmatchedExpected⟩
  | finding :: produced, unmatchedExpected =>
      match popMatch finding unmatchedExpected with
      | some rest =>
          let matched := matchFindings produced rest
          { matched with truePositives := finding :: matched.truePositives }
      | none =>
          let matched := matchFindings produced unmatchedExpected
          { matched with falsePositives := finding :: matched.falsePositives }

/-! ## Metrics -/

/-- What `compute_metrics` can raise. -/
inductive MetricsError where
  | valueError (message : String)
  | statisticsError
  | zeroDivisionError
  | indexError
deriving DecidableEq, Repr

/-- `/`. -/
def divide (dividend divisor : ℚ) : Except MetricsError ℚ :=
  if divisor = 0 then .error .zeroDivisionError else .ok (dividend / divisor)

/-- A value of the statistics module, which raises if there is none. -/
def statistic : Option ℚ → Except MetricsError ℚ
  | some value => .ok value
  | none => .error .statisticsError

/-- `_DEFECT_CATEGORIES`. -/
def defectCategories : List Category := [.bug, .security, .breakingChange]

/-- A sum of counts over the results. -/
def total (count : EvalResult → Nat) (results : List EvalResult) : Nat := (results.map count).sum

def defectCount (result : EvalResult) : Nat :=
  result.findingsProduced.countP fun finding => defectCategories.contains finding.category

/-- The number of false positives of a result with one of the confidences. -/
def falsePositivesOf (confidences : List Confidence) (result : EvalResult) : Nat :=
  result.falsePositives.countP fun finding => confidences.contains finding.confidence

/-- A part of a whole, zero if there is nothing. -/
def rate (part whole : Nat) : Except MetricsError ℚ :=
  if whole > 0 then divide part whole else .ok 0

/-- `latencies_s`. -/
def latencies (results : List EvalResult) : List ℚ :=
  results.map fun result => (result.latencyMs : ℚ) / 1000

/-- The latency at the index of the 95th percentile. -/
def latencyP95 (results : List EvalResult) : Except MetricsError ℚ :=
  let latenciesSorted := sorted (latencies results)
  let p95Index := (truncate (latenciesSorted.length * (95 / 100))).toNat
  match latenciesSorted[min p95Index (latenciesSorted.length - 1)]? with
  | some latency => .ok latency
  | none => .error .indexError

/-- `compute_metrics`. -/
def computeMetrics (results : List EvalResult) : Except MetricsError EvalMetrics :=
  match results with
  | [] => .error (.valueError "Cannot compute metrics from empty results list")
  | first :: _ => do
      let totalFindingsProduced := total (fun r => r.findingsProduced.length) results
      let totalTruePositives := total (fun r => r.truePositives.length) results
      let totalFalsePositives := total (fun r => r.falsePositives.length) results
      let totalMissed := total (fun r => r.missed.length) results
      let commentsPerPrDefects ← statistic (mean (results.map fun r => (defectCount r : ℚ)))
      let acceptedFindingRate ← rate totalTruePositives (totalTruePositives + totalMissed)
      let fpVerified := total (falsePositivesOf [.verified]) results
      let fpHighOrBetter := total (falsePositivesOf [.verified, .high]) results
      let fpRateVerified ← rate fpVerified totalFindingsProduced
      let fpRateHighConfidence ← rate fpHighOrBetter totalFindingsProduced
      let latencyP50 ← statistic (median (latencies results))
      let latencyP95 ← latencyP95 results
      let totalCostUsd := (results.map EvalResult.costUsd).sum
      let avgCostPerPrUsd ← divide totalCostUsd results.length
      return {
        variant := first.variant
        prCount := results.length
        totalFindingsProduced, totalTruePositives, totalFalsePositives, totalMissed
        commentsPerPrDefects, acceptedFindingRate, fpRateVerified, fpRateHighConfidence
        latencyP50Seconds := latencyP50
        latencyP95Seconds := latencyP95
        totalTokensIn := (results.map EvalResult.tokensIn).sum
        totalTokensOut := (results.map EvalResult.tokensOut).sum
        totalCostUsd, avgCostPerPrUsd
        meetsCommentsPerPrTarget := commentsPerPrDefects < 8
        meetsAcceptedFindingTarget := acceptedFindingRate > 60 / 100
        meetsFpVerifiedTarget := fpRateVerified < 1 / 100
        meetsFpHighConfidenceTarget := fpRateHighConfidence < 10 / 100
        meetsLatencyP50Target := latencyP50 < 30
        meetsLatencyP95Target := latencyP95 < 60 }

/-! ## The runner -/

/-- What the runner asks for: the clock, or a review. -/
inductive EvalRequest where
  | monotonic
  | review (repo : String) (prNumber : Int) (headSha baseSha variant : String)
deriving DecidableEq, Repr

/-- The time, or the findings of the review and its telemetry. -/
def EvalRequest.Answer : EvalRequest → Type
  | .monotonic => ℚ
  | .review .. => List Finding × Dict String ℚ

abbrev Runner (Raised : Type) := Coroutine Unit EvalRequest.Answer Raised

/-- What was seen of the evaluation of one pull request. -/
structure PrOutcome where
  started : ℚ
  findings : List Finding
  telemetry : Dict String ℚ
  ended : ℚ

/-- The result of one pull request. -/
def evaluate (variant : String) (pr : BenchmarkPR) (outcome : PrOutcome) : EvalResult :=
  let elapsedMs := truncate ((outcome.ended - outcome.started) * 1000)
  let matched := matchFindings outcome.findings pr.expectedFindings
  { prId := pr.prId
    variant := variant
    findingsProduced := outcome.findings
    expectedFindings := pr.expectedFindings
    truePositives := matched.truePositives
    falsePositives := matched.falsePositives
    missed := matched.missed
    latencyMs := truncate ((outcome.telemetry.get "latency_ms").getD elapsedMs)
    tokensIn := truncate ((outcome.telemetry.get "tokens_in").getD 0)
    tokensOut := truncate ((outcome.telemetry.get "tokens_out").getD 0)
    costUsd := (outcome.telemetry.get "cost_usd").getD 0 }

variable {Raised : Type}

/-- The body of the loop over the pull requests. -/
def evaluatePr (variant : String) (pr : BenchmarkPR) : Runner Raised EvalResult := do
  let t0 ← call EvalRequest.monotonic
  let review ← call (EvalRequest.review pr.repo pr.prNumber pr.headSha pr.baseSha variant)
  let t1 ← call EvalRequest.monotonic
  pure (evaluate variant pr ⟨t0, review.1, review.2, t1⟩)

def evaluatePrs (variant : String) : List BenchmarkPR → Runner Raised (List EvalResult)
  | [] => pure []
  | pr :: prs => do
      let result ← evaluatePr variant pr
      let results ← evaluatePrs variant prs
      pure (result :: results)

/-- `run_eval`. -/
def runEval (corpus : Corpus) (variant : String := "structural") :
    Runner Raised (List EvalResult) :=
  evaluatePrs variant corpus.prs

end Kenjutsu.Evaluation
