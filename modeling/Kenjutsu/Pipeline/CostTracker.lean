import Kenjutsu.Foundations.Dicts
import Mathlib.Algebra.Order.BigOperators.Group.List
import Mathlib.Algebra.Order.Field.Basic
import Mathlib.Algebra.Order.Field.Rat
import Mathlib.Algebra.Order.Monoid.WithTop
import Mathlib.Tactic.Linarith

/-!
# The cost tracker

`CostTracker` adds up the costs of each tenant and compares the total with the tenant's
cap: an alert from four fifths of it, a hard stop from the cap on. The comparison is made
with the quotient of the two, so a cap of zero raises when the status is next computed, for
a cost only after the cost has been added.

Costs and caps are exact here; a cap that was not set is infinite.
-/

set_option autoImplicit false

namespace Kenjutsu.Pipeline

open Foundations

/-- A cap: a number, or `float("inf")`. -/
abbrev Cap := WithTop ℚ

/-- What a call of the tracker raises. -/
inductive CostRaised where
  | zeroDivisionError
deriving DecidableEq, Repr

/-- Snapshot of a tenant's cost position. -/
structure CostStatus where
  tenantId : String
  currentCost : ℚ
  cap : Cap
  alertTriggered : Bool
  hardStop : Bool
deriving DecidableEq

structure CostTracker where
  softThreshold : ℚ := 4 / 5
  costs : Dict String ℚ := ∅
  caps : Dict String Cap := ∅

namespace CostTracker

def setCap (tracker : CostTracker) (tenantId : String) (cap : Cap) : CostTracker :=
  { tracker with caps := tracker.caps.set tenantId cap }

def check (tracker : CostTracker) (tenantId : String) : Except CostRaised CostStatus :=
  let current := (tracker.costs.get tenantId).getD 0
  match (tracker.caps.get tenantId).getD ⊤ with
  | none =>
      .ok { tenantId, currentCost := current, cap := ⊤, alertTriggered := false, hardStop := false }
  | some cap =>
      if cap = 0 then .error .zeroDivisionError
      else
        let ratio := current / cap
        .ok { tenantId, currentCost := current, cap,
              alertTriggered := ratio ≥ tracker.softThreshold
              hardStop := ratio ≥ 1 }

/-- `record_cost`: the cost is added before the status is computed. -/
def recordCost (tracker : CostTracker) (tenantId : String) (cost : ℚ) :
    Except CostRaised CostStatus × CostTracker :=
  let tracker :=
    { tracker with
      costs := tracker.costs.set tenantId ((tracker.costs.get tenantId).getD 0 + cost) }
  (tracker.check tenantId, tracker)

end CostTracker

/-! ## Histories -/

/-- A call that changes the tracker. -/
inductive CostCall where
  | setCap (tenantId : String) (cap : Cap)
  | recordCost (tenantId : String) (cost : ℚ)
deriving DecidableEq

namespace CostCall

def tenantId : CostCall → String
  | .setCap tenantId _ => tenantId
  | .recordCost tenantId _ => tenantId

/-- What the call returns, and the tracker after it. -/
def perform (tracker : CostTracker) : CostCall → Except CostRaised (Option CostStatus) × CostTracker
  | .setCap tenantId cap => (.ok none, tracker.setCap tenantId cap)
  | .recordCost tenantId cost =>
      let (outcome, tracker) := tracker.recordCost tenantId cost
      (outcome.map some, tracker)

/-- The cost that the call records for the tenant. -/
def costFor (sought : String) : CostCall → ℚ
  | .setCap _ _ => 0
  | .recordCost tenantId cost => if tenantId = sought then cost else 0

/-- The cap that the call sets for the tenant. -/
def capFor (sought : String) : CostCall → Option Cap
  | .setCap tenantId cap => if tenantId = sought then some cap else none
  | .recordCost _ _ => none

/-- A cap is finite and not negative, and so is a cost. -/
def Admitted : CostCall → Prop
  | .setCap _ cap => ∃ amount : ℚ, cap = amount ∧ 0 ≤ amount
  | .recordCost _ cost => 0 ≤ cost

end CostCall

/-- The tracker after some calls. -/
def trackerAfter (calls : List CostCall) : CostTracker :=
  calls.foldl (fun tracker call => (call.perform tracker).2) {}

/-- The sum of all costs recorded for the tenant. -/
def totalCost (tenantId : String) (calls : List CostCall) : ℚ :=
  (calls.map (CostCall.costFor tenantId)).sum

/-- The last cap set for the tenant. -/
def lastCap (tenantId : String) (calls : List CostCall) : Option Cap :=
  (calls.filterMap (CostCall.capFor tenantId)).getLast?

/-- A cap is set, and the amount is at least the given share of it. -/
def Reaches (share : ℚ) (tenantId : String) (calls : List CostCall) : Prop :=
  ∃ cap : ℚ, lastCap tenantId calls = some cap ∧ share * cap ≤ totalCost tenantId calls

/-- The status of a tenant after some calls. -/
structure Reports (tenantId : String) (calls : List CostCall) (status : CostStatus) : Prop where
  tenant : status.tenantId = tenantId
  current : status.currentCost = totalCost tenantId calls
  cap : status.cap = (lastCap tenantId calls).getD ⊤
  alert : status.alertTriggered ↔ Reaches (4 / 5) tenantId calls
  stop : status.hardStop ↔ Reaches 1 tenantId calls

/-- The tenant is stopped. -/
def HardStopped (tracker : CostTracker) (tenantId : String) : Prop :=
  ∃ status, tracker.check tenantId = .ok status ∧ status.hardStop

/-- After the calls, the call raises the cap of the tenant. -/
def Raises (tenantId : String) (calls : List CostCall) (call : CostCall) : Prop :=
  ∃ cap ∈ call.capFor tenantId, ∃ previous ∈ lastCap tenantId calls, previous < cap

/-- What a tracker is to do over a whole history. -/
structure TracksCosts (calls : List CostCall) : Prop where
  /-- No call raises, and a status it returns is that of its tenant. -/
  returns : ∀ earlier call later, calls = earlier ++ call :: later →
    ∃ answer, (call.perform (trackerAfter earlier)).1 = .ok answer ∧
      ∀ status ∈ answer, Reports call.tenantId (earlier ++ [call]) status
  /-- A check between the calls returns, with the status of its tenant. -/
  checks : ∀ earlier later, calls = earlier ++ later → ∀ tenantId,
    ∃ status, (trackerAfter earlier).check tenantId = .ok status ∧
      Reports tenantId earlier status
  /-- The calls for other tenants do not matter. -/
  isolated : ∀ earlier others later, calls = earlier ++ others ++ later → ∀ tenantId,
    (∀ call ∈ others, call.tenantId ≠ tenantId) →
      (trackerAfter (earlier ++ others)).check tenantId = (trackerAfter earlier).check tenantId
  /-- A hard stop stays until the cap is raised. -/
  stays : ∀ earlier between later, calls = earlier ++ between ++ later → ∀ tenantId,
    HardStopped (trackerAfter earlier) tenantId →
      (∀ first call rest, between = first ++ call :: rest →
        ¬ Raises tenantId (earlier ++ first) call) →
      HardStopped (trackerAfter (earlier ++ between)) tenantId

/-! ## What the tracker remembers -/

variable {calls earlier others : List CostCall} {call : CostCall} {tenantId : String}

theorem trackerAfter_concat (calls : List CostCall) (call : CostCall) :
    trackerAfter (calls ++ [call]) = (call.perform (trackerAfter calls)).2 := by
  rw [trackerAfter, List.foldl_append]
  rfl

theorem totalCost_append (first second : List CostCall) :
    totalCost tenantId (first ++ second) = totalCost tenantId first + totalCost tenantId second := by
  rw [totalCost, List.map_append, List.sum_append]
  rfl

theorem lastCap_append (first second : List CostCall) :
    lastCap tenantId (first ++ second) = (lastCap tenantId second).or (lastCap tenantId first) := by
  rw [lastCap, List.filterMap_append, List.getLast?_append]
  rfl

/-- **What the tracker remembers of a tenant**: the sum of its costs and its last cap. -/
theorem trackerAfter_spec (calls : List CostCall) :
    (trackerAfter calls).softThreshold = 4 / 5 ∧
      (∀ tenantId, ((trackerAfter calls).costs.get tenantId).getD 0 = totalCost tenantId calls) ∧
      ∀ tenantId, (trackerAfter calls).caps.get tenantId = lastCap tenantId calls := by
  induction calls using List.reverseRecOn with
  | nil => simp [trackerAfter, totalCost, lastCap]
  | append_singleton calls call ih =>
      obtain ⟨threshold, costs, caps⟩ := ih
      rw [trackerAfter_concat]
      cases call with
      | setCap tenant cap =>
          refine ⟨threshold, fun tenantId => ?_, fun tenantId => ?_⟩
          · rw [totalCost_append, ← costs]
            simp [totalCost, CostCall.perform, CostTracker.setCap, CostCall.costFor]
          · rw [lastCap_append, ← caps]
            by_cases same : tenantId = tenant
            · simp [same, lastCap, CostCall.perform, CostTracker.setCap, CostCall.capFor]
            · simp [same, Ne.symm same, lastCap, CostCall.perform, CostTracker.setCap,
                CostCall.capFor]
      | recordCost tenant cost =>
          refine ⟨threshold, fun tenantId => ?_, fun tenantId => ?_⟩
          · rw [totalCost_append, ← costs]
            by_cases same : tenantId = tenant
            · simp [same, totalCost, CostCall.perform, CostTracker.recordCost, CostCall.costFor]
            · simp [same, Ne.symm same, totalCost, CostCall.perform, CostTracker.recordCost,
                CostCall.costFor]
          · rw [lastCap_append, ← caps]
            simp [lastCap, CostCall.perform, CostTracker.recordCost, CostCall.capFor]

/-- The last cap was set by a call. -/
theorem mem_of_lastCap {cap : Cap} (last : lastCap tenantId calls = some cap) :
    .setCap tenantId cap ∈ calls := by
  obtain ⟨call, member, sets⟩ := List.mem_filterMap.mp (List.mem_of_getLast? last)
  cases call with
  | recordCost tenant cost => cases sets
  | setCap tenant other =>
      simp only [CostCall.capFor, Option.ite_none_right_eq_some, Option.some.injEq] at sets
      obtain ⟨rfl, rfl⟩ := sets
      exact member

theorem totalCost_eq_zero_of_others (apart : ∀ call ∈ others, call.tenantId ≠ tenantId) :
    totalCost tenantId others = 0 := by
  refine List.sum_eq_zero fun cost member => ?_
  obtain ⟨call, listed, rfl⟩ := List.mem_map.mp member
  cases call with
  | setCap tenant cap => rfl
  | recordCost tenant cost => exact if_neg (apart _ listed)

theorem lastCap_eq_none_of_others (apart : ∀ call ∈ others, call.tenantId ≠ tenantId) :
    lastCap tenantId others = none := by
  rw [lastCap, List.getLast?_eq_none_iff, List.filterMap_eq_nil_iff]
  intro call listed
  cases call with
  | setCap tenant cap => exact if_neg (apart _ listed)
  | recordCost tenant cost => rfl

theorem totalCost_nonneg (admitted : ∀ call ∈ calls, call.Admitted) :
    0 ≤ totalCost tenantId calls := by
  refine List.sum_nonneg fun cost member => ?_
  obtain ⟨call, listed, rfl⟩ := List.mem_map.mp member
  cases call with
  | setCap tenant cap => exact le_refl 0
  | recordCost tenant cost =>
      have nonneg : 0 ≤ cost := admitted _ listed
      simp only [CostCall.costFor]
      split
      · exact nonneg
      · exact le_refl 0

/-- Without a cap of zero, the last cap is a positive number. -/
theorem lastCap_pos (admitted : ∀ call ∈ calls, call.Admitted)
    (nonzero : .setCap tenantId 0 ∉ calls) {cap : Cap} (last : lastCap tenantId calls = some cap) :
    ∃ amount : ℚ, cap = amount ∧ 0 < amount := by
  have listed := mem_of_lastCap last
  obtain ⟨amount, rfl, nonneg⟩ := admitted _ listed
  refine ⟨amount, rfl, lt_of_le_of_ne nonneg ?_⟩
  rintro rfl
  exact nonzero listed

/-! ## Checks -/

/-- The status computed for a positive cap. -/
theorem check_of_cap {amount : ℚ} (last : lastCap tenantId calls = some (amount : Cap))
    (positive : 0 < amount) :
    (trackerAfter calls).check tenantId = .ok
      { tenantId, currentCost := totalCost tenantId calls, cap := amount
        alertTriggered := decide (4 / 5 * amount ≤ totalCost tenantId calls)
        hardStop := decide (amount ≤ totalCost tenantId calls) } := by
  obtain ⟨threshold, costs, caps⟩ := trackerAfter_spec calls
  unfold CostTracker.check
  rw [costs, caps, last, threshold]
  simp only [Option.getD_some]
  rw [if_neg positive.ne']
  simp only [ge_iff_le, le_div_iff₀ positive, one_mul]

theorem check_of_noCap (last : lastCap tenantId calls = none) :
    (trackerAfter calls).check tenantId = .ok
      { tenantId, currentCost := totalCost tenantId calls, cap := ⊤
        alertTriggered := false, hardStop := false } := by
  obtain ⟨-, costs, caps⟩ := trackerAfter_spec calls
  unfold CostTracker.check
  rw [costs, caps, last]
  rfl

/-- A cap of zero makes a check raise. -/
theorem check_of_zeroCap (last : lastCap tenantId calls = some 0) :
    (trackerAfter calls).check tenantId = .error .zeroDivisionError := by
  obtain ⟨-, -, caps⟩ := trackerAfter_spec calls
  unfold CostTracker.check
  rw [caps, last]
  rfl

/-- **A check reports the history**, if no cap is zero. -/
theorem check_reports (admitted : ∀ call ∈ calls, call.Admitted)
    (nonzero : .setCap tenantId 0 ∉ calls) :
    ∃ status, (trackerAfter calls).check tenantId = .ok status ∧ Reports tenantId calls status := by
  cases last : lastCap tenantId calls with
  | none =>
      refine ⟨_, check_of_noCap last, rfl, rfl, ?_, ?_, ?_⟩
      · rw [last]
        rfl
      · simp [Reaches, last]
      · simp [Reaches, last]
  | some cap =>
      obtain ⟨amount, rfl, positive⟩ := lastCap_pos admitted nonzero last
      refine ⟨_, check_of_cap last positive, rfl, rfl, ?_, ?_, ?_⟩
      · rw [last]
        rfl
      · simp [Reaches, last]
      · simp [Reaches, last]

/-- A status computed after some calls depends on the tenant's own calls only. -/
theorem check_append_others (apart : ∀ call ∈ others, call.tenantId ≠ tenantId) :
    (trackerAfter (earlier ++ others)).check tenantId =
      (trackerAfter earlier).check tenantId := by
  obtain ⟨threshold, costs, caps⟩ := trackerAfter_spec earlier
  obtain ⟨thresholdNow, costsNow, capsNow⟩ := trackerAfter_spec (earlier ++ others)
  unfold CostTracker.check
  rw [threshold, costs, caps, thresholdNow, costsNow, capsNow, totalCost_append, lastCap_append,
    totalCost_eq_zero_of_others apart, lastCap_eq_none_of_others apart, add_zero, Option.none_or]

/-! ## Hard stops -/

theorem hardStopped_iff (admitted : ∀ call ∈ calls, call.Admitted)
    (nonzero : .setCap tenantId 0 ∉ calls) :
    HardStopped (trackerAfter calls) tenantId ↔ Reaches 1 tenantId calls := by
  obtain ⟨status, returned, reports⟩ := check_reports admitted nonzero
  constructor
  · rintro ⟨other, returnedOther, stopped⟩
    rw [returned] at returnedOther
    obtain rfl := Except.ok.inj returnedOther
    exact reports.stop.mp stopped
  · intro reaches
    exact ⟨status, returned, reports.stop.mpr reaches⟩

/-- One more call keeps a cap reached, unless it raises the cap. -/
theorem Reaches.concat (reaches : Reaches 1 tenantId calls) (admitted : call.Admitted)
    (kept : ¬ Raises tenantId calls call) : Reaches 1 tenantId (calls ++ [call]) := by
  obtain ⟨cap, last, reached⟩ := reaches
  have grows : totalCost tenantId calls ≤ totalCost tenantId (calls ++ [call]) := by
    rw [totalCost_append]
    have nonneg := @totalCost_nonneg [call] tenantId (by simpa using admitted)
    linarith
  cases sets : call.capFor tenantId with
  | none =>
      refine ⟨cap, ?_, reached.trans grows⟩
      rw [lastCap_append, last]
      simp [lastCap, sets]
  | some newer =>
      have latest : lastCap tenantId (calls ++ [call]) = some newer := by
        rw [lastCap_append]
        simp [lastCap, sets]
      have lowered : newer ≤ cap := not_lt.mp fun raised => kept ⟨newer, sets, cap, last, raised⟩
      obtain ⟨amount, rfl⟩ := WithTop.ne_top_iff_exists.mp (ne_top_of_le_ne_top
        (WithTop.coe_ne_top (a := cap)) lowered)
      refine ⟨amount, latest, ?_⟩
      have atMost : amount ≤ cap := WithTop.coe_le_coe.mp lowered
      linarith

/-- A reached cap stays reached until it is raised. -/
theorem Reaches.append (reaches : Reaches 1 tenantId earlier) {between : List CostCall}
    (admitted : ∀ call ∈ between, call.Admitted)
    (kept : ∀ first call rest, between = first ++ call :: rest →
      ¬ Raises tenantId (earlier ++ first) call) : Reaches 1 tenantId (earlier ++ between) := by
  induction between generalizing earlier with
  | nil => rwa [List.append_nil]
  | cons call between ih =>
      obtain ⟨own, rest⟩ := List.forall_mem_cons.mp admitted
      have stillKept := kept [] call between rfl
      rw [List.append_nil] at stillKept
      rw [List.append_cons]
      refine ih (reaches.concat own stillKept) rest ?_
      rintro first later more rfl
      rw [List.append_assoc]
      exact kept (call :: first) later more rfl

/-! ## Whole histories -/

/-- **The tracker does what it is to do over a whole history** exactly when no cap is set
to zero. -/
theorem tracksCosts_iff_nonzeroCaps (calls : List CostCall)
    (admitted : ∀ call ∈ calls, call.Admitted) :
    TracksCosts calls ↔ ∀ tenantId, .setCap tenantId 0 ∉ calls := by
  constructor
  · intro tracks tenantId listed
    obtain ⟨earlier, later, rfl⟩ := List.append_of_mem listed
    have zero : lastCap tenantId (earlier ++ [.setCap tenantId 0]) = some 0 := by
      rw [lastCap_append]
      simp [lastCap, CostCall.capFor]
    obtain ⟨status, returned, -⟩ :=
      tracks.checks (earlier ++ [.setCap tenantId 0]) later (by simp) tenantId
    rw [check_of_zeroCap zero] at returned
    cases returned
  · intro nonzero
    have within : ∀ {part rest : List CostCall}, calls = part ++ rest →
        (∀ call ∈ part, call.Admitted) ∧ ∀ tenantId, .setCap tenantId 0 ∉ part := by
      rintro part rest rfl
      exact ⟨fun call member => admitted call (List.mem_append_left _ member),
        fun tenantId member => nonzero tenantId (List.mem_append_left _ member)⟩
    refine ⟨?_, ?_, ?_, ?_⟩
    · rintro earlier call later split
      obtain ⟨fine, positive⟩ := within (split.trans (List.append_cons earlier call later))
      cases call with
      | setCap tenant cap => exact ⟨none, rfl, nofun⟩
      | recordCost tenant cost =>
          obtain ⟨status, returned, reports⟩ := check_reports fine (positive tenant)
          rw [trackerAfter_concat] at returned
          refine ⟨some status, congrArg (Except.map some) returned, ?_⟩
          rintro _ ⟨⟩
          exact reports
    · intro earlier later split tenantId
      obtain ⟨fine, positive⟩ := within split
      exact check_reports fine (positive tenantId)
    · intro earlier others later split tenantId apart
      exact check_append_others apart
    · intro earlier between later split tenantId stopped kept
      obtain ⟨fine, positive⟩ := within split
      have early := within (split.trans (List.append_assoc earlier between later))
      have reaches := (hardStopped_iff early.1 (early.2 tenantId)).mp stopped
      refine (hardStopped_iff fine (positive tenantId)).mpr (reaches.append ?_ kept)
      exact fun call member => fine call (List.mem_append_right _ member)

/-- A tenant comes near its cap, and its neighbour is below its own. -/
theorem tracksCosts_twoTenants :
    TracksCosts [.setCap "acme" (100 : ℚ), .setCap "octo" (100 : ℚ), .recordCost "acme" 85,
      .recordCost "octo" 10] := by
  refine (tracksCosts_iff_nonzeroCaps _ ?_).mpr ?_
  · simp only [List.forall_mem_cons, CostCall.Admitted]
    exact ⟨⟨100, rfl, by norm_num⟩, ⟨100, rfl, by norm_num⟩, by norm_num, by norm_num, nofun⟩
  · intro tenantId
    simp

/-- A tenant whose cap is zero records its first cost. -/
theorem not_tracksCosts_zeroCap :
    (∀ call ∈ [.setCap "acme" 0, .recordCost "acme" 1], CostCall.Admitted call) ∧
      ¬ TracksCosts [.setCap "acme" 0, .recordCost "acme" 1] := by
  refine ⟨?_, fun tracks => ?_⟩
  · simp only [List.forall_mem_cons, CostCall.Admitted]
    exact ⟨⟨0, rfl, le_refl 0⟩, by norm_num, nofun⟩
  · obtain ⟨answer, returned, -⟩ := tracks.returns [.setCap "acme" 0] (.recordCost "acme" 1) [] rfl
    have raised : (trackerAfter [.setCap "acme" 0, .recordCost "acme" 1]).check "acme" =
        .error .zeroDivisionError := check_of_zeroCap rfl
    have outcome : ((CostCall.recordCost "acme" 1).perform (trackerAfter [.setCap "acme" 0])).1 =
        ((trackerAfter [.setCap "acme" 0, .recordCost "acme" 1]).check "acme").map some := rfl
    rw [outcome, raised] at returned
    cases returned

end Kenjutsu.Pipeline
