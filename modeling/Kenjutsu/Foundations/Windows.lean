import Mathlib.Algebra.Order.Group.Defs
import Mathlib.Data.List.Infix
import Mathlib.Order.Basic

/-!
# Sliding windows

The window of a length that ends at a moment is half open: a time exactly one
length before the moment is no longer in it. In a list of times in order, what has
left a window stands at the front (`dropWhile_eq_filter`), and what has left it
never comes back (`window_append_of_gone`). If every time was added while fewer
than a number of the earlier ones were in the window that ends there, no window
has more than this number of them (`length_window_le`). And to add whatever has room
is the best that can be done: of the same times, no choice that overfills no window
is ever ahead (`countP_le_admitted`).
-/

set_option autoImplicit false

namespace Foundations

variable {Time : Type} [LinearOrder Time]

/-- Of times in order, those up to a cutoff stand at the front. -/
theorem dropWhile_eq_filter {times : List Time} (sorted : times.Pairwise (· ≤ ·))
    (cutoff : Time) :
    (times.dropWhile fun time => time ≤ cutoff) = times.filter fun time => cutoff < time := by
  induction sorted with
  | nil => rfl
  | @cons time times later _ ih =>
      by_cases early : time ≤ cutoff
      · rw [List.dropWhile_cons_of_pos (by simpa using early),
          List.filter_cons_of_neg (by simpa using early), ih]
      · have all : ∀ other ∈ time :: times, decide (cutoff < other) = true := by
          intro other member
          rcases List.mem_cons.mp member with rfl | isLater
          · simpa using early
          · simpa using lt_of_lt_of_le (not_le.mp early) (later other isLater)
        rw [List.dropWhile_cons_of_neg (by simpa using early), List.filter_eq_self.mpr all]

/-- What stands at the front up to one cutoff does so up to every later one. -/
theorem dropWhile_dropWhile {cutoff later : Time} (ordered : cutoff ≤ later)
    (times : List Time) :
    ((times.dropWhile fun time => time ≤ cutoff).dropWhile fun time => time ≤ later) =
      times.dropWhile fun time => time ≤ later := by
  induction times with
  | nil => rfl
  | cons time times ih =>
      by_cases early : time ≤ cutoff
      · rw [List.dropWhile_cons_of_pos (by simpa using early),
          List.dropWhile_cons_of_pos (by simpa using early.trans ordered), ih]
      · rw [List.dropWhile_cons_of_neg (by simpa using early)]

variable [AddCommGroup Time]

/-- The times of a list in the window that ends at the moment. -/
def window (period moment : Time) (times : List Time) : List Time :=
  times.filter fun time => moment - period < time ∧ time ≤ moment

/-- **What has left the window never matters again**: after the times that are gone,
the window is what is left of the others. -/
theorem window_append_of_gone {period moment : Time} {gone times : List Time}
    (left : ∀ time ∈ gone, time ≤ moment - period) (sorted : times.Pairwise (· ≤ ·))
    (past : ∀ time ∈ times, time ≤ moment) :
    window period moment (gone ++ times) =
      times.dropWhile fun time => time ≤ moment - period := by
  have none : window period moment gone = [] := by
    rw [window, List.filter_eq_nil_iff]
    intro time member within
    have inside := of_decide_eq_true within
    exact absurd (left time member) (not_le.mpr inside.1)
  have rest : window period moment times = times.filter fun time => moment - period < time := by
    refine List.filter_congr fun time member => ?_
    simp [past time member]
  rw [dropWhile_eq_filter sorted, ← rest, ← List.nil_append (window period moment times), ← none]
  exact List.filter_append ..

variable [IsOrderedAddMonoid Time]

/-- A window that ends later has no more of the times up to an earlier moment. -/
theorem length_window_mono {period moment later : Time} (ordered : moment ≤ later)
    {times : List Time} (past : ∀ time ∈ times, time ≤ moment) :
    (window period later times).length ≤ (window period moment times).length := by
  apply List.Sublist.length_le
  have same : window period later times =
      (window period moment times).filter fun time => later - period < time := by
    rw [window, window, List.filter_filter]
    refine List.filter_congr fun time member => ?_
    have early := past time member
    have cutoffs : moment - period ≤ later - period := sub_le_sub_right ordered period
    rw [Bool.eq_iff_iff]
    simp only [Bool.and_eq_true, decide_eq_true_eq]
    constructor
    · rintro ⟨after, -⟩
      exact ⟨after, lt_of_le_of_lt cutoffs after, early⟩
    · rintro ⟨after, -⟩
      exact ⟨after, early.trans ordered⟩
  rw [same]
  exact List.filter_sublist

/-- **No window is overfull** if every time, in order, was added while its window had
room. -/
theorem length_window_le {period : Time} {limit : Nat} {times : List Time}
    (sorted : times.Pairwise (· ≤ ·))
    (room : ∀ earlier time rest, times = earlier ++ time :: rest →
      (window period time earlier).length < limit) (moment : Time) :
    (window period moment times).length ≤ limit := by
  induction times using List.reverseRecOn with
  | nil => simp [window]
  | append_singleton times last ih =>
      have before : ∀ time ∈ times, time ≤ last := by
        intro time member
        exact (List.pairwise_append.mp sorted).2.2 time member last (List.mem_singleton_self last)
      have roomBefore : (window period moment times).length ≤ limit := by
        refine ih (List.pairwise_append.mp sorted).1 ?_
        rintro earlier time rest rfl
        exact room earlier time (rest ++ [last]) (by simp)
      have split : window period moment (times ++ [last]) =
          window period moment times ++ window period moment [last] := List.filter_append ..
      by_cases within : moment - period < last ∧ last ≤ moment
      · have lastRoom := room times last [] rfl
        have fewer : (window period moment times).length ≤ (window period last times).length :=
          length_window_mono within.2 before
        have one : (window period moment [last]).length ≤ 1 := List.length_filter_le ..
        rw [split, List.length_append]
        omega
      · have none : window period moment [last] = [] := by
          rw [window, List.filter_cons_of_neg (by simpa using within), List.filter_nil]
        rw [split, none, List.append_nil]
        exact roomBefore

/-! ## Admitting whatever has room -/

omit [IsOrderedAddMonoid Time] in
theorem length_window_append (period moment : Time) (first second : List Time) :
    (window period moment (first ++ second)).length =
      (window period moment first).length + (window period moment second).length := by
  rw [window, List.filter_append, List.length_append]
  rfl

/-- Of times in order, those are admitted whose window has room. -/
def admitted (period : Time) (limit : Nat) (times : List Time) : List Time :=
  times.foldl (fun before time =>
    if (window period time before).length < limit then before ++ [time] else before) []

omit [IsOrderedAddMonoid Time] in
theorem admitted_concat (period : Time) (limit : Nat) (times : List Time) (last : Time) :
    admitted period limit (times ++ [last]) =
      if (window period last (admitted period limit times)).length < limit then
        admitted period limit times ++ [last]
      else admitted period limit times := by
  rw [admitted, List.foldl_append]
  rfl

omit [IsOrderedAddMonoid Time] in
theorem admitted_sublist (period : Time) (limit : Nat) (times : List Time) :
    (admitted period limit times).Sublist times := by
  induction times using List.reverseRecOn with
  | nil => exact List.Sublist.refl []
  | append_singleton times last ih =>
      rw [admitted_concat]
      split
      · exact ih.append (List.Sublist.refl _)
      · exact ih.trans (List.sublist_append_left ..)

omit [IsOrderedAddMonoid Time] in
/-- What is past either is in the window or has left it. -/
theorem length_eq_gone_add_window (period : Time) {moment : Time} {times : List Time}
    (past : ∀ time ∈ times, time ≤ moment) :
    times.length =
      times.countP (fun time => time ≤ moment - period) +
        (window period moment times).length := by
  have stays : (window period moment times).length =
      times.countP fun time => ¬ time ≤ moment - period := by
    rw [List.countP_eq_length_filter]
    refine congrArg List.length (List.filter_congr fun time member => ?_)
    simp [past time member]
  rw [stays]
  simpa using List.length_eq_countP_add_countP fun time => decide (time ≤ moment - period)

omit [AddCommGroup Time] [IsOrderedAddMonoid Time] in
theorem countP_le_of_past {moment : Time} {times : List Time}
    (past : ∀ time ∈ times, time ≤ moment) :
    times.countP (fun time => time ≤ moment) = times.length :=
  List.countP_eq_length.mpr fun time member => decide_eq_true (past time member)

/-- A window of positive length has the moment at which it ends. -/
theorem length_window_self {period : Time} (positive : 0 < period) (moment : Time) :
    (window period moment [moment]).length = 1 := by
  have inside : moment - period < moment := sub_lt_self moment positive
  rw [window, List.filter_cons_of_pos (by simpa using inside)]
  rfl

/-- Any other window is empty. -/
theorem window_eq_nil {period : Time} (nonpositive : ¬ 0 < period) (moment : Time)
    (times : List Time) : window period moment times = [] := by
  refine List.filter_eq_nil_iff.mpr fun time _ within => ?_
  obtain ⟨after, upTo⟩ := of_decide_eq_true within
  have cutoff : moment ≤ moment - period := (le_sub_self_iff moment).mpr (not_lt.mp nonpositive)
  exact absurd (after.trans_le upTo) (not_lt.mpr cutoff)

/-- What may still take a time has fewer times than what has its window full, if it is
not ahead among those that have left the window. -/
theorem length_lt_of_full {period : Time} {limit : Nat} (positive : 0 < limit ∨ 0 < period)
    {chosen full : List Time} {last : Time} (chosenPast : ∀ time ∈ chosen, time ≤ last)
    (fullPast : ∀ time ∈ full, time ≤ last)
    (behind : chosen.countP (fun time => time ≤ last - period) ≤
      full.countP fun time => time ≤ last - period)
    (fits : (window period last (chosen ++ [last])).length ≤ limit)
    (isFull : limit ≤ (window period last full).length) : chosen.length < full.length := by
  have long : 0 < period := by
    by_contra none
    rw [window_eq_nil none] at isFull
    exact positive.elim (not_lt.mpr isFull) none
  rw [length_window_append, length_window_self long] at fits
  rw [length_eq_gone_add_window period chosenPast, length_eq_gone_add_window period fullPast]
  omega

/-- **Admitting whatever has room stays ahead**: at no moment has a choice of the same
times that overfills no window more of them. -/
theorem countP_le_admitted {period : Time} {limit : Nat} (positive : 0 < limit ∨ 0 < period)
    {times chosen : List Time} (sorted : times.Pairwise (· ≤ ·)) (part : chosen.Sublist times)
    (fits : ∀ moment, (window period moment chosen).length ≤ limit) (moment : Time) :
    chosen.countP (fun time => time ≤ moment) ≤
      (admitted period limit times).countP fun time => time ≤ moment := by
  induction times using List.reverseRecOn generalizing chosen moment with
  | nil =>
      rw [List.eq_nil_of_sublist_nil part]
      rfl
  | append_singleton times last ih =>
      obtain ⟨early, late, rfl, earlyPart, latePart⟩ := List.sublist_append_iff.mp part
      have parts := List.pairwise_append.mp sorted
      have past : ∀ time ∈ times, time ≤ last := fun time member =>
        parts.2.2 time member last (List.mem_singleton_self last)
      have earlyFits : ∀ moment, (window period moment early).length ≤ limit := by
        intro moment
        have whole := fits moment
        rw [length_window_append] at whole
        omega
      have ahead := ih parts.1 earlyPart earlyFits
      have admittedPast : ∀ time ∈ admitted period limit times, time ≤ last :=
        fun time member => past time ((admitted_sublist period limit times).subset member)
      have earlyPast : ∀ time ∈ early, time ≤ last :=
        fun time member => past time (earlyPart.subset member)
      rw [admitted_concat, List.countP_append]
      by_cases reached : last ≤ moment
      case neg =>
        -- The last time does not count yet, on either side.
        have uncounted : late.countP (fun time => time ≤ moment) = 0 := by
          refine List.countP_eq_zero.mpr fun time member => ?_
          rw [List.mem_singleton.mp (latePart.subset member)]
          simpa using reached
        have stays := ahead moment
        split
        · rw [List.countP_append]
          omega
        · omega
      case pos =>
        have aheadNow := ahead moment
        rw [countP_le_of_past fun time member => (earlyPast time member).trans reached,
          countP_le_of_past fun time member => (admittedPast time member).trans reached] at aheadNow
        rw [countP_le_of_past fun time member => (earlyPast time member).trans reached]
        have lateCount : late.countP (fun time => time ≤ moment) ≤ late.length :=
          List.countP_le_length
        have lateLength : late.length ≤ 1 := latePart.length_le
        by_cases room : (window period last (admitted period limit times)).length < limit
        case pos =>
          rw [if_pos room, List.countP_append, countP_le_of_past fun time member =>
            (admittedPast time member).trans reached]
          have one : [last].countP (fun time => time ≤ moment) = 1 := by simp [reached]
          omega
        case neg =>
          rw [if_neg room, countP_le_of_past fun time member =>
            (admittedPast time member).trans reached]
          cases late with
          | nil => simpa using aheadNow
          | cons time others =>
              obtain rfl := List.mem_singleton.mp (latePart.subset List.mem_cons_self)
              have none : others = [] := by
                apply List.eq_nil_of_length_eq_zero
                rw [List.length_cons] at lateLength
                omega
              subst none
              have fewer := length_lt_of_full positive earlyPast admittedPast
                (ahead (time - period)) (fits time) (not_lt.mp room)
              rw [List.length_cons, List.length_nil] at lateCount
              omega

end Foundations
