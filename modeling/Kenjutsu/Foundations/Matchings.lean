import Mathlib.Data.Finset.Card
import Mathlib.Data.Fintype.Basic
import Mathlib.Data.List.FinRange
import Mathlib.Data.List.Perm.Basic

/-!
# Greedy matchings

A matching pairs elements of two types that are related, each at most once. It is
maximal if no related elements are both left over, and then no other matching has more
than twice as many pairs (`IsMaximal.card_le`).

The greedy matching of two lists goes through the first one and takes the first element
that fits out of the second. It is maximal (`isMaximal_greedy`), and every maximal
matching is a greedy one for some orders of the lists (`exists_greedy_eq`). So the
orders do not matter to its size exactly when all maximal matchings have one size.
-/

set_option autoImplicit false

namespace Foundations

/-! ## Matchings -/

section Matchings

variable {ι κ : Type} {related : ι → κ → Prop} {pairs others : Finset (ι × κ)}

/-- Related elements are paired, each at most once. -/
structure IsMatching (related : ι → κ → Prop) (pairs : Finset (ι × κ)) : Prop where
  fits : ∀ pair ∈ pairs, related pair.1 pair.2
  firstOnce : Set.InjOn Prod.fst (pairs : Set (ι × κ))
  secondOnce : Set.InjOn Prod.snd (pairs : Set (ι × κ))

variable [DecidableEq ι] [DecidableEq κ]

/-- No related elements are both left over. -/
structure IsMaximal (related : ι → κ → Prop) (pairs : Finset (ι × κ)) : Prop
    extends IsMatching related pairs where
  covers : ∀ first second, related first second →
    first ∈ pairs.image Prod.fst ∨ second ∈ pairs.image Prod.snd

/-- **A maximal matching is at least half as large as any other.** Each pair of the other
one shares an element with a pair of it, and each of its pairs is shared at most twice. -/
theorem IsMaximal.card_le (maximal : IsMaximal related pairs)
    (matching : IsMatching related others) : others.card ≤ 2 * pairs.card := by
  have shared : others ⊆ others.filter (fun pair => pair.1 ∈ pairs.image Prod.fst) ∪
      others.filter fun pair => pair.2 ∈ pairs.image Prod.snd := by
    intro pair member
    rw [Finset.mem_union, Finset.mem_filter, Finset.mem_filter]
    rcases maximal.covers _ _ (matching.fits pair member) with first | second
    · exact .inl ⟨member, first⟩
    · exact .inr ⟨member, second⟩
  have firsts : (others.filter fun pair => pair.1 ∈ pairs.image Prod.fst).card ≤ pairs.card := by
    refine (Finset.card_le_card_of_injOn Prod.fst ?_ ?_).trans
      (@Finset.card_image_le _ _ pairs Prod.fst _)
    · exact fun pair member => (Finset.mem_filter.mp member).2
    · exact matching.firstOnce.mono (Finset.coe_subset.mpr (Finset.filter_subset _ _))
  have seconds : (others.filter fun pair => pair.2 ∈ pairs.image Prod.snd).card ≤ pairs.card := by
    refine (Finset.card_le_card_of_injOn Prod.snd ?_ ?_).trans
      (@Finset.card_image_le _ _ pairs Prod.snd _)
    · exact fun pair member => (Finset.mem_filter.mp member).2
    · exact matching.secondOnce.mono (Finset.coe_subset.mpr (Finset.filter_subset _ _))
  calc others.card
      ≤ _ := Finset.card_le_card shared
    _ ≤ _ := Finset.card_union_le _ _
    _ ≤ 2 * pairs.card := by omega

/-- If no first element is related to two second ones, every maximal matching reaches all
second elements that any first one is related to, so all have one size. -/
theorem IsMaximal.card_eq_of_unique (unique : ∀ first second other,
      related first second → related first other → second = other)
    (maximal : IsMaximal related pairs) (otherMaximal : IsMaximal related others) :
    pairs.card = others.card := by
  have reached : ∀ {pairs : Finset (ι × κ)}, IsMaximal related pairs → ∀ second,
      second ∈ pairs.image Prod.snd ↔ ∃ first, related first second := by
    intro pairs maximal second
    constructor
    · intro member
      obtain ⟨pair, isPair, rfl⟩ := Finset.mem_image.mp member
      exact ⟨pair.1, maximal.fits pair isPair⟩
    · rintro ⟨first, isRelated⟩
      rcases maximal.covers first second isRelated with member | member
      · obtain ⟨pair, isPair, rfl⟩ := Finset.mem_image.mp member
        rw [unique pair.1 second pair.2 isRelated (maximal.fits pair isPair)]
        exact Finset.mem_image_of_mem _ isPair
      · exact member
  have same : pairs.image Prod.snd = others.image Prod.snd := by
    ext second
    rw [reached maximal, reached otherMaximal]
  rw [← Finset.card_image_of_injOn maximal.secondOnce, same,
    Finset.card_image_of_injOn otherMaximal.secondOnce]

end Matchings

/-! ## The greedy matching of two lists -/

section Greedy

variable {α β : Type}

/-- The first element that fits, and the others. -/
def takeFirst (fits : β → Bool) : List β → Option (β × List β)
  | [] => none
  | candidate :: rest =>
      if fits candidate then some (candidate, rest)
      else (takeFirst fits rest).map fun taken => (taken.1, candidate :: taken.2)

/-- The pairs of a greedy matching, and what is left over of either list. -/
structure Greedy (α β : Type) where
  pairs : List (α × β)
  unpaired : List α
  left : List β

/-- Each element in turn is paired with the first one that fits and is still there. -/
def greedy (rule : α → β → Bool) : List α → List β → Greedy α β
  | [], left => ⟨[], [], left⟩
  | first :: firsts, left =>
      match takeFirst (rule first) left with
      | some (second, rest) =>
          let others := greedy rule firsts rest
          { others with pairs := (first, second) :: others.pairs }
      | none =>
          let others := greedy rule firsts left
          { others with unpaired := first :: others.unpaired }

variable {fits : β → Bool} {rule : α → β → Bool} {firsts : List α} {seconds rest : List β}
  {second : β}

theorem takeFirst_eq_none_iff : takeFirst fits seconds = none ↔ ∀ other ∈ seconds, ¬fits other := by
  induction seconds with
  | nil => simp [takeFirst]
  | cons candidate seconds ih =>
      rw [takeFirst, List.forall_mem_cons, ← ih]
      split
      · rename_i isFit
        simp [isFit]
      · rename_i isFit
        simp [isFit]

/-- What is taken fits, and the rest is what stands around it. -/
theorem exists_of_takeFirst (taken : takeFirst fits seconds = some (second, rest)) :
    ∃ before after, seconds = before ++ second :: after ∧ rest = before ++ after ∧
      fits second := by
  induction seconds generalizing rest with
  | nil => cases taken
  | cons candidate seconds ih =>
      rw [takeFirst] at taken
      split at taken
      · rename_i isFit
        obtain ⟨rfl, rfl⟩ := Prod.mk.inj (Option.some.inj taken)
        exact ⟨[], seconds, rfl, rfl, isFit⟩
      · obtain ⟨⟨found, others⟩, foundLater, same⟩ := Option.map_eq_some_iff.mp taken
        obtain ⟨rfl, rfl⟩ := Prod.mk.inj same
        obtain ⟨before, after, rfl, rfl, isFit⟩ := ih foundLater
        exact ⟨candidate :: before, after, rfl, rfl, isFit⟩

theorem fits_of_takeFirst (taken : takeFirst fits seconds = some (second, rest)) : fits second := by
  obtain ⟨before, after, -, -, isFit⟩ := exists_of_takeFirst taken
  exact isFit

theorem perm_of_takeFirst (taken : takeFirst fits seconds = some (second, rest)) :
    (second :: rest).Perm seconds := by
  obtain ⟨before, after, rfl, rfl, -⟩ := exists_of_takeFirst taken
  exact List.perm_middle.symm

theorem sublist_of_takeFirst (taken : takeFirst fits seconds = some (second, rest)) :
    rest.Sublist seconds := by
  obtain ⟨before, after, rfl, rfl, -⟩ := exists_of_takeFirst taken
  exact (List.sublist_cons_self second after).append_left before

variable (rule firsts seconds)

/-- Paired elements fit. -/
theorem rule_of_mem_pairs :
    ∀ pair ∈ (greedy rule firsts seconds).pairs, rule pair.1 pair.2 := by
  induction firsts generalizing seconds with
  | nil => simp [greedy]
  | cons first firsts ih =>
      rw [greedy]
      split
      · rename_i taken
        exact List.forall_mem_cons.mpr ⟨fits_of_takeFirst taken, ih _⟩
      · exact ih seconds

theorem perm_firsts :
    ((greedy rule firsts seconds).pairs.map Prod.fst ++
      (greedy rule firsts seconds).unpaired).Perm firsts := by
  induction firsts generalizing seconds with
  | nil => exact .refl _
  | cons first firsts ih =>
      rw [greedy]
      split
      · exact (ih _).cons first
      · exact List.perm_middle.trans ((ih seconds).cons first)

theorem perm_seconds :
    ((greedy rule firsts seconds).pairs.map Prod.snd ++
      (greedy rule firsts seconds).left).Perm seconds := by
  induction firsts generalizing seconds with
  | nil => exact .refl _
  | cons first firsts ih =>
      rw [greedy]
      split
      · rename_i second rest taken
        exact ((ih rest).cons second).trans (perm_of_takeFirst taken)
      · exact ih seconds

theorem sublist_paired :
    ((greedy rule firsts seconds).pairs.map Prod.fst).Sublist firsts := by
  induction firsts generalizing seconds with
  | nil => exact .refl _
  | cons first firsts ih =>
      rw [greedy]
      split
      · exact (ih _).cons_cons first
      · exact (ih seconds).cons first

theorem sublist_unpaired : (greedy rule firsts seconds).unpaired.Sublist firsts := by
  induction firsts generalizing seconds with
  | nil => exact .refl _
  | cons first firsts ih =>
      rw [greedy]
      split
      · exact (ih _).cons first
      · exact (ih seconds).cons_cons first

theorem sublist_left : (greedy rule firsts seconds).left.Sublist seconds := by
  induction firsts generalizing seconds with
  | nil => exact .refl _
  | cons first firsts ih =>
      rw [greedy]
      split
      · rename_i taken
        exact (ih _).trans (sublist_of_takeFirst taken)
      · exact ih seconds

/-- **Nothing that is left over fits.** What is there later was there before. -/
theorem not_rule_of_mem_unpaired :
    ∀ first ∈ (greedy rule firsts seconds).unpaired,
      ∀ second ∈ (greedy rule firsts seconds).left, ¬rule first second := by
  induction firsts generalizing seconds with
  | nil => simp [greedy]
  | cons first firsts ih =>
      rw [greedy]
      split
      · exact ih _
      · rename_i taken
        refine List.forall_mem_cons.mpr ⟨fun second member => ?_, ih seconds⟩
        exact takeFirst_eq_none_iff.mp taken second ((sublist_left _ _ _).subset member)

variable {rule firsts seconds}

/-- A greedy matching in which a first element and the one it is paired with come first. -/
theorem greedy_cons_cons {first : α} (isFit : rule first second) :
    greedy rule (first :: firsts) (second :: seconds) =
      { greedy rule firsts seconds with
        pairs := (first, second) :: (greedy rule firsts seconds).pairs } := by
  rw [greedy, takeFirst, if_pos isFit]

/-- If nothing fits, nothing is paired. -/
theorem greedy_of_not_rule (none : ∀ first ∈ firsts, ∀ second ∈ seconds, ¬rule first second) :
    greedy rule firsts seconds = ⟨[], firsts, seconds⟩ := by
  induction firsts with
  | nil => rfl
  | cons first firsts ih =>
      obtain ⟨own, others⟩ := List.forall_mem_cons.mp none
      rw [greedy, takeFirst_eq_none_iff.mpr own, ih others]

/-- Renaming the elements renames the pairs. -/
theorem greedy_map {ι κ : Type} (nameFirst : ι → α) (nameSecond : κ → β) (firsts : List ι)
    (seconds : List κ) :
    greedy rule (firsts.map nameFirst) (seconds.map nameSecond) =
      let named := greedy (fun first second => rule (nameFirst first) (nameSecond second))
        firsts seconds
      ⟨named.pairs.map (Prod.map nameFirst nameSecond), named.unpaired.map nameFirst,
        named.left.map nameSecond⟩ := by
  have taken : ∀ (fits : β → Bool) (seconds : List κ),
      takeFirst fits (seconds.map nameSecond) =
        (takeFirst (fun second => fits (nameSecond second)) seconds).map
          (Prod.map nameSecond (List.map nameSecond)) := by
    intro fits seconds
    induction seconds with
    | nil => rfl
    | cons second seconds ih =>
        rw [List.map_cons, takeFirst, takeFirst]
        split
        · rfl
        · rw [ih, Option.map_map, Option.map_map]
          rfl
  induction firsts generalizing seconds with
  | nil => rfl
  | cons first firsts ih =>
      rw [List.map_cons, greedy, taken, greedy]
      cases takeFirst (fun second => rule (nameFirst first) (nameSecond second)) seconds with
      | none =>
          simp only [Option.map_none, ih]
          rfl
      | some found =>
          simp only [Option.map_some, Prod.map, ih]
          rfl

end Greedy

/-! ## Greedy matchings of positions -/

section Positions

variable {ι κ : Type} {rule : ι → κ → Bool} {firsts : List ι} {seconds : List κ}

/-- A part of a list without repetitions is what a membership test keeps. -/
theorem filter_mem_of_sublist [DecidableEq ι] {part whole : List ι} (sublist : part.Sublist whole)
    (nodup : whole.Nodup) : (whole.filter fun element => element ∈ part) = part := by
  induction sublist with
  | slnil => rfl
  | @cons part whole element sublist ih =>
      obtain ⟨fresh, nodup⟩ := List.nodup_cons.mp nodup
      rw [List.filter_cons_of_neg (by simpa using fun member => fresh (sublist.subset member)),
        ih nodup]
  | @cons_cons part whole element sublist ih =>
      obtain ⟨fresh, nodup⟩ := List.nodup_cons.mp nodup
      have same : (whole.filter fun other => other ∈ element :: part) =
          whole.filter fun other => other ∈ part := by
        refine List.filter_congr fun other member => ?_
        have apart : other ≠ element := by
          rintro rfl
          exact fresh member
        simp [apart]
      rw [List.filter_cons_of_pos (by simp), same, ih nodup]

theorem nodup_paired (nodup : firsts.Nodup) :
    ((greedy rule firsts seconds).pairs.map Prod.fst).Nodup :=
  (List.nodup_append.mp ((perm_firsts rule firsts seconds).nodup_iff.mpr nodup)).1

theorem nodup_partners (nodup : seconds.Nodup) :
    ((greedy rule firsts seconds).pairs.map Prod.snd).Nodup :=
  (List.nodup_append.mp ((perm_seconds rule firsts seconds).nodup_iff.mpr nodup)).1

/-- What is not paired is left over. -/
theorem mem_unpaired_iff (nodup : firsts.Nodup) {first : ι} (member : first ∈ firsts) :
    first ∈ (greedy rule firsts seconds).unpaired ↔
      first ∉ (greedy rule firsts seconds).pairs.map Prod.fst := by
  have perm := perm_firsts rule firsts seconds
  have apart := (List.nodup_append.mp (perm.nodup_iff.mpr nodup)).2.2
  have either := List.mem_append.mp (perm.mem_iff.mpr member)
  exact ⟨fun unpaired paired => apart first paired first unpaired rfl,
    fun unpaired => either.resolve_left unpaired⟩

theorem mem_left_iff (nodup : seconds.Nodup) {second : κ} (member : second ∈ seconds) :
    second ∈ (greedy rule firsts seconds).left ↔
      second ∉ (greedy rule firsts seconds).pairs.map Prod.snd := by
  have perm := perm_seconds rule firsts seconds
  have apart := (List.nodup_append.mp (perm.nodup_iff.mpr nodup)).2.2
  have either := List.mem_append.mp (perm.mem_iff.mpr member)
  exact ⟨fun isLeft paired => apart second paired second isLeft rfl,
    fun isLeft => either.resolve_left isLeft⟩

/-- The pairs of a list come first, and nothing else fits. -/
theorem greedy_append {pairs : List (ι × κ)} (fits : ∀ pair ∈ pairs, rule pair.1 pair.2)
    (none : ∀ first ∈ firsts, ∀ second ∈ seconds, ¬rule first second) :
    greedy rule (pairs.map Prod.fst ++ firsts) (pairs.map Prod.snd ++ seconds) =
      ⟨pairs, firsts, seconds⟩ := by
  induction pairs with
  | nil => exact greedy_of_not_rule none
  | cons pair pairs ih =>
      obtain ⟨own, others⟩ := List.forall_mem_cons.mp fits
      rw [List.map_cons, List.map_cons, List.cons_append, List.cons_append, greedy_cons_cons own,
        ih others]

variable [DecidableEq ι] [DecidableEq κ]

theorem card_greedy (nodup : firsts.Nodup) :
    (greedy rule firsts seconds).pairs.toFinset.card = (greedy rule firsts seconds).pairs.length :=
  List.toFinset_card_of_nodup (List.Nodup.of_map _ (nodup_paired nodup))

theorem mem_image_fst {pairs : List (ι × κ)} {first : ι} :
    first ∈ pairs.toFinset.image Prod.fst ↔ first ∈ pairs.map Prod.fst := by
  simp

theorem mem_image_snd {pairs : List (ι × κ)} {second : κ} :
    second ∈ pairs.toFinset.image Prod.snd ↔ second ∈ pairs.map Prod.snd := by
  simp

/-- The paired elements of a list, in its order, and the others. -/
theorem filter_paired (nodup : firsts.Nodup) :
    firsts.filter (fun first =>
        first ∈ (greedy rule firsts seconds).pairs.toFinset.image Prod.fst) =
      (greedy rule firsts seconds).pairs.map Prod.fst := by
  rw [← filter_mem_of_sublist (sublist_paired rule firsts seconds) nodup]
  refine List.filter_congr fun first _ => ?_
  simp only [mem_image_fst]

theorem filter_unpaired (nodup : firsts.Nodup) :
    firsts.filter (fun first =>
        first ∉ (greedy rule firsts seconds).pairs.toFinset.image Prod.fst) =
      (greedy rule firsts seconds).unpaired := by
  rw [← filter_mem_of_sublist (sublist_unpaired rule firsts seconds) nodup]
  refine List.filter_congr fun first member => ?_
  simp only [mem_image_fst, mem_unpaired_iff nodup member]

theorem filter_left (nodup : seconds.Nodup) :
    seconds.filter (fun second =>
        second ∉ (greedy rule firsts seconds).pairs.toFinset.image Prod.snd) =
      (greedy rule firsts seconds).left := by
  rw [← filter_mem_of_sublist (sublist_left rule firsts seconds) nodup]
  refine List.filter_congr fun second member => ?_
  simp only [mem_image_snd, mem_left_iff nodup member]

/-- **The greedy matching is maximal** among the elements of the lists. -/
theorem isMaximal_greedy (firstNodup : firsts.Nodup) (secondNodup : seconds.Nodup)
    (allFirsts : ∀ first, first ∈ firsts) (allSeconds : ∀ second, second ∈ seconds) :
    IsMaximal (fun first second => rule first second)
      (greedy rule firsts seconds).pairs.toFinset where
  fits pair member := rule_of_mem_pairs rule firsts seconds pair (List.mem_toFinset.mp member)
  firstOnce := by
    rw [List.coe_toFinset]
    exact List.inj_on_of_nodup_map (nodup_paired firstNodup)
  secondOnce := by
    rw [List.coe_toFinset]
    exact List.inj_on_of_nodup_map (nodup_partners secondNodup)
  covers first second isFit := by
    rw [mem_image_fst, mem_image_snd]
    by_contra neither
    obtain ⟨notFirst, notSecond⟩ := not_or.mp neither
    exact not_rule_of_mem_unpaired rule firsts seconds first
      ((mem_unpaired_iff firstNodup (allFirsts first)).mpr notFirst) second
      ((mem_left_iff secondNodup (allSeconds second)).mpr notSecond) isFit

/-- A list without repetitions, with some of its elements in front. -/
theorem perm_append_filter {α : Type} [DecidableEq α] {front whole : List α}
    (front_nodup : front.Nodup) (nodup : whole.Nodup) (all : ∀ element, element ∈ whole) :
    (front ++ whole.filter fun element => element ∉ front).Perm whole := by
  have apart : (front ++ whole.filter fun element => element ∉ front).Nodup := by
    refine List.nodup_append.mpr ⟨front_nodup, nodup.filter _, ?_⟩
    rintro element isFront other isOther rfl
    exact of_decide_eq_true (List.mem_filter.mp isOther).2 isFront
  refine (List.perm_ext_iff_of_nodup apart nodup).mpr fun element => ?_
  refine ⟨fun _ => all element, fun member => ?_⟩
  by_cases isFront : element ∈ front
  · exact List.mem_append_left _ isFront
  · exact List.mem_append_right _ (List.mem_filter.mpr ⟨member, decide_eq_true isFront⟩)

/-- **Every maximal matching is a greedy one**: go through its pairs first. -/
theorem exists_greedy_eq (firstNodup : firsts.Nodup) (secondNodup : seconds.Nodup)
    (allFirsts : ∀ first, first ∈ firsts) (allSeconds : ∀ second, second ∈ seconds)
    {pairs : Finset (ι × κ)} (maximal : IsMaximal (fun first second => rule first second) pairs) :
    ∃ orderedFirsts orderedSeconds, orderedFirsts.Perm firsts ∧ orderedSeconds.Perm seconds ∧
      (greedy rule orderedFirsts orderedSeconds).pairs.length = pairs.card := by
  have inPairs : ∀ pair, pair ∈ pairs.toList ↔ pair ∈ pairs := fun pair => Finset.mem_toList
  have firstsOnce : (pairs.toList.map Prod.fst).Nodup := by
    refine List.Nodup.map_on ?_ pairs.nodup_toList
    exact fun one isOne other isOther same =>
      maximal.firstOnce ((inPairs one).mp isOne) ((inPairs other).mp isOther) same
  have secondsOnce : (pairs.toList.map Prod.snd).Nodup := by
    refine List.Nodup.map_on ?_ pairs.nodup_toList
    exact fun one isOne other isOther same =>
      maximal.secondOnce ((inPairs one).mp isOne) ((inPairs other).mp isOther) same
  refine ⟨_, _, perm_append_filter firstsOnce firstNodup allFirsts,
    perm_append_filter secondsOnce secondNodup allSeconds, ?_⟩
  rw [greedy_append, Finset.length_toList]
  · exact fun pair member => maximal.fits pair ((inPairs pair).mp member)
  · intro first isFirst second isSecond isFit
    have notFirst := of_decide_eq_true (List.mem_filter.mp isFirst).2
    have notSecond := of_decide_eq_true (List.mem_filter.mp isSecond).2
    rcases maximal.covers first second isFit with covered | covered
    · obtain ⟨pair, member, rfl⟩ := Finset.mem_image.mp covered
      exact notFirst (List.mem_map_of_mem ((inPairs pair).mpr member))
    · obtain ⟨pair, member, rfl⟩ := Finset.mem_image.mp covered
      exact notSecond (List.mem_map_of_mem ((inPairs pair).mpr member))

/-! ## Positions of a list -/

variable {α : Type}

/-- The entries of a list at some of its positions, in their order. -/
def entriesAt (entries : List α) (positions : Finset (Fin entries.length)) : List α :=
  ((List.finRange entries.length).filter fun position => position ∈ positions).map entries.get

/-- Another order of a list is another order of its positions. -/
theorem exists_positions {entries others : List α} (perm : others.Perm entries) :
    ∃ positions : List (Fin entries.length), others = positions.map entries.get ∧
      positions.Perm (List.finRange entries.length) := by
  have split := congrFun (congrFun (List.eq_map_comp_perm entries.get) others)
    (List.finRange entries.length)
  rw [List.map_get_finRange] at split
  exact split.mpr perm

end Positions

end Foundations
