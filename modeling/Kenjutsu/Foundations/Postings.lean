import Mathlib.Data.Fintype.EquivFin
import Mathlib.Data.List.Nodup

/-!
# Objects posted to a remote store

A client posts objects to a store it does not own, one for each subject, and
keeps the id of the object it posted last. The store hands out ids, and others
may remove objects. The client is safe against duplicates when it posts for a
subject only while the id it keeps does not name a live object; `Tracks` is the
invariant that makes this local check sufficient.
-/

set_option autoImplicit false

namespace Foundations

universe u v

/-- An object posted for a subject; it stays on record after its removal. -/
structure Posting (Id : Type u) (Subject : Type v) where
  id : Id
  subject : Subject
  live : Bool
deriving DecidableEq, Repr

namespace Posting

variable {Id : Type u} {Subject : Type v} [DecidableEq Id]

/-- The id names a live object. -/
def isLive (postings : List (Posting Id Subject)) (id : Id) : Bool :=
  postings.any fun posting => posting.live && posting.id = id

/-- The id has not been handed out. -/
def isFresh (postings : List (Posting Id Subject)) (id : Id) : Bool :=
  postings.all fun posting => posting.id ≠ id

/-- Post an object under a fresh id. -/
def post (postings : List (Posting Id Subject)) (subject : Subject) (id : Id) :
    List (Posting Id Subject) :=
  postings ++ [⟨id, subject, true⟩]

/-- Some objects are removed. -/
def remove (removed : List Id) (postings : List (Posting Id Subject)) :
    List (Posting Id Subject) :=
  postings.map fun posting =>
    if posting.id ∈ removed then { posting with live := false } else posting

theorem isLive_iff (postings : List (Posting Id Subject)) (id : Id) :
    isLive postings id ↔ ∃ posting ∈ postings, posting.live ∧ posting.id = id := by
  simp [isLive]

theorem isLive_post (postings : List (Posting Id Subject)) (subject : Subject) (new id : Id) :
    isLive (post postings subject new) id = (isLive postings id || new = id) := by
  simp [isLive, post]

theorem map_id_remove (removed : List Id) (postings : List (Posting Id Subject)) :
    (remove removed postings).map Posting.id = postings.map Posting.id := by
  rw [remove, List.map_map]
  refine List.map_congr_left fun posting _ => ?_
  simp only [Function.comp_apply]
  split <;> rfl

/-- Every live object is the one whose id is kept for its subject, no id was
handed out twice, and every id kept was handed out. -/
structure Tracks (kept : Subject → Option Id) (postings : List (Posting Id Subject)) : Prop where
  distinct : (postings.map Posting.id).Nodup
  kept_of_live : ∀ posting ∈ postings, posting.live → kept posting.subject = some posting.id
  known : ∀ subject id, kept subject = some id → id ∈ postings.map Posting.id

omit [DecidableEq Id] in
theorem tracks_nil {kept : Subject → Option Id} (nothing : ∀ subject, kept subject = none) :
    Tracks kept [] where
  distinct := List.nodup_nil
  kept_of_live := by simp
  known subject id := by simp [nothing]

namespace Tracks

variable {kept kept' : Subject → Option Id} {postings : List (Posting Id Subject)}

omit [DecidableEq Id] in
/-- Two live objects of one subject are the same. -/
theorem eq_of_live (tracks : Tracks kept postings) {first second : Posting Id Subject}
    (firstPosted : first ∈ postings) (secondPosted : second ∈ postings) (firstLive : first.live)
    (secondLive : second.live) (same : first.subject = second.subject) : first = second := by
  apply List.inj_on_of_nodup_map tracks.distinct firstPosted secondPosted
  have keptFirst := tracks.kept_of_live first firstPosted firstLive
  rw [same, tracks.kept_of_live second secondPosted secondLive] at keptFirst
  exact (Option.some.inj keptFirst).symm

omit [DecidableEq Id] in
/-- **At most one live object for each subject.** -/
theorem live_le_one [DecidableEq Subject] (tracks : Tracks kept postings) (subject : Subject) :
    (postings.filter fun posting => posting.live && posting.subject = subject).length ≤ 1 := by
  have nodup : (postings.filter fun posting => posting.live && posting.subject = subject).Nodup :=
    (List.Nodup.of_map _ tracks.distinct).filter _
  cases found : postings.filter fun posting => posting.live && posting.subject = subject with
  | nil => simp
  | cons first rest =>
      cases rest with
      | nil => simp
      | cons second rest =>
          have all : ∀ posting ∈ first :: second :: rest,
              posting ∈ postings ∧ posting.live ∧ posting.subject = subject := by
            rw [← found]
            simp
          have firstFound := all first (by simp)
          have secondFound := all second (by simp)
          have same := tracks.eq_of_live firstFound.1 secondFound.1 firstFound.2.1 secondFound.2.1
            (firstFound.2.2.trans secondFound.2.2.symm)
          rw [found, same] at nodup
          simp at nodup

omit [DecidableEq Id] in
/-- Another function that keeps the same ids. -/
theorem congr (tracks : Tracks kept postings) (same : ∀ subject, kept' subject = kept subject) :
    Tracks kept' postings := by
  obtain rfl : kept' = kept := funext same
  exact tracks

/-- A fresh id is not kept for any subject. -/
theorem ne_of_fresh (tracks : Tracks kept postings) {subject : Subject} {id new : Id}
    (isKept : kept subject = some id) (fresh : isFresh postings new) : new ≠ id := by
  rintro rfl
  obtain ⟨posting, posted, rfl⟩ := List.mem_map.mp (tracks.known subject new isKept)
  have unused : ∀ other ∈ postings, other.id ≠ posting.id := by simpa [isFresh] using fresh
  exact unused posting posted rfl

/-- **Posting is safe** for a subject whose kept id, if any, names nothing live,
when the new id is kept in its place. -/
theorem post (tracks : Tracks kept postings) {subject : Subject} {id : Id}
    (fresh : isFresh postings id)
    (nothingLive : ∀ old, kept subject = some old → isLive postings old = false)
    (keeps : kept' subject = some id)
    (others : ∀ other, other ≠ subject → kept' other = kept other) :
    Tracks kept' (Posting.post postings subject id) where
  distinct := by
    have unused : ∀ posting ∈ postings, posting.id ≠ id := by simpa [isFresh] using fresh
    rw [Posting.post, List.map_append, List.nodup_append]
    refine ⟨tracks.distinct, by simp, ?_⟩
    rintro _ old new member rfl
    obtain ⟨posting, posted, same⟩ := List.mem_map.mp old
    exact unused posting posted (same.trans (List.mem_singleton.mp member))
  kept_of_live posting member live := by
    rcases List.mem_append.mp member with old | new
    · have isKept := tracks.kept_of_live posting old live
      by_cases same : posting.subject = subject
      · rw [same] at isKept
        have stillLive := (isLive_iff postings posting.id).mpr ⟨posting, old, live, rfl⟩
        rw [nothingLive _ isKept] at stillLive
        cases stillLive
      · rw [others _ same]
        exact isKept
    · obtain rfl := List.mem_singleton.mp new
      exact keeps
  known other old isKept := by
    rw [Posting.post, List.map_append, List.mem_append]
    by_cases same : other = subject
    · rw [same, keeps] at isKept
      exact .inr (by simp [Option.some.inj isKept])
    · rw [others other same] at isKept
      exact .inl (tracks.known other old isKept)

/-- Removals keep the invariant. -/
theorem remove (tracks : Tracks kept postings) (removed : List Id) :
    Tracks kept (Posting.remove removed postings) where
  distinct := by
    rw [map_id_remove]
    exact tracks.distinct
  known subject id isKept := by
    rw [map_id_remove]
    exact tracks.known subject id isKept
  kept_of_live posting member live := by
    obtain ⟨old, posted, rfl⟩ := List.mem_map.mp member
    split at live
    · cases live
    · rename_i notRemoved
      rw [if_neg notRemoved]
      exact tracks.kept_of_live old posted live

end Tracks

/-! ## More postings -/

/-- How many objects were posted for a subject. -/
def countFor [DecidableEq Subject] (postings : List (Posting Id Subject)) (subject : Subject) :
    Nat :=
  postings.countP fun posting => posting.subject = subject

omit [DecidableEq Id] in
theorem countFor_post [DecidableEq Subject] (postings : List (Posting Id Subject))
    (posted subject : Subject) (id : Id) :
    countFor (post postings posted id) subject =
      countFor postings subject + if posted = subject then 1 else 0 := by
  simp [countFor, post, List.countP_append, List.countP_singleton]

/-- Objects were posted, under fresh ids, and nothing else happened. -/
def Extends (old new : List (Posting Id Subject)) : Prop :=
  ∃ added, new = old ++ added ∧ ∀ posting ∈ added, isFresh old posting.id = true

namespace Extends

variable {old middle new : List (Posting Id Subject)}

theorem refl (old : List (Posting Id Subject)) : Extends old old :=
  ⟨[], (List.append_nil old).symm, by simp⟩

theorem post {subject : Subject} {id : Id} (fresh : isFresh old id = true) :
    Extends old (Posting.post old subject id) :=
  ⟨[⟨id, subject, true⟩], rfl, by simpa using fresh⟩

theorem trans (first : Extends old middle) (second : Extends middle new) : Extends old new := by
  obtain ⟨added, rfl, fresh⟩ := first
  obtain ⟨later, rfl, laterFresh⟩ := second
  refine ⟨added ++ later, List.append_assoc .., fun posting member => ?_⟩
  rcases List.mem_append.mp member with early | late
  · exact fresh posting early
  · have unused := laterFresh posting late
    rw [isFresh, List.all_append, Bool.and_eq_true] at unused
    exact unused.1

/-- An id handed out before is live after exactly if it was live before. -/
theorem isLive_eq (extends_ : Extends old new) {id : Id} (issued : isFresh old id = false) :
    isLive new id = isLive old id := by
  obtain ⟨added, rfl, fresh⟩ := extends_
  have notAdded : (added.any fun posting => posting.live && posting.id = id) = false := by
    refine List.any_eq_false.mpr fun posting member isIt => ?_
    obtain rfl : posting.id = id := by simpa using (Bool.and_eq_true_iff.mp isIt).2
    rw [fresh posting member] at issued
    cases issued
  rw [isLive, List.any_append, notAdded, Bool.or_false, isLive]

theorem issued (extends_ : Extends old new) {id : Id} (issued : isFresh old id = false) :
    isFresh new id = false := by
  obtain ⟨added, rfl, -⟩ := extends_
  rw [isFresh, List.all_append, ← isFresh, issued, Bool.false_and]

theorem countFor_le [DecidableEq Subject] (extends_ : Extends old new)
    (subject : Subject) : countFor old subject ≤ countFor new subject := by
  obtain ⟨added, rfl, -⟩ := extends_
  rw [countFor, countFor, List.countP_append]
  exact Nat.le_add_right ..

end Extends

theorem isFresh_of_mem {postings : List (Posting Id Subject)} {id : Id}
    (issued : id ∈ postings.map Posting.id) : isFresh postings id = false := by
  obtain ⟨posting, member, rfl⟩ := List.mem_map.mp issued
  exact List.all_eq_false.mpr ⟨posting, member, by simp⟩

/-- There is always a fresh id. -/
theorem exists_fresh [Infinite Id] (postings : List (Posting Id Subject)) :
    ∃ id, isFresh postings id = true := by
  obtain ⟨id, unused⟩ := Infinite.exists_notMem_finset (postings.map Posting.id).toFinset
  refine ⟨id, List.all_eq_true.mpr fun posting member => decide_eq_true fun same => unused ?_⟩
  exact List.mem_toFinset.mpr (same ▸ List.mem_map_of_mem member)

end Posting

end Foundations
