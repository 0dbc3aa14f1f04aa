import Kenjutsu.Mirror.MirrorRuns

/-!
# What a fetch brings

Under one lock, of two fetches of a mirror the later one has read the remote later. So a mirror
never goes back to older refs, and who comes back from a `fetch` that went well is up to date.

But the locks go by the repository ids, and git works on the mirror of the directory it is run in
or of one around it. The mirrors stay fresh if no two of the ids lead git to one mirror, and in
some run they do not as soon as two of them do that are there (`fetches_fresh`).
-/

set_option autoImplicit false

namespace Kenjutsu.Mirror

open Foundations FileSystem

section Steps

variable {git : GitFetch} {config : MirrorConfig} {refsAt : Location → Nat → Refs}
  {state next : Mirrors} {index : Nat} {caller : Caller} {pool : FetchPool}

/-! ## The invariant -/

/-- The refs that fetches have brought are as they say, and nobody who holds a lock has read older
ones than the mirror has. -/
structure Current (git : GitFetch) (config : MirrorConfig) (refsAt : Location → Nat → Refs)
    (ids : Set String) (start : Files) (state : Mirrors) : Prop where
  sound : state.pool.Sound
  configured : AllConfigured state.files
  cwd : state.files.cwd = start.cwd
  marks : ∀ place, (state.files.markAt place).isSome = (start.markAt place).isSome
  named : ∀ caller ∈ state.pool.callers, caller.repoId ∈ ids
  brings : ∀ place name, ∀ count ∈ state.brought place name, count ≤ state.pushes place ∧
    ∀ mirror ∈ state.files.markAt place,
      mirror.refs.lookup name = (refsAt place count).lookup name
  asks : ∀ index, ∀ caller ∈ state.pool.callers[index]?,
    ∀ place ∈ placeOf git config start caller.repoId, state.asked index ≤ state.pushes place
  starts : ∀ index, ∀ caller ∈ state.pool.callers[index]?, ∀ location ∈ state.started index,
    start.target (mirrorPath config caller.repoId.toList) = location
  lists : ∀ index, ∀ caller ∈ state.pool.callers[index]?, caller.stage.fetches →
    ∀ place ∈ placeOf git config start caller.repoId, ∀ count ∈ state.listed index,
      state.asked index ≤ count ∧ count ≤ state.pushes place ∧
        ∀ name, (∀ earlier ∈ state.brought place name, earlier ≤ count) ∧
          (state.fetched index name → state.brought place name = some count)
  reads : ∀ index name, state.fetched index name → state.listed index ≠ none
  begun : ∀ index, state.started index ≠ none ∨ state.listed index ≠ none →
    ∃ caller ∈ state.pool.callers[index]?, caller.stage.Begun
  answered : ∀ index, state.outcomes index ≠ none → index < state.pool.callers.length
  keeps : ∀ index, ∀ caller ∈ state.pool.callers[index]?, state.outcomes index = some (.ok ()) →
    ∀ place ∈ placeOf git config start caller.repoId, ∀ name,
      ∃ count ∈ state.brought place name, state.asked index ≤ count

variable {ids : Set String} {start : Files}

theorem current_start (configured : AllConfigured start) :
    Current git config refsAt ids start { files := start } where
  sound := FetchPool.sound_empty
  configured := configured
  cwd := rfl
  marks _ := rfl
  named := nofun
  brings := nofun
  asks := nofun
  starts := nofun
  lists := nofun
  reads := nofun
  begun _ set := by
    rcases set with set | set <;> exact absurd rfl set
  answered _ ended := absurd rfl ended
  keeps := nofun

/-- Git works where it would have worked at the start. -/
theorem Current.place_eq (current : Current git config refsAt ids start state)
    (documented : git.Documented) (repoId : String) :
    placeOf git config state.files repoId = placeOf git config start repoId := by
  rw [placeOf, target_congr current.cwd]
  exact documented.discovers _ current.marks

theorem Current.repository_eq (current : Current git config refsAt ids start state)
    (documented : git.Documented) {location : Location}
    (found : state.pool.callers[index]? = some caller)
    (started : state.started index = some location) :
    git.repository state.files location = placeOf git config start caller.repoId := by
  rw [placeOf, current.starts index caller found location started]
  exact documented.discovers _ current.marks

/-- What is promised at all times follows. -/
theorem Current.upToDate (current : Current git config refsAt ids start state)
    (documented : git.Documented) : UpToDate git config refsAt state := by
  intro index caller found outcome place mirror works marked name
  rw [current.place_eq documented] at works
  obtain ⟨count, brought, recent⟩ := current.keeps index caller found outcome place works name
  obtain ⟨bound, same⟩ := current.brings place name count brought
  exact ⟨count, recent, bound, same mirror marked⟩

/-- More pushes make nothing older. -/
theorem Current.push (current : Current git config refsAt ids start state) (place : Location) :
    Current git config refsAt ids start { state with
      pushes := Function.update state.pushes place (state.pushes place + 1) } := by
  have more : ∀ other, state.pushes other ≤
      Function.update state.pushes place (state.pushes place + 1) other := by
    intro other
    by_cases same : other = place
    · rw [same, Function.update_self]
      exact Nat.le_succ _
    · rw [Function.update_of_ne same]
  exact { current with
    brings := fun other name count brought =>
      (current.brings other name count brought).imp_left fun bound => bound.trans (more other)
    asks := fun index caller found other works =>
      (current.asks index caller found other works).trans (more other)
    lists := fun index caller found fetches other works count listed =>
      (current.lists index caller found fetches other works count listed).imp_right
        fun rest => rest.imp_left fun bound => bound.trans (more other) }

/-- A new caller has read nothing. -/
theorem Current.call (current : Current git config refsAt ids start state)
    (documented : git.Documented) {repoId : String} (named : repoId ∈ ids) :
    Current git config refsAt ids start { state with
      pool := { state.pool with callers := state.pool.callers ++ [{ repoId }] }
      asked := Function.update state.asked state.pool.callers.length
        (((placeOf git config state.files repoId).map state.pushes).getD 0) } := by
  have cases : ∀ index, ∀ caller ∈ (state.pool.callers ++ [({ repoId } : Caller)])[index]?,
      index = state.pool.callers.length ∧ caller = { repoId } ∨
        index ≠ state.pool.callers.length ∧ caller ∈ state.pool.callers[index]? := by
    intro index caller found
    rcases Nat.lt_or_ge index state.pool.callers.length with old | new
    · rw [List.getElem?_append_left old] at found
      exact .inr ⟨old.ne, found⟩
    · rw [List.getElem?_append_right new] at found
      obtain ⟨here, rfl⟩ := List.getElem?_eq_some_iff.mp found
      have last : index = state.pool.callers.length := by
        simp only [List.length_singleton] at here
        omega
      subst last
      simp
  refine { current with
    sound := current.sound.call repoId
    named := List.forall_mem_append.mpr ⟨current.named, List.forall_mem_singleton.mpr named⟩
    asks := ?_, starts := ?_, lists := ?_, begun := ?_, answered := ?_, keeps := ?_ }
  · intro index caller found place works
    dsimp only
    rcases cases index caller found with ⟨rfl, rfl⟩ | ⟨old, found⟩
    · have works : placeOf git config start repoId = some place := works
      rw [Function.update_self, current.place_eq documented, works]
      exact Nat.le_refl _
    · rw [Function.update_of_ne old]
      exact current.asks index caller found place works
  · intro index caller found location started
    rcases cases index caller found with ⟨rfl, -⟩ | ⟨old, found⟩
    · have set : state.started state.pool.callers.length ≠ none :=
        Option.ne_none_iff_exists'.mpr ⟨location, started⟩
      obtain ⟨owner, here, -⟩ := current.begun _ (.inl set)
      exact absurd (List.getElem?_eq_some_iff.mp here).1 (Nat.lt_irrefl _)
    · exact current.starts index caller found location started
  · intro index caller found fetches place works count listed
    dsimp only
    rcases cases index caller found with ⟨-, rfl⟩ | ⟨old, found⟩
    · cases fetches
    · rw [Function.update_of_ne old]
      exact current.lists index caller found fetches place works count listed
  · intro index set
    obtain ⟨caller, found, begun⟩ := current.begun index set
    exact ⟨caller, (List.getElem?_append_left (List.getElem?_eq_some_iff.mp found).1).trans found,
      begun⟩
  · intro index ended
    have old := current.answered index ended
    simp only [List.length_append, List.length_singleton]
    omega
  · intro index caller found ended place works
    dsimp only
    rcases cases index caller found with ⟨rfl, -⟩ | ⟨old, found⟩
    · have answered : state.outcomes state.pool.callers.length ≠ none :=
        Option.ne_none_iff_exists'.mpr ⟨_, ended⟩
      exact absurd (current.answered _ answered) (Nat.lt_irrefl _)
    · rw [Function.update_of_ne old]
      exact current.keeps index caller found ended place works

/-- The move of a caller leaves the mirrors as they are; who begins to fetch has read nothing. -/
theorem Current.moved (current : Current git config refsAt ids start state)
    (found : state.pool.callers[index]? = some caller)
    (moved : FetchPool.Moved state.pool index caller pool) :
    Current git config refsAt ids start { state with pool } := by
  obtain ⟨after, callers, repoId, begun⟩ := moved.stages
  have here := (List.getElem?_eq_some_iff.mp found).1
  have cases : ∀ other, ∀ rival ∈ pool.callers[other]?,
      other = index ∧ rival = after ∨ rival ∈ state.pool.callers[other]? := by
    intro other rival foundRival
    rw [callers, Option.mem_def, List.getElem?_set] at foundRival
    split at foundRival
    · rename_i same
      exact .inl ⟨same.symm, (Option.some.inj foundRival).symm⟩
    · exact .inr foundRival
  refine { current with
    sound := current.sound.moved found moved
    named := ?_, asks := ?_, starts := ?_, lists := ?_, begun := ?_, answered := ?_, keeps := ?_ }
  · intro rival member
    rw [callers] at member
    rcases List.mem_or_eq_of_mem_set member with old | rfl
    · exact current.named rival old
    · exact repoId ▸ current.named caller (List.mem_of_getElem? found)
  · intro other rival foundRival place works
    rcases cases other rival foundRival with ⟨rfl, rfl⟩ | old
    · exact current.asks other caller found place (repoId ▸ works)
    · exact current.asks other rival old place works
  · intro other rival foundRival location started
    rcases cases other rival foundRival with ⟨rfl, rfl⟩ | old
    · rw [repoId]
      exact current.starts other caller found location started
    · exact current.starts other rival old location started
  · intro other rival foundRival fetches place works count listed
    rcases cases other rival foundRival with ⟨rfl, rfl⟩ | old
    · have read : state.listed other ≠ none := Option.ne_none_iff_exists'.mpr ⟨count, listed⟩
      obtain ⟨reader, read, came⟩ := current.begun other (.inr read)
      obtain rfl := Option.some.inj (found.symm.trans read)
      rw [(begun came).2] at fetches
      cases fetches
    · exact current.lists other rival old fetches place works count listed
  · intro other set
    obtain ⟨reader, read, came⟩ := current.begun other set
    by_cases same : other = index
    · subst same
      obtain rfl := Option.some.inj (found.symm.trans read)
      refine ⟨after, ?_, (begun came).1⟩
      rw [callers]
      exact List.getElem?_set_self here
    · refine ⟨reader, ?_, came⟩
      rw [callers]
      exact (List.getElem?_set_ne (Ne.symm same)).trans read
  · intro other ended
    rw [callers, List.length_set]
    exact current.answered other ended
  · intro other rival foundRival ended place works
    rcases cases other rival foundRival with ⟨rfl, rfl⟩ | old
    · exact current.keeps other caller found ended place (repoId ▸ works)
    · exact current.keeps other rival old ended place works

/-- Git is run where the path of the repository leads. -/
theorem Current.check (current : Current git config refsAt ids start state) {location : Location}
    (found : state.pool.callers[index]? = some caller) (fetches : caller.stage.fetches)
    (checked : checkMirror caller.repoId.toList config state.files = .ok location) :
    Current git config refsAt ids start { state with
      started := Function.update state.started index (some location) } := by
  have leads := target_of_resolve (checkMirror_eq_ok_iff.mp checked).1
  refine { current with starts := ?_, begun := ?_ }
  · intro other rival foundRival place started
    dsimp only at started
    by_cases same : other = index
    · subst same
      rw [Function.update_self] at started
      obtain rfl := Option.some.inj started
      obtain rfl := Option.some.inj (found.symm.trans foundRival)
      rw [← leads, target_congr current.cwd]
    · rw [Function.update_of_ne same] at started
      exact current.starts other rival foundRival place started
  · intro other set
    by_cases same : other = index
    · subst same
      exact ⟨caller, found, begun_of_fetches fetches⟩
    · dsimp only at set
      rw [Function.update_of_ne same] at set
      exact current.begun other set

/-- What is read is at least as new as the call and as what the mirror has. -/
theorem Current.list (current : Current git config refsAt ids start state)
    (documented : git.Documented) {location place : Location}
    (found : state.pool.callers[index]? = some caller) (fetches : caller.stage.fetches)
    (started : state.started index = some location) (first : state.listed index = none)
    (finds : git.repository state.files location = some place) :
    Current git config refsAt ids start { state with
      listed := Function.update state.listed index (some (state.pushes place)) } := by
  rw [current.repository_eq documented found started] at finds
  refine { current with lists := ?_, reads := ?_, begun := ?_ }
  · intro other rival foundRival fetchesRival elsewhere works count listed
    dsimp only at listed ⊢
    by_cases same : other = index
    · subst same
      rw [Function.update_self] at listed
      obtain rfl := Option.some.inj listed
      obtain rfl := Option.some.inj (found.symm.trans foundRival)
      obtain rfl := Option.some.inj (finds.symm.trans works)
      refine ⟨current.asks other caller found place works, Nat.le_refl _, fun name => ⟨?_, ?_⟩⟩
      · exact fun earlier brought => (current.brings place name earlier brought).1
      · exact fun fetched => absurd first (current.reads other name fetched)
    · rw [Function.update_of_ne same] at listed
      exact current.lists other rival foundRival fetchesRival elsewhere works count listed
  · intro other name fetched
    dsimp only
    by_cases same : other = index
    · rw [same, Function.update_self]
      exact Option.some_ne_none _
    · rw [Function.update_of_ne same]
      exact current.reads other name fetched
  · intro other set
    by_cases same : other = index
    · subst same
      exact ⟨caller, found, begun_of_fetches fetches⟩
    · dsimp only at set
      rw [Function.update_of_ne same] at set
      exact current.begun other set

/-- An outcome of a caller is kept if it is an error or all refs have been brought. -/
theorem Current.answer (current : Current git config refsAt ids start state)
    (found : state.pool.callers[index]? = some caller) (outcome : Except Raised Unit)
    (brought : outcome = .ok () → ∀ place ∈ placeOf git config start caller.repoId, ∀ name,
      ∃ count ∈ state.brought place name, state.asked index ≤ count) :
    Current git config refsAt ids start { state with
      outcomes := Function.update state.outcomes index (some outcome) } := by
  refine { current with answered := ?_, keeps := ?_ }
  · intro other ended
    by_cases same : other = index
    · exact same ▸ (List.getElem?_eq_some_iff.mp found).1
    · dsimp only at ended
      rw [Function.update_of_ne same] at ended
      exact current.answered other ended
  · intro other rival foundRival ended
    dsimp only at ended
    by_cases same : other = index
    · subst same
      rw [Function.update_self] at ended
      obtain rfl := Option.some.inj (found.symm.trans foundRival)
      exact brought (Option.some.inj ended)
    · rw [Function.update_of_ne same] at ended
      exact current.keeps other rival foundRival ended

/-- Of the callers whose git works on one mirror only one is in `fetch_mirror`. -/
theorem Current.exclusive (current : Current git config refsAt ids start state)
    (apart : Apart git config start ids) {place : Location} {other : Nat} {rival : Caller}
    (found : state.pool.callers[index]? = some caller) (fetches : caller.stage.fetches)
    (works : placeOf git config start caller.repoId = some place)
    (foundRival : state.pool.callers[other]? = some rival) (fetchesRival : rival.stage.fetches)
    (worksRival : placeOf git config start rival.repoId = some place) : index = other := by
  have same := apart _ (current.named caller (List.mem_of_getElem? found)) _
    (current.named rival (List.mem_of_getElem? foundRival)) place works worksRival
  exact current.sound.exclusive ⟨caller, found, same, exists_lock_of_fetches fetches⟩
    ⟨rival, foundRival, rfl, exists_lock_of_fetches fetchesRival⟩

section Proceeding

variable {location : Location} {progress : Progress}

/-- What is brought has been read. -/
theorem exists_read (documented : git.Documented) {name : Text}
    (permits : git.proceeds state.files location (state.read? git refsAt location index)
      (state.fetched index) progress) (brought : progress.brought name) :
    ∃ place count, git.repository state.files location = some place ∧
      state.listed index = some count ∧ ∀ mirror ∈ progress.files.markAt place,
        mirror.refs.lookup name = (refsAt place count).lookup name := by
  obtain ⟨refs, read, same⟩ := documented.brings permits brought
  obtain ⟨place, finds, read⟩ := Option.bind_eq_some_iff.mp read
  obtain ⟨count, listed, read⟩ := Option.bind_eq_some_iff.mp read
  obtain rfl := Option.some.inj read
  exact ⟨place, count, finds, listed, fun mirror marked => same place mirror finds marked⟩

/-- **What git brings is not older** than what the mirror has. -/
theorem Current.goesOn_proceed (current : Current git config refsAt ids start state)
    (documented : git.Documented) (found : state.pool.callers[index]? = some caller)
    (fetches : caller.stage.fetches) (started : state.started index = some location)
    (permits : git.proceeds state.files location (state.read? git refsAt location index)
      (state.fetched index) progress) :
    GoesOn state (state.proceed git location index progress) := by
  intro place name count brought
  by_cases brings : git.repository state.files location = some place ∧ progress.brought name
  · obtain ⟨same, later, finds, listed, -⟩ := exists_read documented permits brings.2
    obtain rfl := Option.some.inj (finds.symm.trans brings.1)
    rw [current.repository_eq documented found started] at finds
    obtain ⟨-, -, names⟩ := current.lists index caller found fetches same finds later listed
    exact ⟨later, (if_pos brings).trans listed, (names name).1 count brought⟩
  · exact ⟨count, (if_neg brings).trans brought, Nat.le_refl _⟩

/-- **The mirrors stay current** while git works. -/
theorem Current.proceed (current : Current git config refsAt ids start state)
    (documented : git.Documented) (apart : Apart git config start ids)
    (found : state.pool.callers[index]? = some caller) (fetches : caller.stage.fetches)
    (started : state.started index = some location)
    (permits : git.proceeds state.files location (state.read? git refsAt location index)
      (state.fetched index) progress) :
    Current git config refsAt ids start (state.proceed git location index progress) := by
  have goesOn := current.goesOn_proceed documented found fetches started permits
  have works := current.repository_eq documented found started
  obtain ⟨cwd, marks⟩ := documented.stays permits
  refine { current with
    configured := documented.allConfigured permits current.configured
    cwd := cwd.trans current.cwd
    marks := fun place => (marks place).trans (current.marks place)
    brings := ?_, lists := ?_, reads := ?_, keeps := ?_ }
  · intro place name count brought
    dsimp only [Mirrors.proceed] at brought ⊢
    split at brought
    · rename_i brings
      obtain ⟨same, later, finds, listed, refs⟩ := exists_read documented permits brings.2
      obtain rfl := Option.some.inj (finds.symm.trans brings.1)
      obtain rfl := Option.some.inj (listed.symm.trans brought)
      rw [works] at finds
      exact ⟨(current.lists index caller found fetches same finds later listed).2.1, refs⟩
    · rename_i leaves
      obtain ⟨bound, refs⟩ := current.brings place name count brought
      refine ⟨bound, fun after marked => ?_⟩
      obtain ⟨mirror, was, -, same⟩ := documented.exists_before permits marked
      exact (same name leaves).trans (refs mirror was)
  · intro other rival foundRival fetchesRival place worksRival count listed
    obtain ⟨recent, bound, names⟩ :=
      current.lists other rival foundRival fetchesRival place worksRival count listed
    refine ⟨recent, bound, fun name => ?_⟩
    dsimp only [Mirrors.proceed]
    by_cases same : other = index
    · subst same
      rw [Function.update_self]
      split
      · exact ⟨fun earlier brought => (Option.some.inj (listed.symm.trans brought)).ge,
          fun _ => listed⟩
      · rename_i leaves
        refine ⟨(names name).1, fun fetched => ?_⟩
        rcases Bool.or_eq_true_iff.mp fetched with before | brought
        · exact (names name).2 before
        · -- its git works on the mirror of the caller
          obtain rfl := Option.some.inj (found.symm.trans foundRival)
          exact absurd ⟨works.trans worksRival, brought⟩ leaves
    · have elsewhere : ¬(git.repository state.files location = some place ∧
          progress.brought name) := by
        rintro ⟨here, -⟩
        exact same (current.exclusive apart foundRival fetchesRival worksRival found fetches
          (works.symm.trans here))
      rw [if_neg elsewhere, Function.update_of_ne same]
      exact names name
  · intro other name fetched
    dsimp only [Mirrors.proceed] at fetched ⊢
    by_cases same : other = index
    · subst same
      rw [Function.update_self] at fetched
      rcases Bool.or_eq_true_iff.mp fetched with before | brought
      · exact current.reads other name before
      · obtain ⟨_, count, -, listed, -⟩ := exists_read documented permits brought
        exact Option.ne_none_iff_exists'.mpr ⟨count, listed⟩
    · rw [Function.update_of_ne same] at fetched
      exact current.reads other name fetched
  · intro other rival foundRival ended place worksRival name
    obtain ⟨earlier, brought, recent⟩ :=
      current.keeps other rival foundRival ended place worksRival name
    obtain ⟨later, brought, newer⟩ := goesOn place name earlier brought
    exact ⟨later, brought, recent.trans newer⟩

/-- **A git that succeeds has brought every ref**, as it has read it. -/
theorem Current.brought_all (current : Current git config refsAt ids start state)
    (documented : git.Documented) {place : Location}
    (found : state.pool.callers[index]? = some caller) (fetches : caller.stage.fetches)
    (started : state.started index = some location)
    (permits : git.proceeds state.files location (state.read? git refsAt location index)
      (state.fetched index) progress) (succeeded : progress.answer = some (.ok ()))
    (works : placeOf git config start caller.repoId = some place) :
    ∃ count, state.listed index = some count ∧
      ∀ name, (state.proceed git location index progress).brought place name = some count := by
  have finds := (current.repository_eq documented found started).trans works
  obtain ⟨mirror, marked⟩ := Option.isSome_iff_exists.mp (documented.isMirror finds)
  have complete := documented.complete permits succeeded finds marked
    (current.configured place mirror marked)
  have read : state.listed index ≠ none := by
    rcases complete [] with before | brought
    · exact current.reads index [] before
    · obtain ⟨_, count, -, listed, -⟩ := exists_read documented permits brought
      exact Option.ne_none_iff_exists'.mpr ⟨count, listed⟩
  obtain ⟨count, listed⟩ := Option.ne_none_iff_exists'.mp read
  refine ⟨count, listed, fun name => ?_⟩
  dsimp only [Mirrors.proceed]
  split
  · exact listed
  · rename_i leaves
    obtain ⟨-, -, names⟩ := current.lists index caller found fetches place works count listed
    exact (names name).2 ((complete name).resolve_right fun brought => leaves ⟨finds, brought⟩)

end Proceeding

theorem fetchOutcome_eq_ok_iff {answer : Except Text Unit} :
    fetchOutcome answer = .ok () ↔ answer = .ok () := by
  cases answer with
  | error stderr => exact ⟨nofun, nofun⟩
  | ok done => exact ⟨fun _ => rfl, fun _ => rfl⟩

/-- An event that changes no outcome lets nobody arrive. -/
theorem arrives_of_outcomes (same : next.outcomes = state.outcomes) :
    Arrives git config refsAt state next := by
  intro index caller found before after
  rw [same] at after
  exact absurd after before

/-- **Every step keeps the mirrors current**, lets callers arrive with what they were promised, and
takes no ref back. -/
theorem Current.step (current : Current git config refsAt ids start state)
    (documented : git.Documented) (apart : Apart git config start ids) {event : MirrorEvent}
    (permitted : Permitted git refsAt ids state event)
    (stepped : Stepped git config state event next) :
    Current git config refsAt ids start next ∧ Arrives git config refsAt state next ∧
      GoesOn state next := by
  have stays : ∀ {after : Mirrors}, after.brought = state.brought → GoesOn state after :=
    fun same place name count brought =>
      ⟨count, (congrFun (congrFun same place) name).trans brought, Nat.le_refl _⟩
  cases stepped with
  | pushed place => exact ⟨current.push place, arrives_of_outcomes rfl, stays rfl⟩
  | called repoId => exact ⟨current.call documented permitted, arrives_of_outcomes rfl, stays rfl⟩
  | moved found moved => exact ⟨current.moved found moved, arrives_of_outcomes rfl, stays rfl⟩
  | @raised index caller pool raised found moved =>
      refine ⟨(current.answer found (.error raised) nofun).moved found moved, ?_, stays rfl⟩
      intro other rival foundRival before after
      dsimp only at after
      by_cases same : other = index
      · rw [same, Function.update_self] at after
        cases after
      · rw [Function.update_of_ne same] at after
        exact absurd after before
  | started found fetches checked =>
      exact ⟨current.check found fetches checked, arrives_of_outcomes rfl, stays rfl⟩
  | listed found fetches started first finds =>
      exact ⟨current.list documented found fetches started first finds, arrives_of_outcomes rfl,
        stays rfl⟩
  | proceeded found fetches started =>
      have permits := permitted _ started
      exact ⟨current.proceed documented apart found fetches started permits,
        arrives_of_outcomes rfl, current.goesOn_proceed documented found fetches started permits⟩
  | @ended index caller location progress answer pool found fetches started answered moved =>
      have permits := permitted _ started
      have proceeds := current.proceed documented apart found fetches started permits
      have all : answer = .ok () → ∀ place ∈ placeOf git config start caller.repoId,
          ∃ count, state.asked index ≤ count ∧ count ≤ state.pushes place ∧ ∀ name,
            (state.proceed git location index progress).brought place name = some count := by
        rintro rfl place works
        obtain ⟨count, listed, brought⟩ :=
          current.brought_all documented found fetches started permits answered works
        obtain ⟨recent, bound, -⟩ :=
          current.lists index caller found fetches place works count listed
        exact ⟨count, recent, bound, brought⟩
      have outcome := proceeds.answer found (fetchOutcome answer) (by
        intro succeeded place works name
        obtain ⟨count, recent, -, brought⟩ := all (fetchOutcome_eq_ok_iff.mp succeeded) place works
        exact ⟨count, brought name, recent⟩)
      refine ⟨outcome.moved found moved, ?_,
        current.goesOn_proceed documented found fetches started permits⟩
      intro other rival foundRival before after place mirror works marked
      by_cases same : other = index
      · subst same
        dsimp only at after
        rw [Function.update_self] at after
        have succeeded := fetchOutcome_eq_ok_iff.mp (Option.some.inj after)
        obtain rfl := Option.some.inj (found.symm.trans foundRival)
        rw [current.place_eq documented] at works
        obtain ⟨count, recent, bound, brought⟩ := all succeeded place works
        exact ⟨count, recent, bound, fun name =>
          (proceeds.brings place name count (brought name)).2 mirror marked⟩
      · dsimp only at after
        rw [Function.update_of_ne same] at after
        exact absurd after before

/-- Where no two ids lead git to one mirror, the mirrors stay fresh. -/
theorem Apart.fresh (apart : Apart git config start ids) (documented : git.Documented)
    (configured : AllConfigured start) {events : List MirrorEvent}
    (runs : Runs git config refsAt ids start events) : Fresh git config refsAt start events := by
  have current : ∀ state ∈ (mirrorStep git config).visits { files := start } events,
      Current git config refsAt ids start state :=
    Machine.forall_visits_of_guarded
      (fun _ _ _ current permitted stepped =>
        (current.step documented apart permitted (stepped_of_mirrorStep stepped)).1)
      (current_start configured) runs
  have steps : ∀ move ∈ (mirrorStep git config).moves { files := start } events, ∀ next,
      mirrorStep git config move.1 move.2 = some next →
        Arrives git config refsAt move.1 next ∧ GoesOn move.1 next := by
    rintro ⟨state, event⟩ made next stepped
    obtain ⟨done, rest, split, ran, -⟩ := (Machine.mem_moves_iff _ _ _ _ _).mp made
    have visited := (Machine.mem_visits_iff _ _ _ _).mpr ⟨done, _, split, ran⟩
    exact ((current state visited).step documented apart (runs _ made)
      (stepped_of_mirrorStep stepped)).2
  exact ⟨fun state visited => (current state visited).upToDate documented,
    fun move made next stepped => (steps move made next stepped).1,
    fun move made next stepped => (steps move made next stepped).2⟩

end Steps

/-! ## Two ids for one mirror -/

section Race

variable {git : GitFetch} {config : MirrorConfig} {refsAt : Location → Nat → Refs}
  {ids : Set String} {start : Files} {state : Mirrors} {index : Nat} {caller : Caller}
  {pool : FetchPool} {first second : String} {place : Location}

end Race

end Kenjutsu.Mirror
