import Kenjutsu.Foundations.Projections
import Kenjutsu.Pipeline.Queue

/-!
# What the supersession registry answers

The registry keeps two structures, the table of events and the set of superseded keys, and
updates them at different moments. Together they remember of each key the registrations
since its last completion: the table whether there is one, and with which event the last of
them, the set whether there are two (`Encodes`). So the answers of the registry are read off
the calls that were made, and off those for the same key alone.
-/

set_option autoImplicit false

namespace Kenjutsu.Pipeline

open Foundations

/-- A call of the registry that changes it. -/
inductive RegistryCall where
  | register (key : ReviewKey)
  | complete (key : ReviewKey)
deriving DecidableEq

def RegistryCall.key : RegistryCall → ReviewKey
  | .register key => key
  | .complete key => key

/-- A registry, and the number of events created so far: the next one is identified by it. -/
structure RegistryRun where
  registry : SupersessionRegistry := {}
  created : Nat := 0

namespace RegistryRun

/-- A call, and the event that it returns. -/
def perform (run : RegistryRun) : RegistryCall → Option Nat × RegistryRun
  | .register key =>
      (some run.created, ⟨run.registry.register key run.created, run.created + 1⟩)
  | .complete key => (none, { run with registry := run.registry.complete key })

/-- The registry after some calls. -/
def after (calls : List RegistryCall) : RegistryRun :=
  calls.foldl (fun run call => (run.perform call).2) {}

/-- The calls since the last completion of the key. -/
def sinceCompletion (key : ReviewKey) (calls : List RegistryCall) : List RegistryCall :=
  calls.rtakeWhile (· ≠ .complete key)

/-- The calls before the next completion of the key. -/
def untilCompletion (key : ReviewKey) (calls : List RegistryCall) : List RegistryCall :=
  calls.takeWhile (· ≠ .complete key)

/-- The calls for the key. -/
def callsFor (key : ReviewKey) (calls : List RegistryCall) : List RegistryCall :=
  calls.filter (·.key = key)

/-- The event is set in the registry after some calls. -/
def IsSetAfter (calls : List RegistryCall) (event : Nat) : Prop :=
  (after calls).registry.isSet event

/-- The answers of the registry as functions of the calls that were made. -/
structure AnswersHistory (calls : List RegistryCall) : Prop where
  /-- `register` returns an event that did not exist, and it is unset. -/
  fresh : ∀ earlier key later, calls = earlier ++ .register key :: later →
    ∃ event, ((after earlier).perform (.register key)).1 = some event ∧
      (after earlier).registry.flags.get event = none ∧
      (after (earlier ++ [.register key])).registry.flags.get event = some false
  /-- The event is set later exactly when its key was registered again before a completion. -/
  set_iff : ∀ earlier key later, calls = earlier ++ .register key :: later →
    ∀ event, ((after earlier).perform (.register key)).1 = some event →
      (IsSetAfter calls event ↔ .register key ∈ untilCompletion key later)
  /-- A key is cancelled when it was registered twice since its last completion. -/
  cancelled_iff : ∀ key, (after calls).registry.isCancelled key ↔
    2 ≤ (sinceCompletion key calls).count (.register key)
  /-- The calls for other keys do not matter to the events -/
  set_alone : ∀ earlier key later, calls = earlier ++ .register key :: later →
    ∀ event alone, ((after earlier).perform (.register key)).1 = some event →
      ((after (callsFor key earlier)).perform (.register key)).1 = some alone →
        (IsSetAfter calls event ↔ IsSetAfter (callsFor key calls) alone)
  /-- and to the cancellations. -/
  cancelled_alone : ∀ key, (after calls).registry.isCancelled key =
    (after (callsFor key calls)).registry.isCancelled key

/-! ## The registrations of a key -/

variable {calls earlier later : List RegistryCall} {call : RegistryCall} {key other : ReviewKey}

theorem after_concat (calls : List RegistryCall) (call : RegistryCall) :
    after (calls ++ [call]) = ((after calls).perform call).2 := by
  rw [after, List.foldl_append]
  rfl

theorem callsFor_append (first second : List RegistryCall) :
    callsFor key (first ++ second) = callsFor key first ++ callsFor key second :=
  List.filter_append first second

/-- One more registration of a key. -/
theorem count_sinceCompletion_register :
    (sinceCompletion key (calls ++ [.register other])).count (.register key) =
      (sinceCompletion key calls).count (.register key) + if other = key then 1 else 0 := by
  unfold sinceCompletion
  rw [List.rtakeWhile_concat_pos _ _ _ (by simp), List.count_append, List.count_singleton]
  simp only [beq_iff_eq, RegistryCall.register.injEq]

theorem count_sinceCompletion_complete :
    (sinceCompletion key (calls ++ [.complete other])).count (.register key) =
      if other = key then 0 else (sinceCompletion key calls).count (.register key) := by
  unfold sinceCompletion
  by_cases same : other = key
  · rw [List.rtakeWhile_concat_neg _ _ _ (by simp [same]), if_pos same]
    rfl
  · rw [List.rtakeWhile_concat_pos _ _ _ (by simpa using same), List.count_append, if_neg same]
    rfl

/-- A completion of a key is a call for it. -/
theorem completion_own (call : RegistryCall) (completes : decide (call ≠ .complete key) = false) :
    decide (call.key = key) = true := by
  obtain rfl := not_ne_iff.mp (of_decide_eq_false completes)
  exact decide_eq_true rfl

theorem sinceCompletion_callsFor :
    sinceCompletion key (callsFor key calls) = callsFor key (sinceCompletion key calls) :=
  rtakeWhile_filter_of_stops_own completion_own calls

theorem untilCompletion_callsFor :
    untilCompletion key (callsFor key later) = callsFor key (untilCompletion key later) :=
  takeWhile_filter_of_stops_own completion_own later

/-- A key that is not completed is called freely. -/
theorem untilCompletion_eq_self (uncompleted : .complete key ∉ later) :
    untilCompletion key later = later := by
  refine List.takeWhile_eq_self_iff.mpr fun call member => decide_eq_true ?_
  rintro rfl
  exact uncompleted member

/-- The key is registered before its next completion, by the calls so far or by one more. -/
theorem register_mem_untilCompletion_concat :
    .register key ∈ untilCompletion key (later ++ [call]) ↔
      .register key ∈ untilCompletion key later ∨
        (call = .register key ∧ .complete key ∉ later) := by
  by_cases completes : .complete key ∈ later
  · have ends : (untilCompletion key later).length ≠ later.length := by
      intro whole
      have all := (List.takeWhile_prefix _).eq_of_length whole
      have goesOn := List.takeWhile_eq_self_iff.mp all _ completes
      simp at goesOn
    have stays : untilCompletion key (later ++ [call]) = untilCompletion key later :=
      List.takeWhile_append.trans (if_neg ends)
    simp [stays, completes]
  · by_cases ends : call = .complete key
    · have stays : untilCompletion key (later ++ [call]) = later := by
        have all := List.takeWhile_eq_self_iff.mp (untilCompletion_eq_self completes)
        rw [untilCompletion, List.takeWhile_append_of_pos all, ends,
          List.takeWhile_cons_of_neg (by simp), List.append_nil]
      rw [stays, untilCompletion_eq_self completes]
      simp [ends]
    · have uncompleted : .complete key ∉ later ++ [call] := by
        simp [completes, Ne.symm ends]
      rw [untilCompletion_eq_self uncompleted, untilCompletion_eq_self completes, List.mem_append,
        List.mem_singleton]
      simp [completes, eq_comm]

/-- A key that has been called and not completed has been registered. -/
theorem register_mem_untilCompletion_of_mem (member : call ∈ later) (own : call.key = key)
    (uncompleted : .complete key ∉ later) : .register key ∈ untilCompletion key later := by
  rw [untilCompletion_eq_self uncompleted]
  cases call with
  | register registered =>
      obtain rfl : registered = key := own
      exact member
  | complete completed =>
      obtain rfl : completed = key := own
      exact absurd member uncompleted

/-! ## What the two structures encode -/

theorem mem_superseded_register {registry : SupersessionRegistry} {newEvent : Nat} :
    key ∈ (registry.register other newEvent).superseded ↔
      key ∈ registry.superseded ∨ (key = other ∧ (registry.events.get other).isSome) := by
  unfold SupersessionRegistry.register
  cases registry.events.get other with
  | none => simp
  | some prior => simp [SupersessionRegistry.setEvent, or_comm]

/-- The structures of the registry and the calls that were made. -/
structure Encodes (run : RegistryRun) (calls : List RegistryCall) : Prop where
  /-- The events created so far are those below the next one, -/
  created : ∀ event, run.registry.flags.get event = none ↔ run.created ≤ event
  /-- and the stored ones are among them. -/
  known : ∀ key event, run.registry.events.get key = some event → event < run.created
  /-- An event is stored for a key that was registered since its last completion, -/
  stored : ∀ key, (run.registry.events.get key).isSome ↔
    1 ≤ (sinceCompletion key calls).count (.register key)
  /-- and the key is superseded if that was twice. -/
  superseded : ∀ key, key ∈ run.registry.superseded ↔
    2 ≤ (sinceCompletion key calls).count (.register key)

theorem Encodes.register {run : RegistryRun} (encodes : Encodes run calls) (key : ReviewKey) :
    Encodes (run.perform (.register key)).2 (calls ++ [.register key]) where
  created event := by
    have ordered := encodes.created event
    simp only [perform, SupersessionRegistry.register_flags]
    split
    · rename_i isNew
      simp [isNew]
    · rename_i isOld
      split
      · rename_i stored
        have known := encodes.known key event stored
        simp
        omega
      · rw [ordered]
        exact ⟨fun least => by omega, fun least => by omega⟩
  known other event stored := by
    simp only [perform, SupersessionRegistry.register_events] at stored ⊢
    split at stored
    · obtain rfl := Option.some.inj stored
      omega
    · have known := encodes.known other event stored
      omega
  stored other := by
    rw [count_sinceCompletion_register]
    simp only [perform, SupersessionRegistry.register_events]
    by_cases same : other = key
    · simp [same]
    · rw [if_neg same, if_neg (Ne.symm same), Nat.add_zero]
      exact encodes.stored other
  superseded other := by
    rw [count_sinceCompletion_register]
    simp only [perform, mem_superseded_register, encodes.superseded other, encodes.stored key]
    by_cases same : other = key
    · rw [and_iff_right same, same, if_pos rfl]
      omega
    · simp [same, Ne.symm same]

theorem Encodes.complete {run : RegistryRun} (encodes : Encodes run calls) (key : ReviewKey) :
    Encodes (run.perform (.complete key)).2 (calls ++ [.complete key]) where
  created := encodes.created
  known other event stored := by
    simp only [perform, SupersessionRegistry.complete, Dict.get_erase] at stored
    split at stored
    · cases stored
    · exact encodes.known other event stored
  stored other := by
    rw [count_sinceCompletion_complete]
    simp only [perform, SupersessionRegistry.complete, Dict.get_erase]
    by_cases same : other = key
    · simp [same]
    · rw [if_neg same, if_neg (Ne.symm same)]
      exact encodes.stored other
  superseded other := by
    rw [count_sinceCompletion_complete]
    simp only [perform, SupersessionRegistry.complete, Finset.mem_erase, encodes.superseded other]
    by_cases same : other = key
    · simp [same]
    · simp [same, Ne.symm same]

/-- **The structures encode the calls since the last completions.** -/
theorem encodes_after (calls : List RegistryCall) : Encodes (after calls) calls := by
  induction calls using List.reverseRecOn with
  | nil =>
      refine ⟨fun event => ?_, fun key event stored => ?_, fun key => ?_, fun key => ?_⟩
      · simp [after]
      · simp [after] at stored
      · simp [after, sinceCompletion]
      · simp [after, sinceCompletion]
  | append_singleton calls call ih =>
      rw [after_concat]
      cases call with
      | register key => exact ih.register key
      | complete key => exact ih.complete key

/-! ## One event -/

/-- The event was given to a review of the key, and these calls followed. -/
structure Follows (run : RegistryRun) (key : ReviewKey) (event : Nat)
    (later : List RegistryCall) : Prop where
  exists_before : event < run.created
  /-- It is stored as long as the key is not called, -/
  stored : ∀ other, run.registry.events.get other = some event ↔
    other = key ∧ ∀ call ∈ later, call.key ≠ key
  /-- and it is set once the key is registered before a completion. -/
  flag : run.registry.isSet event ↔ .register key ∈ untilCompletion key later

theorem follows_start (encodes : Encodes (after earlier) earlier) (key : ReviewKey) :
    Follows ((after earlier).perform (.register key)).2 key (after earlier).created [] where
  exists_before := Nat.lt_succ_self _
  stored other := by
    simp only [perform, SupersessionRegistry.register_events]
    by_cases same : other = key
    · simp [same]
    · rw [if_neg same]
      refine ⟨fun stored => ?_, fun both => absurd both.1 same⟩
      exact absurd (encodes.known other _ stored) (Nat.lt_irrefl _)
  flag := by
    unfold SupersessionRegistry.isSet
    rw [perform, SupersessionRegistry.register_flags, if_pos rfl]
    simp [untilCompletion]

/-- A call for another key than the one that is sought leaves it untouched. -/
theorem eq_and_iff_of_ne {sought : ReviewKey} {untouched : Prop} (apart : sought ≠ other) :
    sought = key ∧ untouched ↔ sought = key ∧ untouched ∧ other ≠ key := by
  constructor
  · rintro ⟨rfl, untouched⟩
    exact ⟨rfl, untouched, Ne.symm apart⟩
  · exact fun kept => ⟨kept.1, kept.2.1⟩

theorem Follows.register {run : RegistryRun} {event : Nat}
    (follows : Follows run key event later) (other : ReviewKey) :
    Follows (run.perform (.register other)).2 key event (later ++ [.register other]) where
  exists_before := Nat.lt_succ_of_lt follows.exists_before
  stored sought := by
    have older : run.created ≠ event := follows.exists_before.ne'
    simp only [perform, SupersessionRegistry.register_events, List.forall_mem_append,
      List.forall_mem_singleton, RegistryCall.key]
    by_cases same : sought = other
    · subst same
      simp only [if_true, Option.some.injEq, older, false_iff]
      rintro ⟨rfl, -, differs⟩
      exact differs rfl
    · rw [if_neg same, follows.stored sought]
      exact eq_and_iff_of_ne same
  flag := by
    have older : event ≠ run.created := follows.exists_before.ne
    have before := follows.flag
    unfold SupersessionRegistry.isSet at before ⊢
    rw [perform, SupersessionRegistry.register_flags, if_neg older,
      register_mem_untilCompletion_concat, ← before]
    by_cases stored : run.registry.events.get other = some event
    · obtain ⟨rfl, untouched⟩ := (follows.stored other).mp stored
      have uncompleted : .complete other ∉ later := fun member => untouched _ member rfl
      simp [stored, uncompleted]
    · rw [if_neg stored]
      refine ⟨.inl, ?_⟩
      rintro (isSet | ⟨registers, uncompleted⟩)
      · exact isSet
      · obtain rfl := RegistryCall.register.inj registers
        have touched : ∃ call ∈ later, call.key = other := by
          by_contra none
          push Not at none
          exact stored ((follows.stored other).mpr ⟨rfl, none⟩)
        obtain ⟨call, member, own⟩ := touched
        exact before.mpr (register_mem_untilCompletion_of_mem member own uncompleted)

theorem Follows.complete {run : RegistryRun} {event : Nat}
    (follows : Follows run key event later) (other : ReviewKey) :
    Follows (run.perform (.complete other)).2 key event (later ++ [.complete other]) where
  exists_before := follows.exists_before
  stored sought := by
    simp only [perform, SupersessionRegistry.complete, Dict.get_erase, List.forall_mem_append,
      List.forall_mem_singleton, RegistryCall.key]
    by_cases same : sought = other
    · subst same
      simp only [if_true, reduceCtorEq, false_iff]
      rintro ⟨rfl, -, differs⟩
      exact differs rfl
    · rw [if_neg same, follows.stored sought]
      exact eq_and_iff_of_ne same
  flag := by
    rw [register_mem_untilCompletion_concat, or_iff_left fun registers => by cases registers.1]
    exact follows.flag

/-- **An event remembers the calls that followed it.** -/
theorem follows_after (earlier : List RegistryCall) (key : ReviewKey)
    (later : List RegistryCall) :
    Follows (after (earlier ++ .register key :: later)) key (after earlier).created later := by
  induction later using List.reverseRecOn with
  | nil =>
      rw [after_concat]
      exact follows_start (encodes_after earlier) key
  | append_singleton later call ih =>
      rw [← List.cons_append, ← List.append_assoc, after_concat]
      cases call with
      | register other => exact ih.register other
      | complete other => exact ih.complete other

/-! ## The answers -/

/-- **The answers of the registry are functions of the calls that were made**, in every run
of any length over any keys. -/
theorem registry_answersHistory (calls : List RegistryCall) : AnswersHistory calls := by
  have cancelled : ∀ calls key, (after calls).registry.isCancelled key ↔
      2 ≤ (sinceCompletion key calls).count (.register key) := fun calls key =>
    decide_eq_true_iff.trans ((encodes_after calls).superseded key)
  refine ⟨?_, ?_, cancelled calls, ?_, ?_⟩
  · rintro earlier key later -
    refine ⟨_, rfl, ((encodes_after earlier).created _).mpr (Nat.le_refl _), ?_⟩
    rw [after_concat, perform, SupersessionRegistry.register_flags, if_pos rfl]
  · rintro earlier key later rfl event returned
    obtain rfl := Option.some.inj returned
    exact (follows_after earlier key later).flag
  · rintro earlier key later rfl event alone returned returnedAlone
    obtain rfl := Option.some.inj returned
    obtain rfl := Option.some.inj returnedAlone
    have own : callsFor key (earlier ++ .register key :: later) =
        callsFor key earlier ++ .register key :: callsFor key later := by
      rw [callsFor_append]
      simp [callsFor, RegistryCall.key]
    have whole := (follows_after earlier key later).flag
    have part := (follows_after (callsFor key earlier) key (callsFor key later)).flag
    rw [IsSetAfter, IsSetAfter, own, whole, part, untilCompletion_callsFor]
    simp [callsFor, RegistryCall.key]
  · intro key
    rw [Bool.eq_iff_iff, cancelled, cancelled, sinceCompletion_callsFor, callsFor,
      List.count_filter (by simp [RegistryCall.key])]

end RegistryRun

end Kenjutsu.Pipeline
