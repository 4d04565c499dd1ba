import Arthius.Source.ProgressHandler

/-!
# What completing a level does to the other levels' progress

`setProgressForUUID` is the update of a map at one UUID, so `completedLevel`
leaves every other entry alone. `completedCampaignLevel` writes a second entry,
the blank unlocked one of the next level, and does so whether or not the next
level already has an entry. The frame holds exactly when that second write has
nothing to destroy, and along such runs no completed level is ever lost.
-/
namespace Arthius.Guarantees.ProgressFrame
open Arthius.Lib Arthius.Source Arthius.Source.ProgressHandler

/-- A progress store whose entries have pairwise distinct UUIDs. -/
structure ProgressStore where
  progress : Progress
  distinct : (progress.progressData.map LevelProgressData.uuid).Nodup

/-- The update keeps the UUIDs distinct, whatever is stored. -/
def ProgressStore.setProgressForUUID (data : LevelProgressData) (store : ProgressStore) :
    ProgressStore :=
  ⟨ProgressHandler.setProgressForUUID data store.progress,
    KeyedList.nodup_put LevelProgressData.uuid data store.distinct⟩

abbrev entry (uuid : Option String) (progress : Progress) : Option LevelProgressData :=
  getCurrentProgressForUUID uuid progress

@[simp] theorem blankUnlockData_uuid (uuid : Option String) : (blankUnlockData uuid).uuid = uuid := rfl

@[simp] theorem blankUnlockData_completed (uuid : Option String) :
    (blankUnlockData uuid).completed = false := rfl

theorem entry_set_self (data : LevelProgressData) (progress : Progress) :
    entry data.uuid (setProgressForUUID data progress) = some data :=
  KeyedList.get_put_self LevelProgressData.uuid data progress.progressData

theorem entry_set_other {data : LevelProgressData} {uuid : Option String}
    (other : uuid ≠ data.uuid) (progress : Progress) :
    entry uuid (setProgressForUUID data progress) = entry uuid progress :=
  KeyedList.get_put_other LevelProgressData.uuid other

def nextUUID (next : LevelData) : Option String := next.levelMetadata.bind LevelMetadata.levelUUID

/-- The completed level has its new entry and every other level the entry it
had, except that a next level without one gains the blank unlocked entry. -/
structure Kept (next : Option LevelData) (data : LevelProgressData) (before after : Progress) :
    Prop where
  own : entry data.uuid after = some data
  others : ∀ uuid, uuid ≠ data.uuid → entry uuid after = entry uuid before ∨
    (next.map nextUUID = some uuid ∧ entry uuid before = none ∧
      entry uuid after = some (blankUnlockData uuid))

/-- The unlock write destroys nothing: the next level is another level, and it
has no entry yet or still the blank unlocked one. -/
def UnlockHarmless (next : Option LevelData) (data : LevelProgressData) (before : Progress) : Prop :=
  ∀ uuid, next.map nextUUID = some uuid → uuid ≠ data.uuid ∧
    (entry uuid before = none ∨ entry uuid before = some (blankUnlockData uuid))

theorem kept_set (next : Option LevelData) (data : LevelProgressData) (before : Progress) :
    Kept next data before (setProgressForUUID data before) where
  own := entry_set_self data before
  others := fun _ other => .inl (entry_set_other other before)

/-- The store in memory after a completion is one of those it saved. -/
theorem recordCampaignLevel_saved {allLevels : List LevelData} {data : LevelProgressData}
    {before after : Progress}
    (finished : (recordCampaignLevel allLevels data before).progress = some after) :
    after ∈ (recordCampaignLevel allLevels data before).saves := by
  unfold recordCampaignLevel at finished ⊢
  split at finished
  · cases finished
  · cases finished
    simp
  · cases finished
    simp

/-- Everything `completedLevel` saves keeps the other entries. -/
theorem recordLevel_kept (data : LevelProgressData) (before : Progress) :
    ∀ after ∈ (recordLevel data before).saves, Kept none data before after := by
  intro after saved
  have same : after = setProgressForUUID data before := by
    simpa [recordLevel] using saved
  rw [same]
  exact kept_set none data before

/-- The unlock write keeps the frame exactly when it is harmless. -/
theorem kept_unlock_iff (next : LevelData) (data : LevelProgressData) (before : Progress)
    (completed : data.completed = true) :
    Kept (some next) data before
        (setProgressForUUID (blankUnlockData (nextUUID next)) (setProgressForUUID data before)) ↔
      UnlockHarmless (some next) data before := by
  have written := entry_set_self (blankUnlockData (nextUUID next)) (setProgressForUUID data before)
  rw [blankUnlockData_uuid] at written
  constructor
  · rintro kept uuid same
    obtain rfl : nextUUID next = uuid := by simpa using same
    have different : nextUUID next ≠ data.uuid := by
      intro equal
      have own := kept.own
      rw [← equal, written] at own
      have blank : blankUnlockData (nextUUID next) = data := Option.some.inj own
      rw [← blank, blankUnlockData_completed] at completed
      cases completed
    refine ⟨different, ?_⟩
    rcases kept.others _ different with unchanged | ⟨_, absent, _⟩
    · exact .inr (unchanged ▸ written)
    · exact .inl absent
  · intro harmless
    obtain ⟨different, prior⟩ := harmless (nextUUID next) rfl
    refine ⟨?_, fun uuid other => ?_⟩
    · rw [entry_set_other (by simpa using Ne.symm different)]
      exact entry_set_self data before
    · by_cases same : uuid = nextUUID next
      · subst same
        rcases prior with absent | blank
        · exact .inr ⟨rfl, absent, written⟩
        · exact .inl (written.trans blank.symm)
      · left
        rw [entry_set_other (by simpa using same), entry_set_other other]

/-- A call of one of the two completion handlers on a loaded store. -/
inductive Call where
  | completedLevel (completion : Completion)
  | completedCampaignLevel (completion : Completion)

def Call.completion : Call → Completion
  | .completedLevel completion => completion
  | .completedCampaignLevel completion => completion

def Call.outcome (allLevels : List LevelData) : Call → Progress → Outcome
  | .completedLevel completion => recordLevel completion.data
  | .completedCampaignLevel completion => recordCampaignLevel allLevels completion.data

/-- The level the call unlocks, if it gets that far. -/
def Call.next (allLevels : List LevelData) : Call → Option LevelData
  | .completedLevel _ => none
  | .completedCampaignLevel completion => (nextLevel allLevels completion.data).join

/-- The step condition: the call's unlock write, if it makes one, is harmless. -/
def Call.Harmless (allLevels : List LevelData) (before : Progress) (call : Call) : Prop :=
  UnlockHarmless (call.next allLevels) call.completion.data before

def completions (allLevels : List LevelData) : Machine Progress Call :=
  ⟨fun progress call => (call.outcome allLevels progress).progress⟩

/-- Every call leaves a store with distinct UUIDs. -/
theorem call_distinct {allLevels : List LevelData} {call : Call} (store : ProgressStore)
    {after : Progress} (finished : (completions allLevels).step store.progress call = some after) :
    ∃ result : ProgressStore, result.progress = after := by
  cases call with
  | completedLevel completion =>
    cases finished
    exact ⟨store.setProgressForUUID completion.data, rfl⟩
  | completedCampaignLevel completion =>
    simp only [completions, Call.outcome, recordCampaignLevel] at finished
    split at finished
    · cases finished
    · cases finished
      exact ⟨store.setProgressForUUID completion.data, rfl⟩
    · cases finished
      exact ⟨(store.setProgressForUUID completion.data).setProgressForUUID _, rfl⟩

theorem run_distinct {allLevels : List LevelData} (store : ProgressStore) {calls : List Call}
    {t : Progress} (finished : (completions allLevels).run store.progress calls = some t) :
    ∃ result : ProgressStore, result.progress = t := by
  refine (completions allLevels).run_invariant
    (I := fun s => ∃ result : ProgressStore, result.progress = s) ?_ ⟨store, rfl⟩ finished
  rintro _ call after ⟨before, rfl⟩ success
  exact call_distinct before success

/-- One call, trapped or not: everything it saves keeps the other levels'
entries if and only if its unlock write is harmless. -/
theorem call_kept_iff (allLevels : List LevelData) (call : Call) (before : Progress) :
    (∀ after ∈ (call.outcome allLevels before).saves,
        Kept (call.next allLevels) call.completion.data before after) ↔
      call.Harmless allLevels before := by
  cases call with
  | completedLevel completion =>
    constructor
    · intro _ uuid absent
      cases absent
    · intro _
      exact recordLevel_kept completion.data before
  | completedCampaignLevel completion =>
    simp only [Call.outcome, Call.next, Call.completion, Call.Harmless, recordCampaignLevel]
    cases found : nextLevel allLevels completion.data with
    | none =>
      simp only [Option.join_none, List.mem_singleton, forall_eq]
      exact iff_of_true (kept_set none _ before) (fun uuid absent => by cases absent)
    | some next =>
      cases next with
      | none =>
        simp only [Option.join_some, List.mem_cons, List.not_mem_nil, or_false, or_self, forall_eq]
        exact iff_of_true (kept_set none _ before) (fun uuid absent => by cases absent)
      | some next =>
        have unlock := kept_unlock_iff next completion.data before rfl
        simp only [Option.join_some, List.mem_cons, List.not_mem_nil, or_false, or_self,
          forall_eq_or_imp, forall_eq]
        constructor
        · intro kept
          exact unlock.mp kept.2
        · intro harmless
          exact ⟨kept_set (some next) _ before, unlock.mpr harmless⟩

/-- A harmless call that finishes leaves every completed entry completed. -/
theorem call_keeps_completed {allLevels : List LevelData} {call : Call} {before after : Progress}
    (harmless : call.Harmless allLevels before)
    (finished : (completions allLevels).step before call = some after)
    {uuid : Option String} (done : ∃ e, entry uuid before = some e ∧ e.completed = true) :
    ∃ e, entry uuid after = some e ∧ e.completed = true := by
  have saved : after ∈ (call.outcome allLevels before).saves := by
    cases call with
    | completedLevel completion =>
      cases finished
      exact List.mem_cons_self ..
    | completedCampaignLevel completion => exact recordCampaignLevel_saved finished
  have kept := (call_kept_iff allLevels call before).mpr harmless after saved
  by_cases own : uuid = call.completion.data.uuid
  · exact ⟨call.completion.data, own ▸ kept.own, rfl⟩
  · rcases kept.others uuid own with unchanged | ⟨_, absent, _⟩
    · exact unchanged ▸ done
    · obtain ⟨e, present, _⟩ := done
      rw [absent] at present
      cases present

/-- The completion handlers and the other levels' progress, from any store with
distinct UUIDs. In every state a run of completions reaches the UUIDs are still
distinct, and a call there keeps the frame if and only if its unlock write is
harmless; along a run whose calls are all harmless, what was completed in a
state stays completed in every later one. -/
theorem completions_keep_progress (allLevels : List LevelData) (store : ProgressStore)
    (calls : List Call) (t : Progress)
    (reached : (completions allLevels).run store.progress calls = some t) :
    (t.progressData.map LevelProgressData.uuid).Nodup ∧
    (∀ call : Call,
      (∀ after ∈ (call.outcome allLevels t).saves,
        Kept (call.next allLevels) call.completion.data t after) ↔
      call.Harmless allLevels t) ∧
    (∀ later u, (completions allLevels).Meets (fun s call => call.Harmless allLevels s) t later →
      (completions allLevels).run t later = some u →
      ∀ uuid, (∃ e, entry uuid t = some e ∧ e.completed = true) →
        ∃ e, entry uuid u = some e ∧ e.completed = true) := by
  obtain ⟨result, rfl⟩ := run_distinct store reached
  refine ⟨result.distinct, fun call => call_kept_iff allLevels call result.progress, ?_⟩
  intro later u harmless finished uuid done
  exact (completions allLevels).run_invariant_of_meets
    (I := fun s => ∃ e, entry uuid s = some e ∧ e.completed = true)
    (fun s call s' held ok success => call_keeps_completed ok success held)
    done harmless finished

/-- Two campaign levels, numbered 1 and 2. -/
def twoLevels : List LevelData :=
  [{ levelMetadata := some { levelUUID := some "a", levelNumber := 1 } },
   { levelMetadata := some { levelUUID := some "b", levelNumber := 2 } }]

def freshStore : ProgressStore :=
  ⟨⟨[blankUnlockData (some "a")]⟩, by decide⟩

def beat (uuid : String) : Call := .completedCampaignLevel ⟨some uuid, 3, 0, 0⟩

/-- Beating level 1 and then level 2 keeps the completion of level 1. -/
theorem beat_in_order_keeps_completion :
    ∃ t u, (completions twoLevels).run freshStore.progress [beat "a"] = some t ∧
      (completions twoLevels).run t [beat "b"] = some u ∧
      ∃ e, entry (some "a") u = some e ∧ e.completed = true := by
  refine ⟨_, _, rfl, rfl, ?_⟩
  have kept := completions_keep_progress twoLevels freshStore [beat "a"] _ rfl
  exact kept.2.2 [beat "b"] _ ⟨fun uuid absent => (by cases absent), fun _ _ => trivial⟩
    rfl (some "a") ⟨_, rfl, rfl⟩

/-- Beating level 1, then level 2, then level 1 again: after the second call
level 2 is completed, after the third it is not. -/
theorem replay_loses_completion :
    ∃ t u, (completions twoLevels).run freshStore.progress [beat "a", beat "b"] = some t ∧
      (completions twoLevels).run t [beat "a"] = some u ∧
      (entry (some "b") t).map LevelProgressData.completed = some true ∧
      (entry (some "b") u).map LevelProgressData.completed = some false :=
  ⟨_, _, rfl, rfl, rfl, rfl⟩

end Arthius.Guarantees.ProgressFrame
