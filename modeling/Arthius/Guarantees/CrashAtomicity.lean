import Arthius.Guarantees.AppSteps
import Arthius.Guarantees.ProgressFrame

/-!
# A process that stops while a level is being completed

`setProgress` saves the store with the completion before the next level is
unlocked in it. What the next launch finds is still the file from before or the
one of a finished call, exactly if that first save writes one of the two.
-/
namespace Arthius.Guarantees.CrashAtomicity
open Arthius.Lib Arthius.Source Arthius.Source.ProgressHandler AppSteps ProgressFrame

section Saves
variable (file : Option Progress)

/-- The file after so many of the saves, each of which replaces it. -/
def found (saves : List Progress) (made : ℕ) : Option Progress :=
  File.saveAll file (fun _ => true) (saves.take made)

/-- After any number of its saves, the file is the one from before the call or
the one that the finished call leaves. -/
def Atomic (outcome : Outcome) : Prop :=
  ∀ made, found file outcome.saves made = file ∨
    outcome.progress.isSome ∧ found file outcome.saves made = File.saveAll file (fun _ => true) outcome.saves

variable {file}

theorem found_of_le {saves : List Progress} {made : ℕ} (all : saves.length ≤ made) :
    found file saves made = File.saveAll file (fun _ => true) saves := by
  rw [found, List.take_of_length_le all]

/-- A call that saved once and then trapped. -/
theorem atomic_trapped_iff {stored : Progress} : Atomic file ⟨none, [stored]⟩ ↔ file = some stored := by
  constructor
  · intro atomic
    rcases atomic 1 with same | ⟨finished, _⟩
    · exact same.symm
    · cases finished
  · rintro rfl made
    match made with
    | 0 => exact .inl rfl
    | made + 1 => exact .inl (found_of_le (Nat.le_add_left 1 made))

theorem atomic_noNext (stored : Progress) : Atomic file ⟨some stored, [stored, stored]⟩ := by
  intro made
  match made with
  | 0 => exact .inl rfl
  | 1 => exact .inr ⟨rfl, rfl⟩
  | made + 2 => exact .inr ⟨rfl, found_of_le (Nat.le_add_left 2 made)⟩

theorem atomic_next_iff {stored unlocked : Progress} :
    Atomic file ⟨some unlocked, [stored, unlocked, unlocked]⟩ ↔ file = some stored ∨ unlocked = stored := by
  constructor
  · intro atomic
    rcases atomic 1 with same | ⟨_, same⟩
    · exact .inl same.symm
    · exact .inr (Option.some.inj same.symm)
  · intro first made
    match made with
    | 0 => exact .inl rfl
    | 1 =>
      rcases first with rfl | rfl
      · exact .inl rfl
      · exact .inr ⟨rfl, rfl⟩
    | 2 => exact .inr ⟨rfl, rfl⟩
    | made + 3 => exact .inr ⟨rfl, found_of_le (Nat.le_add_left 3 made)⟩

end Saves

section Call
variable (data : LevelProgressData) (readable : Bool) (written : ℕ → Bool) (app : App)

/-- The store that a completion records into: the one in memory, or a loaded one. -/
def storeFor : Option Progress :=
  match app.progress with
  | some progress => some progress
  | none => File.loadProgress readable app

/-- Recording the completion into a store; without campaign levels it traps. -/
def campaignOutcome (progress : Progress) : Outcome :=
  match app.allLevels with
  | some allLevels => recordCampaignLevel allLevels data progress
  | none => ⟨none, [setProgressForUUID data progress]⟩

/-- What `completedCampaignLevel` leaves, in terms of the store it records into. -/
theorem completedCampaignLevel_eq :
    app.completedCampaignLevel data readable written =
      (storeFor readable app).map fun progress => app.settle written (campaignOutcome data app progress) := by
  unfold App.completedCampaignLevel App.completed storeFor
  cases stored : app.progress with
  | some progress => rfl
  | none =>
    rw [App.loadProgress]
    cases File.loadProgress readable app with
    | none => rfl
    | some progress =>
      have settled : ∀ outcome,
          App.settle { app with progress := some progress } written outcome = app.settle written outcome := by
        intro outcome
        unfold App.settle
        cases outcome.progress <;> rfl
      exact congrArg some (settled _)

/-- Wherever the process stops during the call, the file is the one from before
or the one that a finished call leaves. -/
def CrashAtomic : Prop :=
  ∀ progress, storeFor readable app = some progress → ∀ made,
    found app.file (campaignOutcome data app progress).saves made = app.file ∨
      ∃ finished, app.completedCampaignLevel data readable (fun _ => true) = some finished ∧
        finished.progress.isSome ∧ found app.file (campaignOutcome data app progress).saves made = finished.file

/-- The first save writes what is in the file already, or all that the call will
write: no next level follows, or it is another level whose entry is already the
blank unlocked one. -/
def FirstSaveFine (progress : Progress) : Prop :=
  app.file = some (setProgressForUUID data progress) ∨
    ∃ allLevels, app.allLevels = some allLevels ∧ (nextLevel allLevels data = some none ∨
      ∃ next, nextLevel allLevels data = some (some next) ∧ nextUUID next ≠ data.uuid ∧
        entry (nextUUID next) progress = some (blankUnlockData (nextUUID next)))

variable {data readable app} {progress : Progress}

theorem crashAtomic_iff_atomic : CrashAtomic data readable app ↔
    ∀ progress, storeFor readable app = some progress → Atomic app.file (campaignOutcome data app progress) := by
  refine forall_congr' fun progress => forall_congr' fun store => forall_congr' fun made => or_congr_right ?_
  rw [completedCampaignLevel_eq, store, Option.map_some]
  constructor
  · rintro ⟨finished, is, done, same⟩
    cases is
    rw [settle_progress] at done
    exact ⟨done, same.trans (settle_file _ _ _)⟩
  · rintro ⟨done, same⟩
    refine ⟨_, rfl, ?_, same.trans (settle_file _ _ _).symm⟩
    rw [settle_progress]
    exact done

theorem setProgressForUUID_eq_self_iff (data : LevelProgressData) (progress : Progress) :
    setProgressForUUID data progress = progress ↔ entry data.uuid progress = some data := by
  cases progress
  rw [setProgressForUUID, Progress.mk.injEq]
  exact KeyedList.put_eq_self_iff LevelProgressData.uuid data _

/-- Unlocking the next level changes nothing exactly if it is unlocked, with nothing to lose. -/
theorem unlock_eq_iff (completed : data.completed = true) (next : Option String) :
    setProgressForUUID (blankUnlockData next) (setProgressForUUID data progress) =
      setProgressForUUID data progress ↔
      next ≠ data.uuid ∧ entry next progress = some (blankUnlockData next) := by
  rw [setProgressForUUID_eq_self_iff, blankUnlockData_uuid]
  by_cases own : next = data.uuid
  · subst own
    rw [entry_set_self]
    refine iff_of_false (fun blank => ?_) fun other => other.1 rfl
    rw [Option.some.inj blank] at completed
    cases completed
  · rw [entry_set_other own, and_iff_right own]

theorem atomic_iff (completed : data.completed = true) :
    Atomic app.file (campaignOutcome data app progress) ↔ FirstSaveFine data app progress := by
  unfold campaignOutcome FirstSaveFine
  cases levels : app.allLevels with
  | none => simp [atomic_trapped_iff]
  | some allLevels =>
    simp only [recordCampaignLevel, Option.some.injEq, exists_eq_left']
    cases found : nextLevel allLevels data with
    | none => simp [atomic_trapped_iff]
    | some next => cases next with
      | none => simpa using atomic_noNext _
      | some next => simp [atomic_next_iff, unlock_eq_iff completed, nextUUID]

/-- A stop during the completion of a campaign level is harmless exactly if the
first save is fine. -/
theorem completion_crashAtomic_iff (completion : Completion) (readable : Bool) (app : App) :
    CrashAtomic completion.data readable app ↔
      ∀ progress, storeFor readable app = some progress → FirstSaveFine completion.data app progress :=
  crashAtomic_iff_atomic.trans
    (forall_congr' fun _ => forall_congr' fun _ => atomic_iff rfl)

/-- The first of two levels has been beaten, and the process stops after the first save. -/
theorem firstSave_found :
    storeFor true ⟨some freshStore.progress, some twoLevels, some freshStore.progress⟩ =
        some freshStore.progress ∧
      ¬ CrashAtomic (Completion.data ⟨some "a", 3, 0, 0⟩) true
        ⟨some freshStore.progress, some twoLevels, some freshStore.progress⟩ := by
  refine ⟨rfl, fun atomic => ?_⟩
  rcases atomic freshStore.progress rfl 1 with same | ⟨finished, done, _, same⟩
  · have completed := congrArg (Option.map fun progress => progress.progressData.map
      LevelProgressData.completed) same
    cases completed
  · cases done
    have length := congrArg (Option.map fun progress => progress.progressData.length) same
    cases length

end Call
end Arthius.Guarantees.CrashAtomicity
