import Arthius.Source.ProgressHandler

/-!
# What a step does to the store and the file

One lemma for each operation of the installed app: what a load returns, which
saves reach the disk, and what a completion leaves behind, with or without a
store in memory. The guarantees about progress read the steps off these.
-/
namespace Arthius.Guarantees.AppSteps
open Arthius.Lib Arthius.Source Arthius.Source.ProgressHandler

/-- What a load returns: the file, or a new store where there is none to read. -/
theorem loadProgress_cases {readable : Bool} {app : App} {progress : Progress}
    (loaded : File.loadProgress readable app = some progress) :
    app.file = some progress ∨ ((readable = false ∨ app.file = none) ∧
      ∃ levels, app.allLevels = some levels ∧ progress = File.startingData levels) := by
  cases readable with
  | false =>
    obtain ⟨levels, present, same⟩ := Option.map_eq_some_iff.mp loaded
    exact .inr ⟨.inl rfl, levels, present, same.symm⟩
  | true =>
    cases stored : app.file with
    | some file => exact .inl (by simpa [File.loadProgress, stored] using loaded)
    | none =>
      simp only [File.loadProgress, stored] at loaded
      obtain ⟨levels, present, same⟩ := Option.map_eq_some_iff.mp loaded
      exact .inr ⟨.inr rfl, levels, present, same.symm⟩

/-- A launch finds the file, or starts a new store from the levels listed. -/
theorem launch_cases {enumerated : List LevelData} {readable : Bool} {app after : App}
    (success : app.launch enumerated readable = some after) :
    ∃ progress, after = ⟨app.file, some enumerated, some progress⟩ ∧
      (app.file = some progress ∨
        ((readable = false ∨ app.file = none) ∧ progress = File.startingData enumerated)) := by
  obtain ⟨progress, loaded, same⟩ := Option.bind_eq_some_iff.mp success
  cases same
  refine ⟨progress, rfl, ?_⟩
  rcases loadProgress_cases loaded with stored | ⟨missing, levels, present, rfl⟩
  · exact .inl stored
  · cases present
    exact .inr ⟨missing, rfl⟩

/-- After any sequence of saves, written or not, the file is the one there was
or one of those saved. -/
theorem saveAll_cases (file : Option Progress) (written : Nat → Bool) (saves : List Progress) :
    File.saveAll file written saves = file ∨
      ∃ saved ∈ saves, File.saveAll file written saves = some saved := by
  induction saves generalizing file written with
  | nil => exact .inl rfl
  | cons first rest ih =>
    rcases ih (if written 0 then some first else file) (fun i => written (i + 1)) with same | later
    · cases reached : written 0 with
      | false => exact .inl (by simpa [File.saveAll, reached] using same)
      | true =>
        exact .inr ⟨first, List.mem_cons_self .., by simpa [File.saveAll, reached] using same⟩
    · obtain ⟨saved, member, same⟩ := later
      exact .inr ⟨saved, List.mem_cons_of_mem _ member, same⟩

@[simp] theorem settle_file (app : App) (written : Nat → Bool) (outcome : Outcome) :
    (app.settle written outcome).file = File.saveAll app.file written outcome.saves := by
  unfold App.settle
  cases outcome.progress <;> rfl

@[simp] theorem settle_progress (app : App) (written : Nat → Bool) (outcome : Outcome) :
    (app.settle written outcome).progress = outcome.progress := by
  unfold App.settle
  cases outcome.progress <;> rfl

/-- What a completion does: with no store in memory it loads one first, gives up
where that loop is exhausted, and otherwise records into the store. A process
without a store has no campaign levels to start one from, so what it loads is the
file. -/
theorem completed_cases {record : Progress → Outcome} {readable : Bool} {written : Nat → Bool}
    {attempts : Nat} {app after : App} (loaded : app.allLevels.isSome → app.progress.isSome)
    (success : app.completed record readable written attempts = some after) :
    (app.progress = none ∧ after = app) ∨
    ∃ progress, (app.progress = some progress ∨ app.file = some progress) ∧
      after = App.settle { app with progress := some progress } written (record progress) := by
  unfold App.completed at success
  cases stored : app.progress with
  | some progress =>
    simp only [stored, Option.some.injEq] at success
    refine .inr ⟨progress, .inl rfl, ?_⟩
    rw [← success, ← stored]
  | none =>
    cases attempts with
    | zero =>
      simp only [stored, Option.some.injEq] at success
      exact .inl ⟨rfl, success.symm⟩
    | succ attempts =>
      simp only [stored] at success
      obtain ⟨reloaded, load, retry⟩ := Option.bind_eq_some_iff.mp success
      obtain ⟨progress, read, same⟩ := Option.bind_eq_some_iff.mp load
      cases same
      have onDisk : app.file = some progress := by
        rcases loadProgress_cases read with onDisk | ⟨_, levels, present, _⟩
        · exact onDisk
        · rw [present, stored] at loaded
          cases loaded rfl
      unfold App.completed at retry
      simp only [Option.some.injEq] at retry
      exact .inr ⟨progress, .inr onDisk, retry.symm⟩

end Arthius.Guarantees.AppSteps
