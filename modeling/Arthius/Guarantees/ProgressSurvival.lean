import Arthius.Guarantees.AppSteps
import Arthius.Guarantees.ProgressFrame

/-!
# What a failed load does to the saved progress

Completions only ever add entries, so a file can lose one in a single way: a
launch that fails to read it goes on with a new store, and a later completion
saves that store over it. The invariant is that the store in memory has every
entry the file has; every launch that reads the file keeps it, and a launch that
does not keeps it only if the file has nothing beyond the entry the new store
starts with.
-/
namespace Arthius.Guarantees.ProgressSurvival
open Arthius.Lib Arthius.Source Arthius.Source.ProgressHandler Arthius.Guarantees.AppSteps
open Arthius.Guarantees.ProgressFrame (twoLevels)

/-- The progress file has the entry. -/
def FileHolds (app : App) (entry : LevelProgressData) : Prop :=
  ∃ file, app.file = some file ∧ entry ∈ file.progressData

/-- The entries that a completion puts into the store: that of its level, and the
blank one of the campaign level that it unlocks. -/
def puts {campaign : List LevelData} (app : App) : AppEvent campaign → List LevelProgressData
  | .completedLevel completion .. => [completion.data]
  | .completedCampaignLevel completion .. =>
    completion.data :: ((app.allLevels.bind fun allLevels => nextLevel allLevels completion.data).join.map
      fun next => blankUnlockData (next.levelMetadata.bind LevelMetadata.levelUUID)).toList
  | .launch .. | .removeFile => []

/-- The step condition. A launch that fails to read the file finds nothing in it
but the entry the new store starts with; and nothing removes the file. -/
def ReadsFile {campaign : List LevelData} (app : App) : AppEvent campaign → Prop
  | .launch enumerated readable => readable = false →
      ∀ entry, FileHolds app entry → entry ∈ (File.startingData enumerated.levels).progressData
  | .completedLevel .. | .completedCampaignLevel .. => True
  | .removeFile => False

section Replacing
variable (P : LevelProgressData → Prop)

/-- Every entry of one store is in the other, or an entry of its UUID that `P`
allows to take its place. -/
def Within (before after : List LevelProgressData) : Prop :=
  ∀ entry ∈ before, entry ∈ after ∨ ∃ newer ∈ after, newer.uuid = entry.uuid ∧ P newer

variable {P}

theorem Within.refl (entries : List LevelProgressData) : Within P entries entries :=
  fun _ held => .inl held

theorem Within.trans {a b c : List LevelProgressData} (first : Within P a b) (second : Within P b c) :
    Within P a c := by
  intro entry held
  rcases first entry held with kept | ⟨newer, inB, sameLevel, allowed⟩
  · exact second entry kept
  · rcases second newer inB with kept | ⟨newest, inC, sameAgain, allowedAgain⟩
    · exact .inr ⟨newer, kept, sameLevel, allowed⟩
    · exact .inr ⟨newest, inC, sameAgain.trans sameLevel, allowedAgain⟩

theorem within_set {data : LevelProgressData} (allowed : P data) (progress : Progress) :
    Within P progress.progressData (setProgressForUUID data progress).progressData := by
  intro entry held
  have new := KeyedList.mem_put_self LevelProgressData.uuid data progress.progressData
  exact (KeyedList.mem_put_or LevelProgressData.uuid data held).imp id
    fun same => ⟨data, new, same.symm, allowed⟩

variable (P)

/-- A completion saves stores that grow from the one it found, and leaves in
memory a store that has all of them. -/
structure Grows (before : Progress) (outcome : Outcome) : Prop where
  saves : ∀ saved ∈ outcome.saves, Within P before.progressData saved.progressData
  memory : ∀ after, outcome.progress = some after →
    Within P before.progressData after.progressData ∧
      ∀ saved ∈ outcome.saves, Within P saved.progressData after.progressData

variable {P}

theorem recordLevel_grows {data : LevelProgressData} (allowed : P data) (before : Progress) :
    Grows P before (recordLevel data before) := by
  have stored := within_set allowed before
  constructor
  · simpa [recordLevel] using stored
  · rintro _ ⟨⟩
    exact ⟨stored, by simpa [recordLevel] using Within.refl _⟩

theorem recordCampaignLevel_grows {allLevels : List LevelData} {data : LevelProgressData}
    (allowed : P data) (unlocks : ∀ next, nextLevel allLevels data = some (some next) →
      P (blankUnlockData (next.levelMetadata.bind LevelMetadata.levelUUID))) (before : Progress) :
    Grows P before (recordCampaignLevel allLevels data before) := by
  have stored := within_set allowed before
  unfold recordCampaignLevel
  split
  · exact ⟨by simpa using stored, by rintro _ ⟨⟩⟩
  · refine ⟨by simpa using stored, ?_⟩
    rintro _ ⟨⟩
    exact ⟨stored, by simpa using Within.refl _⟩
  · next next found =>
    have unlocked := within_set (unlocks next found) (setProgressForUUID data before)
    refine ⟨by simpa using ⟨stored, stored.trans unlocked⟩, ?_⟩
    rintro _ ⟨⟩
    exact ⟨stored.trans unlocked, by simpa using ⟨unlocked, Within.refl _⟩⟩

variable (P)

/-- The invariant: a store in memory has every entry of the file or its
replacement, and a process that has its campaign levels has a store. -/
structure Covered (app : App) : Prop where
  memory : ∀ progress file, app.progress = some progress → app.file = some file →
    Within P file.progressData progress.progressData
  loaded : app.allLevels.isSome → app.progress.isSome

/-- Nothing the file holds is missing from it later, but for what is replaced. -/
def Survives (before after : App) : Prop :=
  ∀ file, before.file = some file → ∃ later, after.file = some later ∧
    Within P file.progressData later.progressData

variable {P}

theorem Survives.refl (app : App) : Survives P app app := fun file is => ⟨file, is, Within.refl _⟩

theorem Survives.trans {a b c : App} (first : Survives P a b) (second : Survives P b c) :
    Survives P a c := by
  intro file isFile
  obtain ⟨later, isLater, kept⟩ := first file isFile
  obtain ⟨last, isLast, keptAgain⟩ := second later isLater
  exact ⟨last, isLast, kept.trans keptAgain⟩

/-- A completion that grows from a covering store leaves one, and a file that
has all the old one had. -/
theorem settle_covered {app : App} {progress : Progress} (present : app.progress = some progress)
    (covered : Covered P app) (written : Nat → Bool) {outcome : Outcome}
    (grows : Grows P progress outcome) :
    Covered P (app.settle written outcome) ∧ Survives P app (app.settle written outcome) := by
  refine ⟨⟨?_, ?_⟩, ?_⟩
  · intro after file left isFile
    rw [settle_progress] at left
    rw [settle_file] at isFile
    have memory := grows.memory after left
    rcases saveAll_cases app.file written outcome.saves with same | ⟨saved, member, same⟩
    · exact (covered.memory progress file present (same.symm.trans isFile)).trans memory.1
    · cases same.symm.trans isFile
      exact memory.2 file member
  · unfold App.settle
    cases outcome.progress with
    | none => simp
    | some after => exact fun _ => rfl
  · intro file isFile
    rcases saveAll_cases app.file written outcome.saves with same | ⟨saved, member, same⟩
    · exact ⟨file, by rw [settle_file, same, isFile], Within.refl _⟩
    · exact ⟨saved, by rw [settle_file, same],
        (covered.memory progress file present isFile).trans (grows.saves saved member)⟩

/-- Both completion handlers. -/
theorem completed_covered {record : Progress → Outcome} (grows : ∀ p, Grows P p (record p))
    {readable : Bool} {written : Nat → Bool} {attempts : Nat} {app after : App}
    (covered : Covered P app)
    (success : app.completed record readable written attempts = some after) :
    Covered P after ∧ Survives P app after := by
  rcases completed_cases covered.loaded success with ⟨_, rfl⟩ | ⟨progress, source, rfl⟩
  · exact ⟨covered, Survives.refl _⟩
  · have recording : Covered P { app with progress := some progress } := by
      refine ⟨?_, fun _ => rfl⟩
      rintro _ file ⟨⟩ isFile
      rcases source with present | onDisk
      · exact covered.memory progress file present isFile
      · cases onDisk.symm.trans isFile
        exact Within.refl _
    exact settle_covered rfl recording written (grows progress)

end Replacing

section Runs
variable {campaign : List LevelData} {P : LevelProgressData → Prop}

/-- One step that meets the condition, and puts only entries that `P` allows. -/
theorem step_covered (app : App) (e : AppEvent campaign) (after : App) (covered : Covered P app)
    (meets : ReadsFile app e ∧ ∀ entry ∈ puts app e, P entry)
    (success : (App.system campaign).step app e = some after) :
    Covered P after ∧ Survives P app after := by
  obtain ⟨reads, allowed⟩ := meets
  cases e with
  | launch enumerated readable =>
    obtain ⟨progress, rfl, source⟩ := launch_cases success
    refine ⟨⟨?_, fun _ => rfl⟩, Survives.refl app⟩
    rintro _ file ⟨⟩ isFile
    change app.file = some file at isFile
    rcases source with stored | ⟨unread | absent, rfl⟩
    · cases stored.symm.trans isFile
      exact Within.refl _
    · exact fun entry held => .inl (reads unread entry ⟨file, isFile, held⟩)
    · cases absent.symm.trans isFile
  | completedLevel completion readable written =>
    exact completed_covered (recordLevel_grows (allowed _ List.mem_cons_self)) covered success
  | completedCampaignLevel completion readable written =>
    have own := allowed _ List.mem_cons_self
    refine completed_covered (fun before => ?_) covered success
    cases levels : app.allLevels with
    | some allLevels =>
      refine recordCampaignLevel_grows own (fun next found => allowed _ (List.mem_cons_of_mem _ ?_)) before
      rw [levels, Option.bind_some, found]
      exact List.mem_singleton.mpr rfl
    | none => exact ⟨by simpa using within_set own before, by rintro _ ⟨⟩⟩
  | removeFile => exact reads.elim

/-- A run that meets the condition, from a state whose store covers the file. -/
theorem run_covered {events : List (AppEvent campaign)} {app after : App} (covered : Covered P app)
    (meets : (App.system campaign).Meets
      (fun s e => ReadsFile s e ∧ ∀ entry ∈ puts s e, P entry) app events)
    (success : (App.system campaign).run app events = some after) :
    Covered P after ∧ Survives P app after := by
  refine (App.system campaign).run_invariant_of_meets
    (I := fun s => Covered P s ∧ Survives P app s) ?_ ⟨covered, Survives.refl app⟩ meets success
  rintro s e s' ⟨covers, survives⟩ ok step
  obtain ⟨next, later⟩ := step_covered s e s' covers ok step
  exact ⟨next, survives.trans later⟩

/-- Some completion of the run puts the entry into the store. -/
def PutIn (start : App) (events : List (AppEvent campaign)) (entry : LevelProgressData) : Prop :=
  ∃ before e after app, events = before ++ e :: after ∧
    (App.system campaign).run start before = some app ∧ entry ∈ puts app e

theorem meets_putIn {start : App} {events : List (AppEvent campaign)}
    (reads : (App.system campaign).Meets ReadsFile start events) :
    (App.system campaign).Meets
      (fun s e => ReadsFile s e ∧ ∀ entry ∈ puts s e, PutIn start events entry) start events := by
  suffices general : ∀ before after s, events = before ++ after →
      (App.system campaign).run start before = some s →
      (App.system campaign).Meets ReadsFile s after → (App.system campaign).Meets
        (fun s e => ReadsFile s e ∧ ∀ entry ∈ puts s e, PutIn start events entry) s after from
    general [] events start rfl rfl reads
  intro before after
  induction after generalizing before with
  | nil => exact fun _ _ _ _ => trivial
  | cons e after ih =>
    intro s whole reached ⟨now, later⟩
    refine ⟨⟨now, fun entry put => ⟨before, e, after, s, whole, reached, put⟩⟩, fun s' step => ?_⟩
    have further : (App.system campaign).run start (before ++ [e]) = some s' :=
      (App.system campaign).run_append_some.mpr
        ⟨s, reached, (App.system campaign).run_cons_some.mpr ⟨s', step, rfl⟩⟩
    exact ih (before ++ [e]) s' (by rw [whole, List.append_assoc]; rfl) further (later s' step)

/-- A launch that fails to read a file with more in it, and then one level of
another UUID beaten and saved: the entry is gone from the file. -/
theorem unread_file_lost {app : App} {enumerated : Enumeration campaign}
    (unread : ¬ ReadsFile app (.launch enumerated false)) :
    ∃ entry, FileHolds app entry ∧ ∀ completion : Completion, entry.uuid ≠ completion.uuid →
      ∃ after, (App.system campaign).run app
          [.launch enumerated false, .completedLevel completion true fun _ => true] = some after ∧
        ¬ FileHolds after entry := by
  simp only [ReadsFile, not_forall] at unread
  obtain ⟨_, entry, held, missing⟩ := unread
  refine ⟨entry, held, fun completion other => ⟨_, rfl, ?_⟩⟩
  rintro ⟨file, isFile, inFile⟩
  cases isFile
  rcases KeyedList.mem_of_mem_put LevelProgressData.uuid inFile with rfl | before
  · exact other rfl
  · exact missing before

/-- From any progress file, over every run of launches and completions whose
launches meet the condition, an entry that the file holds in some state is in it
in every later one, or else an entry that a completion of the run put for the
same level. And a launch that fails to read the file and does not meet the
condition loses an entry of it as soon as any other level is beaten. -/
theorem saved_progress_survives (file : Progress) (events later : List (AppEvent campaign))
    (s t : App) (reads : (App.system campaign).Meets ReadsFile ⟨some file, none, none⟩ (events ++ later))
    (reached : (App.system campaign).run ⟨some file, none, none⟩ events = some s)
    (goes : (App.system campaign).run s later = some t) :
    (∀ entry, FileHolds s entry → FileHolds t entry ∨ ∃ newer, FileHolds t newer ∧
      newer.uuid = entry.uuid ∧ PutIn ⟨some file, none, none⟩ (events ++ later) newer) ∧
    ∀ (app : App) (enumerated : Enumeration campaign),
      ¬ ReadsFile app (.launch enumerated false) →
      ∃ entry, FileHolds app entry ∧ ∀ completion : Completion, entry.uuid ≠ completion.uuid →
        ∃ after, (App.system campaign).run app
            [.launch enumerated false, .completedLevel completion true fun _ => true] = some after ∧
          ¬ FileHolds after entry := by
  obtain ⟨first, second⟩ := ((App.system campaign).meets_append reached).mp (meets_putIn reads)
  have start : Covered (PutIn ⟨some file, none, none⟩ (events ++ later)) ⟨some file, none, none⟩ :=
    ⟨by simp, by simp⟩
  have survives := (run_covered (run_covered start first reached).1 second goes).2
  refine ⟨fun entry ⟨held, isFile, inFile⟩ => ?_, fun app enumerated unread => unread_file_lost unread⟩
  obtain ⟨after, isAfter, within⟩ := survives held isFile
  rcases within entry inFile with kept | ⟨newer, there, sameLevel, put⟩
  · exact .inl ⟨after, isAfter, kept⟩
  · exact .inr ⟨newer, ⟨after, isAfter, there⟩, sameLevel, put⟩

end Runs

def beaten (uuid : String) : LevelProgressData := Completion.data ⟨some uuid, 3, 0, 0⟩

/-- The file of a player who has beaten both levels. -/
def bothBeaten : Progress := ⟨[beaten "a", beaten "b"]⟩

theorem bothBeaten_holds : FileHolds ⟨some bothBeaten, none, none⟩ (beaten "b") :=
  ⟨bothBeaten, rfl, List.mem_cons_of_mem _ List.mem_cons_self⟩

theorem twoLevels_listed : twoLevels = [] ∨ twoLevels.Perm twoLevels := .inr (.refl _)

def launchListed (readable : Bool) : AppEvent twoLevels := .launch ⟨twoLevels, twoLevels_listed⟩ readable

/-- A level of the player's own is beaten, and both saves are written. -/
def beatOwn : AppEvent twoLevels := .completedLevel ⟨some "own", 1, 0, 0⟩ true fun _ => true

theorem readable_survives :
    ∃ t, (App.system twoLevels).run ⟨some bothBeaten, none, none⟩ [launchListed true, beatOwn] =
      some t ∧ (FileHolds t (beaten "b") ∨ ∃ newer, FileHolds t newer ∧ newer.uuid = some "b" ∧
        PutIn ⟨some bothBeaten, none, none⟩ [launchListed true, beatOwn] newer) := by
  have reads : (App.system twoLevels).Meets ReadsFile ⟨some bothBeaten, none, none⟩
      ([] ++ [launchListed true, beatOwn]) :=
    ⟨fun unread => (by cases unread), fun _ _ => ⟨trivial, fun _ _ => trivial⟩⟩
  exact ⟨_, rfl, (saved_progress_survives bothBeaten [] [launchListed true, beatOwn] _ _ reads rfl rfl).1
    _ bothBeaten_holds⟩

/-- The same run when the launch fails to read the file: no entry of level b is
left, and that of level a is blank. -/
theorem unreadable_loses_b :
    ∃ t file, (App.system twoLevels).run ⟨some bothBeaten, none, none⟩ [launchListed false, beatOwn] =
      some t ∧ FileHolds ⟨some bothBeaten, none, none⟩ (beaten "b") ∧ t.file = some file ∧
      file.progressData = [blankUnlockData (some "a"), Completion.data ⟨some "own", 1, 0, 0⟩] ∧
      ¬ FileHolds t (beaten "b") := by
  refine ⟨_, _, rfl, bothBeaten_holds, rfl, rfl, ?_⟩
  rintro ⟨file, isFile, inFile⟩
  cases isFile
  have uuids : LevelProgressData.uuid (beaten "b") ∈ _ := List.mem_map_of_mem inFile
  change some "b" ∈ [some "a", some "own"] at uuids
  exact absurd uuids (by decide)

end Arthius.Guarantees.ProgressSurvival
