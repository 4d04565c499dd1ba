import Arthius.Guarantees.AppSteps
import Arthius.Guarantees.ProgressFrame

/-!
# The first campaign level is unlocked

Only the error path of `loadProgress` unlocks a first level, the one the
directory happens to list first, and every later launch trusts the saved file.
The invariant below ties the store in memory and the file to the campaign's
smallest-numbered level; it survives every launch and completion except a launch
that starts the store with another level, and a completion recorded into the
empty store of a launch that found neither a file nor a campaign.
-/
namespace Arthius.Guarantees.CampaignPlayable
open Arthius.Lib Arthius.Source Arthius.Source.ProgressHandler
open Arthius.Guarantees.AppSteps Arthius.Guarantees.ProgressFrame

/-- A level of the list with the smallest `levelNumber`. -/
def IsFirst (levels : List LevelData) (level : LevelData) : Prop :=
  level ∈ levels ∧ ∃ metadata, level.levelMetadata = some metadata ∧
    ∀ other ∈ levels, ∀ m, other.levelMetadata = some m → metadata.levelNumber ≤ m.levelNumber

def Unlocked (level : LevelData) (progress : Progress) : Prop :=
  ∃ e, entry (nextUUID level) progress = some e ∧ e.locked = false

/-- After `ProgressHandler.load`: with campaign levels, the first is unlocked. -/
def FirstUnlocked (app : App) : Prop :=
  ∀ levels, app.allLevels = some levels → ∀ first, IsFirst levels first →
    ∃ progress, app.progress = some progress ∧ Unlocked first progress

/-- The step condition. A launch that cannot load the file enumerates a first
level of the campaign first, and no completion is recorded into the empty store. -/
def StartsCampaign {campaign : List LevelData} (app : App) : AppEvent campaign → Prop
  | .launch enumerated readable => (readable = false ∨ app.file = none) →
      ∀ first, IsFirst enumerated.levels first →
        enumerated.levels.head?.map nextUUID = some (nextUUID first)
  | .completedLevel .. | .completedCampaignLevel .. =>
      ∀ progress, app.progress = some progress → progress.progressData ≠ []
  | .removeFile => True

theorem IsFirst.perm {levels levels' : List LevelData} (same : levels.Perm levels')
    {level : LevelData} (first : IsFirst levels level) : IsFirst levels' level := by
  obtain ⟨member, metadata, found, least⟩ := first
  exact ⟨same.mem_iff.mp member, metadata, found,
    fun other listed => least other (same.mem_iff.mpr listed)⟩

/-- Storing an unlocked entry, whosever it is, locks nothing. -/
theorem Unlocked.set {level : LevelData} {progress : Progress} (unlocked : Unlocked level progress)
    {data : LevelProgressData} (open_ : data.locked = false) :
    Unlocked level (setProgressForUUID data progress) := by
  by_cases own : nextUUID level = data.uuid
  · exact ⟨data, own ▸ entry_set_self data progress, open_⟩
  · obtain ⟨e, present, free⟩ := unlocked
    exact ⟨e, (entry_set_other own progress).trans present, free⟩

/-- The store with which a launch starts when it lists this level first. -/
theorem unlocked_blank {listed first : LevelData} (same : nextUUID listed = nextUUID first) :
    Unlocked first ⟨[blankUnlockData (nextUUID listed)]⟩ := by
  refine ⟨blankUnlockData (nextUUID listed), ?_, rfl⟩
  simp [entry, getCurrentProgressForUUID, KeyedList.get_cons, same]

section Invariant
variable {campaign : List LevelData}

/-- Every first level of the campaign is unlocked in the store. -/
def Good (campaign : List LevelData) (progress : Progress) : Prop :=
  ∀ first, IsFirst campaign first → Unlocked first progress

theorem Good.set {progress : Progress} (good : Good campaign progress) (data : LevelProgressData)
    (open_ : data.locked = false) : Good campaign (setProgressForUUID data progress) :=
  fun first least => (good first least).set open_

/-- A completion on a good store saves and leaves only good stores. -/
def GoodOutcome (campaign : List LevelData) (outcome : Outcome) : Prop :=
  (∀ saved ∈ outcome.saves, Good campaign saved) ∧
    ∀ progress, outcome.progress = some progress → Good campaign progress

theorem recordLevel_good {progress : Progress} (good : Good campaign progress)
    (completion : Completion) : GoodOutcome campaign (recordLevel completion.data progress) := by
  have stored := good.set completion.data rfl
  constructor
  · intro saved member
    have same : saved = setProgressForUUID completion.data progress := by
      simpa [recordLevel] using member
    exact same ▸ stored
  · rintro _ ⟨⟩
    exact stored

theorem recordCampaignLevel_good {progress : Progress} (good : Good campaign progress)
    (allLevels : List LevelData) (completion : Completion) :
    GoodOutcome campaign (recordCampaignLevel allLevels completion.data progress) := by
  have stored := good.set completion.data rfl
  unfold recordCampaignLevel
  split
  · exact ⟨by simpa using stored, by rintro _ ⟨⟩⟩
  · exact ⟨by simpa using stored, by rintro _ ⟨⟩; exact stored⟩
  · next next found =>
    have unlocked := stored.set (blankUnlockData (nextUUID next)) rfl
    exact ⟨by simpa using ⟨stored, unlocked⟩, by rintro _ ⟨⟩; exact unlocked⟩

/-- Whatever subset of good saves reaches the disk, the file stays good. -/
theorem saveAll_good {saves : List Progress} (good : ∀ saved ∈ saves, Good campaign saved)
    {file : Option Progress} (before : ∀ p, file = some p → Good campaign p) (written : Nat → Bool) :
    ∀ p, File.saveAll file written saves = some p → Good campaign p := by
  intro p stored
  rcases saveAll_cases file written saves with same | ⟨saved, member, same⟩
  · exact before p (same.symm.trans stored)
  · rw [same, Option.some.injEq] at stored
    exact stored ▸ good saved member

/-- The invariant of the installed app. The store in memory may be the empty one
of a launch that found neither a file nor a campaign. -/
structure Playable (campaign : List LevelData) (app : App) : Prop where
  file : ∀ p, app.file = some p → Good campaign p
  memory : ∀ p, app.progress = some p →
    Good campaign p ∨ (p.progressData = [] ∧ app.allLevels = some [])
  enumerated : ∀ levels, app.allLevels = some levels → levels = [] ∨ levels.Perm campaign
  loaded : app.allLevels.isSome → app.progress.isSome

theorem Playable.firstUnlocked {app : App} (playable : Playable campaign app) :
    FirstUnlocked app := by
  intro levels present first least
  have loaded := playable.loaded (by rw [present]; rfl)
  obtain ⟨progress, stored⟩ := Option.isSome_iff_exists.mp loaded
  refine ⟨progress, stored, ?_⟩
  have listed : levels ≠ [] := List.ne_nil_of_mem least.1
  rcases playable.memory progress stored with good | ⟨_, none_present⟩
  · rcases playable.enumerated levels present with empty | same
    · exact absurd empty listed
    · exact good first (least.perm same)
  · rw [present, Option.some.injEq] at none_present
    exact absurd none_present listed

theorem settle_playable {app : App} (playable : Playable campaign app) (written : Nat → Bool)
    {outcome : Outcome} (good : GoodOutcome campaign outcome) :
    Playable campaign (app.settle written outcome) := by
  have saved := saveAll_good good.1 playable.file written
  unfold App.settle
  cases finished : outcome.progress with
  | none => exact ⟨saved, by simp, by simp, by simp⟩
  | some progress =>
    refine ⟨saved, ?_, playable.enumerated, fun _ => rfl⟩
    rintro _ ⟨⟩
    exact .inl (good.2 progress finished)

/-- The store that a launch starts is good when its first level is listed first,
or empty for want of campaign levels. -/
theorem startingData_good {levels : List LevelData} (listed : levels = [] ∨ levels.Perm campaign)
    (starts : ∀ first, IsFirst levels first → levels.head?.map nextUUID = some (nextUUID first)) :
    Good campaign (File.startingData levels) ∨
      ((File.startingData levels).progressData = [] ∧ levels = []) := by
  cases levels with
  | nil => exact .inr ⟨rfl, rfl⟩
  | cons head rest =>
    left
    intro first least
    have perm : (head :: rest).Perm campaign := listed.resolve_left (List.cons_ne_nil _ _)
    exact unlocked_blank (Option.some.inj (starts first (least.perm perm.symm)))

/-- Both completion handlers, with their retry loop: the invariant survives
unless they record into the empty store. -/
theorem completed_playable {record : Progress → Outcome}
    (keeps : ∀ p, Good campaign p → GoodOutcome campaign (record p)) {readable : Bool}
    {written : Nat → Bool} {attempts : Nat} {app after : App} (playable : Playable campaign app)
    (nonempty : ∀ p, app.progress = some p → p.progressData ≠ [])
    (success : app.completed record readable written attempts = some after) :
    Playable campaign after := by
  rcases completed_cases playable.loaded success with ⟨_, rfl⟩ | ⟨progress, source, rfl⟩
  · exact playable
  · have good : Good campaign progress := by
      rcases source with present | onDisk
      · rcases playable.memory progress present with good | ⟨empty, _⟩
        · exact good
        · exact absurd empty (nonempty progress present)
      · exact playable.file progress onDisk
    have recording : Playable campaign { app with progress := some progress } := by
      refine ⟨playable.file, ?_, playable.enumerated, fun _ => rfl⟩
      rintro _ ⟨⟩
      exact .inl good
    exact settle_playable recording written (keeps progress good)

theorem step_playable (app : App) (e : AppEvent campaign) (after : App)
    (playable : Playable campaign app) (starts : StartsCampaign app e)
    (success : (App.system campaign).step app e = some after) : Playable campaign after := by
  cases e with
  | launch enumerated readable =>
    obtain ⟨progress, rfl, source⟩ := launch_cases success
    have listed : ∀ levels, some enumerated.levels = some levels → levels = [] ∨ levels.Perm campaign := by
      rintro _ ⟨⟩
      exact enumerated.complete
    refine ⟨playable.file, ?_, listed, fun _ => rfl⟩
    rintro _ ⟨⟩
    rcases source with onDisk | ⟨missing, rfl⟩
    · exact .inl (playable.file progress onDisk)
    · rcases startingData_good enumerated.complete (starts missing) with good | ⟨empty, none_listed⟩
      · exact .inl good
      · exact .inr ⟨empty, congrArg some none_listed⟩
  | completedLevel completion readable written =>
    exact completed_playable (fun p good => recordLevel_good good completion) playable starts success
  | completedCampaignLevel completion readable written =>
    refine completed_playable (fun p good => ?_) playable starts success
    cases app.allLevels with
    | some allLevels => exact recordCampaignLevel_good good allLevels completion
    | none =>
      have stored := good.set completion.data rfl
      exact ⟨by simpa using stored, by rintro _ ⟨⟩⟩
  | removeFile =>
    cases success
    exact ⟨by simp, playable.memory, playable.enumerated, playable.loaded⟩

theorem installed_playable : Playable campaign App.installed :=
  ⟨by simp [App.installed], by simp [App.installed], by simp [App.installed], by simp [App.installed]⟩

end Invariant

/-- From a fresh installation, over every run of launches, completions and
restarts whose steps meet the condition, the smallest-numbered campaign level
is unlocked in every state in which campaign levels are loaded. -/
theorem campaign_playable (campaign : List LevelData) (events : List (AppEvent campaign)) (t : App)
    (starts : (App.system campaign).Meets StartsCampaign App.installed events)
    (success : (App.system campaign).run App.installed events = some t) : FirstUnlocked t :=
  ((App.system campaign).run_invariant_of_meets step_playable installed_playable starts
    success).firstUnlocked

/-- Launched with the campaign listed in order, then level 1 beaten. -/
def listedInOrder : List (AppEvent twoLevels) :=
  [.launch ⟨twoLevels, .inr (.refl _)⟩ true,
   .completedCampaignLevel ⟨some "a", 3, 0, 0⟩ true fun _ => true]

theorem listedInOrder_playable :
    ∃ t, (App.system twoLevels).run App.installed listedInOrder = some t ∧ FirstUnlocked t := by
  refine ⟨_, rfl, campaign_playable twoLevels listedInOrder _ ?_ rfl⟩
  refine ⟨fun _ first least => ?_, fun s launched => ⟨?_, fun _ _ => trivial⟩⟩
  · obtain ⟨member, metadata, found, smallest⟩ := least
    have bound := smallest (twoLevels.head (List.cons_ne_nil _ _)) (List.mem_cons_self ..) _ rfl
    rcases List.mem_cons.mp member with rfl | later
    · rfl
    · obtain rfl := List.mem_singleton.mp later
      cases found
      exact absurd bound (by decide)
  · cases launched
    rintro _ ⟨⟩
    exact List.cons_ne_nil _ _

/-- The directory lists level 2 before level 1 at the first launch. -/
def listedBackwards : List (AppEvent twoLevels) :=
  [.launch ⟨twoLevels.reverse, .inr twoLevels.reverse_perm⟩ true]

/-- Level 2 is then the level unlocked, and level 1 has no entry. -/
theorem listedBackwards_locks_first :
    ∃ t, (App.system twoLevels).run App.installed listedBackwards = some t ∧
      t.allLevels = some twoLevels.reverse ∧ ¬ FirstUnlocked t := by
  refine ⟨_, rfl, rfl, fun unlocked => ?_⟩
  have first : IsFirst twoLevels.reverse (twoLevels.head (List.cons_ne_nil _ _)) := by
    refine ⟨by simp [twoLevels], _, rfl, ?_⟩
    intro other listed m found
    have cases' : other = twoLevels.head (List.cons_ne_nil _ _) ∨ other ∈ twoLevels.tail := by
      simpa [twoLevels, or_comm] using listed
    rcases cases' with rfl | later
    · cases found
      exact le_refl _
    · obtain rfl := List.mem_singleton.mp later
      cases found
      decide
  obtain ⟨progress, stored, e, present, _⟩ := unlocked _ rfl _ first
  cases stored
  cases present

end Arthius.Guarantees.CampaignPlayable
