import Arthius.Guarantees.WinCondition
import Arthius.Source.LevelViews

/-!
# Previews and the progress

A thumbnail is a whole `LevelView`: its display link asks whether the level is
beaten, and a level without lines is. The store is left alone as long as every
level that is previewed has a line.
-/
namespace Arthius.Guarantees.PreviewProgress
open Arthius.Lib Arthius.Source PredictionFrame WinCondition

noncomputable section

/-- Only a view that `ViewController` built for `.LevelPlay` has called `ProgressHandler`. -/
def OnlyPlayed (s : LevelViews) : Prop :=
  ∀ caller ∈ s.calls, ∃ campaignLevel, caller = .viewController campaignLevel

def Preview (owner : LevelViewOwner) : Prop := ∀ campaignLevel, owner ≠ .viewController campaignLevel

/-- The level of a preview that is updated has a line. -/
def HasLines (s : LevelViews) : LevelViewsEvent → Prop
  | .update i _ _ => ∀ view ∈ s.views[i]?, Preview view.owner → view.run.level.lineData ≠ []
  | _ => True

/-- An update of a view that `ViewController` built. -/
def UpdatesPlayed (s : LevelViews) : LevelViewsEvent → Prop
  | .update i _ _ => ∃ view ∈ s.views[i]?, ¬ Preview view.owner
  | _ => False

section Lines
variable {fuel : ℕ} {run run' : LevelRun}

/-- A view has a line for each line of its level. -/
def Counted (run : LevelRun) : Prop := run.view.lines.length = run.level.lineData.length

theorem setupLines_length {screen : Screen} {uuidString : ℕ → String} {i : ℕ} {data : List LineData}
    {lines : List Line} (success : setupLines screen uuidString i data = some lines) :
    lines.length = data.length := by
  induction data generalizing i lines with
  | nil =>
    cases success
    rfl
  | cons first rest ih =>
    obtain ⟨_, others, _, later, rfl⟩ := PredictionFreshness.setupLines_cons success
    rw [List.length_cons, List.length_cons, ih later]

theorem init_counted {screen : Screen} {uuidString : ℕ → String} {level : LevelData}
    (built : LevelRun.init fuel screen uuidString level = some run) : Counted run := by
  obtain ⟨_, _, built⟩ := Option.bind_eq_some_iff.mp built
  obtain ⟨endPoints, _, built⟩ := Option.bind_eq_some_iff.mp built
  obtain ⟨view, viewed, built⟩ := Option.bind_eq_some_iff.mp built
  cases built
  obtain ⟨_, _, lines, setup, same⟩ := PredictionFreshness.init_effects viewed
  have length := congrArg List.length same
  rw [List.length_map, List.length_map, setupLines_length setup] at length
  exact length

theorem gesture_counted {gesture : LevelView.Gesture} (counted : Counted run)
    (success : run.gesture fuel gesture = some run') : Counted run' := by
  obtain ⟨view, moved, success⟩ := Option.bind_eq_some_iff.mp success
  cases success
  obtain ⟨predicts, still⟩ := step_predicted moved
  by_cases predicted : run.view.predicts gesture
  · have length := congrArg List.length (predicts predicted).sameLines
    rw [List.length_map, List.length_map] at length
    exact length.trans counted
  · change view.lines.length = _
    rw [still predicted]
    exact counted

theorem pressPlayReset_counted (counted : Counted run) : Counted run.pressPlayReset := by
  unfold LevelRun.pressPlayReset
  split_ifs
  · exact counted
  · exact (List.length_map _).trans counted

theorem update_counted (counted : Counted run) : Counted run.update := by
  rw [update_eq]
  split_ifs <;> exact counted

theorem update_waits (waits : run.finishes = false) : run.update = run := by
  rw [update_eq, waits]
  rfl

theorem Counted.lines_iff (counted : Counted run) : run.view.lines = [] ↔ run.level.lineData = [] := by
  rw [← List.length_eq_zero_iff, counted, List.length_eq_zero_iff]

end Lines

section Steps
variable {fuel : ℕ} {screen : Screen} {s s' : LevelViews} {event : LevelViewsEvent}

/-- A view that replaces another one, in which the level goes on. -/
structure Replaces (run run' : LevelRun) : Prop where
  counted : Counted run → Counted run'
  going : Going run → Going run'

theorem gesture_replaces {run run' : LevelRun} {gesture : LevelView.Gesture}
    (success : run.gesture fuel gesture = some run') : Replaces run run' where
  counted := fun counted => gesture_counted counted success
  going := by
    intro going
    have taken : (LevelRun.events fuel).step run (.gesture gesture) = some run' := success
    have free : BeatsRightly run (.gesture gesture) := trivial
    exact going.step free taken

theorem pressPlayReset_replaces (run : LevelRun) : Replaces run run.pressPlayReset where
  counted := pressPlayReset_counted
  going := by
    intro going
    have taken : (LevelRun.events 0).step run .pressPlayReset = some run.pressPlayReset := rfl
    have free : BeatsRightly run .pressPlayReset := trivial
    exact going.step free taken

/-- What a step does: a view is built, a view goes on, or the update of a level
that is beaten makes a call. -/
inductive Effect (s s' : LevelViews) : LevelViewsEvent → Prop where
  | built (owner : LevelViewOwner) (uuidString : ℕ → String) (level : LevelData) (run : LevelRun)
      (counted : Counted run) (going : Going run) (is : s' = { s with views := s.views ++ [⟨owner, run⟩] }) :
      Effect s s' (.build owner uuidString level)
  | gestured (i : ℕ) (gesture : LevelView.Gesture) (view : OwnedLevelView) (run : LevelRun)
      (found : s.views[i]? = some view) (replaces : Replaces view.run run)
      (is : s' = { s with views := s.views.set i { view with run := run } }) : Effect s s' (.gesture i gesture)
  | reset (i : ℕ) (view : OwnedLevelView) (run : LevelRun) (found : s.views[i]? = some view)
      (replaces : Replaces view.run run) (is : s' = { s with views := s.views.set i { view with run := run } }) :
      Effect s s' (.pressPlayReset i)
  | waited (i : ℕ) (readable : Bool) (written : ℕ → Bool) (view : OwnedLevelView)
      (found : s.views[i]? = some view) (waits : view.run.finishes = false)
      (is : s' = { s with views := s.views.set i view }) : Effect s s' (.update i readable written)
  | called (i : ℕ) (readable : Bool) (written : ℕ → Bool) (view : OwnedLevelView)
      (found : s.views[i]? = some view) (finishes : view.run.finishes = true)
      (calls : s'.calls = s.calls ++ [view.owner])
      (views : ∀ other ∈ s'.views, other ∈ s.views.set i { view with run := view.run.update }) :
      Effect s s' (.update i readable written)

theorem didBeatLevel_calls {view : OwnedLevelView} {readable : Bool} {written : ℕ → Bool}
    (success : s.didBeatLevel view readable written = some s') :
    s'.calls = s.calls ++ [view.owner] ∧ ∀ other ∈ s'.views, other ∈ s.views := by
  obtain ⟨data, _, success⟩ := Option.bind_eq_some_iff.mp success
  dsimp only at success
  split at success
  · cases success
    refine ⟨rfl, fun other member => ?_⟩
    dsimp only at member
    split_ifs at member
    · exact member
    · exact absurd member List.not_mem_nil
  · cases success
    exact ⟨rfl, fun other member => absurd member List.not_mem_nil⟩

theorem step_effect (taken : s.step fuel screen event = some s') : Effect s s' event := by
  cases event with
  | build owner uuidString level =>
    obtain ⟨run, init, taken⟩ := Option.bind_eq_some_iff.mp taken
    obtain ⟨_, is⟩ := Option.ite_none_right_eq_some.mp taken
    exact .built owner uuidString level run (init_counted init) (init_going init).2 (Option.some.inj is).symm
  | gesture i gesture =>
    obtain ⟨view, found, taken⟩ := Option.bind_eq_some_iff.mp taken
    obtain ⟨run, success, is⟩ := Option.bind_eq_some_iff.mp taken
    exact .gestured i gesture view run found (gesture_replaces success) (Option.some.inj is).symm
  | pressPlayReset i =>
    obtain ⟨view, found, is⟩ := Option.bind_eq_some_iff.mp taken
    exact .reset i view _ found (pressPlayReset_replaces view.run) (Option.some.inj is).symm
  | update i readable written =>
    obtain ⟨view, found, taken⟩ := Option.bind_eq_some_iff.mp taken
    dsimp only at taken
    split_ifs at taken with finishes
    · obtain ⟨calls, views⟩ := didBeatLevel_calls taken
      exact .called i readable written view found finishes calls views
    · have waits := Bool.eq_false_iff.mpr finishes
      rw [update_waits waits] at taken
      exact .waited i readable written view found waits (Option.some.inj taken).symm

/-- What holds of every view: its lines are counted, and while only played levels
have been beaten, a preview is not. -/
def Watched (s : LevelViews) : Prop :=
  ∀ view ∈ s.views, Counted view.run ∧ (OnlyPlayed s → Preview view.owner → Going view.run)

theorem Replaces.watched {i : ℕ} {view : OwnedLevelView} {run : LevelRun} (watched : Watched s)
    (found : s.views[i]? = some view) (replaces : Replaces view.run run) :
    Watched { s with views := s.views.set i { view with run := run } } := by
  obtain ⟨counted, going⟩ := watched view (List.mem_of_getElem? found)
  intro other member
  rcases List.mem_or_eq_of_mem_set member with before | rfl
  · exact watched other before
  · exact ⟨replaces.counted counted, fun only preview => replaces.going (going only preview)⟩

theorem not_preview {owner : LevelViewOwner} : ¬ Preview owner ↔
    ∃ campaignLevel, owner = .viewController campaignLevel := by
  unfold Preview
  simp only [ne_eq, not_forall, not_not]

theorem Effect.watched (effect : Effect s s' event) (watched : Watched s) : Watched s' := by
  cases effect with
  | built owner uuidString level run counted going is =>
    subst is
    intro view member
    rcases List.mem_append.mp member with before | new
    · exact watched view before
    · rw [List.mem_singleton.mp new]
      exact ⟨counted, fun _ _ => going⟩
  | gestured i gesture view run found replaces is => exact is ▸ replaces.watched watched found
  | reset i view run found replaces is => exact is ▸ replaces.watched watched found
  | waited i readable written view found waits is =>
    have same : Replaces view.run view.run := ⟨id, id⟩
    exact is ▸ same.watched watched found
  | called i readable written view found finishes calls views =>
    intro other member
    have owners : OnlyPlayed s' → OnlyPlayed s ∧ ¬ Preview view.owner := by
      intro only
      unfold OnlyPlayed at only
      rw [calls, List.forall_mem_append, List.forall_mem_singleton] at only
      exact ⟨only.1, not_preview.mpr only.2⟩
    rcases List.mem_or_eq_of_mem_set (views other member) with before | rfl
    · obtain ⟨counted, going⟩ := watched other before
      exact ⟨counted, fun only => going (owners only).1⟩
    · obtain ⟨counted, _⟩ := watched view (List.mem_of_getElem? found)
      exact ⟨update_counted counted, fun only preview => absurd preview (owners only).2⟩

/-- A step leaves the calls to the played views exactly when it updates no
preview of a level without lines. -/
theorem Effect.onlyPlayed_iff (effect : Effect s s' event) (watched : Watched s) (only : OnlyPlayed s) :
    OnlyPlayed s' ↔ HasLines s event := by
  cases effect with
  | built owner uuidString level run counted going is => exact iff_of_true (is ▸ only) trivial
  | gestured i gesture view run found replaces is => exact iff_of_true (is ▸ only) trivial
  | reset i view run found replaces is => exact iff_of_true (is ▸ only) trivial
  | waited i readable written view found waits is =>
    refine iff_of_true (is ▸ only) fun other foundOther preview empty => ?_
    obtain rfl := Option.some.inj (found.symm.trans foundOther)
    obtain ⟨counted, going⟩ := watched view (List.mem_of_getElem? found)
    have finishes := (going only preview).finishes_iff.mpr (counted.lines_iff.mpr empty)
    exact Bool.false_ne_true (waits.symm.trans finishes)
  | called i readable written view found finishes calls views =>
    obtain ⟨counted, going⟩ := watched view (List.mem_of_getElem? found)
    unfold OnlyPlayed
    rw [calls, List.forall_mem_append, List.forall_mem_singleton, ← not_preview]
    constructor
    · intro after other foundOther preview
      obtain rfl := Option.some.inj (found.symm.trans foundOther)
      exact absurd preview after.2
    · intro hasLines
      refine ⟨only, fun preview => hasLines view found preview ?_⟩
      exact counted.lines_iff.mp ((going only preview).finishes_iff.mp finishes)

/-- The progress is changed by an update of a played view only. -/
theorem Effect.app (effect : Effect s s' event) (watched : Watched s) (only : OnlyPlayed s)
    (hasLines : HasLines s event) : UpdatesPlayed s event ∨ s'.app = s.app := by
  cases effect with
  | built owner uuidString level run counted going is => exact .inr (is ▸ rfl)
  | gestured i gesture view run found replaces is => exact .inr (is ▸ rfl)
  | reset i view run found replaces is => exact .inr (is ▸ rfl)
  | waited i readable written view found waits is => exact .inr (is ▸ rfl)
  | called i readable written view found finishes calls views =>
    refine .inl ⟨view, found, fun preview => hasLines view found preview ?_⟩
    obtain ⟨counted, going⟩ := watched view (List.mem_of_getElem? found)
    exact counted.lines_iff.mp ((going only preview).finishes_iff.mp finishes)

end Steps

/-- In every run from a process without level views, only the views that
`ViewController` built call `ProgressHandler` if and only if every preview that is
updated is of a level with a line. Then the progress changes at updates of those
views only, in memory and in the file. -/
theorem previews_complete_nothing (fuel : ℕ) (screen : Screen) (app : App) (events : List LevelViewsEvent)
    (reached : LevelViews) (run : (LevelViews.events fuel screen).run ⟨app, [], []⟩ events = some reached) :
    ((LevelViews.events fuel screen).Always OnlyPlayed ⟨app, [], []⟩ events ↔
      (LevelViews.events fuel screen).Meets HasLines ⟨app, [], []⟩ events) ∧
    ((LevelViews.events fuel screen).Meets HasLines ⟨app, [], []⟩ events →
      (LevelViews.events fuel screen).Meets (fun s event => UpdatesPlayed s event ∨
        ∀ s', s.step fuel screen event = some s' → s'.app = s.app) ⟨app, [], []⟩ events) := by
  have watched : Watched ⟨app, [], []⟩ := fun view none_ => absurd none_ List.not_mem_nil
  have only : OnlyPlayed ⟨app, [], []⟩ := fun caller none_ => absurd none_ List.not_mem_nil
  constructor
  · exact (LevelViews.events fuel screen).always_iff_meets_of_invariant
      (fun _ _ _ held taken => (step_effect taken).watched held)
      (fun _ _ _ held onlyBefore taken => (step_effect taken).onlyPlayed_iff held onlyBefore) watched only run
  · refine (LevelViews.events fuel screen).meets_imp (I := fun s => Watched s ∧ OnlyPlayed s) ?_ ?_
      ⟨watched, only⟩
    · intro s event ⟨held, onlyBefore⟩ hasLines
      by_cases played : UpdatesPlayed s event
      · exact .inl played
      · exact .inr fun s' taken => ((step_effect taken).app held onlyBefore hasLines).resolve_left played
    · intro s event s' ⟨held, onlyBefore⟩ hasLines taken
      have effect := step_effect taken
      exact ⟨effect.watched held, (effect.onlyPlayed_iff held onlyBefore).mpr hasLines⟩

section Publish

/-- A process whose store is loaded, and empty. -/
def emptyStore : LevelViews := ⟨⟨none, some [], some ⟨[]⟩⟩, [], []⟩

/-- A level is published, and the display link of its thumbnail ticks. -/
def publish (level : LevelData) : List LevelViewsEvent :=
  [.build .publishLevelView toString level, .update 0 true fun _ => true]

theorem oneLine_published : (LevelViews.events 1 phone).Always OnlyPlayed emptyStore (publish oneLine) := by
  have built : (LevelViews.events 1 phone).step emptyStore (.build .publishLevelView toString oneLine) =
      some { emptyStore with views := [⟨.publishLevelView, begin oneLine [redLine] []⟩] } := rfl
  refine (previews_complete_nothing 1 phone emptyStore.app (publish oneLine) _ rfl).1.mpr ?_
  refine (Machine.meets_cons _ built).mpr ⟨trivial, ?_, fun _ _ => trivial⟩
  intro view found _
  obtain rfl := Option.some.inj found
  exact List.cons_ne_nil _ _

theorem noLines_completed : ∃ reached,
    (LevelViews.events 1 phone).run emptyStore (publish noLines) = some reached ∧ ¬ OnlyPlayed reached ∧
      reached.app.file ≠ emptyStore.app.file := by
  refine ⟨_, rfl, fun only => ?_, Option.some_ne_none _⟩
  obtain ⟨campaignLevel, played⟩ := only .publishLevelView (List.mem_singleton.mpr rfl)
  cases played

end Publish

end
end Arthius.Guarantees.PreviewProgress
