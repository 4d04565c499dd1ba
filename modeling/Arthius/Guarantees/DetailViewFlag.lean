import Arthius.Source.GlobalSelector

/-!
# The flag for a detail view

`showingDetailView` tells whether a detail view is on the stage as long as the
selector is refreshed, or animated in or out, only while none is. A refresh
removes the detail view and leaves the flag, an animation does the opposite.
-/
namespace Arthius.Guarantees.DetailViewFlag
open Arthius.Lib Arthius.Source Arthius.Source.GlobalSelector GLSLevelSelector

variable {selector after : GLSLevelSelector} {event : Event}

/-- The flag is up exactly if one detail view is shown, and there are never two. -/
structure FlagHonest (selector : GLSLevelSelector) : Prop where
  flag : selector.showingDetailView = true ↔ selector.detailViews.length = 1
  single : selector.detailViews.length ≤ 1

/-- Refreshes and animations come while no detail view is shown. -/
def WhileClosed (selector : GLSLevelSelector) : Event → Prop
  | .updateLevels _ _ _ _ => selector.detailViews = []
  | .animateIn => selector.detailViews = []
  | .animateOut => selector.detailViews = []
  | _ => True

/-- No detail view and the flag down, or one and the flag up. -/
theorem flagHonest_iff : FlagHonest selector ↔
    selector.showingDetailView = false ∧ selector.detailViews = [] ∨
      selector.showingDetailView = true ∧ ∃ view, selector.detailViews = [view] := by
  rw [← List.length_eq_one_iff, ← List.length_eq_zero_iff]
  constructor
  · rintro ⟨flag, single⟩
    cases shown : selector.showingDetailView with
    | false =>
      rw [shown] at flag
      have none_ : selector.detailViews.length ≠ 1 := fun one => by cases flag.mpr one
      exact .inl ⟨rfl, by omega⟩
    | true => exact .inr ⟨rfl, flag.mp shown⟩
  · rintro (⟨down, none_⟩ | ⟨up, one⟩)
    · refine ⟨by simp [down, none_], by omega⟩
    · exact ⟨by simp [up, one], one.le⟩

theorem updateLevels_eq {xTiles yTiles : CGFloat} {newLevels : List LevelData} {downloads : List (String × ℕ)}
    (success : selector.updateLevels xTiles yTiles newLevels downloads = some after) :
    after.detailViews = [] ∧ after.showingDetailView = selector.showingDetailView := by
  obtain ⟨view, _, success⟩ := Option.bind_eq_some_iff.mp success
  cases success
  exact ⟨rfl, rfl⟩

theorem new_honest {bounds : CGRect} {xTiles yTiles : CGFloat} {levels : List LevelData}
    {downloads : List (String × ℕ)} (built : new bounds xTiles yTiles levels downloads = some selector) :
    FlagHonest selector := by
  obtain ⟨none_, down⟩ := updateLevels_eq built
  exact flagHonest_iff.mpr (.inl ⟨down, none_⟩)

/-- A press shows a detail view where none is shown, and is ignored where one is. -/
theorem showLevelDetailView_honest (honest : FlagHonest selector) (tile : GLSSelectTile) :
    FlagHonest (selector.showLevelDetailView tile) := by
  unfold showLevelDetailView
  rcases flagHonest_iff.mp honest with ⟨down, none_⟩ | ⟨up, _⟩
  · simp only [down, none_, Bool.false_eq_true, if_false]
    exact flagHonest_iff.mpr (.inr ⟨rfl, _, rfl⟩)
  · rw [if_pos up]
    exact honest

/-- A touch closes the only detail view. -/
theorem touchesBegan_honest {i : ℕ} (honest : FlagHonest selector)
    (success : selector.touchesBegan i = some after) : FlagHonest after := by
  unfold touchesBegan at success
  split_ifs at success with shown
  cases success
  rcases flagHonest_iff.mp honest with ⟨_, none_⟩ | ⟨_, view, one⟩
  · simp [none_] at shown
  · obtain rfl : i = 0 := by
      rw [one, List.length_singleton] at shown
      omega
    refine flagHonest_iff.mpr (.inl ⟨rfl, ?_⟩)
    simp [GLSLevelSelector.exit, one]

theorem pressedPlay_honest (honest : FlagHonest selector) (tile : GLSSelectTile) :
    FlagHonest (selector.pressedPlay tile).1 := by
  unfold pressedPlay
  split_ifs
  · exact honest
  · exact ⟨honest.flag, honest.single⟩

/-- With the flag put down, it is honest if no detail view is left. -/
theorem honest_of_down_iff (down : selector.showingDetailView = false) :
    FlagHonest selector ↔ selector.detailViews = [] := by
  rw [flagHonest_iff]
  simp [down]

/-- One step keeps the flag honest exactly if it meets the condition. -/
theorem step_honest_iff (honest : FlagHonest selector) (success : machine.step selector event = some after) :
    FlagHonest after ↔ WhileClosed selector event := by
  cases event with
  | tilePressed tile =>
    cases success
    exact iff_of_true (showLevelDetailView_honest honest tile) trivial
  | detailViewTouched i => exact iff_of_true (touchesBegan_honest honest success) trivial
  | playPressed i =>
    obtain ⟨view, _, rfl⟩ := Option.map_eq_some_iff.mp success
    exact iff_of_true (pressedPlay_honest honest view.tileView) trivial
  | animateIn =>
    cases success
    exact honest_of_down_iff rfl
  | animateOut =>
    cases success
    exact honest_of_down_iff rfl
  | updateLevels xTiles yTiles newLevels downloads =>
    obtain ⟨none_, same⟩ := updateLevels_eq success
    rcases flagHonest_iff.mp honest with ⟨down, closed⟩ | ⟨up, view, open_⟩
    · exact iff_of_true ((honest_of_down_iff (same.trans down)).mpr none_) closed
    · refine iff_of_false (fun honestAfter => ?_) fun closed => by simp [WhileClosed, open_] at closed
      have one := honestAfter.flag.mp (same.trans up)
      simp [none_] at one

/-- The flag is honest in every state of a run exactly if all refreshes and
animations come while no detail view is shown. -/
theorem flag_honest_iff (bounds : CGRect) (xTiles yTiles : CGFloat) (levels : List LevelData)
    (downloads : List (String × ℕ)) (start reached : GLSLevelSelector) (events : List Event)
    (built : new bounds xTiles yTiles levels downloads = some start)
    (run : machine.run start events = some reached) :
    machine.Always FlagHonest start events ↔ machine.Meets WhileClosed start events :=
  machine.always_iff_meets (fun _ _ _ honest success => step_honest_iff honest success) (new_honest built) run

/-- One level with its downloads. -/
noncomputable def oneTile : List LevelData :=
  [{ levelMetadata := some { levelUUID := some "a", levelThumbnail := some ⟨0, 0, 1, 1⟩ }
     propFrame := some ⟨0, 0, 1, 1⟩ }]

/-- A tile is pressed and the detail view closed again. -/
theorem pressed_closed : ∃ start tile reached,
    new (.mk4 0 0 300 600) 3 3 oneTile [("a", 5)] = some start ∧ tile ∈ start.tiles ∧
      machine.run start [.tilePressed tile, .detailViewTouched 0] = some reached ∧
      machine.Always FlagHonest start [.tilePressed tile, .detailViewTouched 0] := by
  obtain ⟨start, built, tile, tiles, reached, run⟩ : ∃ start,
      new (.mk4 0 0 300 600) 3 3 oneTile [("a", 5)] = some start ∧ ∃ tile, start.tiles = [tile] ∧
        ∃ reached, machine.run start [.tilePressed tile, .detailViewTouched 0] = some reached :=
    ⟨_, rfl, _, rfl, _, rfl⟩
  refine ⟨start, tile, reached, built, by simp [tiles], run, ?_⟩
  exact (flag_honest_iff _ 3 3 oneTile _ start reached _ built run).mpr
    ⟨trivial, fun _ _ => ⟨trivial, fun _ _ => trivial⟩⟩

/-- A list that is delivered while a detail view is shown removes it; presses
are then ignored, with no detail view to close. -/
theorem refreshed_stuck : ∃ start tile reached,
    new (.mk4 0 0 300 600) 3 3 oneTile [("a", 5)] = some start ∧ tile ∈ start.tiles ∧
      machine.run start [.tilePressed tile, .updateLevels 3 3 oneTile [("a", 6)], .tilePressed tile] =
        some reached ∧
      reached.showingDetailView = true ∧ reached.detailViews = [] ∧ ¬ FlagHonest reached := by
  obtain ⟨start, built, tile, tiles, reached, run, up, none_⟩ : ∃ start,
      new (.mk4 0 0 300 600) 3 3 oneTile [("a", 5)] = some start ∧ ∃ tile, start.tiles = [tile] ∧
        ∃ reached, machine.run start
          [.tilePressed tile, .updateLevels 3 3 oneTile [("a", 6)], .tilePressed tile] = some reached ∧
          reached.showingDetailView = true ∧ reached.detailViews = [] :=
    ⟨_, rfl, _, rfl, _, rfl, rfl, rfl⟩
  refine ⟨start, tile, reached, built, by simp [tiles], run, up, none_, fun honest => ?_⟩
  have one := honest.flag.mp up
  simp [none_] at one

end Arthius.Guarantees.DetailViewFlag
