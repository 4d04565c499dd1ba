import Arthius.Guarantees.GlobalListDelivery
import Arthius.Source.GlobalLevelSelect

/-!
# The newest list

The tiles are those of the last completion, whichever request it belongs to.
They are those of the newest request once it has completed, unless an older
request completes after it with other tiles.
-/
namespace Arthius.Guarantees.NewestList
open Arthius.Lib Arthius.Source Arthius.Source.LevelFiles Arthius.Source.GlobalLevels
open Arthius.Source.GlobalLevelSelect
open Arthius.Guarantees.LevelContainment Arthius.Guarantees.GlobalListDelivery

section Newest
variable {sets : CharacterSets} {Data : Type}

/-- What a request has handed to its completion. -/
def delivery : Request sets Data → Option (List LevelData × List (String × Nat))
  | .answered _ state => state.completions.getLast?
  | _ => none

def newestDelivery (s : GlobalLevelSelectView sets Data) : Option (List LevelData × List (String × Nat)) :=
  s.requests.getLast?.bind delivery

/-- The levels and counts that a delivered list is shown as. -/
def tilesOf (list : List LevelData × List (String × Nat)) : Option (List (LevelData × Nat)) :=
  updateLevels list.2 list.1

/-- Once the newest request has delivered, its list is the one that is shown. -/
def NewestShown (s : GlobalLevelSelectView sets Data) : Prop :=
  ∀ list ∈ newestDelivery s, tilesOf list = some s.tiles

variable (fs : FileSystem sets) (codec : LevelCodec Data)

/-- What a callback brings to the completion of its request. -/
noncomputable def brings (s : GlobalLevelSelectView sets Data) (i j : Nat) :
    Option (List LevelData × List (String × Nat)) :=
  match s.requests[i]? with
  | some (.answered answers state) =>
    (GlobalLevels.step fs codec answers { state with disk := s.disk } j).bind (handedOver state)
  | _ => none

/-- After the newest request, an older one completes with the same tiles only. -/
def InOrder (s : GlobalLevelSelectView sets Data) : Event Data → Prop
  | .callback i j => s.requests.length = i + 1 ∨
      ∀ newest ∈ newestDelivery s, ∀ list ∈ brings fs codec s i j, tilesOf list = tilesOf newest
  | _ => True

end Newest

section Steps
variable {sets : CharacterSets} {Data : Type} {fs : FileSystem sets} {codec : LevelCodec Data}
variable {answers : List (Answer Data)} {state state' : GlobalLevels.State sets Data}
variable {s s' : GlobalLevelSelectView sets Data}

theorem fileCallback_completions (state : GlobalLevels.State sets Data) (answer : Answer Data) (i : Nat) :
    (fileCallback fs codec state answer i).completions = state.completions := by
  rcases GlobalListDelivery.fileCallback_cases fs codec state answer i with ⟨_, _, _, is⟩ | ⟨_, _, _, is⟩
  · rw [is]
  · rw [is]

/-- A callback calls the completion at most once. -/
theorem step_completions {j : Nat} (taken : GlobalLevels.step fs codec answers state j = some state') :
    state'.completions = state.completions ∨ ∃ list, state'.completions = state.completions ++ [list] := by
  obtain ⟨callback, _, taken⟩ := Option.bind_eq_some_iff.mp taken
  dsimp only at taken
  split at taken
  · cases callback with
    | file i =>
      obtain ⟨answer, _, rfl⟩ := Option.map_eq_some_iff.mp taken
      exact .inl (fileCallback_completions _ answer i)
    | count i =>
      obtain ⟨answer, _, rfl⟩ := Option.map_eq_some_iff.mp taken
      simp only [countCallback]
      split_ifs
      · exact .inr ⟨_, rfl⟩
      · exact .inl rfl
  · cases taken

/-- What a callback hands over is what its request has delivered then. -/
theorem handedOver_cases {disk : Disk sets Data} {j : Nat}
    (taken : GlobalLevels.step fs codec answers { state with disk := disk } j = some state') :
    (handedOver state state' = none ∧ state'.completions = state.completions) ∨
      ∃ list, handedOver state state' = some list ∧ state'.completions.getLast? = some list := by
  have completions := step_completions taken
  dsimp only at completions
  unfold handedOver
  rcases completions with same | ⟨list, one⟩
  · refine .inl ⟨?_, same⟩
    rw [same, List.drop_length, List.head?_nil]
  · refine .inr ⟨list, ?_, ?_⟩
    · rw [one, List.drop_left, List.head?_cons]
    · rw [one, List.getLast?_concat]

theorem newestDelivery_set {i : Nat} (known : i < s.requests.length) (request : Request sets Data) :
    (s.requests.set i request).getLast?.bind delivery =
      if s.requests.length = i + 1 then delivery request else newestDelivery s := by
  rw [newestDelivery, List.getLast?_eq_getElem?, List.getLast?_eq_getElem?, List.length_set]
  split_ifs with newest
  · rw [newest, Nat.add_sub_cancel, List.getElem?_set_self known, Option.bind_some]
  · have other : i ≠ s.requests.length - 1 := by omega
    rw [List.getElem?_set_ne other]

/-- A query that is answered has delivered nothing yet. -/
theorem answer_shown (shown : NewestShown s) {i : Nat} (known : i < s.requests.length)
    (documents : Option (List (Answer Data))) : NewestShown (answer s i documents) := by
  have fresh : ∃ request : Request sets Data, delivery request = none ∧
      answer s i documents = { s with requests := s.requests.set i request } := by
    cases documents with
    | none => exact ⟨.failed, rfl, rfl⟩
    | some answers => exact ⟨.answered answers (globalLevelSelect_getLevels s.disk answers), rfl, rfl⟩
  obtain ⟨request, nothing, is⟩ := fresh
  rw [is]
  intro list delivered
  rw [newestDelivery, newestDelivery_set known, nothing] at delivered
  split_ifs at delivered
  · cases delivered
  · exact shown list delivered

/-- A callback that does not call the completion changes nothing that is delivered. -/
theorem newestDelivery_quiet {i : Nat} (found : s.requests[i]? = some (.answered answers state))
    (same : state'.completions = state.completions) :
    (s.requests.set i (.answered answers state')).getLast?.bind delivery = newestDelivery s := by
  obtain ⟨known, _⟩ := List.getElem?_eq_some_iff.mp found
  rw [newestDelivery_set known]
  split_ifs with newest
  · have here : s.requests.getLast? = some (.answered answers state) := by
      rw [List.getLast?_eq_getElem?, newest, Nat.add_sub_cancel, found]
    rw [newestDelivery, here, Option.bind_some, delivery, delivery, same]
  · rfl

/-- Whether a callback keeps the newest list shown. -/
theorem callback_shown_iff (shown : NewestShown s) {i j : Nat}
    (found : s.requests[i]? = some (.answered answers state))
    (taken : callback fs codec s i j answers state = some s') :
    NewestShown s' ↔ InOrder fs codec s (.callback i j) := by
  obtain ⟨known, _⟩ := List.getElem?_eq_some_iff.mp found
  obtain ⟨state', stepped, taken⟩ := Option.bind_eq_some_iff.mp taken
  have brought : brings fs codec s i j = handedOver state state' := by
    rw [brings, found]
    dsimp only
    rw [stepped, Option.bind_some]
  dsimp only at taken
  split_ifs at taken
  change NewestShown s' ↔ s.requests.length = i + 1 ∨ ∀ newest ∈ newestDelivery s,
    ∀ list ∈ brings fs codec s i j, tilesOf list = tilesOf newest
  rw [brought]
  rcases handedOver_cases stepped with ⟨nothing, same⟩ | ⟨list, handed, last⟩
  · -- the completion is not called: what is delivered and shown stays
    rw [nothing] at taken ⊢
    cases taken
    refine iff_of_true (fun list delivered => shown list ?_) (.inr fun _ _ _ none_ => by cases none_)
    rwa [newestDelivery, newestDelivery_quiet found same] at delivered
  · rw [handed] at taken ⊢
    obtain ⟨tiles, updated, is⟩ := Option.bind_eq_some_iff.mp taken
    cases is
    have now : tilesOf list = some tiles := updated
    unfold NewestShown
    rw [newestDelivery, newestDelivery_set known]
    dsimp only
    split_ifs with newest
    · -- the newest request itself
      refine iff_of_true (fun other delivered => ?_) (.inl newest)
      rw [delivery, last] at delivered
      obtain rfl := Option.some.inj delivered
      exact now
    · rw [← now]
      constructor
      · intro after
        refine .inr fun other delivered brought is => ?_
        obtain rfl := Option.some.inj is
        exact (after other delivered).symm
      · rintro (contra | same) other delivered
        · exact absurd contra newest
        · exact (same other delivered list rfl).symm

theorem step_shown_iff {event : Event Data} (shown : NewestShown s)
    (taken : GlobalLevelSelect.step fs codec s event = some s') : NewestShown s' ↔ InOrder fs codec s event := by
  cases event with
  | animateIn =>
    cases taken
    refine iff_of_true (fun list delivered => ?_) trivial
    rw [newestDelivery, animateIn, List.getLast?_concat] at delivered
    cases delivered
  | answer i documents =>
    simp only [GlobalLevelSelect.step] at taken
    split at taken
    · next found =>
      obtain ⟨known, _⟩ := List.getElem?_eq_some_iff.mp found
      exact iff_of_true (Option.some.inj taken ▸ answer_shown shown known documents) trivial
    · cases taken
  | callback i j =>
    simp only [GlobalLevelSelect.step] at taken
    split at taken
    · next found => exact callback_shown_iff shown found taken
    · cases taken

end Steps

/-- For any number of requests, any answers to their queries and any order of the
callbacks: in every state reached in which the newest request has delivered, its
levels and counts are the ones that are shown, if and only if no older request
completes after it with other tiles. -/
theorem newest_list_shown_iff {sets : CharacterSets} {Data : Type} (fs : FileSystem sets)
    (codec : LevelCodec Data) (disk : Disk sets Data) (events : List (Event Data))
    (reached : GlobalLevelSelectView sets Data)
    (run : (GlobalLevelSelect.system fs codec).run (GlobalLevelSelect.init disk) events = some reached) :
    (GlobalLevelSelect.system fs codec).Always NewestShown (GlobalLevelSelect.init disk) events ↔
      (GlobalLevelSelect.system fs codec).Meets (InOrder fs codec) (GlobalLevelSelect.init disk) events := by
  have nothing : NewestShown (GlobalLevelSelect.init disk) := fun list none_ => by cases none_
  exact (GlobalLevelSelect.system fs codec).always_iff_meets
    (fun _ _ _ shown taken => step_shown_iff shown taken) nothing run

/-- The document again, after one more download. -/
noncomputable def downloadedAgain (levelID : String) : Answer LevelData :=
  { storedAnswer levelID with shards := some [⟨0, 2⟩, ⟨1, 4⟩] }

/-- The requests of two visits, with the callbacks of one before those of the other. -/
noncomputable def twoVisits (first second : Nat) : List (Event LevelData) :=
  [.animateIn, .answer 0 (some [storedAnswer "a"]), .animateIn, .answer 1 (some [downloadedAgain "a"]),
    .callback first 0, .callback first 0, .callback second 0, .callback second 0]

theorem oldFirst_shown : (GlobalLevelSelect.system device plainCodec).Always NewestShown
    (GlobalLevelSelect.init Disk.empty) (twoVisits 0 1) := by
  refine (newest_list_shown_iff device plainCodec Disk.empty (twoVisits 0 1) _ rfl).mpr ?_
  refine (Machine.meets_cons _ rfl).mpr ⟨trivial, (Machine.meets_cons _ rfl).mpr ⟨trivial, ?_⟩⟩
  refine (Machine.meets_cons _ rfl).mpr ⟨trivial, (Machine.meets_cons _ rfl).mpr ⟨trivial, ?_⟩⟩
  -- the first request completes while the second has delivered nothing
  refine (Machine.meets_cons _ rfl).mpr ⟨.inr (by rintro _ ⟨⟩), ?_⟩
  refine (Machine.meets_cons _ rfl).mpr ⟨.inr (by rintro _ ⟨⟩), ?_⟩
  exact (Machine.meets_cons _ rfl).mpr ⟨.inl rfl, (Machine.meets_cons _ rfl).mpr ⟨.inl rfl, trivial⟩⟩

theorem newFirst_overwritten : ∃ reached, (GlobalLevelSelect.system device plainCodec).run
      (GlobalLevelSelect.init Disk.empty) (twoVisits 1 0) = some reached ∧
    (∃ first second, reached.requests =
        [.answered [storedAnswer "a"] first, .answered [downloadedAgain "a"] second] ∧
      first.outstanding = [] ∧ second.outstanding = []) ∧
    newestDelivery reached = some ([levelNamed "a"], [("a", 6)]) ∧
    reached.tiles = [(levelNamed "a", 5)] ∧ ¬ NewestShown reached := by
  refine ⟨_, rfl, ⟨_, _, rfl, rfl, rfl⟩, rfl, rfl, fun shown => ?_⟩
  have counts := congrArg (Option.map (List.map Prod.snd)) (shown ([levelNamed "a"], [("a", 6)]) rfl)
  revert counts
  decide

end Arthius.Guarantees.NewestList
