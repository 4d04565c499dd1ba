import Arthius.Source.CampaignPlay
import Arthius.Guarantees.AppSteps
import Arthius.Guarantees.ProgressFrame
import Arthius.Guarantees.CurrentScreen
import Arthius.Guarantees.LevelPaths

/-!
# Campaign gating

Only two things enter a campaign level into the store: a launch that finds no
file enters the level listed first, and the completion of a campaign level enters
the level numbered one higher. A tile is unlocked only with an entry, the next
button appears only after a completion, and the campaign flag is lowered by the
very level view it was raised for. So whatever is played as a campaign level has
an entry, and whatever has one was opened in one of the two ways.
-/
namespace Arthius.Guarantees.CampaignGating
open Arthius.Lib Arthius.Source Arthius.Source.ProgressHandler Arthius.Source.CampaignPlay
open Arthius.Source.ViewController (View LevelScreen transitionTime longLived)
open Arthius.Guarantees.ProgressFrame Arthius.Guarantees.AppSteps
open Arthius.Guarantees.LevelPaths (uuidOf)

section Screens
variable {s s' : ViewController.State} {newView : View} {time : ℚ} {force : Bool} {forced : View}

/-- A switch keeps the current level, and hands the campaign flag over to the
level view it creates. -/
theorem switch_flag (success : ViewController.switchToView s newView time force forced = some s') :
    s'.currentLevel = s.currentLevel ∧
    (newView = .levelPlay → s'.didPressCampaignLevel = false ∧
      ∀ screen, s'.levelView = some screen → screen.campaignLevel = s.didPressCampaignLevel) ∧
    (newView ≠ .levelPlay → s'.didPressCampaignLevel = s.didPressCampaignLevel) := by
  obtain ⟨left, hleft, rest⟩ := Option.bind_eq_some_iff.mp success
  obtain ⟨entered, hentered, same⟩ := Option.bind_eq_some_iff.mp rest
  cases same
  have kept : left.currentLevel = s.currentLevel ∧
      left.didPressCampaignLevel = s.didPressCampaignLevel := by
    rw [CurrentScreen.leave_eq hleft]
    cases s.viewOf s.currentView <;> exact ⟨rfl, rfl⟩
  cases newView with
  | levelPlay =>
    obtain ⟨level, _, rfl⟩ := Option.map_eq_some_iff.mp hentered
    refine ⟨kept.1, fun _ => ⟨rfl, ?_⟩, by simp⟩
    intro screen is
    cases is
    exact kept.2
  | levelCreate =>
    obtain ⟨level, _, rfl⟩ := Option.map_eq_some_iff.mp hentered
    exact ⟨kept.1, by simp, fun _ => kept.2⟩
  | _ =>
    cases hentered
    exact ⟨kept.1, by simp, fun _ => kept.2⟩

end Screens

section Levels

def numberOf (level : LevelData) : Option Int := level.levelMetadata.map LevelMetadata.levelNumber

/-- The campaign as it is shipped: every level has a UUID, and no two share one
or a number. -/
structure Campaign (campaign : List LevelData) : Prop where
  complete : ∀ level ∈ campaign, (uuidOf level).isSome
  uuids : (campaign.map uuidOf).Nodup
  numbers : (campaign.map numberOf).Nodup

variable {campaign allLevels : List LevelData}

theorem Campaign.unique (shipped : Campaign campaign) {a b : LevelData} (inA : a ∈ campaign)
    (inB : b ∈ campaign) (same : uuidOf a = uuidOf b) : a = b :=
  List.inj_on_of_nodup_map shipped.uuids inA inB same

theorem Campaign.metadata (shipped : Campaign campaign) {level : LevelData} (member : level ∈ campaign) :
    ∃ metadata, level.levelMetadata = some metadata := by
  obtain ⟨uuid, is⟩ := Option.isSome_iff_exists.mp (shipped.complete level member)
  obtain ⟨metadata, present, _⟩ := Option.bind_eq_some_iff.mp is
  exact ⟨metadata, present⟩

/-- A listed level is found under its UUID. -/
theorem getLevelFromLevelUUID_eq (shipped : Campaign campaign) (listed : allLevels.Subperm campaign)
    {level : LevelData} (member : level ∈ allLevels) {uuid : String} (is : uuidOf level = some uuid) :
    CampaignLevelHandler.getLevelFromLevelUUID uuid allLevels = some level := by
  have present : (CampaignLevelHandler.getLevelFromLevelUUID uuid allLevels).isSome := by
    simp only [CampaignLevelHandler.getLevelFromLevelUUID, List.find?_isSome, decide_eq_true_eq]
    exact ⟨level, member, is⟩
  obtain ⟨found, isFound⟩ := Option.isSome_iff_exists.mp present
  have inList : found ∈ allLevels := List.mem_of_find?_eq_some isFound
  have named : found.levelMetadata.bind LevelMetadata.levelUUID = some uuid := by
    simpa using List.find?_some isFound
  rw [isFound, shipped.unique (listed.subset inList) (listed.subset member) (named.trans is.symm)]

/-- Looking a number up does not trap, and finds a listed level with that number. -/
theorem getLevelFromLevelNumber_cases (shipped : Campaign campaign)
    (listed : ∀ level ∈ allLevels, level ∈ campaign) (number : Int) :
    ∃ found, CampaignLevelHandler.getLevelFromLevelNumber number allLevels = some found ∧
      ∀ next, found = some next → next ∈ allLevels ∧ numberOf next = some number := by
  induction allLevels with
  | nil => exact ⟨none, rfl, by simp⟩
  | cons level rest ih =>
    obtain ⟨metadata, is⟩ := shipped.metadata (listed level List.mem_cons_self)
    obtain ⟨found, later, facts⟩ := ih fun other member => listed other (List.mem_cons_of_mem level member)
    by_cases here : metadata.levelNumber = number
    · refine ⟨some level, by simp [CampaignLevelHandler.getLevelFromLevelNumber, is, here], ?_⟩
      intro next same
      cases same
      exact ⟨List.mem_cons_self, by rw [numberOf, is, Option.map_some, here]⟩
    · refine ⟨found, by simp [CampaignLevelHandler.getLevelFromLevelNumber, is, here, later], ?_⟩
      intro next same
      exact ⟨List.mem_cons_of_mem level (facts next same).1, (facts next same).2⟩

end Levels

/-- The two ways in which a level is opened: listed first by a launch that found
no file, or one number above a level completed before. -/
def Opened (campaign : List LevelData) (history : List Happening) (level : LevelData) : Prop :=
  (∃ allLevels, .startedNew allLevels ∈ history ∧ allLevels.head? = some level) ∨
  ∃ previous ∈ campaign, (numberOf previous).map (· + 1) = numberOf level ∧
    ∃ allLevels, .completedCampaignLevel allLevels (uuidOf previous) ∈ history

theorem Opened.mono {campaign : List LevelData} {history : List Happening} {level : LevelData}
    (opened : Opened campaign history level) (later : List Happening) :
    Opened campaign (history ++ later) level := by
  rcases opened with ⟨allLevels, started, first⟩ | ⟨previous, member, number, allLevels, completed⟩
  · exact .inl ⟨allLevels, List.mem_append_left later started, first⟩
  · exact .inr ⟨previous, member, number, allLevels, List.mem_append_left later completed⟩

/-- The store has an entry for the level. -/
def Has (progress : Progress) (level : LevelData) : Prop := (entry (uuidOf level) progress).isSome

theorem has_set {data : LevelProgressData} {progress : Progress} {level : LevelData} :
    Has (setProgressForUUID data progress) level ↔ uuidOf level = data.uuid ∨ Has progress level := by
  unfold Has
  by_cases own : uuidOf level = data.uuid
  · rw [own, entry_set_self]
    simp
  · rw [entry_set_other own]
    simp [own]

/-- No entry is locked, and the entries of campaign levels belong to opened ones. -/
structure Stored (campaign : List LevelData) (history : List Happening) (progress : Progress) :
    Prop where
  unlocked : ∀ e ∈ progress.progressData, e.locked = false
  opened : ∀ level ∈ campaign, Has progress level → Opened campaign history level

section Store
variable {campaign : List LevelData} {history : List Happening} {progress : Progress}

theorem Stored.mono (stored : Stored campaign history progress) (later : List Happening) :
    Stored campaign (history ++ later) progress :=
  ⟨stored.unlocked, fun level member has => (stored.opened level member has).mono later⟩

theorem Stored.set (stored : Stored campaign history progress) {data : LevelProgressData}
    (open_ : data.locked = false)
    (opened : ∀ level ∈ campaign, uuidOf level = data.uuid → Opened campaign history level) :
    Stored campaign history (setProgressForUUID data progress) := by
  constructor
  · intro e member
    rcases KeyedList.mem_of_mem_put LevelProgressData.uuid member with rfl | old
    · exact open_
    · exact stored.unlocked e old
  · intro level member has
    rcases has_set.mp has with own | before
    · exact opened level member own
    · exact stored.opened level member before

/-- The entry of a level in the store is not locked. -/
theorem Stored.entry_unlocked (stored : Stored campaign history progress) {level : LevelData}
    (has : Has progress level) : ∃ e, entry (uuidOf level) progress = some e ∧ e.locked = false := by
  obtain ⟨e, present⟩ := Option.isSome_iff_exists.mp has
  exact ⟨e, present, stored.unlocked e (List.mem_of_find?_eq_some present)⟩

/-- A launch that finds no file enters the level listed first. -/
theorem startingData_stored {allLevels : List LevelData} (shipped : Campaign campaign)
    (listed : allLevels.Subperm campaign) :
    Stored campaign (history ++ [.startedNew allLevels]) (File.startingData allLevels) := by
  cases allLevels with
  | nil => exact ⟨by simp [File.startingData], by simp [Has, entry, getCurrentProgressForUUID, File.startingData]⟩
  | cons first rest =>
    constructor
    · intro e member
      rw [List.mem_singleton.mp member]
      rfl
    · intro level member has
      have same : uuidOf level = uuidOf first := by
        by_contra differs
        simp only [Has, entry, getCurrentProgressForUUID, File.startingData, KeyedList.get_cons] at has
        split at has
        · next same => exact differs same.symm
        · cases has
      have isFirst := shipped.unique member (listed.subset List.mem_cons_self) same
      exact .inl ⟨first :: rest, by simp, by rw [isFirst]; rfl⟩

/-- The level whose completion is recorded, among those listed. -/
structure Recorded (campaign allLevels : List LevelData) (level : LevelData)
    (data : LevelProgressData) : Prop where
  shipped : Campaign campaign
  listed : allLevels.Subperm campaign
  member : level ∈ allLevels
  own : data.uuid = uuidOf level
  open_ : data.locked = false

theorem Recorded.nextLevel_eq {allLevels : List LevelData} {level : LevelData} {data : LevelProgressData}
    (recorded : Recorded campaign allLevels level data) :
    ∃ metadata found, level.levelMetadata = some metadata ∧ nextLevel allLevels data = some found ∧
      CampaignLevelHandler.getLevelFromLevelNumber (metadata.levelNumber + 1) allLevels = some found ∧
      ∀ next, found = some next → next ∈ allLevels ∧ numberOf next = some (metadata.levelNumber + 1) := by
  have inCampaign := recorded.listed.subset recorded.member
  obtain ⟨uuid, is⟩ := Option.isSome_iff_exists.mp (recorded.shipped.complete level inCampaign)
  obtain ⟨metadata, present⟩ := recorded.shipped.metadata inCampaign
  obtain ⟨found, lookedUp, facts⟩ := getLevelFromLevelNumber_cases recorded.shipped
    (fun _ member => recorded.listed.subset member) (metadata.levelNumber + 1)
  have itself := getLevelFromLevelUUID_eq recorded.shipped recorded.listed recorded.member is
  refine ⟨metadata, found, present, ?_, lookedUp, facts⟩
  simp only [nextLevel, recorded.own, is, itself, present, lookedUp, bind, Option.bind_some]

/-- Completing a listed level that has an entry does not trap. Every entry stays,
the next level gains one, and everything in the store is opened. -/
theorem recordCampaignLevel_stored {allLevels : List LevelData} {level : LevelData}
    {data : LevelProgressData} (recorded : Recorded campaign allLevels level data)
    (stored : Stored campaign history progress) (has : Has progress level) :
    ∃ after, (recordCampaignLevel allLevels data progress).progress = some after ∧
      (∀ file, File.saveAll file (fun _ => true) (recordCampaignLevel allLevels data progress).saves =
        some after) ∧
      Stored campaign (history ++ [.completedCampaignLevel allLevels data.uuid]) after ∧
      (∀ other, Has progress other → Has after other) ∧
      ∀ metadata next, level.levelMetadata = some metadata →
        CampaignLevelHandler.getLevelFromLevelNumber (metadata.levelNumber + 1) allLevels =
          some (some next) → Has after next := by
  obtain ⟨metadata, found, present, looked, byNumber, facts⟩ := recorded.nextLevel_eq
  have inCampaign := recorded.listed.subset recorded.member
  have opened := stored.opened level inCampaign has
  have first : Stored campaign (history ++ [.completedCampaignLevel allLevels data.uuid])
      (setProgressForUUID data progress) := by
    apply (stored.mono _).set recorded.open_
    intro other member same
    rw [recorded.shipped.unique member inCampaign (same.trans recorded.own)]
    exact opened.mono _
  have keeps : ∀ other, Has progress other → Has (setProgressForUUID data progress) other :=
    fun other before => has_set.mpr (.inr before)
  unfold recordCampaignLevel
  rw [looked]
  cases found with
  | none =>
    refine ⟨_, rfl, fun _ => rfl, first, keeps, ?_⟩
    intro m next is lookup
    cases present.symm.trans is
    cases byNumber.symm.trans lookup
  | some next =>
    obtain ⟨nextListed, nextNumber⟩ := facts next rfl
    have unlocked : Stored campaign (history ++ [.completedCampaignLevel allLevels data.uuid])
        (setProgressForUUID (blankUnlockData (uuidOf next)) (setProgressForUUID data progress)) := by
      apply first.set rfl
      intro other member same
      have isNext := recorded.shipped.unique member (recorded.listed.subset nextListed) same
      refine .inr ⟨level, inCampaign, ?_, allLevels, by simp [recorded.own]⟩
      rw [isNext, nextNumber, numberOf, present]
      rfl
    refine ⟨_, rfl, fun _ => rfl, unlocked, ?_, ?_⟩
    · intro other before
      exact has_set.mpr (.inr (keeps other before))
    · intro m other is lookup
      cases present.symm.trans is
      cases byNumber.symm.trans lookup
      exact has_set.mpr (.inl rfl)

/-- Recording another level, or a level that has an entry, opens nothing new. -/
theorem recordLevel_stored {level : LevelData} {data : LevelProgressData} (own : data.uuid = uuidOf level)
    (open_ : data.locked = false) (stored : Stored campaign history progress)
    (allowed : (∀ other ∈ campaign, uuidOf other ≠ uuidOf level) ∨ Has progress level) :
    Stored campaign history (setProgressForUUID data progress) := by
  apply stored.set open_
  intro other member same
  rcases allowed with foreign | has
  · exact absurd (same.trans own) (foreign other member)
  · apply stored.opened other member
    rw [Has, same, own]
    exact has

end Store

section Process
variable {campaign allLevels : List LevelData} {progress : Progress} {app : App}

/-- What may be played as an ordinary level: another level, or an opened one. -/
def Allowed (campaign : List LevelData) (progress : Progress) (level : LevelData) : Prop :=
  (∀ other ∈ campaign, uuidOf other ≠ uuidOf level) ∨ Has progress level

/-- What may be played as a campaign level. -/
def Available (allLevels : List LevelData) (progress : Progress) (level : LevelData) : Prop :=
  level ∈ allLevels ∧ Has progress level

/-- The tiles, the current level and the level views agree with the store. -/
structure Fair (campaign allLevels : List LevelData) (progress : Progress) (p : Process) : Prop where
  tiles : ∀ tile ∈ p.tiles, tile.progress.locked = false → Available allLevels progress tile.level
  current : ∀ level, p.screens.currentLevel = some level → Allowed campaign progress level
  views : ∀ view ∈ p.levelViews, Allowed campaign progress view.level
  played : ∀ view ∈ p.levelViews, view.campaignLevel = true → Available allLevels progress view.level
  next : ∀ view ∈ p.levelViews, view.campaignLevel = true → view.beatLevel = true →
    ∀ metadata next, view.level.levelMetadata = some metadata →
      CampaignLevelHandler.getLevelFromLevelNumber (metadata.levelNumber + 1) allLevels =
        some (some next) → Has progress next

theorem Available.allowed {level : LevelData} (available : Available allLevels progress level) :
    Allowed campaign progress level := .inr available.2

/-- A process in which nothing has been chosen or played. -/
theorem Fair.initial {screens : ViewController.State} (unchosen : screens.currentLevel = none)
    {tiles : List Tile}
    (free : ∀ tile ∈ tiles, tile.progress.locked = false → Available allLevels progress tile.level) :
    Fair campaign allLevels progress ⟨screens, tiles, []⟩ :=
  ⟨free, by simp [unchosen], by simp, by simp, by simp⟩

/-- The store only gains entries. -/
theorem Fair.mono {p : Process} (fair : Fair campaign allLevels progress p) {after : Progress}
    (keeps : ∀ level, Has progress level → Has after level) : Fair campaign allLevels after p := by
  have allowed : ∀ level, Allowed campaign progress level → Allowed campaign after level :=
    fun level before => before.imp_right (keeps level)
  exact ⟨fun tile member free => ⟨(fair.tiles tile member free).1, keeps _ (fair.tiles tile member free).2⟩,
    fun level is => allowed level (fair.current level is),
    fun view member => allowed _ (fair.views view member),
    fun view member raised => ⟨(fair.played view member raised).1, keeps _ (fair.played view member raised).2⟩,
    fun view member raised beaten metadata next is lookup =>
      keeps next (fair.next view member raised beaten metadata next is lookup)⟩

/-- A level view is marked as beaten, once its next level has an entry. -/
theorem Fair.beat {p : Process} (fair : Fair campaign allLevels progress p)
    {view : CampaignPlay.LevelView} (member : view ∈ p.levelViews) {i : Nat}
    (next : view.campaignLevel = true → ∀ metadata next, view.level.levelMetadata = some metadata →
      CampaignLevelHandler.getLevelFromLevelNumber (metadata.levelNumber + 1) allLevels =
        some (some next) → Has progress next) :
    Fair campaign allLevels progress
      { p with levelViews := p.levelViews.set i { view with beatLevel := true } } := by
  have beaten : ∀ other ∈ p.levelViews.set i { view with beatLevel := true },
      other ∈ p.levelViews ∨ other = { view with beatLevel := true } := fun other inViews =>
    List.mem_or_eq_of_mem_set inViews
  refine ⟨fair.tiles, fair.current, ?_, ?_, ?_⟩
  · intro other inViews
    rcases beaten other inViews with old | rfl
    · exact fair.views other old
    · exact fair.views view member
  · intro other inViews raised
    rcases beaten other inViews with old | rfl
    · exact fair.played other old raised
    · exact fair.played view member raised
  · intro other inViews raised beat
    rcases beaten other inViews with old | rfl
    · exact fair.next other old raised beat
    · exact next raised

/-- A new level view, of a level that may be played as it is. -/
theorem Fair.append {p : Process} (fair : Fair campaign allLevels progress p) {level : LevelData}
    {campaignLevel : Bool} (allowed : Allowed campaign progress level)
    (available : campaignLevel = true → Available allLevels progress level) :
    Fair campaign allLevels progress
      { p with levelViews := p.levelViews ++ [⟨level, campaignLevel, false⟩] } := by
  have new : ∀ view ∈ p.levelViews ++ [⟨level, campaignLevel, false⟩],
      view ∈ p.levelViews ∨ view = ⟨level, campaignLevel, false⟩ := by
    intro view member
    simpa using member
  refine ⟨fair.tiles, fair.current, ?_, ?_, ?_⟩
  · intro view member
    rcases new view member with old | rfl
    · exact fair.views view old
    · exact allowed
  · intro view member raised
    rcases new view member with old | rfl
    · exact fair.played view old raised
    · exact available raised
  · intro view member raised beaten
    rcases new view member with old | rfl
    · exact fair.next view old raised beaten
    · cases beaten

/-- A tile is unlocked only when its level has an entry. -/
theorem updateLevels_tiles {levels : List LevelData} {tiles : List Tile}
    (built : updateLevels progress levels = some tiles) :
    ∀ tile ∈ tiles, tile.progress.locked = false → Available levels progress tile.level := by
  induction levels generalizing tiles with
  | nil =>
    cases built
    simp
  | cons level rest ih =>
    obtain ⟨metadata, present, built⟩ := Option.bind_eq_some_iff.mp built
    obtain ⟨levelUUID, is, built⟩ := Option.bind_eq_some_iff.mp built
    obtain ⟨later, rest_, built⟩ := Option.bind_eq_some_iff.mp built
    cases built
    intro tile member free
    rcases List.mem_cons.mp member with rfl | inLater
    · refine ⟨List.mem_cons_self, ?_⟩
      have own : uuidOf level = some levelUUID := by rw [uuidOf, present, Option.bind_some, is]
      rw [Has, own]
      change (getCurrentProgressForUUID (some levelUUID) progress).isSome
      cases found : getCurrentProgressForUUID (some levelUUID) progress with
      | some e => rfl
      | none =>
        rw [found] at free
        cases free
    · have before := ih rest_ tile inLater free
      exact ⟨List.mem_cons_of_mem level before.1, before.2⟩

theorem Fair.chooseLevel {p : Process} (fair : Fair campaign allLevels progress p) {level : LevelData}
    (allowed : Allowed campaign progress level) (raised : Bool) :
    Fair campaign allLevels progress (p.chooseLevel level raised) := by
  refine ⟨fair.tiles, ?_, fair.views, fair.played, fair.next⟩
  intro other is
  cases is
  exact allowed

/-- A switch leads to a fair process with the flag lowered, when the flag was raised
only for a level view of a level that is available. -/
theorem switchToView_fair {p p' : Process} {newView : View} {time : ℚ} {force : Bool} {forced : View}
    (fair : Fair campaign allLevels progress p)
    (loaded : app.allLevels = some allLevels ∧ app.progress = some progress)
    (flag : p.screens.didPressCampaignLevel = true → newView = .levelPlay ∧
      ∀ level, p.screens.currentLevel = some level → Available allLevels progress level)
    (success : CampaignPlay.switchToView app p newView time force forced = some p') :
    Fair campaign allLevels progress p' ∧ p'.screens.didPressCampaignLevel = false := by
  obtain ⟨screens, switched, rest⟩ := Option.bind_eq_some_iff.mp success
  obtain ⟨sameLevel, handed, kept⟩ := switch_flag switched
  have current : ∀ level, screens.currentLevel = some level → Allowed campaign progress level := by
    rw [sameLevel]
    exact fair.current
  have onScreens : Fair campaign allLevels progress { p with screens := screens } :=
    ⟨fair.tiles, current, fair.views, fair.played, fair.next⟩
  have lowered : newView ≠ .levelPlay → screens.didPressCampaignLevel = false := by
    intro other
    rw [kept other]
    cases raised : p.screens.didPressCampaignLevel with
    | false => rfl
    | true => exact absurd (flag raised).1 other
  cases newView with
  | levelPlay =>
    obtain ⟨level, isLevel, rest⟩ := Option.bind_eq_some_iff.mp rest
    obtain ⟨screen, isScreen, rest⟩ := Option.bind_eq_some_iff.mp rest
    cases rest
    obtain ⟨low, same⟩ := handed rfl
    have sameFlag := same screen isScreen
    refine ⟨onScreens.append (fair.current level isLevel) fun raised => ?_, low⟩
    exact (flag (sameFlag.symm.trans raised)).2 level isLevel
  | campaignLevelSelect =>
    simp only [loaded.1, loaded.2, bind, Option.bind_some] at rest
    obtain ⟨tiles, built, rest⟩ := Option.bind_eq_some_iff.mp rest
    cases rest
    exact ⟨⟨updateLevels_tiles built, current, fair.views, fair.played, fair.next⟩, lowered (by simp)⟩
  | _ =>
    cases rest
    exact ⟨onScreens, lowered (by simp)⟩

/-- With the flag lowered every switch does. -/
theorem switchToView_lowered {p p' : Process} {newView : View} {time : ℚ} {force : Bool} {forced : View}
    (fair : Fair campaign allLevels progress p)
    (loaded : app.allLevels = some allLevels ∧ app.progress = some progress)
    (lowered : p.screens.didPressCampaignLevel = false)
    (success : CampaignPlay.switchToView app p newView time force forced = some p') :
    Fair campaign allLevels progress p' ∧ p'.screens.didPressCampaignLevel = false := by
  apply switchToView_fair fair loaded _ success
  intro raised
  rw [lowered] at raised
  cases raised

/-- A tile and the next button play a level as a campaign level. -/
theorem switchToView_campaign {p p' : Process} {level : LevelData} {time : ℚ} {force : Bool}
    {forced : View} (fair : Fair campaign allLevels progress p)
    (loaded : app.allLevels = some allLevels ∧ app.progress = some progress)
    (available : Available allLevels progress level)
    (success : CampaignPlay.switchToView app (p.chooseLevel level true) .levelPlay time force forced =
      some p') :
    Fair campaign allLevels progress p' ∧ p'.screens.didPressCampaignLevel = false := by
  refine switchToView_fair (fair.chooseLevel available.allowed true) loaded (fun _ => ⟨rfl, ?_⟩) success
  intro other is
  cases is
  exact available

/-- A tile that is not locked. -/
theorem pressLevel_fair {p p' : Process} (fair : Fair campaign allLevels progress p)
    (loaded : app.allLevels = some allLevels ∧ app.progress = some progress)
    (lowered : p.screens.didPressCampaignLevel = false) {tile : Tile} (member : tile ∈ p.tiles)
    (success : campaignLevelSelect_pressLevel app p tile = some p') :
    Fair campaign allLevels progress p' ∧ p'.screens.didPressCampaignLevel = false := by
  unfold campaignLevelSelect_pressLevel at success
  split at success
  · cases success
    exact ⟨fair, lowered⟩
  · next free =>
    have available := fair.tiles tile member (by simpa using free)
    exact switchToView_campaign fair loaded available success

/-- The next button of a level view that was beaten as a campaign level. -/
theorem nextLevel_fair (shipped : Campaign campaign) (listed : allLevels.Subperm campaign)
    {p p' : Process} (fair : Fair campaign allLevels progress p)
    (loaded : app.allLevels = some allLevels ∧ app.progress = some progress)
    (lowered : p.screens.didPressCampaignLevel = false) {view : CampaignPlay.LevelView}
    (member : view ∈ p.levelViews) (raised : view.campaignLevel = true) (beat : view.beatLevel = true)
    (success : level_nextLevel app p view.level = some p') :
    Fair campaign allLevels progress p' ∧ p'.screens.didPressCampaignLevel = false := by
  obtain ⟨metadata, is, switched⟩ := Option.bind_eq_some_iff.mp success
  simp only [loaded.1, bind, Option.bind_some] at switched
  obtain ⟨found, byNumber, switched⟩ := Option.bind_eq_some_iff.mp switched
  cases found with
  | none =>
    cases switched
    exact ⟨fair, lowered⟩
  | some next =>
    have has := fair.next view member raised beat metadata next is byNumber
    obtain ⟨found, lookedUp, facts⟩ := getLevelFromLevelNumber_cases shipped
      (fun _ member => listed.subset member) (metadata.levelNumber + 1)
    cases byNumber.symm.trans lookedUp
    exact switchToView_campaign fair loaded ⟨(facts next rfl).1, has⟩ switched

end Process

/-- Every completion called so far was of a level opened before it. -/
def Logged (campaign : List LevelData) (history : List Happening) : Prop :=
  ∀ before allLevels uuid after,
    history = before ++ .completedCampaignLevel allLevels uuid :: after →
    ∃ level ∈ allLevels, uuidOf level = uuid ∧ Opened campaign before level

/-- The invariant of the session: every completion called so far was of an opened
level, the store and the file are what the history accounts for, and a running
process is fair. -/
structure Gated (campaign : List LevelData) (s : Session) : Prop where
  log : Logged campaign s.history
  file : ∀ progress, s.app.file = some progress → Stored campaign s.history progress
  running : ∀ p, s.process = some p → ∃ allLevels progress, s.app.allLevels = some allLevels ∧
    s.app.progress = some progress ∧ allLevels.Subperm campaign ∧
    Stored campaign s.history progress ∧ Fair campaign allLevels progress p ∧
    p.screens.didPressCampaignLevel = false

section Session
variable {campaign : List LevelData} {s : Session}

/-- The log with one more happening. -/
theorem log_concat {history : List Happening} {happening : Happening} (log : Logged campaign history)
    (last : ∀ allLevels uuid, happening = .completedCampaignLevel allLevels uuid →
      ∃ level ∈ allLevels, uuidOf level = uuid ∧ Opened campaign history level) :
    Logged campaign (history ++ [happening]) := by
  intro before allLevels uuid after split
  rcases List.eq_nil_or_concat after with rfl | ⟨front, final, rfl⟩
  · obtain ⟨rfl, same⟩ := List.append_inj' split rfl
    cases same
    exact last allLevels uuid rfl
  · have shifted : before ++ .completedCampaignLevel allLevels uuid :: (front ++ [final]) =
        (before ++ .completedCampaignLevel allLevels uuid :: front) ++ [final] := by simp
    rw [List.concat_eq_append, shifted] at split
    exact log before allLevels uuid front (List.append_inj' split rfl).1

theorem crash_gated (gated : Gated campaign s) : Gated campaign s.crash :=
  ⟨gated.log, gated.file, fun _ is => by cases is⟩

/-- A press on a screen of the running process. -/
theorem proceed_gated (gated : Gated campaign s) {p : Process} (runs : s.process = some p)
    {next : Option Process}
    (keeps : ∀ allLevels progress, s.app.allLevels = some allLevels ∧ s.app.progress = some progress →
      allLevels.Subperm campaign → Fair campaign allLevels progress p →
      p.screens.didPressCampaignLevel = false → ∀ p', next = some p' →
      Fair campaign allLevels progress p' ∧ p'.screens.didPressCampaignLevel = false) :
    Gated campaign (s.proceed next) := by
  obtain ⟨allLevels, progress, hasLevels, hasProgress, listed, stored, fair, lowered⟩ := gated.running p runs
  cases next with
  | none => exact crash_gated gated
  | some p' =>
    refine ⟨gated.log, gated.file, ?_⟩
    intro q is
    cases is
    exact ⟨allLevels, progress, hasLevels, hasProgress, listed, stored,
      keeps allLevels progress ⟨hasLevels, hasProgress⟩ listed fair lowered p' rfl⟩

theorem completed_loaded {record : Progress → Outcome} {written : Nat → Bool} {attempts : Nat}
    {app : App} {progress : Progress} (loaded : app.progress = some progress) :
    app.completed record true written attempts = some (app.settle written (record progress)) := by
  unfold App.completed
  simp only [loaded]

/-- Beating a level view of a fair process. -/
theorem didBeatLevel_gated (shipped : Campaign campaign) (gated : Gated campaign s) {p : Process}
    (runs : s.process = some p) {i : Nat} {view : CampaignPlay.LevelView}
    (present : p.levelViews[i]? = some view)
    (dist time : CGFloat) : Gated campaign (didBeatLevel s p i view dist time) := by
  obtain ⟨allLevels, progress, hasLevels, hasProgress, listed, stored, fair, lowered⟩ := gated.running p runs
  have member := List.mem_of_getElem? present
  obtain ⟨level, campaignLevel, beatLevel⟩ := view
  unfold didBeatLevel
  cases entered : levelProgressData level dist time with
  | none => exact crash_gated gated
  | some data =>
    obtain ⟨conditions, _, rest⟩ := Option.bind_eq_some_iff.mp entered
    have own : data.uuid = uuidOf level := by cases rest; rfl
    have open_ : data.locked = false := by cases rest; rfl
    cases campaignLevel with
    | false =>
      let after := setProgressForUUID data progress
      have done : s.app.completedLevel data true (fun _ => true) =
          some { s.app with file := some after, progress := some after } := by
        rw [App.completedLevel, completed_loaded hasProgress]
        rfl
      have kept : Stored campaign s.history after :=
        recordLevel_stored own open_ stored (fair.views _ member)
      have keeps : ∀ other, Has progress other → Has after other := fun other has =>
        has_set.mpr (.inr has)
      have beaten := (fair.mono keeps).beat member (i := i) fun raised => by cases raised
      simp only [Bool.false_eq_true, if_false, done, Option.isNone_some]
      exact ⟨gated.log, fun q is => Option.some.inj is ▸ kept,
        fun q is => ⟨allLevels, after, hasLevels, rfl, listed, kept,
          Option.some.inj is ▸ beaten, Option.some.inj is ▸ lowered⟩⟩
    | true =>
      obtain ⟨inLevels, has⟩ := fair.played _ member rfl
      have recorded : Recorded campaign allLevels level data := ⟨shipped, listed, inLevels, own, open_⟩
      obtain ⟨after, finished, saved, kept, keeps, nextHas⟩ := recordCampaignLevel_stored recorded stored has
      have done : s.app.completedCampaignLevel data true (fun _ => true) =
          some { s.app with file := some after, progress := some after } := by
        rw [App.completedCampaignLevel, completed_loaded hasProgress]
        simp only [hasLevels, App.settle, finished, saved]
      have beaten := (fair.mono keeps).beat member (i := i) fun _ => nextHas
      simp only [if_true, done, Option.isNone_some, Bool.false_eq_true, if_false, hasLevels, Option.getD_some]
      refine ⟨?_, fun q is => Option.some.inj is ▸ kept,
        fun q is => ⟨allLevels, after, rfl, rfl, listed, kept,
          Option.some.inj is ▸ beaten, Option.some.inj is ▸ lowered⟩⟩
      apply log_concat gated.log
      intro levels uuid same
      cases same
      exact ⟨level, inLevels, own.symm, stored.opened _ (listed.subset inLevels) has⟩

theorem launch_gated (shipped : Campaign campaign) (gated : Gated campaign s)
    (enumerated : Loaded campaign) : Gated campaign (launch s enumerated.levels) := by
  have loads : ∃ progress history, s.app.launch enumerated.levels true =
        some ⟨s.app.file, some enumerated.levels, some progress⟩ ∧
      history = (if s.app.file.isNone then s.history ++ [Happening.startedNew enumerated.levels]
        else s.history) ∧
      Stored campaign history progress ∧
      (∀ q, s.app.file = some q → Stored campaign history q) ∧ Logged campaign history := by
    cases stored : s.app.file with
    | some progress =>
      refine ⟨progress, s.history, ?_, rfl, gated.file progress stored, ?_, gated.log⟩
      · simp [App.launch, App.loadProgress, File.loadProgress, stored]
      · intro q is
        cases is
        exact gated.file progress stored
    | none =>
      refine ⟨_, _, ?_, rfl, startingData_stored shipped enumerated.listed, by simp, ?_⟩
      · simp [App.launch, App.loadProgress, File.loadProgress, stored]
      · apply log_concat gated.log
        intro allLevels uuid same
        cases same
  obtain ⟨progress, history, launched, isHistory, stored, file, log⟩ := loads
  unfold launch
  simp only [launched, ← isHistory]
  split
  · exact ⟨log, file, fun _ is => by cases is⟩
  · next p built =>
    simp only [bind, Option.bind_some] at built
    obtain ⟨tiles, isTiles, built⟩ := Option.bind_eq_some_iff.mp built
    obtain ⟨screens, switched, built⟩ := Option.bind_eq_some_iff.mp built
    cases built
    cases switched
    refine ⟨log, file, ?_⟩
    intro q is
    cases is
    exact ⟨enumerated.levels, progress, rfl, rfl, enumerated.listed, stored,
      .initial rfl (updateLevels_tiles isTiles), rfl⟩

theorem step_gated (shipped : Campaign campaign) (s : Session) (e : Event campaign) (s' : Session)
    (gated : Gated campaign s) (success : (system campaign).step s e = some s') :
    Gated campaign s' := by
  cases e with
  | launch enumerated =>
    cases success
    exact launch_gated shipped gated enumerated
  | pressTile i =>
    obtain ⟨p, runs, rest⟩ := Option.bind_eq_some_iff.mp success
    obtain ⟨tile, present, rest⟩ := Option.bind_eq_some_iff.mp rest
    cases rest
    apply proceed_gated gated runs
    intro allLevels progress loaded _ fair lowered p' pressed
    exact pressLevel_fair fair loaded lowered (List.mem_of_getElem? present) pressed
  | beatLevel i dist time =>
    obtain ⟨p, runs, rest⟩ := Option.bind_eq_some_iff.mp success
    obtain ⟨view, present, rest⟩ := Option.bind_eq_some_iff.mp rest
    split at rest
    · cases rest
    · cases rest
      exact didBeatLevel_gated shipped gated runs present dist time
  | pressNext i =>
    obtain ⟨p, runs, rest⟩ := Option.bind_eq_some_iff.mp success
    obtain ⟨view, present, rest⟩ := Option.bind_eq_some_iff.mp rest
    split at rest
    · next shown =>
      cases rest
      obtain ⟨beat, raised⟩ := (Bool.and_eq_true _ _).mp shown
      apply proceed_gated gated runs
      intro allLevels progress loaded listed fair lowered p' pressed
      exact nextLevel_fair shipped listed fair loaded lowered (List.mem_of_getElem? present) raised beat
        pressed
    · cases rest
  | pressHome =>
    obtain ⟨p, runs, rest⟩ := Option.bind_eq_some_iff.mp success
    cases rest
    apply proceed_gated gated runs
    intro allLevels progress loaded _ fair lowered p' switched
    obtain ⟨levelView, _, switched⟩ := Option.bind_eq_some_iff.mp switched
    exact switchToView_lowered fair loaded lowered switched
  | navigate screen menu =>
    obtain ⟨p, runs, rest⟩ := Option.bind_eq_some_iff.mp success
    cases rest
    apply proceed_gated gated runs
    intro allLevels progress loaded _ fair lowered p' switched
    exact switchToView_lowered fair loaded lowered switched
  | playLevel level =>
    obtain ⟨p, runs, rest⟩ := Option.bind_eq_some_iff.mp success
    cases rest
    apply proceed_gated gated runs
    intro allLevels progress loaded _ fair lowered p' switched
    exact switchToView_lowered (fair.chooseLevel (.inl level.other) false) loaded lowered switched
  | editLevel level =>
    obtain ⟨p, runs, rest⟩ := Option.bind_eq_some_iff.mp success
    cases rest
    apply proceed_gated gated runs
    intro allLevels progress loaded _ fair lowered p' switched
    exact switchToView_lowered (fair.chooseLevel (.inl level.other) false) loaded lowered switched
  | previewLevel level =>
    obtain ⟨p, runs, rest⟩ := Option.bind_eq_some_iff.mp success
    cases rest
    change Gated campaign (s.proceed (some _))
    apply proceed_gated gated runs
    intro allLevels progress _ _ fair lowered p' same
    cases same
    exact ⟨fair.append (.inl level.other) (fun raised => by cases raised), lowered⟩

end Session

/-- From an installation without a progress file, over every run of launches,
tiles, levels beaten, next and home buttons and other levels: every UUID passed to
`completedCampaignLevel` is that of a loaded level which was listed first by an
earlier launch without a file, or whose predecessor was completed earlier. Every
campaign level view there is shows a loaded level whose entry is unlocked, and no
force unwrap fails when it is completed. -/
theorem campaign_gated (campaign : List LevelData) (shipped : Campaign campaign)
    (events : List (Event campaign)) (t : Session)
    (success : (system campaign).run Session.installed events = some t) :
    (∀ before allLevels uuid after,
      t.history = before ++ .completedCampaignLevel allLevels uuid :: after →
      ∃ level ∈ allLevels, uuidOf level = uuid ∧ Opened campaign before level) ∧
    ∀ p, t.process = some p → ∀ view ∈ p.levelViews, view.campaignLevel = true →
      ∃ allLevels progress, t.app.allLevels = some allLevels ∧ t.app.progress = some progress ∧
        view.level ∈ allLevels ∧
        (∃ e, entry (uuidOf view.level) progress = some e ∧ e.locked = false) ∧
        ∀ dist time data, levelProgressData view.level dist time = some data →
          (recordCampaignLevel allLevels data progress).progress.isSome := by
  have start : Gated campaign Session.installed :=
    ⟨by simp [Logged, Session.installed], by simp [Session.installed, App.installed],
      by simp [Session.installed]⟩
  have gated := (system campaign).run_invariant (step_gated shipped) start success
  refine ⟨gated.log, ?_⟩
  intro p runs view member raised
  obtain ⟨allLevels, progress, hasLevels, hasProgress, listed, stored, fair, _⟩ := gated.running p runs
  obtain ⟨inLevels, has⟩ := fair.played view member raised
  refine ⟨allLevels, progress, hasLevels, hasProgress, inLevels, stored.entry_unlocked has, ?_⟩
  intro dist time data entered
  obtain ⟨conditions, _, rest⟩ := Option.bind_eq_some_iff.mp entered
  have recorded : Recorded campaign allLevels view.level data :=
    ⟨shipped, listed, inLevels, by cases rest; rfl, by cases rest; rfl⟩
  obtain ⟨after, finished, _⟩ := recordCampaignLevel_stored recorded stored has
  rw [finished]
  rfl

noncomputable def shippedLevel (levelUUID : String) (levelNumber : Int) : LevelData :=
  { levelMetadata := some { levelUUID := some levelUUID, levelNumber := levelNumber },
    levelConditions := some ⟨200, 5⟩, propFrame := some ⟨0, 0, 1, 1⟩ }

noncomputable def shippedLevels : List LevelData := [shippedLevel "a" 1, shippedLevel "b" 2]

theorem shippedLevels_campaign : Campaign shippedLevels where
  complete := by
    intro level member
    rcases List.mem_cons.mp member with rfl | last
    · rfl
    · rw [List.mem_singleton.mp last]
      rfl
  uuids := by
    have uuids : shippedLevels.map uuidOf = [some "a", some "b"] := rfl
    rw [uuids]
    decide
  numbers := by
    have numbers : shippedLevels.map numberOf = [some 1, some 2] := rfl
    rw [numbers]
    decide

/-- Level a is pressed and beaten, and its next button leads to level b. -/
noncomputable def playThrough : List (Event shippedLevels) :=
  [.launch ⟨shippedLevels, List.Subperm.refl _⟩, .pressTile 0, .beatLevel 0 100 3, .pressNext 0,
   .beatLevel 1 100 3]

theorem playThrough_gated : ∃ t, (system shippedLevels).run Session.installed playThrough = some t ∧
    ∃ level ∈ shippedLevels, uuidOf level = some "b" ∧
      Opened shippedLevels [.startedNew shippedLevels, .completedCampaignLevel shippedLevels (some "a")]
        level :=
  ⟨_, rfl, (campaign_gated shippedLevels shippedLevels_campaign playThrough _ rfl).1
    [.startedNew shippedLevels, .completedCampaignLevel shippedLevels (some "a")] shippedLevels
    (some "b") [] rfl⟩

end Arthius.Guarantees.CampaignGating
