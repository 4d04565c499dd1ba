import Arthius.Guarantees.TextsShownOnce

/-!
# The label and the current text

`nextText` switches `currentText` at once. The label follows at once too, unless
the old text is animated out: then a block follows later, with the text it was
given. A text that comes up while an earlier block is pending is overwritten by
that block. As long as every text that comes up reads the same as the blocks
that are pending, the label shows the current text whenever none is.
-/
namespace Arthius.Guarantees.TextLabel
open Arthius.Lib Arthius.Source Arthius.Source.LevelTexts Arthius.Guarantees.TextsShownOnce

/-- The step condition: a trigger that brings up a text finds only blocks
pending that read the same. -/
def SameText (texts : List LevelText) (s : State) : Event → Prop
  | .trigger trigger random => ∀ next, target texts random s trigger = some next →
      ∀ block ∈ s.pending, block.text.text = next.text
  | _ => True

/-- With no block pending, the label shows the current text. -/
def Settled (s : State) : Prop :=
  s.pending = [] → ∀ current, s.currentText = some current → s.currentTextsLabel.text = current.text

/-- The invariant: pending blocks read as the current text does. -/
structure Agrees (s : State) : Prop where
  settled : Settled s
  pending : ∀ block ∈ s.pending, ∀ current, s.currentText = some current →
    block.text.text = current.text

section Steps
variable (texts : List LevelText)

theorem step_wait {s : State} (alive : s.alive = true) {seconds : CGFloat} (nonneg : 0 ≤ seconds) :
    (levelTexts texts).step s (.wait seconds) = some { s with now := s.now + seconds } := by
  simp [levelTexts, step, alive, nonneg]

theorem step_fire {s : State} (alive : s.alive = true) {j : Nat} {block : Block}
    (present : s.pending[j]? = some block) (due : block.deadline ≤ s.now) :
    (levelTexts texts).step s (.fire j) =
      some (updateLevelText texts { s with pending := s.pending.eraseIdx j } block.text) := by
  simp [levelTexts, step, fire, alive, present, due]

/-- A trigger that finds no block pending meets the condition. -/
theorem sameText_of_settled {s : State} (settled : s.pending = []) (e : Event) : SameText texts s e := by
  cases e with
  | trigger trigger random =>
    intro next _ block member
    rw [settled] at member
    cases member
  | wait seconds => trivial
  | fire j => trivial

/-- A text that comes up is current, and either the label shows it or the last
block pending does. -/
theorem showText_cases (s : State) (old : Option LevelText) (next : LevelText) :
    ((showText texts s old next).pending = s.pending ∧
      (showText texts s old next).currentTextsLabel.text = next.text ∧
      (showText texts s old next).alive = next.propFrame.isSome) ∨
    ∃ deadline, (showText texts s old next).pending = s.pending ++ [⟨next, deadline⟩] ∧
      (showText texts s old next).alive = s.alive := by
  unfold showText
  cases old with
  | none => exact .inl ⟨rfl, rfl, rfl⟩
  | some old =>
    cases out : old.animateOut with
    | false => exact .inl (by simp [out, updateLevelText])
    | true => exact .inr ⟨s.now + old.animateTime, by simp [out]⟩

/-- A trigger changes only the completed texts, or brings up its target. -/
theorem trigger_cases (s : State) (random : Nat) (trigger : LevelTextTriggers) :
    (target texts random s trigger = none ∧ ∃ completed,
      levelTextTriggerOccured texts random s trigger = { s with completedText := completed }) ∨
    ∃ next old completed, target texts random s trigger = some next ∧
      levelTextTriggerOccured texts random s trigger =
        showText texts { s with completedText := completed } old next := by
  rw [trigger_eq]
  unfold target
  cases oldText texts s trigger with
  | none => exact .inl ⟨rfl, s.completedText, rfl⟩
  | some old =>
    simp only [Option.bind_some]
    cases follower texts random s old with
    | none => exact .inl ⟨rfl, completedAfter s old, rfl⟩
    | some next => exact .inr ⟨next, old, completedAfter s old, rfl, rfl⟩

theorem showText_agrees {s : State} {old : Option LevelText} {next : LevelText}
    (same : ∀ block ∈ s.pending, block.text.text = next.text) :
    Agrees (showText texts s old next) := by
  have isNext : ∀ current, (showText texts s old next).currentText = some current → next = current := by
    simp
  rcases showText_cases texts s old next with ⟨pending, label, _⟩ | ⟨deadline, pending, _⟩
  · constructor
    · intro _ current is
      rw [label, isNext current is]
    · intro block member current is
      rw [pending] at member
      rw [same block member, isNext current is]
  · constructor
    · intro empty
      rw [pending] at empty
      simp at empty
    · intro block member current is
      rw [pending] at member
      rw [← isNext current is]
      rcases List.mem_append.mp member with earlier | last
      · exact same block earlier
      · rw [List.mem_singleton.mp last]

theorem fire_agrees {s s' : State} {j : Nat} (agrees : Agrees s) (success : fire texts s j = some s') :
    Agrees s' := by
  obtain ⟨block, present, _, rfl⟩ := fire_cases texts s success
  constructor
  · intro _ current is
    exact agrees.pending block (List.mem_of_getElem? present) current is
  · intro other member current is
    exact agrees.pending other (List.mem_of_mem_eraseIdx member) current is

theorem step_agrees (s : State) (e : Event) (s' : State) (agrees : Agrees s)
    (same : SameText texts s e) (success : (levelTexts texts).step s e = some s') : Agrees s' := by
  simp only [levelTexts, step] at success
  split at success
  · cases e with
    | trigger trigger random =>
      cases success
      rcases trigger_cases texts s random trigger with ⟨_, completed, kept⟩ | ⟨next, old, completed, found, shown⟩
      · rw [kept]
        exact ⟨agrees.settled, agrees.pending⟩
      · rw [shown]
        exact showText_agrees texts (same next found)
    | wait seconds =>
      simp only at success
      split at success
      · cases success
        exact ⟨agrees.settled, agrees.pending⟩
      · cases success
    | fire j => exact fire_agrees texts agrees success
  · cases success

end Steps

section Frames
variable {texts : List LevelText} (framed : ∀ text ∈ texts, text.propFrame.isSome)
include framed

theorem getLevelTextWithId_framed {id : Option Int} {text : LevelText}
    (found : getLevelTextWithId id texts = some text) : text.propFrame.isSome := by
  induction texts with
  | nil => cases found
  | cons head rest ih =>
    unfold getLevelTextWithId at found
    split at found
    · cases found
      rfl
    · split at found
      · cases found
        exact framed _ List.mem_cons_self
      · exact ih (fun text member => framed text (List.mem_cons_of_mem _ member)) found

theorem getFirstText_framed {random : Nat} {text : LevelText}
    (found : getFirstText random texts = some text) : text.propFrame.isSome := by
  simp only [getFirstText] at found
  split at found
  · exact framed text (List.mem_of_mem_filter (List.mem_of_getElem? found))
  · cases found

theorem target_framed {s : State} {random : Nat} {trigger : LevelTextTriggers} {next : LevelText}
    (found : target texts random s trigger = some next) : next.propFrame.isSome := by
  obtain ⟨old, _, followed⟩ := Option.bind_eq_some_iff.mp found
  have followed := (Option.filter_eq_some_iff.mp followed).1
  cases old with
  | none => exact getFirstText_framed framed followed
  | some old => exact getLevelTextWithId_framed framed followed

end Frames

/-- The view has not trapped, and no pending block will trap. -/
structure Framed (s : State) : Prop where
  alive : s.alive = true
  pending : ∀ block ∈ s.pending, block.text.propFrame.isSome

section Late
variable {texts : List LevelText}

theorem trigger_framed (framed : ∀ text ∈ texts, text.propFrame.isSome) {s : State} (safe : Framed s)
    (random : Nat) (trigger : LevelTextTriggers) :
    Framed (levelTextTriggerOccured texts random s trigger) := by
  rcases trigger_cases texts s random trigger with ⟨_, completed, kept⟩ | ⟨next, old, completed, found, shown⟩
  · rw [kept]
    exact ⟨safe.alive, safe.pending⟩
  · have framed := target_framed framed found
    rw [shown]
    rcases showText_cases texts { s with completedText := completed } old next with
      ⟨pending, _, alive⟩ | ⟨deadline, pending, alive⟩
    · exact ⟨by rw [alive, framed], by rw [pending]; exact safe.pending⟩
    · constructor
      · rw [alive]
        exact safe.alive
      · intro block member
        rw [pending] at member
        rcases List.mem_append.mp member with earlier | last
        · exact safe.pending block earlier
        · rw [List.mem_singleton.mp last]
          exact framed

theorem fire_framed {s : State} (safe : Framed s) {j : Nat} {block : Block}
    (present : s.pending[j]? = some block) :
    Framed (updateLevelText texts { s with pending := s.pending.eraseIdx j } block.text) where
  alive := safe.pending block (List.mem_of_getElem? present)
  pending := fun other member => safe.pending other (List.mem_of_mem_eraseIdx member)

theorem step_framed (framed : ∀ text ∈ texts, text.propFrame.isSome) (s : State) (e : Event)
    (s' : State) (safe : Framed s) (success : (levelTexts texts).step s e = some s') : Framed s' := by
  simp only [levelTexts, step, safe.alive, if_true] at success
  cases e with
  | trigger trigger random =>
    cases success
    exact trigger_framed framed safe random trigger
  | wait seconds =>
    simp only at success
    split at success
    · cases success
      exact ⟨rfl, safe.pending⟩
    · cases success
  | fire j =>
    obtain ⟨block, present, _, rfl⟩ := fire_cases texts s success
    exact fire_framed safe present

/-- Every pending block is due, and none will trap. -/
structure Ready (s : State) : Prop extends Framed s where
  due : ∀ block ∈ s.pending, block.deadline ≤ s.now

theorem fire_ready (texts : List LevelText) {s : State} (ready : Ready s) {j : Nat} {block : Block}
    (present : s.pending[j]? = some block) :
    ∃ s', (levelTexts texts).step s (.fire j) = some s' ∧ Ready s' ∧
      s'.pending = s.pending.eraseIdx j ∧ s'.currentText = s.currentText ∧
      s'.currentTextsLabel.text = block.text.text := by
  have success := step_fire texts ready.alive present (ready.due block (List.mem_of_getElem? present))
  have due : ∀ other ∈ s.pending.eraseIdx j, other.deadline ≤ s.now := fun other member =>
    ready.due other (List.mem_of_mem_eraseIdx member)
  exact ⟨_, success, ⟨fire_framed ready.toFramed present, due⟩, rfl, rfl, rfl⟩

/-- Some continuation leaves no block pending and the label showing `text`. -/
def CanShow (texts : List LevelText) (s : State) (text : Option String) : Prop :=
  ∃ events t, (levelTexts texts).run s events = some t ∧ t.pending = [] ∧
    t.currentText = s.currentText ∧ t.currentTextsLabel.text = text

/-- Firing one block on the way to the last. -/
theorem CanShow.of_fire {s : State} (ready : Ready s) {j : Nat} {block : Block} {text : Option String}
    (present : s.pending[j]? = some block)
    (later : ∀ s', Ready s' → s'.pending = s.pending.eraseIdx j → CanShow texts s' text) :
    CanShow texts s text := by
  obtain ⟨s', success, ready', pending, current, _⟩ := fire_ready texts ready present
  obtain ⟨events, t, rest, settled, same, shows⟩ := later s' ready' pending
  exact ⟨.fire j :: events, t, (levelTexts texts).run_cons_some.mpr ⟨s', success, rest⟩, settled,
    same.trans current, shows⟩

/-- Of the blocks that are due any one can be the last to fire: those before it
go first, then those after it. -/
theorem fires_last {block : Block} (before after : List Block) (s : State) (ready : Ready s)
    (split : s.pending = before ++ block :: after) : CanShow texts s block.text.text := by
  induction before generalizing s with
  | cons first before ih =>
    have present : s.pending[0]? = some first := by simp [split]
    apply CanShow.of_fire ready present
    intro s' ready' pending
    apply ih s' ready'
    simpa [split] using pending
  | nil =>
    induction after generalizing s with
    | cons second after ih =>
      have present : s.pending[1]? = some second := by simp [split]
      apply CanShow.of_fire ready present
      intro s' ready' pending
      apply ih s' ready'
      simpa [split] using pending
    | nil =>
      have present : s.pending[0]? = some block := by simp [split]
      obtain ⟨s', success, _, pending, current, shows⟩ := fire_ready texts ready present
      have settled : s'.pending = [] := by simpa [split] using pending
      exact ⟨[.fire 0], s', (levelTexts texts).run_cons_some.mpr ⟨s', success, rfl⟩, settled, current,
        shows⟩

/-- After a trigger that does not meet the condition, waiting and the pending
blocks alone can leave the label with another text than the current one. -/
theorem trigger_overwritten (framed : ∀ text ∈ texts, text.propFrame.isSome) {s : State}
    (safe : Framed s) {trigger : LevelTextTriggers} {random : Nat}
    (taken : ¬ SameText texts s (.trigger trigger random)) :
    ∃ events t, (levelTexts texts).run s (.trigger trigger random :: events) = some t ∧
      ¬ Settled t ∧ t.pending = [] := by
  simp only [SameText, not_forall] at taken
  obtain ⟨next, found, block, pending, differs⟩ := taken
  let shown := levelTextTriggerOccured texts random s trigger
  have triggered : (levelTexts texts).step s (.trigger trigger random) = some shown := by
    simp [levelTexts, step, safe.alive, shown]
  have facts : shown.currentText = some next ∧ block ∈ shown.pending := by
    rcases trigger_cases texts s random trigger with ⟨absent, _⟩ | ⟨same, old, completed, found', is⟩
    · rw [found] at absent
      cases absent
    · cases found.symm.trans found'
      simp only [shown, is, showText_currentText, true_and]
      rcases showText_cases texts { s with completedText := completed } old next with
        ⟨kept, _⟩ | ⟨deadline, more, _⟩
      · rw [kept]
        exact pending
      · rw [more]
        exact List.mem_append_left _ pending
  obtain ⟨seconds, nonneg, due⟩ := exists_wait Block.deadline shown.pending shown.now
  have safe := trigger_framed framed safe random trigger
  let waited := { shown with now := shown.now + seconds }
  have waits : (levelTexts texts).step shown (.wait seconds) = some waited :=
    step_wait texts safe.alive nonneg
  have ready : Ready waited := ⟨⟨safe.alive, safe.pending⟩, due⟩
  obtain ⟨before, after, split⟩ := List.append_of_mem facts.2
  obtain ⟨events, t, success, settled, current, shows⟩ := fires_last before after waited ready split
  refine ⟨.wait seconds :: events, t, ?_, ?_, settled⟩
  · exact (levelTexts texts).run_cons_some.mpr ⟨shown, triggered,
      (levelTexts texts).run_cons_some.mpr ⟨waited, waits, success⟩⟩
  · intro same
    have reads := same settled next (current.trans facts.1)
    exact differs (shows.symm.trans reads)

end Late

/-- For any list of texts, over every run of triggers, waits and delayed blocks
whose triggers all meet the condition, the label shows the current text whenever
no block is pending. And from every state such a run reaches, when every text has
a frame, a trigger that does not meet it can end with another text on the label. -/
theorem label_shows_current (texts : List LevelText) (events : List Event) (t : State)
    (same : (levelTexts texts).Meets (SameText texts) {} events)
    (success : (levelTexts texts).run {} events = some t) :
    Settled t ∧
    ((∀ text ∈ texts, text.propFrame.isSome) → ∀ trigger random,
      ¬ SameText texts t (.trigger trigger random) →
      ∃ later u, (levelTexts texts).run t (.trigger trigger random :: later) = some u ∧
        ¬ Settled u ∧ u.pending = []) := by
  have start : Agrees {} := ⟨by simp [Settled], by simp⟩
  constructor
  · exact ((levelTexts texts).run_invariant_of_meets (step_agrees texts) start same success).settled
  · intro framed trigger random taken
    have safe : Framed t :=
      (levelTexts texts).run_invariant (step_framed framed) ⟨rfl, by simp⟩ success
    exact trigger_overwritten framed safe taken

/-- The first text is animated out for a second, the other two are not. -/
noncomputable def fadingTexts : List LevelText :=
  [{ id := 1, text := some "A", triggerOn := some .start, nextText := 2, animateTime := 1,
     animateOut := true, propFrame := some ⟨0, 0, 1, 1⟩ },
   { id := 2, text := some "B", triggerOn := some .tap, nextText := 3, propFrame := some ⟨0, 0, 1, 1⟩ },
   { id := 3, text := some "C", triggerOn := some .tap, nextText := 4, propFrame := some ⟨0, 0, 1, 1⟩ }]

/-- The second tap waits for the block. -/
def patientTaps : List Event :=
  [.trigger .start 0, .trigger .tap 0, .wait 1, .fire 0, .trigger .tap 0]

/-- The second tap comes before the block. -/
def hastyTaps : List Event :=
  [.trigger .start 0, .trigger .tap 0, .trigger .tap 0, .wait 1, .fire 0]

theorem patientTaps_label : ∃ t, (levelTexts fadingTexts).run {} patientTaps = some t ∧ Settled t ∧
    t.pending = [] ∧ t.currentText.bind LevelText.text = some "C" := by
  have same : (levelTexts fadingTexts).Meets (SameText fadingTexts) {} patientTaps := by
    apply (Machine.meets_cons _ rfl).mpr
    apply And.intro (sameText_of_settled _ rfl _)
    apply (Machine.meets_cons _ rfl).mpr
    apply And.intro (sameText_of_settled _ rfl _)
    apply (Machine.meets_cons _ (step_wait _ rfl zero_le_one)).mpr
    apply And.intro trivial
    apply (Machine.meets_cons _ (step_fire _ rfl rfl (le_refl _))).mpr
    apply And.intro trivial
    apply (Machine.meets_cons _ rfl).mpr
    exact ⟨sameText_of_settled _ rfl _, trivial⟩
  have reached : ∃ t, (levelTexts fadingTexts).run {} patientTaps = some t ∧
      t.pending = [] ∧ t.currentText.bind LevelText.text = some "C" := by
    simp [patientTaps, Machine.run, levelTexts, step, levelTextTriggerOccured, fadingTexts,
      getLevelTextWithId, nextText, showText, updateLevelText, getFirstText,
      DownloadCounter.arc4randomUniform, fire]
  obtain ⟨t, success, settled, current⟩ := reached
  exact ⟨t, success, (label_shows_current fadingTexts patientTaps t same success).1, settled, current⟩

/-- No block is pending any more, and the label shows B while C is current. -/
theorem hastyTaps_label : (fadingTexts.map LevelText.id).Nodup ∧
    ∃ t, (levelTexts fadingTexts).run {} hastyTaps = some t ∧ t.pending = [] ∧
      t.currentText.bind LevelText.text = some "C" ∧ t.currentTextsLabel.text = some "B" ∧
      ¬ Settled t := by
  have reached : ∃ t, (levelTexts fadingTexts).run {} hastyTaps = some t ∧ t.pending = [] ∧
      t.currentText.bind LevelText.text = some "C" ∧ t.currentTextsLabel.text = some "B" := by
    simp [hastyTaps, Machine.run, levelTexts, step, levelTextTriggerOccured, fadingTexts,
      getLevelTextWithId, nextText, showText, updateLevelText, getFirstText,
      DownloadCounter.arc4randomUniform, fire]
  obtain ⟨t, success, settled, current, label⟩ := reached
  refine ⟨by simp [fadingTexts], t, success, settled, current, label, ?_⟩
  intro same
  obtain ⟨text, is, reads⟩ := Option.bind_eq_some_iff.mp current
  have shows : t.currentTextsLabel.text = some "C" := (same settled text is).trans reads
  simp [label] at shows

end Arthius.Guarantees.TextLabel
