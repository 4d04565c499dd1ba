import Arthius.Source.LevelTexts

/-!
# Level texts and how often they are shown

A text that is left for the one it links to is recorded as completed, and a
completed text is never shown again. The end of a chain is different: a trigger
that finds no next text falls back to a first text without recording the one it
replaces. As long as every such fallback draws a text that is completed already,
each text shown is either completed or the current one, and none comes twice.
-/
namespace Arthius.Guarantees.TextsShownOnce
open Arthius.Lib Arthius.Source Arthius.Source.LevelTexts

section Steps
variable (texts : List LevelText) (random : Nat) (s : State)

/-- The old text with which a trigger calls `nextText`, if it does. -/
def oldText (trigger : LevelTextTriggers) : Option (Option LevelText) :=
  match getLevelTextWithId (s.currentText.map LevelText.nextText) texts with
  | some next => if next.triggerOn = some trigger then some s.currentText else none
  | none => some none

def completedAfter : Option LevelText → List Int
  | some old => s.completedText ++ [old.id]
  | none => s.completedText

/-- The text that follows an old one, unless it is completed. -/
def follower (old : Option LevelText) : Option LevelText :=
  (match old with
    | some old => getLevelTextWithId (some old.nextText) texts
    | none => getFirstText random texts).filter fun next => next.id ∉ completedAfter s old

/-- The text a trigger makes the current one. -/
def target (trigger : LevelTextTriggers) : Option LevelText :=
  (oldText texts s trigger).bind (follower texts random s)

/-- A trigger is ignored, or completes the old text and shows its follower. -/
theorem trigger_eq (trigger : LevelTextTriggers) :
    levelTextTriggerOccured texts random s trigger =
      match oldText texts s trigger with
      | none => s
      | some old => match follower texts random s old with
        | none => { s with completedText := completedAfter s old }
        | some next => showText texts { s with completedText := completedAfter s old } old next := by
  have next_eq : ∀ old, nextText texts random s old = match follower texts random s old with
      | none => { s with completedText := completedAfter s old }
      | some next => showText texts { s with completedText := completedAfter s old } old next := by
    intro old
    cases old with
    | none =>
      simp only [nextText, follower, completedAfter]
      cases getFirstText random texts with
      | none => rfl
      | some next => by_cases done : next.id ∈ s.completedText <;> simp [Option.filter, done]
    | some old =>
      simp only [nextText, follower, completedAfter]
      cases getLevelTextWithId (some old.nextText) texts with
      | none => rfl
      | some next =>
        by_cases done : next.id ∈ s.completedText ++ [old.id] <;> simp [Option.filter, done]
  simp only [levelTextTriggerOccured, oldText]
  cases getLevelTextWithId (s.currentText.map LevelText.nextText) texts with
  | none => exact next_eq none
  | some next =>
    by_cases called : next.triggerOn = some trigger
    · simp only [called, if_true]
      exact next_eq s.currentText
    · simp only [called, if_false]

@[simp] theorem showText_currentText (old : Option LevelText) (next : LevelText) :
    (showText texts s old next).currentText = some next := by
  unfold showText
  cases old with
  | none => rfl
  | some old => cases out : old.animateOut <;> simp [out, updateLevelText]

@[simp] theorem showText_completedText (old : Option LevelText) (next : LevelText) :
    (showText texts s old next).completedText = s.completedText := by
  unfold showText
  cases old with
  | none => rfl
  | some old => cases out : old.animateOut <;> simp [out, updateLevelText]

@[simp] theorem showText_becameCurrent (old : Option LevelText) (next : LevelText) :
    (showText texts s old next).becameCurrent = s.becameCurrent ++ [next] := by
  unfold showText
  cases old with
  | none => rfl
  | some old => cases out : old.animateOut <;> simp [out, updateLevelText]

/-- A firing block is due, and only touches the label. -/
theorem fire_cases {s' : State} {j : Nat} (success : fire texts s j = some s') :
    ∃ block, s.pending[j]? = some block ∧ block.deadline ≤ s.now ∧
      s' = updateLevelText texts { s with pending := s.pending.eraseIdx j } block.text := by
  obtain ⟨block, present, rest⟩ := Option.bind_eq_some_iff.mp success
  split at rest
  · next due =>
    cases rest
    exact ⟨block, present, due, rfl⟩
  · cases rest

end Steps

/-- The ids that have become current so far, in order. -/
def shownIds (s : State) : List Int := s.becameCurrent.map LevelText.id

/-- The step condition: a trigger that finds no text after the current one draws
a first text that is completed already, or finds none. -/
def FallbackCompleted (texts : List LevelText) (s : State) : Event → Prop
  | .trigger _ random => ∀ current, s.currentText = some current →
      getLevelTextWithId (some current.nextText) texts = none →
      ∀ first, getFirstText random texts = some first → first.id ∈ s.completedText
  | _ => True

/-- The invariant: no id twice, and every id shown is completed or current. -/
structure Recorded (texts : List LevelText) (s : State) : Prop where
  once : (shownIds s).Nodup
  recorded : ∀ id ∈ shownIds s, id ∈ s.completedText ∨ s.currentText.map LevelText.id = some id
  current : ∀ current, s.currentText = some current → current.id ∈ shownIds s
  fresh : s.currentText = none → shownIds s = []
  open_ : ∀ current, s.currentText = some current →
    getLevelTextWithId (some current.nextText) texts = none → current.id ∉ s.completedText

section Keep
variable {texts : List LevelText}

/-- A step that leaves the three fields alone keeps the invariant. -/
theorem Recorded.frame {s s' : State} (recorded : Recorded texts s)
    (current : s'.currentText = s.currentText) (completed : s'.completedText = s.completedText)
    (shown : s'.becameCurrent = s.becameCurrent) : Recorded texts s' := by
  have ids : shownIds s' = shownIds s := by rw [shownIds, shown, shownIds]
  exact ⟨ids ▸ recorded.once, by rw [ids, completed, current]; exact recorded.recorded,
    by rw [ids, current]; exact recorded.current, by rw [ids, current]; exact recorded.fresh,
    by rw [completed, current]; exact recorded.open_⟩

/-- Showing a text that is not completed, once all the others shown are. -/
theorem Recorded.show {s : State} (recorded : Recorded texts s) {old : Option LevelText}
    {next : LevelText} (fresh : next.id ∉ completedAfter s old)
    (closed : ∀ id ∈ shownIds s, id ∈ completedAfter s old) :
    Recorded texts (showText texts { s with completedText := completedAfter s old } old next) := by
  have new : next.id ∉ shownIds s := fun member => fresh (closed next.id member)
  have ids : shownIds (showText texts { s with completedText := completedAfter s old } old next) =
      shownIds s ++ [next.id] := by simp [shownIds]
  constructor
  · rw [ids]
    refine List.nodup_append.mpr ⟨recorded.once, List.nodup_singleton _, ?_⟩
    intro a seen b isNext same
    cases List.mem_singleton.mp isNext
    exact new (same ▸ seen)
  · intro id member
    rw [ids] at member
    rcases List.mem_append.mp member with seen | isNext
    · left
      simpa using closed id seen
    · right
      simp [List.mem_singleton.mp isNext]
  · intro current same
    simp only [showText_currentText, Option.some.injEq] at same
    rw [ids, ← same]
    exact List.mem_append_right _ (List.mem_singleton_self _)
  · intro absent
    simp at absent
  · intro current same _
    simp only [showText_currentText, Option.some.injEq] at same
    simpa [← same] using fresh

/-- Completing the current text when its follower is completed: it has one. -/
theorem Recorded.complete {s : State} (recorded : Recorded texts s) {old : LevelText}
    (isCurrent : s.currentText = some old)
    (linked : getLevelTextWithId (some old.nextText) texts ≠ none) :
    Recorded texts { s with completedText := completedAfter s (some old) } where
  once := recorded.once
  recorded := fun id member => by
    rcases recorded.recorded id member with done | current
    · exact .inl (List.mem_append_left _ done)
    · exact .inr current
  current := recorded.current
  fresh := recorded.fresh
  open_ := fun current same ended => by
    cases isCurrent.symm.trans same
    exact absurd ended linked

/-- With the old text completed, everything shown is. -/
theorem Recorded.closed {s : State} (recorded : Recorded texts s) :
    ∀ id ∈ shownIds s, id ∈ completedAfter s s.currentText := by
  intro id member
  rcases recorded.recorded id member with done | current
  · cases s.currentText with
    | none => exact done
    | some old => exact List.mem_append_left _ done
  · obtain ⟨old, isCurrent, rfl⟩ := Option.map_eq_some_iff.mp current
    rw [isCurrent]
    exact List.mem_append_right _ (List.mem_singleton_self _)

theorem trigger_recorded {s : State} (recorded : Recorded texts s) {random : Nat}
    {trigger : LevelTextTriggers} (completed : FallbackCompleted texts s (.trigger trigger random)) :
    Recorded texts (levelTextTriggerOccured texts random s trigger) := by
  rw [trigger_eq]
  cases called : oldText texts s trigger with
  | none => exact recorded
  | some old =>
    simp only
    -- the old text is the current one, or there is none to complete
    have which : (old = s.currentText ∧
          getLevelTextWithId (s.currentText.map LevelText.nextText) texts ≠ none) ∨
        (old = none ∧ getLevelTextWithId (s.currentText.map LevelText.nextText) texts = none) := by
      unfold oldText at called
      cases found : getLevelTextWithId (s.currentText.map LevelText.nextText) texts with
      | none =>
        simp only [found, Option.some.injEq] at called
        exact .inr ⟨called.symm, rfl⟩
      | some next =>
        simp only [found] at called
        split at called
        · exact .inl ⟨(Option.some.inj called).symm, by simp⟩
        · cases called
    cases followed : follower texts random s old with
    | none =>
      rcases which with ⟨same, linked⟩ | ⟨rfl, _⟩
      · cases old with
        | none => exact recorded.frame rfl rfl rfl
        | some current =>
          rw [← same] at linked
          exact recorded.complete same.symm linked
      · exact recorded.frame rfl rfl rfl
    | some next =>
      obtain ⟨found, fresh⟩ := Option.filter_eq_some_iff.mp followed
      have fresh : next.id ∉ completedAfter s old := by simpa using fresh
      rcases which with ⟨rfl, _⟩ | ⟨rfl, ended⟩
      · exact recorded.show fresh recorded.closed
      · cases isCurrent : s.currentText with
        | none =>
          apply recorded.show fresh
          intro id member
          rw [recorded.fresh isCurrent] at member
          cases member
        | some current =>
          rw [isCurrent] at ended
          exact absurd (completed current isCurrent ended next found) fresh

theorem step_recorded (s : State) (e : Event) (s' : State) (recorded : Recorded texts s)
    (completed : FallbackCompleted texts s e) (success : (levelTexts texts).step s e = some s') :
    Recorded texts s' := by
  simp only [levelTexts, step] at success
  split at success
  · cases e with
    | trigger trigger random =>
      cases success
      exact trigger_recorded recorded completed
    | wait seconds =>
      simp only at success
      split at success
      · cases success
        exact recorded.frame rfl rfl rfl
      · cases success
    | fire j =>
      obtain ⟨block, _, _, rfl⟩ := fire_cases texts s success
      exact recorded.frame rfl rfl rfl
  · cases success

/-- A fallback to a text that is not completed: the text comes a second time, or
the one it replaces is left unrecorded, so that nothing keeps it from coming
again. -/
theorem fallback_unrecorded {s : State} (recorded : Recorded texts s) {random : Nat}
    {trigger : LevelTextTriggers} (taken : ¬ FallbackCompleted texts s (.trigger trigger random)) :
    let after := levelTextTriggerOccured texts random s trigger
    ¬ (shownIds after).Nodup ∨ ∃ id ∈ shownIds after,
      id ∉ after.completedText ∧ after.currentText.map LevelText.id ≠ some id := by
  simp only [FallbackCompleted, not_forall] at taken
  obtain ⟨current, isCurrent, ended, first, drawn, fresh⟩ := taken
  have called : oldText texts s trigger = some none := by simp [oldText, isCurrent, ended]
  have followed : follower texts random s none = some first := by
    simp [follower, drawn, Option.filter, completedAfter, fresh]
  rw [trigger_eq, called]
  simp only [followed]
  by_cases seen : first.id ∈ shownIds s
  · left
    intro once
    simp only [shownIds, showText_becameCurrent, List.map_append, List.map_cons, List.map_nil] at once
    exact (List.nodup_append.mp once).2.2 first.id seen first.id (List.mem_singleton_self _) rfl
  · right
    have member := recorded.current current isCurrent
    refine ⟨current.id, ?_, ?_, ?_⟩
    · simp only [shownIds, showText_becameCurrent, List.map_append]
      exact List.mem_append_left _ member
    · simpa [completedAfter] using recorded.open_ current isCurrent ended
    · simp only [showText_currentText, Option.map_some, ne_eq, Option.some.injEq]
      intro same
      exact seen (same ▸ member)

end Keep

/-- For any list of texts, over every run of triggers, waits and delayed blocks
whose fallbacks all draw completed texts, no id becomes current twice. And in
every state such a run reaches, a trigger that does not meet the condition shows
an id for the second time or leaves one it has shown unrecorded. -/
theorem texts_shown_once (texts : List LevelText) (events : List Event) (t : State)
    (completed : (levelTexts texts).Meets (FallbackCompleted texts) {} events)
    (success : (levelTexts texts).run {} events = some t) :
    (shownIds t).Nodup ∧
    ∀ trigger random, ¬ FallbackCompleted texts t (.trigger trigger random) →
      let after := levelTextTriggerOccured texts random t trigger
      ¬ (shownIds after).Nodup ∨ ∃ id ∈ shownIds after,
        id ∉ after.completedText ∧ after.currentText.map LevelText.id ≠ some id := by
  have start : Recorded texts {} := ⟨List.nodup_nil, by simp [shownIds], by simp, fun _ => rfl, by simp⟩
  have recorded := (levelTexts texts).run_invariant_of_meets step_recorded start completed success
  exact ⟨recorded.once, fun trigger random taken => fallback_unrecorded recorded taken⟩

/-- Two texts, the first shown at the start and the second after a tap. -/
noncomputable def twoTexts : List LevelText :=
  [{ id := 1, text := some "A", triggerOn := some .start, nextText := 2, propFrame := some ⟨0, 0, 1, 1⟩ },
   { id := 2, text := some "B", triggerOn := some .tap, nextText := 3, propFrame := some ⟨0, 0, 1, 1⟩ }]

/-- The fallback after the second text draws the first, which is completed. -/
theorem twoTexts_once :
    ∃ t, (levelTexts twoTexts).run {} [.trigger .start 0, .trigger .tap 0, .trigger .tap 0] = some t ∧
      shownIds t = [1, 2] ∧ (shownIds t).Nodup := by
  have completed : (levelTexts twoTexts).Meets (FallbackCompleted twoTexts) {}
      [.trigger .start 0, .trigger .tap 0, .trigger .tap 0] := by
    apply (Machine.meets_cons _ rfl).mpr
    constructor
    · intro current absent
      cases absent
    apply (Machine.meets_cons _ rfl).mpr
    constructor
    · intro current same ended
      cases same
      cases ended
    apply (Machine.meets_cons _ rfl).mpr
    constructor
    · intro current _ _ first drawn
      cases drawn
      exact List.mem_singleton_self _
    · trivial
  exact ⟨_, rfl, rfl, (texts_shown_once twoTexts _ _ completed rfl).1⟩

/-- One text, shown at the start, that links nowhere. -/
noncomputable def loneText : List LevelText :=
  [{ id := 1, text := some "A", triggerOn := some .start, nextText := 5, propFrame := some ⟨0, 0, 1, 1⟩ }]

/-- A tap shows the only text a second time. -/
theorem loneText_twice :
    ∃ t, (levelTexts loneText).run {} [.trigger .start 0, .trigger .tap 0] = some t ∧
      shownIds t = [1, 1] ∧ ¬ (shownIds t).Nodup :=
  ⟨_, rfl, rfl, by decide⟩

end Arthius.Guarantees.TextsShownOnce
