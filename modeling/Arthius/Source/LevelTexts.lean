import Arthius.Lib.Machine
import Arthius.Source.LevelData
import Arthius.Source.DownloadCounter

/-!
# The texts of a level

`levelTextTriggerOccured`, `nextText`, `updateLevelText`, `getLevelTextWithId`
and `getFirstText` of `LevelView.swift`. A text that is animated out hands the
label over in a block dispatched to run `animateTime` later; the block keeps the
text it was given and runs at any moment from its deadline on. Of the label the
model keeps its two texts; frame, colour and font are left out. A failed force
unwrap stops the process, with everything assigned before it in place.
`becameCurrent` records every text that was assigned to `currentText`.
-/
namespace Arthius.Source.LevelTexts
open Arthius.Lib Arthius.Source.DownloadCounter

/-- A block that `nextText` has dispatched. -/
structure Block where
  text : LevelText
  deadline : CGFloat

/-- `LevelTextsLabel`: its own text and that of `tapToContinueView`. -/
structure Label where
  text : Option String := some ""
  tapToContinue : String := ""

noncomputable section

structure State where
  currentText : Option LevelText := none
  completedText : List Int := []
  currentTextsLabel : Label := {}
  pending : List Block := []
  now : CGFloat := 0
  alive : Bool := true
  becameCurrent : List LevelText := []

/-- The text returned for any id once a text with the id -1 is met. -/
def emptyText : LevelText where
  id := -1
  text := some ""
  triggerOn := some .tap
  nextText := 0
  propFrame := some ⟨-1, 0, 0, 0⟩
  fontColor := some ⟨0, 0, 0, 0⟩

def getLevelTextWithId (id : Option Int) : List LevelText → Option LevelText
  | [] => none
  | text :: rest =>
    if text.id = -1 then some emptyText
    else if some text.id = id then some text
    else getLevelTextWithId id rest

def getFirstText (random : Nat) (texts : List LevelText) : Option LevelText :=
  let firstTexts := texts.filter fun text => text.triggerOn = some .start
  if firstTexts.length > 0 then firstTexts[arc4randomUniform firstTexts.length random]? else none

/-- The label's texts are assigned before `text.propFrame` is unwrapped. -/
def updateLevelText (texts : List LevelText) (s : State) (text : LevelText) : State :=
  let nextText := getLevelTextWithId (some text.nextText) texts
  { s with
    currentTextsLabel :=
      ⟨text.text, if nextText.bind LevelText.triggerOn = some .tap then "Tap to continue." else ""⟩
    alive := text.propFrame.isSome }

/-- What `nextText` does with a valid new text: at once, or in a block when the
old text is animated out. -/
def showText (texts : List LevelText) (s : State) (oldText : Option LevelText) (next : LevelText) :
    State :=
  let current := { s with currentText := some next, becameCurrent := s.becameCurrent ++ [next] }
  match oldText with
  | some old =>
    if old.animateOut then { current with pending := s.pending ++ [⟨next, s.now + old.animateTime⟩] }
    else updateLevelText texts current next
  | none => updateLevelText texts current next

/-- The old text, if there is one, is completed, and followed by the text it
links to; otherwise a first text follows. A completed text is not shown again. -/
def nextText (texts : List LevelText) (random : Nat) (s : State) (oldText : Option LevelText) : State :=
  let s := match oldText with
    | some old => { s with completedText := s.completedText ++ [old.id] }
    | none => s
  let next := match oldText with
    | some old => getLevelTextWithId (some old.nextText) texts
    | none => getFirstText random texts
  match next with
  | some next => if next.id ∈ s.completedText then s else showText texts s oldText next
  | none => s

def levelTextTriggerOccured (texts : List LevelText) (random : Nat) (s : State)
    (trigger : LevelTextTriggers) : State :=
  match getLevelTextWithId (s.currentText.map LevelText.nextText) texts with
  | some next => if next.triggerOn = some trigger then nextText texts random s s.currentText else s
  | none => nextText texts random s none

inductive Event where
  | trigger (trigger : LevelTextTriggers) (random : Nat)
  | wait (seconds : CGFloat)
  | fire (j : Nat)

/-- A pending block runs at any moment from its deadline on. -/
def fire (texts : List LevelText) (s : State) (j : Nat) : Option State := do
  let block ← s.pending[j]?
  if block.deadline ≤ s.now then
    some (updateLevelText texts { s with pending := s.pending.eraseIdx j } block.text)
  else none

def step (texts : List LevelText) (s : State) (e : Event) : Option State :=
  if s.alive then
    match e with
    | .trigger trigger random => some (levelTextTriggerOccured texts random s trigger)
    | .wait seconds => if 0 ≤ seconds then some { s with now := s.now + seconds } else none
    | .fire j => fire texts s j
  else none

def levelTexts (texts : List LevelText) : Machine State Event := ⟨step texts⟩

end
end Arthius.Source.LevelTexts
