import Arthius.Source.GlobalLevels

/-!
# The screen of the global levels

`GlobalLevelSelectView.swift`: each `animateIn` loads the levels once more, and
whichever request completes puts its tiles into `GLSLevelSelector`. A request is
the query, and from its answer on the callbacks of `globalLevelSelect_getLevels`;
all requests save to one disk. The schedule picks what comes next. A forced
unwrapping of `nil` stops the process: a refused event.
-/
namespace Arthius.Source.GlobalLevelSelect
open Arthius.Lib Arthius.Source.LevelFiles Arthius.Source.GlobalLevels

inductive Request (sets : CharacterSets) (Data : Type) where
  | waiting
  | failed
  | answered (answers : List (Answer Data)) (state : GlobalLevels.State sets Data)

structure GlobalLevelSelectView (sets : CharacterSets) (Data : Type) where
  /-- In the order in which they were issued. -/
  requests : List (Request sets Data)
  /-- The tiles of `levelSelector`, with their downloads. -/
  tiles : List (LevelData × Nat)
  disk : Disk sets Data

inductive Event (Data : Type) where
  | animateIn
  /-- The query of a request is answered; an error is `none`. -/
  | answer (i : Nat) (documents : Option (List (Answer Data)))
  /-- Of a request, the `j`-th outstanding callback runs. -/
  | callback (i j : Nat)

section
variable {sets : CharacterSets} {Data : Type}

/-- What the call of `completion` hands over, if a callback made it. -/
def handedOver (before after : GlobalLevels.State sets Data) :
    Option (List LevelData × List (String × Nat)) :=
  (after.completions.drop before.completions.length).head?

variable (fs : FileSystem sets) (codec : LevelCodec Data) (s : GlobalLevelSelectView sets Data)

/-- The levels are loaded once more; the tiles stay. -/
def animateIn : GlobalLevelSelectView sets Data := { s with requests := s.requests ++ [.waiting] }

def answer (i : Nat) : Option (List (Answer Data)) → GlobalLevelSelectView sets Data
  | none => { s with requests := s.requests.set i .failed }
  | some answers =>
    { s with requests := s.requests.set i (.answered answers (globalLevelSelect_getLevels s.disk answers)) }

/-- `updateLevels` takes the tiles away and puts new ones in their place. -/
noncomputable def callback (i j : Nat) (answers : List (Answer Data)) (state : GlobalLevels.State sets Data) :
    Option (GlobalLevelSelectView sets Data) := do
  let state' ← GlobalLevels.step fs codec answers { state with disk := s.disk } j
  let s' := { s with requests := s.requests.set i (.answered answers state'), disk := state'.disk }
  if state'.alive then
    match handedOver state state' with
    | none => some s'
    | some (levels, downloads) => do
      let tiles ← updateLevels downloads levels
      some { s' with tiles := tiles }
  else none

noncomputable def step (s : GlobalLevelSelectView sets Data) :
    Event Data → Option (GlobalLevelSelectView sets Data)
  | .animateIn => some (animateIn s)
  | .answer i documents => match s.requests[i]? with
    | some .waiting => some (answer s i documents)
    | _ => none
  | .callback i j => match s.requests[i]? with
    | some (.answered answers state) => callback fs codec s i j answers state
    | _ => none

noncomputable def system : Machine (GlobalLevelSelectView sets Data) (Event Data) := ⟨step fs codec⟩

/-- `GlobalLevelSelectView.init`, on a disk. -/
def init (disk : Disk sets Data) : GlobalLevelSelectView sets Data := ⟨[], [], disk⟩

end
end Arthius.Source.GlobalLevelSelect
