import Arthius.Source.GlobalLevels
import Arthius.Guarantees.LevelContainment

/-!
# The delivery of the global list

Every document is at one of four stages: its file is outstanding, its file has
failed, its count is outstanding, or it is counted. The levels appended are those
of the last two stages, `num` is the size of the last, and the list is delivered
at the moment the last stage holds every document. So a delivered list is whole,
and one document that fails, or an empty query, keeps the list from being
delivered at all.
-/
namespace Arthius.Guarantees.GlobalListDelivery
open Arthius.Lib Arthius.Source Arthius.Source.LevelFiles Arthius.Source.GlobalLevels
open Arthius.Guarantees.LevelPaths Arthius.Guarantees.LevelContainment

section Stages
variable {sets : CharacterSets} {Data : Type} (fs : FileSystem sets) (codec : LevelCodec Data)
variable (answers : List (Answer Data))

/-- The complete level that a document's download brings: it arrives, decodes, and
has metadata and a UUID. -/
def complete (answer : Answer Data) : Option LevelData :=
  match getLevelFile codec answer.datao with
  | .completed levelData => if (uuidOf levelData).isSome then some levelData else none
  | _ => none

def levelAt (i : Nat) : Option LevelData := (answers[i]?).bind (complete codec)

def awaitingFile : Callback → Option Nat
  | .file i => some i
  | .count _ => none

def awaitingCount : Callback → Option Nat
  | .file _ => none
  | .count i => some i

variable {answers}

/-- A file callback either changes nothing but, perhaps, stops the process, or
appends a complete level and asks for its count. -/
theorem fileCallback_cases (s : State sets Data) (answer : Answer Data) (i : Nat) :
    (complete codec answer = none ∧ ∃ alive, (alive = true → s.alive = true) ∧
      fileCallback fs codec s answer i = { s with alive := alive }) ∨
    ∃ level disk, complete codec answer = some level ∧ fileCallback fs codec s answer i =
      { s with
        disk := disk
        lData := s.lData ++ [level]
        outstanding := s.outstanding ++ [.count i] } := by
  unfold fileCallback complete
  cases getLevelFile codec answer.datao with
  | failed => exact .inl ⟨rfl, s.alive, id, rfl⟩
  | trapped => exact .inl ⟨rfl, false, by simp, rfl⟩
  | completed level =>
    cases is : uuidOf level with
    | none =>
      simp only [saveLevel_none fs codec s.disk is]
      exact .inl ⟨by simp [is], false, by simp, rfl⟩
    | some levelUUID =>
      obtain ⟨data, _, saved⟩ := saveLevel_eq fs codec s.disk is .publicMade
      simp only [saved]
      exact .inr ⟨level, _, by simp [is], rfl⟩

end Stages

/-- The stages of all documents, and what the shared variables hold at them. -/
structure Accounted {sets : CharacterSets} {Data : Type} (codec : LevelCodec Data)
    (answers : List (Answer Data)) (s : State sets Data) (failed counted : List Nat) : Prop where
  all : (s.outstanding.filterMap awaitingFile ++ failed ++ s.outstanding.filterMap awaitingCount ++
    counted).Perm (List.range answers.length)
  num : s.num = counted.length
  levels : s.lData.Perm ((s.outstanding.filterMap awaitingCount ++ counted).filterMap
    (levelAt codec answers))
  arrived : ∀ i ∈ s.outstanding.filterMap awaitingCount ++ counted, (levelAt codec answers i).isSome
  missing : ∀ i ∈ failed, levelAt codec answers i = none
  alive : s.alive = false → failed ≠ []
  keys : ∀ i ∈ counted, ∀ answer, answers[i]? = some answer →
    answer.document.levelID ∈ s.downloadData.map Prod.fst
  entries : ∀ entry ∈ s.downloadData, ∃ answer ∈ answers,
    entry = (answer.document.levelID, DownloadCounter.getCount answer.shards)
  completions : s.completions =
    if counted.length = answers.length ∧ answers ≠ [] then [(s.lData, s.downloadData)] else []

section Keep
variable {sets : CharacterSets} {Data : Type} {fs : FileSystem sets} {codec : LevelCodec Data}
variable {answers : List (Answer Data)} {s : State sets Data} {failed counted : List Nat}

theorem Accounted.lengths (accounted : Accounted codec answers s failed counted) :
    (s.outstanding.filterMap awaitingFile).length + failed.length +
      (s.outstanding.filterMap awaitingCount).length + counted.length = answers.length := by
  have lengths := accounted.all.length_eq
  simp only [List.length_append, List.length_range] at lengths
  exact lengths

theorem taken_perm {outstanding : List Callback} {j : Nat} {callback : Callback}
    (present : outstanding[j]? = some callback) :
    outstanding.Perm (callback :: outstanding.eraseIdx j) := by
  obtain ⟨bound, rfl⟩ := List.getElem?_eq_some_iff.mp present
  exact (List.getElem_cons_eraseIdx_perm bound).symm

/-- While a callback is outstanding the list is not delivered. -/
theorem Accounted.undelivered (accounted : Accounted codec answers s failed counted) {j : Nat}
    {callback : Callback} (present : s.outstanding[j]? = some callback) :
    counted.length < answers.length ∧ s.completions = [] := by
  have lengths := accounted.lengths
  have fewer : counted.length < answers.length := by
    have member := List.mem_of_getElem? present
    cases callback with
    | file i =>
      have := List.length_pos_of_mem (List.mem_filterMap.mpr ⟨.file i, member, rfl⟩ :
        i ∈ s.outstanding.filterMap awaitingFile)
      omega
    | count i =>
      have := List.length_pos_of_mem (List.mem_filterMap.mpr ⟨.count i, member, rfl⟩ :
        i ∈ s.outstanding.filterMap awaitingCount)
      omega
  refine ⟨fewer, ?_⟩
  rw [accounted.completions, if_neg]
  omega

/-- A document whose file brings no level has failed. -/
theorem Accounted.failing (accounted : Accounted codec answers s failed counted) {j i : Nat}
    (present : s.outstanding[j]? = some (.file i)) (missing : levelAt codec answers i = none)
    (alive : Bool) :
    Accounted codec answers
      { s with outstanding := s.outstanding.eraseIdx j, alive := alive } (i :: failed) counted := by
  obtain ⟨fewer, none_⟩ := accounted.undelivered present
  have taken := taken_perm present
  have files := taken.filterMap awaitingFile
  have counts := taken.filterMap awaitingCount
  simp only [List.filterMap_cons, awaitingFile, awaitingCount] at files counts
  refine ⟨?_, accounted.num, ?_, ?_, ?_, by simp, accounted.keys, accounted.entries, ?_⟩
  · refine .trans ?_ accounted.all
    rw [List.perm_iff_count]
    intro a
    have filesCount := files.count_eq a
    have countsCount := counts.count_eq a
    simp only [List.count_append, List.count_cons] at *
    omega
  · exact accounted.levels.trans ((counts.append_right counted).filterMap _)
  · intro k member
    exact accounted.arrived k ((counts.append_right counted).mem_iff.mpr member)
  · intro k member
    rcases List.mem_cons.mp member with rfl | earlier
    · exact missing
    · exact accounted.missing k earlier
  · rw [if_neg (by omega)]
    exact none_

/-- A document whose file brings a level waits for its count. -/
theorem Accounted.arriving (accounted : Accounted codec answers s failed counted) {j i : Nat}
    (present : s.outstanding[j]? = some (.file i)) {level : LevelData}
    (arrives : levelAt codec answers i = some level) (disk : Disk sets Data) :
    Accounted codec answers
      { s with
        disk := disk
        lData := s.lData ++ [level]
        outstanding := s.outstanding.eraseIdx j ++ [.count i] } failed counted := by
  obtain ⟨fewer, none_⟩ := accounted.undelivered present
  have taken := taken_perm present
  have files := taken.filterMap awaitingFile
  have counts := taken.filterMap awaitingCount
  simp only [List.filterMap_cons, awaitingFile, awaitingCount] at files counts
  have later : ((s.outstanding.eraseIdx j ++ [Callback.count i]).filterMap awaitingCount ++ counted).Perm
      (i :: (s.outstanding.filterMap awaitingCount ++ counted)) := by
    rw [List.perm_iff_count]
    intro a
    have countsCount := counts.count_eq a
    simp only [List.filterMap_append, List.filterMap_cons, List.filterMap_nil, awaitingCount,
      List.count_append, List.count_cons, List.count_nil] at *
    omega
  refine ⟨?_, accounted.num, ?_, ?_, accounted.missing, accounted.alive, accounted.keys,
    accounted.entries, ?_⟩
  · refine .trans ?_ accounted.all
    rw [List.perm_iff_count]
    intro a
    have filesCount := files.count_eq a
    have laterCount := later.count_eq a
    simp only [List.filterMap_append, List.filterMap_cons, List.filterMap_nil, awaitingFile,
      List.count_append, List.count_cons, List.append_nil] at *
    omega
  · refine .trans ?_ (later.filterMap (levelAt codec answers)).symm
    rw [List.filterMap_cons, arrives]
    exact (List.perm_append_singleton level s.lData).trans (accounted.levels.cons level)
  · intro k member
    rcases List.mem_cons.mp (later.mem_iff.mp member) with rfl | earlier
    · rw [arrives]
      rfl
    · exact accounted.arrived k earlier
  · rw [if_neg (by omega)]
    exact none_

theorem file_accounted (fs : FileSystem sets) (accounted : Accounted codec answers s failed counted)
    {j i : Nat} (present : s.outstanding[j]? = some (.file i)) {answer : Answer Data}
    (found : answers[i]? = some answer) :
    ∃ failed', Accounted codec answers
      (fileCallback fs codec { s with outstanding := s.outstanding.eraseIdx j } answer i)
      failed' counted := by
  have here : levelAt codec answers i = complete codec answer := by
    rw [levelAt, found, Option.bind_some]
  rcases fileCallback_cases fs codec { s with outstanding := s.outstanding.eraseIdx j } answer i with
    ⟨incomplete, alive, _, same⟩ | ⟨level, disk, arrives, same⟩
  · rw [same]
    exact ⟨i :: failed, accounted.failing present (here.trans incomplete) alive⟩
  · rw [same]
    exact ⟨failed, accounted.arriving present (here.trans arrives) disk⟩

theorem count_accounted (accounted : Accounted codec answers s failed counted) {j i : Nat}
    (present : s.outstanding[j]? = some (.count i)) {answer : Answer Data}
    (found : answers[i]? = some answer) :
    Accounted codec answers
      (countCallback { s with outstanding := s.outstanding.eraseIdx j } answers answer)
      failed (i :: counted) := by
  obtain ⟨fewer, none_⟩ := accounted.undelivered present
  have taken := taken_perm present
  have files := taken.filterMap awaitingFile
  have counts := taken.filterMap awaitingCount
  simp only [List.filterMap_cons, awaitingFile, awaitingCount] at files counts
  have moved : ((s.outstanding.eraseIdx j).filterMap awaitingCount ++ i :: counted).Perm
      (s.outstanding.filterMap awaitingCount ++ counted) :=
    List.perm_middle.trans (counts.symm.append_right counted)
  constructor
  · refine .trans ?_ accounted.all
    rw [List.perm_iff_count]
    intro a
    have filesCount := files.count_eq a
    have movedCount := moved.count_eq a
    simp only [countCallback, List.count_append, List.count_cons] at *
    omega
  · simp only [countCallback, accounted.num, List.length_cons]
  · exact accounted.levels.trans (moved.filterMap _).symm
  · intro k member
    exact accounted.arrived k (moved.mem_iff.mp member)
  · exact accounted.missing
  · exact accounted.alive
  · intro k member other is
    simp only [countCallback, KeyedList.mem_keys_put]
    rcases List.mem_cons.mp member with rfl | earlier
    · cases found.symm.trans is
      exact .inl rfl
    · exact .inr (accounted.keys k earlier other is)
  · intro entry member
    rcases KeyedList.mem_of_mem_put Prod.fst member with rfl | old
    · exact ⟨answer, List.mem_of_getElem? found, rfl⟩
    · exact accounted.entries entry old
  · have nonempty : answers ≠ [] := List.ne_nil_of_mem (List.mem_of_getElem? found)
    simp only [countCallback, accounted.num, none_, List.nil_append, List.length_cons]
    by_cases last : counted.length + 1 = answers.length
    · rw [if_pos last.symm, if_pos ⟨last, nonempty⟩]
    · rw [if_neg (Ne.symm last), if_neg fun both => last both.1]

theorem step_accounted {s' : State sets Data} {j : Nat}
    (accounted : ∃ failed counted, Accounted codec answers s failed counted)
    (success : (system fs codec answers).step s j = some s') :
    ∃ failed counted, Accounted codec answers s' failed counted := by
  obtain ⟨failed, counted, accounted⟩ := accounted
  obtain ⟨callback, present, rest⟩ := Option.bind_eq_some_iff.mp success
  simp only at rest
  split at rest
  · cases callback with
    | file i =>
      obtain ⟨answer, found, rfl⟩ := Option.map_eq_some_iff.mp rest
      obtain ⟨failed', kept⟩ := file_accounted fs accounted present found
      exact ⟨failed', counted, kept⟩
    | count i =>
      obtain ⟨answer, found, rfl⟩ := Option.map_eq_some_iff.mp rest
      exact ⟨failed, i :: counted, count_accounted accounted present found⟩
  · cases rest

theorem start_accounted (disk : Disk sets Data) (answers : List (Answer Data)) :
    Accounted codec answers (globalLevelSelect_getLevels disk answers) [] [] := by
  have files : ∀ l : List Nat, (l.map Callback.file).filterMap awaitingFile = l := by
    intro l
    induction l with
    | nil => rfl
    | cons i rest ih => simpa [awaitingFile] using ih
  have counts : ∀ l : List Nat, (l.map Callback.file).filterMap awaitingCount = [] := by
    intro l
    simp [awaitingCount]
  constructor
  · simp [globalLevelSelect_getLevels, files, counts]
  · rfl
  · simp [globalLevelSelect_getLevels, counts]
  · simp [globalLevelSelect_getLevels, counts]
  · simp
  · simp [globalLevelSelect_getLevels]
  · simp
  · simp [globalLevelSelect_getLevels]
  · have undone : ¬ (([] : List Nat).length = answers.length ∧ answers ≠ []) := by
      intro both
      exact both.2 (List.length_eq_zero_iff.mp both.1.symm)
    rw [if_neg undone]
    rfl

theorem run_accounted {disk : Disk sets Data} {schedule : List Nat} {t : State sets Data}
    (success : (system fs codec answers).run (globalLevelSelect_getLevels disk answers) schedule =
      some t) : ∃ failed counted, Accounted codec answers t failed counted :=
  (system fs codec answers).run_invariant (fun _ _ _ => step_accounted)
    ⟨[], [], start_accounted disk answers⟩ success

/-- With as many counted as there are documents, no other stage holds any. -/
theorem Accounted.finished (accounted : Accounted codec answers s failed counted)
    (last : counted.length = answers.length) :
    s.outstanding.filterMap awaitingCount = [] ∧ counted.Perm (List.range answers.length) := by
  have lengths := accounted.lengths
  have noFiles : s.outstanding.filterMap awaitingFile = [] := List.length_eq_zero_iff.mp (by omega)
  have noFailed : failed = [] := List.length_eq_zero_iff.mp (by omega)
  have noCounts : s.outstanding.filterMap awaitingCount = [] := List.length_eq_zero_iff.mp (by omega)
  have all := accounted.all
  simp only [noFiles, noFailed, noCounts, List.nil_append] at all
  exact ⟨noCounts, all⟩

/-- Then the levels appended are those of all documents. -/
theorem Accounted.whole (accounted : Accounted codec answers s failed counted)
    (last : counted.length = answers.length) :
    s.lData.Perm (answers.filterMap (complete codec)) ∧
      ∀ answer ∈ answers, (complete codec answer).isSome := by
  obtain ⟨noCounts, all⟩ := accounted.finished last
  have levels := accounted.levels
  have arrived := accounted.arrived
  rw [noCounts, List.nil_append] at levels arrived
  constructor
  · have indexed : (List.range answers.length).filterMap (levelAt codec answers) =
        answers.filterMap (complete codec) := by
      have listed : (List.range answers.length).map (answers[·]?) = answers.map some := by
        apply List.ext_getElem
        · simp
        · intro i _ _
          simp
      have again := congrArg (List.filterMap fun answer => answer.bind (complete codec)) listed
      rw [List.filterMap_map, List.filterMap_map] at again
      exact again
    rw [← indexed]
    exact levels.trans (all.filterMap _)
  · intro answer member
    obtain ⟨i, bound, rfl⟩ := List.getElem_of_mem member
    have counted_ : i ∈ counted := all.mem_iff.mpr (List.mem_range.mpr bound)
    have some_ := arrived i counted_
    rwa [levelAt, List.getElem?_eq_getElem bound, Option.bind_some] at some_

/-- A delivery happens at most once, when every document is counted. -/
theorem Accounted.delivered (accounted : Accounted codec answers s failed counted)
    {levels : List LevelData} {downloads : List (String × Nat)}
    (delivered : (levels, downloads) ∈ s.completions) :
    counted.length = answers.length ∧ answers ≠ [] ∧ levels = s.lData ∧ downloads = s.downloadData := by
  rw [accounted.completions] at delivered
  split at delivered
  · next last =>
    cases List.mem_singleton.mp delivered
    exact ⟨last.1, last.2, rfl, rfl⟩
  · cases delivered

/-- Every counted document has an entry under its id, the count of a document
with that id. -/
theorem Accounted.entry (accounted : Accounted codec answers s failed counted)
    (last : counted.length = answers.length) {answer : Answer Data} (member : answer ∈ answers) :
    ∃ same ∈ answers, same.document.levelID = answer.document.levelID ∧
      KeyedList.get Prod.fst answer.document.levelID s.downloadData =
        some (answer.document.levelID, DownloadCounter.getCount same.shards) := by
  obtain ⟨i, bound, rfl⟩ := List.getElem_of_mem member
  obtain ⟨_, all⟩ := accounted.finished last
  have counted_ : i ∈ counted := all.mem_iff.mpr (List.mem_range.mpr bound)
  have key := accounted.keys i counted_ answers[i] (List.getElem?_eq_getElem bound)
  obtain ⟨listed, inData, isKey⟩ := List.mem_map.mp key
  have present : (KeyedList.get Prod.fst (answers[i]).document.levelID s.downloadData).isSome :=
    (KeyedList.get_isSome Prod.fst).mpr ⟨listed, inData, isKey⟩
  obtain ⟨entry, found⟩ := Option.isSome_iff_exists.mp present
  obtain ⟨same, inAnswers, isEntry⟩ := accounted.entries entry (List.mem_of_find?_eq_some found)
  have keyed : entry.1 = (answers[i]).document.levelID := by
    simpa using List.find?_some found
  have id_ : same.document.levelID = (answers[i]).document.levelID := by
    rw [← keyed, isEntry]
  exact ⟨same, inAnswers, id_, by rw [found, isEntry, id_]⟩

end Keep

section Levels
variable {Data : Type} {codec : LevelCodec Data} {answers : List (Answer Data)}

/-- Read off the levels or off their documents, in the same order. -/
theorem map_complete {β : Type} (ofLevel : LevelData → β) (ofAnswer : Answer Data → β)
    (each : ∀ answer ∈ answers, ∃ level, complete codec answer = some level ∧
      ofLevel level = ofAnswer answer) :
    (answers.filterMap (complete codec)).map ofLevel = answers.map ofAnswer := by
  induction answers with
  | nil => rfl
  | cons answer rest ih =>
    obtain ⟨level, is, same⟩ := each answer List.mem_cons_self
    have later := ih fun other member => each other (List.mem_cons_of_mem answer member)
    rw [List.filterMap_cons, is, List.map_cons, same, later, List.map_cons]

theorem completed_of_complete {answer : Answer Data} {level : LevelData}
    (is : complete codec answer = some level) : getLevelFile codec answer.datao = .completed level := by
  unfold complete at is
  split at is
  · next completed =>
    split at is
    · cases is
      exact completed
    · cases is
  · cases is

/-- What the tile of a level unwraps of it. -/
def Framed (level : LevelData) : Prop :=
  level.propFrame.isSome ∧ (level.levelMetadata.bind LevelMetadata.levelThumbnail).isSome

theorem newTile_isSome (level : LevelData) (count : Nat) : (newTile level count).isSome ↔ Framed level := by
  unfold newTile Framed
  cases level.propFrame with
  | none => simp
  | some frame =>
    cases level.levelMetadata with
    | none => simp
    | some lm => cases is : lm.levelThumbnail <;> simp [is]

/-- The tiles can be made if every level is found under its UUID and has what its
tile unwraps. -/
theorem updateLevels_isSome {downloads : List (String × Nat)} {levels : List LevelData} :
    (updateLevels downloads levels).isSome ↔
      ∀ level ∈ levels, (downloadsOf downloads level).isSome ∧ Framed level := by
  induction levels with
  | nil => exact iff_of_true rfl fun _ member => nomatch member
  | cons level rest ih =>
    rw [List.forall_mem_cons, ← ih]
    simp only [updateLevels, bind]
    cases downloadsOf downloads level with
    | none => simp
    | some count =>
      rw [← newTile_isSome level count, Option.bind_some]
      generalize newTile level count = tile
      generalize updateLevels downloads rest = tiles
      cases tile <;> cases tiles <;> simp

end Levels

/-- What is promised of a query once all callbacks have run: no trap, one
delivery, with exactly the complete levels, and a count for each under the id of
its document. -/
structure Delivered {sets : CharacterSets} {Data : Type} (codec : LevelCodec Data)
    (answers : List (Answer Data)) (t : State sets Data) : Prop where
  alive : t.alive = true
  once : ∃ levels downloads, t.completions = [(levels, downloads)] ∧
    levels.Perm (answers.filterMap (complete codec)) ∧
    ∀ answer ∈ answers, (complete codec answer).isSome →
      ∃ same ∈ answers, same.document.levelID = answer.document.levelID ∧
        KeyedList.get Prod.fst answer.document.levelID downloads =
          some (answer.document.levelID, DownloadCounter.getCount same.shards)

/-- For any documents, any answers and any order of the callbacks, once none can
run any more: the list has been delivered as promised if and only if there is a
document and every document brings a complete level. -/
theorem global_list_delivered_iff {sets : CharacterSets} {Data : Type} (fs : FileSystem sets)
    (codec : LevelCodec Data) (disk : Disk sets Data) (answers : List (Answer Data))
    (schedule : List Nat) (t : State sets Data)
    (success : (system fs codec answers).run (globalLevelSelect_getLevels disk answers) schedule = some t)
    (settled : t.outstanding = [] ∨ t.alive = false) :
    Delivered codec answers t ↔
      answers ≠ [] ∧ ∀ answer ∈ answers, (complete codec answer).isSome := by
  obtain ⟨failed, counted, accounted⟩ := run_accounted success
  constructor
  · intro delivered
    obtain ⟨levels, downloads, completions, _⟩ := delivered.once
    have member : (levels, downloads) ∈ t.completions := by
      rw [completions]
      exact List.mem_singleton_self _
    obtain ⟨last, nonempty, _⟩ := accounted.delivered member
    exact ⟨nonempty, (accounted.whole last).2⟩
  · intro condition
    have noFailed : failed = [] := by
      apply List.eq_nil_iff_forall_not_mem.mpr
      intro i member
      have inRange : i ∈ List.range answers.length := by
        apply accounted.all.mem_iff.mp
        simp [member]
      have bound := List.mem_range.mp inRange
      have missing := accounted.missing i member
      rw [levelAt, List.getElem?_eq_getElem bound, Option.bind_some] at missing
      have arrives := condition.2 answers[i] (List.getElem_mem bound)
      rw [missing] at arrives
      cases arrives
    have alive : t.alive = true := by
      cases dead : t.alive with
      | true => rfl
      | false => exact absurd noFailed (accounted.alive dead)
    have done : t.outstanding = [] := by
      rcases settled with done | dead
      · exact done
      · rw [alive] at dead
        cases dead
    have last : counted.length = answers.length := by
      have lengths := accounted.lengths
      rw [done, noFailed] at lengths
      simpa using lengths
    refine ⟨alive, t.lData, t.downloadData, ?_, (accounted.whole last).1, ?_⟩
    · rw [accounted.completions, if_pos ⟨last, condition.1⟩]
    · intro answer member _
      exact accounted.entry last member

/-- For any documents with distinct ids whose files carry their id, any answers and
any order of the callbacks, in every state reached: the list has been delivered
at most once, and if so every document contributed exactly one level, no UUID
comes twice, every level is listed with the count of its own document, and
`updateLevels` finds them all: it makes the tiles unless a level lacks what its own
tile unwraps. -/
theorem delivered_list_whole {sets : CharacterSets} {Data : Type} (fs : FileSystem sets)
    (codec : LevelCodec Data) (disk : Disk sets Data) (answers : List (Answer Data))
    (distinct : (answers.map fun answer => answer.document.levelID).Nodup)
    (named : ∀ answer ∈ answers, ∀ level, getLevelFile codec answer.datao = .completed level →
      uuidOf level = some answer.document.levelID)
    (schedule : List Nat) (t : State sets Data)
    (success : (system fs codec answers).run (globalLevelSelect_getLevels disk answers) schedule =
      some t) :
    t.completions.length ≤ 1 ∧ ∀ levels downloads, (levels, downloads) ∈ t.completions →
      (levels.map some).Perm (answers.map (complete codec)) ∧
      (levels.map uuidOf).Nodup ∧
      (∀ level ∈ levels, ∃ answer ∈ answers, complete codec answer = some level ∧
        uuidOf level = some answer.document.levelID ∧
        KeyedList.get Prod.fst answer.document.levelID downloads =
          some (answer.document.levelID, DownloadCounter.getCount answer.shards)) ∧
      (∀ level ∈ levels, (downloadsOf downloads level).isSome) ∧
      ((updateLevels downloads levels).isSome ↔ ∀ level ∈ levels, Framed level) := by
  obtain ⟨failed, counted, accounted⟩ := run_accounted success
  constructor
  · rw [accounted.completions]
    split <;> simp
  · intro levels downloads delivered
    obtain ⟨last, _, rfl, rfl⟩ := accounted.delivered delivered
    obtain ⟨perm, arrive⟩ := accounted.whole last
    have uuids : ∀ answer ∈ answers, ∀ level, complete codec answer = some level →
        uuidOf level = some answer.document.levelID := fun answer member level is =>
      named answer member level (completed_of_complete is)
    have listed : ∀ level ∈ t.lData, ∃ answer ∈ answers, complete codec answer = some level ∧
        uuidOf level = some answer.document.levelID ∧
        KeyedList.get Prod.fst answer.document.levelID t.downloadData =
          some (answer.document.levelID, DownloadCounter.getCount answer.shards) := by
      intro level member
      obtain ⟨answer, inAnswers, is⟩ := List.mem_filterMap.mp (perm.mem_iff.mp member)
      obtain ⟨same, alsoIn, id_, found⟩ := accounted.entry last inAnswers
      have itself := List.inj_on_of_nodup_map distinct alsoIn inAnswers id_
      rw [itself] at found
      exact ⟨answer, inAnswers, is, uuids answer inAnswers level is, found⟩
    have whole : (answers.filterMap (complete codec)).map some = answers.map (complete codec) := by
      apply map_complete some (complete codec)
      intro answer member
      obtain ⟨level, is⟩ := Option.isSome_iff_exists.mp (arrive answer member)
      exact ⟨level, is, is.symm⟩
    have ids : (answers.filterMap (complete codec)).map uuidOf =
        (answers.map fun answer => answer.document.levelID).map some := by
      rw [List.map_map]
      apply map_complete uuidOf
      intro answer member
      obtain ⟨level, is⟩ := Option.isSome_iff_exists.mp (arrive answer member)
      exact ⟨level, is, uuids answer member level is⟩
    have found : ∀ level ∈ t.lData, (downloadsOf t.downloadData level).isSome := by
      intro level member
      obtain ⟨answer, _, _, is, found⟩ := listed level member
      obtain ⟨lm, metadata, uuid⟩ := Option.bind_eq_some_iff.mp is
      simp [downloadsOf, metadata, uuid, found]
    refine ⟨whole ▸ perm.map some, ?_, listed, found, ?_⟩
    · rw [(perm.map uuidOf).nodup_iff, ids]
      exact distinct.map (Option.some_injective _)
    · rw [updateLevels_isSome]
      exact forall₂_congr fun level member => and_iff_right (found level member)

/-- A document whose file holds the level with its id, downloaded five times. -/
noncomputable def storedAnswer (levelID : String) : Answer LevelData :=
  ⟨⟨levelID, "user", "Title", "Description"⟩, some (levelNamed levelID), some [⟨0, 2⟩, ⟨1, 3⟩]⟩

/-- A document whose file does not arrive. -/
def lostAnswer (levelID : String) : Answer LevelData :=
  ⟨⟨levelID, "user", "Title", "Description"⟩, none, some []⟩

theorem storedAnswer_complete (levelID : String) :
    complete plainCodec (storedAnswer levelID) = some (levelNamed levelID) := rfl

noncomputable def twoStored : List (Answer LevelData) := [storedAnswer "a", storedAnswer "b"]

noncomputable def oneLost : List (Answer LevelData) := [storedAnswer "a", lostAnswer "b"]

theorem mem_twoStored {answer : Answer LevelData} (member : answer ∈ twoStored) :
    ∃ levelID, answer = storedAnswer levelID := by
  rcases List.mem_cons.mp member with first | second
  · exact ⟨"a", first⟩
  · exact ⟨"b", List.mem_singleton.mp second⟩

theorem twoStored_delivered : ∃ t, (system device plainCodec twoStored).run
      (globalLevelSelect_getLevels Disk.empty twoStored) [1, 1, 0, 0] = some t ∧
    Delivered plainCodec twoStored t := by
  have complete_ : ∀ answer ∈ twoStored, (complete plainCodec answer).isSome := by
    intro answer member
    obtain ⟨levelID, rfl⟩ := mem_twoStored member
    rw [storedAnswer_complete]
    rfl
  exact ⟨_, rfl, (global_list_delivered_iff device plainCodec Disk.empty twoStored [1, 1, 0, 0] _ rfl
    (.inl rfl)).mpr ⟨List.cons_ne_nil _ _, complete_⟩⟩

/-- One download fails, and nothing is delivered although the other level is there. -/
theorem oneLost_undelivered : ∃ t, (system device plainCodec oneLost).run
      (globalLevelSelect_getLevels Disk.empty oneLost) [0, 0, 0] = some t ∧
    t.outstanding = [] ∧ t.alive = true ∧ t.lData = [levelNamed "a"] ∧ t.completions = [] ∧
    ¬ Delivered plainCodec oneLost t := by
  refine ⟨_, rfl, rfl, rfl, rfl, rfl, ?_⟩
  intro delivered
  obtain ⟨levels, downloads, completions, _⟩ := delivered.once
  cases completions

theorem twoStored_whole : ∃ t levels downloads, (system device plainCodec twoStored).run
      (globalLevelSelect_getLevels Disk.empty twoStored) [1, 1, 0, 0] = some t ∧
    t.completions = [(levels, downloads)] ∧ (levels.map uuidOf).Nodup ∧
    (updateLevels downloads levels).isSome := by
  have distinct : (twoStored.map fun answer => answer.document.levelID).Nodup := by
    have ids : (twoStored.map fun answer => answer.document.levelID) = ["a", "b"] := rfl
    rw [ids]
    decide
  have named : ∀ answer ∈ twoStored, ∀ level,
      getLevelFile plainCodec answer.datao = .completed level →
        uuidOf level = some answer.document.levelID := by
    intro answer member level completed
    obtain ⟨levelID, rfl⟩ := mem_twoStored member
    cases completed
    rfl
  obtain ⟨_, whole⟩ := delivered_list_whole device plainCodec Disk.empty twoStored distinct named
    [1, 1, 0, 0] _ rfl
  obtain ⟨_, nodup, listed, _, tiles⟩ := whole _ _ (List.mem_singleton_self _)
  refine ⟨_, _, _, rfl, rfl, nodup, tiles.mpr ?_⟩
  intro level member
  obtain ⟨answer, inAnswers, is, _⟩ := listed level member
  obtain ⟨levelID, rfl⟩ := mem_twoStored inAnswers
  cases is
  exact ⟨rfl, rfl⟩

end Arthius.Guarantees.GlobalListDelivery
