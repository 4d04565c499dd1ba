import Arthius.Source.PublishLevel

/-!
# Listed levels and their files

The document of a level is written first and its file uploaded only after the
write has been answered, so a level published for the first time is listed while
its file is not there, for good if the upload fails. The one step that can list
a level without its file is an applied document write; the runs in which every
such write finds the file already stored are exactly those in which every listed
level can be downloaded at any moment.
-/
namespace Arthius.Guarantees.ListedFiles
open Arthius.Lib Arthius.Source Arthius.Source.PublishLevel

/-- Every document visible in the collection has its file in storage. -/
def Listed (s : State) : Prop := ∀ document ∈ s.documents, levelRef document.levelID ∈ s.files

/-- The step condition: a document write that is applied finds the file stored. -/
def FileFirst (s : State) : Event → Prop
  | .deliver j true => ∀ document, s.inFlight[j]? = some (.setData document) →
      levelRef document.levelID ∈ s.files
  | _ => True

instance (s : State) : Decidable (Listed s) := inferInstanceAs (Decidable (∀ _ ∈ _, _))

instance (s : State) : ∀ e, Decidable (FileFirst s e)
  | .deliver j true => match present : s.inFlight[j]? with
    | some (.setData document) => decidable_of_iff (levelRef document.levelID ∈ s.files)
        ⟨fun stored other same => (by cases present.symm.trans same; exact stored),
          fun stored => stored document present⟩
    | some (.acknowledged _) | some (.putFile _) | some .getDocuments | some (.snapshot _)
    | some (.getData _) | none => .isTrue fun _ same => (by cases present.symm.trans same)
  | .deliver _ false | .publishLv .. | .getLevels => .isTrue trivial

/-- The tap on publish sends nothing but the document write. -/
theorem publishLv_cases (s : State) (currentUser : Option String) (level : LevelData)
    (title description : String) :
    publishLv s currentUser level title description = s ∨
      ∃ document, publishLv s currentUser level title description = s.send [.setData document] := by
  unfold publishLv
  split
  · split
    · exact .inr ⟨_, rfl⟩
    · exact .inl rfl
  · exact .inl rfl

section Step

/-- What a step does to the stores: files only appear, and the only document
that can appear is one whose write is delivered and applied. -/
theorem step_stores {s s' : State} {e : Event} (success : system.step s e = some s') :
    (∀ file ∈ s.files, file ∈ s'.files) ∧
    (s'.documents = s.documents ∨ ∃ j document, e = .deliver j true ∧
      s.inFlight[j]? = some (.setData document) ∧ s'.files = s.files ∧
      s'.documents = KeyedList.put LevelDocument.levelID document s.documents) := by
  cases e with
  | publishLv currentUser level title description =>
    cases success
    rcases publishLv_cases s currentUser level title description with same | ⟨document, same⟩
    · rw [same]
      exact ⟨fun _ stored => stored, .inl rfl⟩
    · rw [same]
      exact ⟨fun _ stored => stored, .inl rfl⟩
  | getLevels =>
    cases success
    exact ⟨fun _ stored => stored, .inl rfl⟩
  | deliver j ok =>
    simp only [system, step, Option.map_eq_some_iff] at success
    obtain ⟨message, present, rfl⟩ := success
    cases message with
    | setData document =>
      cases ok with
      | false => exact ⟨fun _ stored => stored, .inl rfl⟩
      | true => exact ⟨fun _ stored => stored, .inr ⟨j, document, rfl, present, rfl, rfl⟩⟩
    | acknowledged document => exact ⟨fun _ stored => stored, .inl rfl⟩
    | putFile levelUUID =>
      cases ok with
      | false => exact ⟨fun _ stored => stored, .inl rfl⟩
      | true => exact ⟨fun _ stored => List.mem_append_left _ stored, .inl rfl⟩
    | getDocuments => cases ok <;> exact ⟨fun _ stored => stored, .inl rfl⟩
    | snapshot documents => exact ⟨fun _ stored => stored, .inl rfl⟩
    | getData uuid => cases ok <;> exact ⟨fun _ stored => stored, .inl rfl⟩

/-- From a state in which every listed level has its file, a step leads to
another such state if and only if it meets the condition. -/
theorem step_listed_iff {s s' : State} {e : Event} (listed : Listed s)
    (success : system.step s e = some s') : Listed s' ↔ FileFirst s e := by
  obtain ⟨files, same | ⟨j, document, rfl, present, sameFiles, written⟩⟩ := step_stores success
  · have after : Listed s' := fun document member => files _ (listed document (same ▸ member))
    refine iff_of_true after ?_
    cases e with
    | publishLv | getLevels => trivial
    | deliver j ok =>
      cases ok with
      | false => trivial
      | true =>
        intro document present
        -- the write went through and changed nothing: the document was there before
        simp only [system, step, present, Option.map_some, Option.some.injEq] at success
        subst success
        have member : document ∈ KeyedList.put LevelDocument.levelID document s.documents :=
          KeyedList.mem_put_self LevelDocument.levelID document s.documents
        exact listed document (same ▸ member)
  · constructor
    · intro after other found
      cases present.symm.trans found
      have member := KeyedList.mem_put_self LevelDocument.levelID document s.documents
      exact sameFiles ▸ after document (written ▸ member)
    · intro first other member
      rw [sameFiles]
      rw [written] at member
      rcases KeyedList.mem_of_mem_put LevelDocument.levelID member with rfl | old
      · exact first other present
      · exact listed other old

end Step

/-- What a step adds to the readers' side: a query is answered with the
collection, a snapshot asks for its levels, and a download looks for its file. -/
structure Reads (s s' : State) : Prop where
  snapshots : ∀ documents, .snapshot documents ∈ s'.inFlight →
    .snapshot documents ∈ s.inFlight ∨ documents = s.documents
  requests : ∀ uuid, .getData uuid ∈ s'.inFlight → .getData uuid ∈ s.inFlight ∨
    ∃ documents, .snapshot documents ∈ s.inFlight ∧ ∃ document ∈ documents, document.levelID = uuid
  downloads : ∀ download ∈ s'.downloads, download ∈ s.downloads ∨
    ∃ uuid, .getData uuid ∈ s.inFlight ∧ download = (uuid, decide (levelRef uuid ∈ s.files))

/-- Neither a snapshot nor a download request. -/
def Quiet : Message → Prop
  | .snapshot _ | .getData _ => False
  | .setData _ | .acknowledged _ | .putFile _ | .getDocuments => True

/-- A step that at most sends messages of the quiet kind. -/
theorem Reads.quiet {s s' : State} (sent : ∀ m ∈ s'.inFlight, m ∈ s.inFlight ∨ Quiet m)
    (downloads : s'.downloads = s.downloads) : Reads s s' where
  snapshots := fun _ flying => .inl ((sent _ flying).resolve_right id)
  requests := fun _ flying => .inl ((sent _ flying).resolve_right id)
  downloads := fun _ answered => .inl (downloads ▸ answered)

theorem mem_send_quiet {s s' : State} (kept : ∀ m ∈ s'.inFlight, m ∈ s.inFlight) {message : Message}
    (quiet : Quiet message) : ∀ m ∈ (s'.send [message]).inFlight, m ∈ s.inFlight ∨ Quiet m := by
  intro m flying
  rcases List.mem_append.mp flying with old | new
  · exact .inl (kept m old)
  · exact .inr (List.mem_singleton.mp new ▸ quiet)

theorem deliver_reads {s : State} {j : Nat} {message : Message} (ok : Bool)
    (present : s.inFlight[j]? = some message) : Reads s (deliver (s.remove j) ok message) := by
  have taken : ∀ m ∈ s.inFlight.eraseIdx j, m ∈ s.inFlight :=
    fun m member => List.mem_of_mem_eraseIdx member
  have member : message ∈ s.inFlight := List.mem_of_getElem? present
  have dropped : Reads s (s.remove j) := Reads.quiet (fun m flying => .inl (taken m flying)) rfl
  cases message with
  | setData document =>
    cases ok with
    | false => exact Reads.quiet (mem_send_quiet taken trivial) rfl
    | true => exact Reads.quiet (mem_send_quiet taken trivial) rfl
  | acknowledged document => exact Reads.quiet (mem_send_quiet taken trivial) rfl
  | putFile levelUUID =>
    cases ok with
    | false => exact dropped
    | true => exact Reads.quiet (fun m flying => .inl (taken m flying)) rfl
  | getDocuments =>
    cases ok with
    | false => exact dropped
    | true =>
      refine ⟨fun documents sent => ?_, fun uuid sent => ?_, fun _ answered => .inl answered⟩
      · rcases List.mem_append.mp sent with old | new
        · exact .inl (taken _ old)
        · exact .inr (Message.snapshot.inj (List.mem_singleton.mp new))
      · rcases List.mem_append.mp sent with old | new
        · exact .inl (taken _ old)
        · cases List.mem_singleton.mp new
  | snapshot documents =>
    refine ⟨fun others sent => ?_, fun uuid sent => ?_, fun _ answered => .inl answered⟩
    · rcases List.mem_append.mp sent with old | new
      · exact .inl (taken _ old)
      · obtain ⟨document, _, same⟩ := List.mem_map.mp new
        cases same
    · rcases List.mem_append.mp sent with old | new
      · exact .inl (taken _ old)
      · obtain ⟨document, shown, same⟩ := List.mem_map.mp new
        exact .inr ⟨documents, member, document, shown, Message.getData.inj same⟩
  | getData uuid =>
    cases ok with
    | false => exact dropped
    | true =>
      refine ⟨fun _ sent => .inl (taken _ sent), fun _ sent => .inl (taken _ sent), ?_⟩
      intro download answered
      rcases List.mem_append.mp answered with old | new
      · exact .inl old
      · exact .inr ⟨uuid, member, List.mem_singleton.mp new⟩

theorem step_reads {s s' : State} {e : Event} (success : system.step s e = some s') :
    Reads s s' := by
  cases e with
  | publishLv currentUser level title description =>
    cases success
    rcases publishLv_cases s currentUser level title description with same | ⟨document, same⟩
    · rw [same]
      exact Reads.quiet (fun _ => .inl) rfl
    · rw [same]
      exact Reads.quiet (mem_send_quiet (fun _ => id) trivial) rfl
  | getLevels =>
    cases success
    exact Reads.quiet (mem_send_quiet (fun _ => id) trivial) rfl
  | deliver j ok =>
    simp only [system, step, Option.map_eq_some_iff] at success
    obtain ⟨message, present, rfl⟩ := success
    exact deliver_reads ok present

/-- What readers have seen: files are there for the levels they are about to
download, and were there for those they have. -/
structure Readable (s : State) : Prop where
  listed : Listed s
  snapshots : ∀ documents, .snapshot documents ∈ s.inFlight →
    ∀ document ∈ documents, levelRef document.levelID ∈ s.files
  requests : ∀ uuid, .getData uuid ∈ s.inFlight → levelRef uuid ∈ s.files
  downloads : ∀ download ∈ s.downloads, download.2 = true

theorem step_readable (s : State) (e : Event) (s' : State) (readable : Readable s)
    (first : FileFirst s e) (success : system.step s e = some s') : Readable s' := by
  have files := (step_stores success).1
  have reads := step_reads success
  refine ⟨(step_listed_iff readable.listed success).mpr first, ?_, ?_, ?_⟩
  · intro documents sent document shown
    rcases reads.snapshots documents sent with old | rfl
    · exact files _ (readable.snapshots documents old document shown)
    · exact files _ (readable.listed document shown)
  · intro uuid sent
    rcases reads.requests uuid sent with old | ⟨documents, snapshot, document, shown, rfl⟩
    · exact files _ (readable.requests uuid old)
    · exact files _ (readable.snapshots documents snapshot document shown)
  · intro download answered
    rcases reads.downloads download answered with old | ⟨uuid, request, rfl⟩
    · exact readable.downloads download old
    · exact decide_eq_true (readable.requests uuid request)

/-- Over every run of publishers and readers, from empty stores: every listed
level has its file in every state passed through if and only if every document
write that is applied finds the file already stored. In such runs every download
that storage answers finds its file. -/
theorem listed_levels_stored_iff (events : List Event) (t : State)
    (success : system.run {} events = some t) :
    (system.Always Listed {} events ↔ system.Meets FileFirst {} events) ∧
    (system.Meets FileFirst {} events → ∀ download ∈ t.downloads, download.2 = true) := by
  have empty : Listed {} := by simp [Listed]
  constructor
  · exact system.always_iff_meets (fun _ _ _ listed step => step_listed_iff listed step) empty success
  · intro first
    have start : Readable {} := ⟨empty, by simp, by simp, by simp⟩
    exact (system.run_invariant_of_meets step_readable start first success).downloads

def publishedLevel : LevelData := { levelMetadata := some { levelUUID := some "a" } }

def publish : Event := .publishLv (some "user") publishedLevel "Title" "Description"

/-- The document write fails the first time, the file is uploaded all the same,
and the level is published again; then it is listed and downloaded. -/
def secondAttempt : List Event :=
  [publish, .deliver 0 false, .deliver 0 true, .deliver 0 true,       -- file only
   publish, .deliver 0 true,                                         -- and now the document
   .getLevels, .deliver 1 true, .deliver 1 true, .deliver 1 true]

theorem secondAttempt_listed :
    ∃ t, system.run {} secondAttempt = some t ∧ system.Always Listed {} secondAttempt ∧
      t.downloads = [("a", true)] := by
  have first : system.Meets FileFirst {} secondAttempt := by decide
  exact ⟨_, rfl, (listed_levels_stored_iff secondAttempt _ rfl).1.mpr first, rfl⟩

/-- The document is written and answered, and the upload fails. -/
def failedUpload : List Event := [publish, .deliver 0 true, .deliver 0 true, .deliver 0 false]

/-- Nothing is in flight any more, and the level is listed without its file. -/
theorem failedUpload_unreadable :
    ∃ t, system.run {} failedUpload = some t ∧ t.inFlight = [] ∧
      t.documents = [⟨"a", "user", "Title", "Description"⟩] ∧ t.files = [] ∧ ¬ Listed t :=
  ⟨_, rfl, rfl, rfl, rfl, by decide⟩

end Arthius.Guarantees.ListedFiles
