import Arthius.Guarantees.DownloadCounterAccounting

/-!
# Increments and missing shards

An increment transaction reads the shard its call has picked, and stops the
process when that shard is not there. Shards never disappear, so a transaction
is safe as soon as every shard it can pick exists when its call goes on to the
increment. A call goes on in two places: told that the counter exists, and at
the acknowledgement that brings its `num` to the number of shards. Neither waits
for the shard writes themselves, which may still be in flight or have failed.
-/
namespace Arthius.Guarantees.ShardPresence
open Arthius.Lib Arthius.Source.DownloadCounter
open Arthius.Guarantees.DownloadCounterAccounting (singleCall)

/-- Every shard that `incrementCounter` can pick exists. -/
def Complete (shards : Nat) (s : State) : Prop :=
  ∀ random, ∃ shard, shardAt s (arc4randomUniform shards random) = some shard

/-- The message, once delivered, sends its call on to `incrementCounter`. -/
def GoesOn (shards : Nat) (s : State) : Message → Prop
  | .document call found => s.alive call = true ∧ found = true
  | .shardSet call => s.alive call = true ∧ ∃ c, s.calls[call]? = some c ∧ c.num + 1 = shards
  | _ => False

/-- The step condition: a call goes on to its increment only when every shard is there. -/
def WaitsForShards (shards : Nat) (s : State) : Event → Prop
  | .deliver j _ _ => ∀ message, s.inFlight[j]? = some message → GoesOn shards s message →
      Complete shards s
  | .addDownloadCounterTo => True

/-- The shards that can be picked are those numbered below `shards`, or shard 0. -/
theorem complete_iff (shards : Nat) (s : State) :
    Complete shards s ↔ ∀ i < max shards 1, (shardAt s i).isSome = true := by
  have picked : ∀ random, arc4randomUniform shards random < max shards 1 := by
    intro random
    unfold arc4randomUniform
    split
    · omega
    · have := Nat.mod_lt random (by omega : 0 < shards)
      omega
  constructor
  · intro complete i bound
    have same : arc4randomUniform shards i = i := by
      unfold arc4randomUniform
      split
      · omega
      · exact Nat.mod_eq_of_lt (by omega)
    obtain ⟨shard, present⟩ := complete i
    rw [← same, present]
    rfl
  · intro complete random
    exact Option.isSome_iff_exists.mp (complete _ (picked random))

instance (shards : Nat) (s : State) : Decidable (Complete shards s) :=
  decidable_of_iff _ (complete_iff shards s).symm

instance (shards : Nat) (s : State) : ∀ message, Decidable (GoesOn shards s message)
  | .document _ _ => inferInstanceAs (Decidable (_ ∧ _))
  | .shardSet call => decidable_of_iff
      (s.alive call = true ∧ ∃ c ∈ s.calls[call]?, c.num + 1 = shards) (by simp [GoesOn])
  | .getDocument _ | .setNumShards _ | .numShardsSet _ | .setShard _ _ | .transaction _ _ =>
    .isFalse id

instance (shards : Nat) (s : State) : ∀ e, Decidable (WaitsForShards shards s e)
  | .addDownloadCounterTo => .isTrue trivial
  | .deliver j _ _ => decidable_of_iff
      (∀ message ∈ s.inFlight[j]?, GoesOn shards s message → Complete shards s) (by
        simp [WaitsForShards])

section Frame
variable (shards : Nat) (s : State)

theorem shardAt_setData (shard : Shard) (i : Nat) :
    shardAt (setData s shard) i = if i = shard.id then some shard else shardAt s i :=
  KeyedList.get_put Shard.id shard i s.shards

theorem shardAt_shardCompleted (call random i : Nat) :
    shardAt (shardCompleted shards s call random) i = shardAt s i := by
  unfold shardCompleted
  split
  · rfl
  · dsimp only
    split <;> rfl

theorem setData_keeps (shard : Shard) {i : Nat} (present : ∃ x, shardAt s i = some x) :
    ∃ x, shardAt (setData s shard) i = some x := by
  rw [shardAt_setData]
  split
  · exact ⟨shard, rfl⟩
  · exact present

/-- No delivery makes a shard disappear. -/
theorem deliver_keeps (ok : Bool) (random : Nat) (message : Message) {i : Nat}
    (present : ∃ x, shardAt s i = some x) :
    ∃ x, shardAt (deliver shards s ok random message) i = some x := by
  cases message with
  | getDocument call => exact present
  | document call found =>
    simp only [deliver]
    split
    · split
      · exact present
      · exact present
    · exact present
  | setNumShards call => cases ok <;> exact present
  | numShardsSet call =>
    simp only [deliver]
    split <;> exact present
  | setShard call i =>
    cases ok with
    | false => exact present
    | true => exact setData_keeps s ⟨i, 0⟩ present
  | shardSet call =>
    simp only [deliver]
    split
    · rw [shardAt_shardCompleted]
      exact present
    · exact present
  | transaction call shardId =>
    cases ok with
    | false => exact present
    | true =>
      simp only [deliver, runTransaction, if_true]
      split
      · exact setData_keeps s _ present
      · exact present

theorem mem_incrementCounter {call other shardId random : Nat}
    (sent : .transaction call shardId ∈ (incrementCounter shards s other random).inFlight) :
    .transaction call shardId ∈ s.inFlight ∨ shardId = arc4randomUniform shards random := by
  rcases List.mem_append.mp sent with old | new
  · exact .inl old
  · cases List.mem_singleton.mp new
    exact .inr rfl

/-- The transactions in flight after a delivery: those there were, and the one
of a call that goes on. -/
theorem deliver_transactions {ok : Bool} {random : Nat} {message : Message} {call shardId : Nat}
    (sent : .transaction call shardId ∈ (deliver shards s ok random message).inFlight) :
    .transaction call shardId ∈ s.inFlight ∨
      (GoesOn shards s message ∧ shardId = arc4randomUniform shards random) := by
  cases message with
  | getDocument other => exact .inl (by simpa [deliver, State.send] using sent)
  | document other found =>
    simp only [deliver] at sent
    split at sent
    · next alive =>
      split at sent
      · next exists_ => exact (mem_incrementCounter shards s sent).imp_right fun own => ⟨⟨alive, exists_⟩, own⟩
      · left
        simpa [createCounter, State.send, State.updateCall] using sent
    · exact .inl sent
  | setNumShards other => cases ok <;> exact .inl (by simpa [deliver, State.send] using sent)
  | numShardsSet other =>
    simp only [deliver] at sent
    split at sent
    · exact .inl (by simpa [State.send, shardWrites] using sent)
    · exact .inl sent
  | setShard other i =>
    cases ok <;> exact .inl (by simpa [deliver, State.send, setData] using sent)
  | shardSet other =>
    simp only [deliver] at sent
    split at sent
    · next alive =>
      simp only [shardCompleted] at sent
      split at sent
      · exact .inl sent
      · next c known =>
        split at sent
        · next last =>
          exact (mem_incrementCounter shards _ sent).imp_right fun own => ⟨⟨alive, c, known, last⟩, own⟩
        · exact .inl sent
    · exact .inl sent
  | transaction other i =>
    left
    cases ok with
    | false => exact sent
    | true =>
      simp only [deliver, runTransaction, if_true] at sent
      split at sent <;> exact sent

/-- Every process is still running. -/
def Running (s : State) : Prop := ∀ c ∈ s.calls, c.alive = true

theorem running_updateCall {s : State} (running : Running s) (call : Nat) {update : Call → Call}
    (keeps : ∀ c, (update c).alive = c.alive) : Running (s.updateCall call update) := by
  intro c member
  obtain ⟨i, at_i⟩ := List.mem_iff_getElem?.mp member
  simp only [State.updateCall, List.getElem?_modify] at at_i
  obtain ⟨old, before, same⟩ := Option.map_eq_some_iff.mp at_i
  have alive := running old (List.mem_of_getElem? before)
  split at same
  · rw [← same, keeps, alive]
  · exact same ▸ alive

/-- Only a transaction that finds no shard stops a process. -/
theorem deliver_running {s : State} (running : Running s) (ok : Bool) (random : Nat)
    {message : Message}
    (finds : ∀ call shardId, message = .transaction call shardId →
      ∃ shard, shardAt s shardId = some shard) :
    Running (deliver shards s ok random message) := by
  cases message with
  | getDocument call => exact running
  | document call found =>
    simp only [deliver]
    split
    · split
      · exact running
      · exact running_updateCall running call fun _ => rfl
    · exact running
  | setNumShards call => cases ok <;> exact running
  | numShardsSet call =>
    simp only [deliver]
    split <;> exact running
  | setShard call i => cases ok <;> exact running
  | shardSet call =>
    simp only [deliver]
    split
    · have counted : Running (s.updateCall call fun c => { c with num := c.num + 1 }) :=
        running_updateCall running call fun _ => rfl
      unfold shardCompleted
      split
      · exact running
      · dsimp only
        split <;> exact counted
    · exact running
  | transaction call shardId =>
    cases ok with
    | false => exact running
    | true =>
      obtain ⟨shard, present⟩ := finds call shardId rfl
      simp only [deliver, runTransaction, present, if_true]
      exact running

end Frame

/-- The invariant: every transaction in flight will find its shard. -/
structure Safe (s : State) : Prop where
  finds : ∀ call shardId, .transaction call shardId ∈ s.inFlight →
    ∃ shard, shardAt s shardId = some shard
  running : Running s

theorem step_safe {shards : Nat} (s : State) (e : Event) (s' : State) (safe : Safe s)
    (waits : WaitsForShards shards s e) (success : (system shards).step s e = some s') :
    Safe s' := by
  cases e with
  | addDownloadCounterTo =>
    cases success
    constructor
    · intro call shardId sent
      apply safe.finds call shardId
      simpa [addDownloadCounterTo, State.send] using sent
    · intro c member
      rcases List.mem_append.mp member with old | new
      · exact safe.running c old
      · cases List.mem_singleton.mp new
        rfl
  | deliver j ok random =>
    simp only [system, step, Option.map_eq_some_iff] at success
    obtain ⟨message, present, rfl⟩ := success
    constructor
    · intro call shardId sent
      apply deliver_keeps
      rcases deliver_transactions shards (s.remove j) sent with old | ⟨goes, rfl⟩
      · exact safe.finds call shardId (List.mem_of_mem_eraseIdx old)
      · -- the shard just picked is there, since all of them are
        have goesOn : GoesOn shards s message := by cases message <;> exact goes
        exact waits message present goesOn random
    · apply deliver_running shards (s := s.remove j) safe.running
      intro call shardId same
      exact safe.finds call shardId (List.mem_of_getElem? (same ▸ present))

/-- A delivery that sends a call on is an increment, with the shards as they are. -/
theorem GoesOn.increments {shards : Nat} {s : State} {message : Message} (goes : GoesOn shards s message)
    (ok : Bool) (random : Nat) : ∃ call c after, after.calls[call]? = some c ∧
      after.shards = s.shards ∧
      deliver shards s ok random message = incrementCounter shards after call random := by
  cases message with
  | document call found =>
    obtain ⟨alive, rfl⟩ := goes
    obtain ⟨c, known, _⟩ := (Option.any_eq_true Call.alive _).mp alive
    exact ⟨call, c, s, known, rfl, by simp [deliver, alive]⟩
  | shardSet call =>
    obtain ⟨alive, c, known, last⟩ := goes
    refine ⟨call, { c with num := c.num + 1 },
      s.updateCall call (fun c => { c with num := c.num + 1 }), ?_, rfl, ?_⟩
    · simp [State.updateCall, known]
    · simp [deliver, alive, shardCompleted, known, last]
  | _ => exact goes.elim

/-- An increment whose shard is not there stops its process once delivered. -/
theorem increment_traps {shards : Nat} {s : State} {call random : Nat} {c : Call}
    (known : s.calls[call]? = some c)
    (absent : shardAt s (arc4randomUniform shards random) = none) :
    ∃ u, (system shards).step (incrementCounter shards s call random)
        (.deliver s.inFlight.length true 0) = some u ∧ ¬ Running u := by
  have last : (incrementCounter shards s call random).inFlight[s.inFlight.length]? =
      some (.transaction call (arc4randomUniform shards random)) := by
    simp [incrementCounter, State.send]
  have still : shardAt ((incrementCounter shards s call random).remove s.inFlight.length)
      (arc4randomUniform shards random) = none := absent
  refine ⟨s.updateCall call (fun c => { c with alive := false }), ?_, ?_⟩
  · simp only [system, step, last, Option.map_some, deliver, if_true, runTransaction, still]
    simp [State.remove, incrementCounter, State.send, State.updateCall, List.eraseIdx_append_of_length_le]
  · intro running
    have stopped : (s.updateCall call (fun c => { c with alive := false })).calls[call]? =
        some { c with alive := false } := by
      simp [State.updateCall, known]
    have dead := running _ (List.mem_of_getElem? stopped)
    cases dead

/-- A call that goes on while a shard is missing can pick that shard, and its
transaction, delivered next, then stops the process. -/
theorem missing_shard_traps {shards : Nat} {s : State} {j : Nat} {message : Message} (ok : Bool)
    (present : s.inFlight[j]? = some message) (goes : GoesOn shards s message)
    (missing : ¬ Complete shards s) :
    ∃ random k u, (system shards).run s [.deliver j ok random, .deliver k true 0] = some u ∧
      ¬ Running u := by
  simp only [Complete, not_forall] at missing
  obtain ⟨random, absent⟩ := missing
  have goesOn : GoesOn shards (s.remove j) message := by cases message <;> exact goes
  obtain ⟨call, c, after, known, sameShards, sent⟩ := goesOn.increments ok random
  have none_there : shardAt after (arc4randomUniform shards random) = none := by
    rw [shardAt, sameShards]
    exact Option.eq_none_iff_forall_ne_some.mpr fun shard there => absent ⟨shard, there⟩
  obtain ⟨u, step_, stopped⟩ := increment_traps known none_there
  refine ⟨random, after.inFlight.length, u, ?_, stopped⟩
  have delivered : (system shards).step s (.deliver j ok random) =
      some (incrementCounter shards after call random) := by
    simp only [system, step, present, Option.map_some, sent]
  simp only [Machine.run, delivered, step_, Option.bind_some]

/-- For any number of shards and of calls, over every run whose calls go on to
their increments only when every shard is there, each transaction in flight
finds its shard and no process has stopped, in every state reached. And
wherever a call goes on while a shard is missing, some random choice stops its
process two deliveries later. -/
theorem increments_find_shards (shards : Nat) (events : List Event) (t : State)
    (waits : (system shards).Meets (WaitsForShards shards) {} events)
    (success : (system shards).run {} events = some t) :
    ((∀ call shardId, .transaction call shardId ∈ t.inFlight →
        ∃ shard, shardAt t shardId = some shard) ∧ Running t) ∧
    ∀ (s : State) (j : Nat) (ok : Bool) (random : Nat),
      ¬ WaitsForShards shards s (.deliver j ok random) →
      ∃ random' k u, (system shards).run s [.deliver j ok random', .deliver k true 0] = some u ∧
        ¬ Running u := by
  have start : Safe {} := ⟨by simp, by simp [Running]⟩
  have safe := (system shards).run_invariant_of_meets step_safe start waits success
  refine ⟨⟨safe.finds, safe.running⟩, ?_⟩
  intro s j ok random taken
  simp only [WaitsForShards, not_forall] at taken
  obtain ⟨message, present, goes, missing⟩ := taken
  exact missing_shard_traps ok present goes missing

/-- One call on its own, delivered in order: all six shard writes are applied
before the first of them is acknowledged. -/
theorem singleCall_safe :
    ∃ t, (system downloadCounterShards).run {} singleCall = some t ∧ Running t :=
  ⟨_, rfl, (increments_find_shards downloadCounterShards singleCall _ (by decide) rfl).1.2⟩

/-- The first call has created the counter document but none of its shards when
the existence read of the second call is answered. -/
def earlyReader : List Event :=
  [.addDownloadCounterTo, .deliver 0 true 0, .deliver 0 true 0, .deliver 0 true 0,  -- counter set
   .addDownloadCounterTo, .deliver 1 true 0, .deliver 1 true 0,                     -- and found
   .deliver 1 true 0]                                                               -- transaction

/-- The second call's transaction reads shard 0, which is not there. -/
theorem earlyReader_traps :
    ∃ t, (system downloadCounterShards).run {} earlyReader = some t ∧ t.shards = [] ∧
      t.calls = [⟨0, true⟩, ⟨0, false⟩] ∧ ¬ Running t := by
  refine ⟨_, rfl, rfl, rfl, ?_⟩
  intro running
  have dead := running ⟨0, false⟩ (by decide)
  cases dead

end Arthius.Guarantees.ShardPresence
