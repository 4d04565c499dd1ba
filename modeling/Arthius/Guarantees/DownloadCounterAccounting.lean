import Arthius.Source.DownloadCounter

/-!
# What the shards add up to

The only steps that change the total are a committed increment (plus one) and a
`setData(["count": 0])` landing on a shard that already counts something (minus
that count). Summed over a run this gives the books of the counter, and from
them the exact schedules on which no download is lost.
-/
namespace Arthius.Guarantees.DownloadCounterAccounting
open Arthius.Lib Arthius.Source.DownloadCounter

def total (s : State) : Nat := (s.shards.map Shard.count).sum

theorem getCount_eq_total (s : State) : getCount (some s.shards) = total s := by
  simp only [getCount, total, ← List.foldl_map, List.sum_eq_foldl]

section Frame
variable (s : State)

@[simp] theorem total_send (messages : List Message) : total (s.send messages) = total s := rfl

@[simp] theorem total_updateCall (call : Nat) (update : Call → Call) :
    total (s.updateCall call update) = total s := rfl

@[simp] theorem total_remove (j : Nat) : total (s.remove j) = total s := rfl

@[simp] theorem shardAt_remove (j i : Nat) : shardAt (s.remove j) i = shardAt s i := rfl

@[simp] theorem commits_remove (j : Nat) (message : Message) :
    commits (s.remove j) message = commits s message := rfl

@[simp] theorem overwrites_remove (j : Nat) (message : Message) :
    overwrites (s.remove j) message = overwrites s message := rfl

@[simp] theorem total_incrementCounter (shards call random : Nat) :
    total (incrementCounter shards s call random) = total s := rfl

@[simp] theorem total_createCounter (call : Nat) : total (createCounter s call) = total s := rfl

@[simp] theorem total_addDownloadCounterTo : total (addDownloadCounterTo s) = total s := rfl

@[simp] theorem total_shardCompleted (shards call random : Nat) :
    total (shardCompleted shards s call random) = total s := by
  unfold shardCompleted
  split
  · rfl
  · dsimp only
    split <;> simp

theorem total_setData (shard : Shard) :
    total (setData s shard) + (shardAt s shard.id).elim 0 Shard.count = total s + shard.count :=
  KeyedList.sum_put Shard.id Shard.count shard s.shards

/-- A transaction that finds its shard adds one; one that does not stops its
own process and leaves the shards alone. -/
theorem total_runTransaction (call shardId : Nat) :
    total (runTransaction s call shardId) =
      total s + if (shardAt s shardId).isSome then 1 else 0 := by
  unfold runTransaction
  cases found : shardAt s shardId with
  | none => simp
  | some shard =>
    have exchange := total_setData s ⟨shardId, shard.count + 1⟩
    rw [show (⟨shardId, shard.count + 1⟩ : Shard).id = shardId from rfl, found] at exchange
    simp only [Option.elim_some, Option.isSome_some, if_true] at exchange ⊢
    omega

/-- A message that fails to take effect leaves the shards alone. -/
theorem total_deliver_failed (shards random : Nat) (message : Message) :
    total (deliver shards s false random message) = total s := by
  cases message <;> simp only [deliver] <;> repeat' split
  all_goals simp_all

/-- A message that takes effect adds what it commits and loses what it overwrites. -/
theorem total_deliver (shards random : Nat) (message : Message) :
    total (deliver shards s true random message) + overwrites s message =
      total s + commits s message := by
  cases message with
  | setShard call i => exact total_setData s ⟨i, 0⟩
  | transaction call shardId => exact total_runTransaction s call shardId
  | setNumShards call => rfl
  | getDocument call => rfl
  | document call found =>
    simp only [deliver, overwrites, commits]
    repeat' split
    all_goals simp
  | numShardsSet call =>
    simp only [deliver, overwrites, commits]
    split <;> simp
  | shardSet call =>
    simp only [deliver, overwrites, commits]
    split <;> simp

end Frame

/-- One step of the system: the total moves by what is committed less what is overwritten. -/
theorem step_balance (shards : Nat) (s : State) (e : Event) (s' : State)
    (success : (system shards).step s e = some s') :
    total s' + ofDelivery overwrites s e = total s + ofDelivery commits s e := by
  cases e with
  | addDownloadCounterTo =>
    cases success
    rfl
  | deliver j ok random =>
    simp only [system, step, Option.map_eq_some_iff] at success
    obtain ⟨message, present, rfl⟩ := success
    cases ok with
    | false => simpa [ofDelivery] using total_deliver_failed (s.remove j) shards random message
    | true => simpa [ofDelivery, present] using total_deliver (s.remove j) shards random message

/-- The books of a run from any state: committed downloads are either in the
total or were overwritten. -/
theorem run_books (shards : Nat) {s t : State} {es : List Event}
    (success : (system shards).run s es = some t) :
    total t + (system shards).tally (ofDelivery overwrites) s es =
      total s + (system shards).tally (ofDelivery commits) s es :=
  (system shards).run_balance (step_balance shards) success

/-- A shard write, if this step lands one, finds its shard missing or at zero. -/
def ShardUncounted (s : State) : Event → Prop
  | .deliver j true _ => ∀ call i, s.inFlight[j]? = some (.setShard call i) →
      ∀ shard, shardAt s i = some shard → shard.count = 0
  | _ => True

theorem overwrites_eq_zero_iff (s : State) (e : Event) :
    ofDelivery overwrites s e = 0 ↔ ShardUncounted s e := by
  cases e with
  | addDownloadCounterTo => simp [ofDelivery, ShardUncounted]
  | deliver j ok random =>
    cases ok with
    | false => simp [ofDelivery, ShardUncounted]
    | true =>
      simp only [ofDelivery, ShardUncounted]
      cases present : s.inFlight[j]? with
      | none => simp
      | some message =>
        cases message with
        | setShard call i =>
          simp only [Option.elim_some, overwrites, Option.some.injEq, Message.setShard.injEq]
          cases found : shardAt s i with
          | none => simp_all
          | some shard =>
            simp only [Option.elim_some]
            constructor
            · rintro zero call' i' ⟨rfl, rfl⟩ shard' same
              rw [found] at same
              exact Option.some.inj same ▸ zero
            · intro uncounted
              exact uncounted call i ⟨rfl, rfl⟩ shard found
        | _ => simp [overwrites]

/-- From a store without a counter, `getCount` returns the number of committed
increments on exactly those runs in which every `setData(["count": 0])` lands
on a shard that is missing or still at zero. This covers every state a run
reaches, settled or not. -/
theorem getCount_eq_committed_iff (shards : Nat) (es : List Event) (t : State)
    (success : (system shards).run {} es = some t) :
    getCount (some t.shards) = (system shards).tally (ofDelivery commits) {} es ↔
      (system shards).Meets ShardUncounted {} es := by
  have books := run_books shards success
  have start : total {} = 0 := rfl
  have lossless := (system shards).tally_eq_zero_iff (f := ofDelivery overwrites) success
  simp only [overwrites_eq_zero_iff] at lossless
  rw [getCount_eq_total, ← lossless]
  omega

/-- One call on its own: existence read, creation with its six shard writes,
and the increment sent at the fifth acknowledgement. -/
def singleCall : List Event :=
  .addDownloadCounterTo :: List.replicate 17 (.deliver 0 true 0)

theorem singleCall_counted : ∃ t, (system downloadCounterShards).run {} singleCall = some t ∧
    t.quiescent ∧ getCount (some t.shards) = 1 ∧
    (getCount (some t.shards) =
        (system downloadCounterShards).tally (ofDelivery commits) {} singleCall ↔
      (system downloadCounterShards).Meets ShardUncounted {} singleCall) :=
  ⟨_, rfl, by decide, by decide, getCount_eq_committed_iff _ _ _ rfl⟩

/-- The existence reads of two calls are answered before either creates the
counter. The first call creates it and commits its increment; the second, told
that there is no counter, creates it again and then commits its own. -/
def recreatedCounter : List Event :=
  [.addDownloadCounterTo, .addDownloadCounterTo] ++
  List.replicate 7 (.deliver 0 true 0) ++   -- both calls up to the numShards acknowledgements
  List.replicate 13 (.deliver 1 true 0) ++  -- first call: shard writes, then its increment
  List.replicate 14 (.deliver 0 true 0)     -- second call: the same once more

/-- Two increments committed, nothing in flight, and the counter says one. -/
theorem recreatedCounter_loses_download :
    ∃ t, (system downloadCounterShards).run {} recreatedCounter = some t ∧ t.quiescent ∧
      (system downloadCounterShards).tally (ofDelivery commits) {} recreatedCounter = 2 ∧
      getCount (some t.shards) = 1 :=
  ⟨_, rfl, by decide, by decide, by decide⟩

end Arthius.Guarantees.DownloadCounterAccounting
