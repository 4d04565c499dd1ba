import Arthius.Lib.Machine
import Arthius.Lib.KeyedList

/-!
# Sharded download counter

`FirebaseHandler.swift:14-108`. One `Call` is one run of `addDownloadCounterTo`
on a fixed level UUID, by whichever client. Everything Firestore carries for it
(the existence read and its snapshot, each write and its completion, the
increment transaction) is a `Message` in flight. A message is delivered whenever
the schedule says so, in any order; a write or a transaction takes effect, or
fails, at the moment it is delivered, and its completion callback is in flight
only from then on. The number of shards is a parameter; the source fixes it to
`downloadCounterShards`.
-/
namespace Arthius.Source.DownloadCounter
open Arthius.Lib

/-- `DOWNLOAD_COUNTER_SHARDS` -/
def downloadCounterShards : Nat := 5

/-- A document of the `shards` collection: its id and its `count` field. -/
structure Shard where
  id : Nat
  count : Nat
  deriving DecidableEq, Repr

inductive Message where
  | getDocument (call : Nat)
  | document (call : Nat) (found : Bool)
  | setNumShards (call : Nat)
  | numShardsSet (call : Nat)
  | setShard (call i : Nat)
  | shardSet (call : Nat)
  | transaction (call shardId : Nat)
  deriving DecidableEq, Repr

/-- The client side of one call: the `num` that `createCounter` captures, and
whether its process is still running. -/
structure Call where
  num : Nat := 0
  alive : Bool := true
  deriving DecidableEq, Repr

/-- The counter document, its `shards` collection, the calls and the messages. -/
structure State where
  numShards : Option Nat := none
  shards : List Shard := []
  calls : List Call := []
  inFlight : List Message := []
  deriving DecidableEq, Repr

inductive Event where
  | addDownloadCounterTo
  | deliver (j : Nat) (ok : Bool) (random : Nat)
  deriving DecidableEq, Repr

def arc4randomUniform (bound random : Nat) : Nat := if bound = 0 then 0 else random % bound

def State.send (s : State) (messages : List Message) : State :=
  { s with inFlight := s.inFlight ++ messages }

def State.alive (s : State) (call : Nat) : Bool := (s.calls[call]?).any Call.alive

def State.updateCall (s : State) (call : Nat) (update : Call → Call) : State :=
  { s with calls := s.calls.modify call update }

def shardAt (s : State) (i : Nat) : Option Shard := KeyedList.get Shard.id i s.shards

def setData (s : State) (shard : Shard) : State :=
  { s with shards := KeyedList.put Shard.id shard s.shards }

/-- Picks the shard; the transaction on it is then in flight. -/
def incrementCounter (shards : Nat) (s : State) (call random : Nat) : State :=
  s.send [.transaction call (arc4randomUniform shards random)]

def createCounter (s : State) (call : Nat) : State :=
  (s.updateCall call fun c => { c with num := 0 }).send [.setNumShards call]

/-- `for i in 0...DOWNLOAD_COUNTER_SHARDS`: the closed range, one write per `i`. -/
def shardWrites (shards call : Nat) : List Message :=
  (List.range (shards + 1)).map (Message.setShard call)

/-- Completion of one shard write: `num += 1`, and `completion()` when `num`
reaches the number of shards. -/
def shardCompleted (shards : Nat) (s : State) (call random : Nat) : State :=
  match s.calls[call]? with
  | none => s
  | some c =>
    let counted := s.updateCall call fun c => { c with num := c.num + 1 }
    if c.num + 1 = shards then incrementCounter shards counted call random else counted

/-- The update block of the transaction. A missing document reads as `[:]`, and
`shardData["count"] as! Int` then stops the process. -/
def runTransaction (s : State) (call shardId : Nat) : State :=
  match shardAt s shardId with
  | some shard => setData s ⟨shardId, shard.count + 1⟩
  | none => s.updateCall call fun c => { c with alive := false }

/-- Effect of one delivered message. `ok = false` is a read, write or
transaction that fails: an error callback of a read has no document, and the
callbacks of writes run all the same. -/
def deliver (shards : Nat) (s : State) (ok : Bool) (random : Nat) : Message → State
  | .getDocument call => s.send [.document call (ok && s.numShards.isSome)]
  | .document call found =>
    if s.alive call then
      if found then incrementCounter shards s call random else createCounter s call
    else s
  | .setNumShards call =>
    (if ok then { s with numShards := some shards } else s).send [.numShardsSet call]
  | .numShardsSet call => if s.alive call then s.send (shardWrites shards call) else s
  | .setShard call i => (if ok then setData s ⟨i, 0⟩ else s).send [.shardSet call]
  | .shardSet call => if s.alive call then shardCompleted shards s call random else s
  | .transaction call shardId => if ok then runTransaction s call shardId else s

/-- A new call starts with its existence read in flight. -/
def addDownloadCounterTo (s : State) : State :=
  { s with calls := s.calls ++ [Call.mk 0 true] }.send [.getDocument s.calls.length]

/-- The message at `j` is taken off the wire. -/
def State.remove (s : State) (j : Nat) : State := { s with inFlight := s.inFlight.eraseIdx j }

def step (shards : Nat) (s : State) : Event → Option State
  | .addDownloadCounterTo => some (addDownloadCounterTo s)
  | .deliver j ok random => (s.inFlight[j]?).map (deliver shards (s.remove j) ok random)

def system (shards : Nat) : Machine State Event := ⟨step shards⟩

/-- `getCount` on the documents the query returned, or on a failed query. -/
def getCount : Option (List Shard) → Nat
  | none => 0
  | some documents => documents.foldl (fun totalCount document => totalCount + document.count) 0

/-- Downloads that a delivered message commits: an increment transaction that
finds its shard. -/
def commits (s : State) : Message → Nat
  | .transaction _ shardId => if (shardAt s shardId).isSome then 1 else 0
  | _ => 0

/-- Downloads that a delivered message takes off the shard it lands on:
`setData(["count": 0])` on a shard that already counts some. -/
def overwrites (s : State) : Message → Nat
  | .setShard _ i => (shardAt s i).elim 0 Shard.count
  | _ => 0

/-- A quantity of the delivered message, on the steps whose message succeeds. -/
def ofDelivery (f : State → Message → Nat) (s : State) : Event → Nat
  | .deliver j true _ => (s.inFlight[j]?).elim 0 (f s)
  | _ => 0

/-- Nothing in flight: no message, no write, no transaction. -/
def State.quiescent (s : State) : Prop := s.inFlight = []

instance (s : State) : Decidable s.quiescent := inferInstanceAs (Decidable (_ = _))

end Arthius.Source.DownloadCounter
