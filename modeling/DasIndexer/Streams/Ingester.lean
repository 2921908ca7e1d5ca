import DasIndexer.Bubblegum.Executions
import DasIndexer.Lib.Runs
import DasIndexer.Streams.Handling

namespace DasIndexer.Streams
open Blockbuster

/-- The crate `plerkle_serialization`. -/
class PlerkleCrate where
  /-- `root_as_transaction_info` and the conversion of `PlerkleTransactionInfo`. -/
  transactionInfo : Bytes → Option TransactionInfo

/-- An entry of a stream. -/
structure Message where
  streamKey : String
  id : String
  data : Bytes
  deriving DecidableEq

/-- A task of `transaction_worker` in progress: the steps before it and what it returns after
them, if it returns. -/
structure Task where
  message : Message
  rest : List Step
  result : Option (Except ProgramTransformerError Unit)

/-- A worker receives the next batch when the tasks of the last one are joined. -/
structure Worker where
  streamKey : String
  tasks : List Task

/-- An ingester with transaction workers, its database and the messenger. The map `acks` of
the ack worker is missing if the worker has no messenger, and the channel is closed then. -/
structure Ingester where
  published : List Message
  acked : List (String × String)
  workers : List Worker
  channel : List (String × String)
  acks : Option (List (String × List String))
  db : Db

inductive Action where
  | publish (message : Message)
  | recv (worker : Nat) (messages : List Message)
  | step (worker task : Nat) (fault : Fault)
  | join (worker task : Nat)
  | ackRecv
  | tick (acknowledged : String → Bool)
  /-- The process ends, at any moment, and starts again with a worker for each of the streams. -/
  | restart (streams : List String) (acker : Bool)

/-- `acks.entry(stream).or_default().push(msg)`. -/
def pushAck (acks : List (String × List String)) (stream id : String) : List (String × List String) :=
  match acks with
  | [] => [(stream, [id])]
  | (key, ids) :: rest => if key = stream then (key, ids ++ [id]) :: rest else (key, ids) :: pushAck rest stream id

/-- The acknowledgements in the map. -/
def pairs (acks : List (String × List String)) : List (String × String) :=
  acks.flatMap (fun entry => entry.2.map (fun id => (entry.1, id)))

/-- What `ack_msg` acknowledges. An error is logged, and the ids are forgotten in any case. -/
def ackedBy (acknowledged : String → Bool) (acks : List (String × List String)) : List (String × String) :=
  pairs (acks.filter (fun entry => acknowledged entry.1))

section Machine
variable [BubblegumCrates] [Programs] [PlerkleCrate]

/-- Nothing is done for a message that cannot be read. -/
def Message.handling (message : Message) : List Item × Option (Except ProgramTransformerError Unit) :=
  match PlerkleCrate.transactionInfo message.data with
  | none => ([], none)
  | some txInfo => Streams.handling txInfo

def Message.steps (message : Message) : List Step := message.handling.1.flatMap Item.steps

def Message.events (message : Message) : List Bubblegum.Event := message.handling.1.filterMap Item.event

/-- `handle_transaction`, spawned. -/
def Task.start (message : Message) : Task where
  message := message
  rest := message.steps
  result := message.handling.2

def Task.after (task : Task) (rest : List Step) : Option ProgramTransformerError → Task
  | none => { task with rest := rest }
  | some problem => { task with rest := [], result := some (.error problem) }

/-- Whether the id of the message is returned. -/
def Task.returns (task : Task) : Bool := task.result.any captureResult

namespace Ingester

def setTasks (s : Ingester) (i : Nat) (worker : Worker) (tasks : List Task) : Ingester :=
  { s with workers := s.workers.set i { worker with tasks := tasks } }

def start (streams : List String) (acker : Bool) (s : Ingester) : Ingester :=
  { s with
    workers := streams.map (fun stream => { streamKey := stream, tasks := [] })
    channel := []
    acks := if acker then some [] else none }

def step (s : Ingester) : Action → Option Ingester
  | .publish message =>
    if s.published.any (fun other => other.streamKey = message.streamKey && other.id = message.id) then none
    else some { s with published := s.published ++ [message] }
  | .recv i messages => match s.workers[i]? with
    | some worker =>
      if worker.tasks.isEmpty && messages.all (fun m => m.streamKey = worker.streamKey && m ∈ s.published) then
        some (s.setTasks i worker (messages.map Task.start))
      else none
    | none => none
  | .step i j fault => match s.workers[i]? with
    | some worker => match worker.tasks[j]? with
      | some task => match task.rest with
        | next :: rest =>
          let (db, problem) := next.exec s.db fault
          some { s.setTasks i worker (worker.tasks.set j (task.after rest problem)) with db := db }
        | [] => none
      | none => none
    | none => none
  | .join i j => match s.workers[i]? with
    | some worker => match worker.tasks[j]? with
      | some task =>
        if task.rest.isEmpty then
          let sent := if s.acks.isSome && task.returns then [(worker.streamKey, task.message.id)] else []
          some { s.setTasks i worker (worker.tasks.eraseIdx j) with channel := s.channel ++ sent }
        else none
      | none => none
    | none => none
  | .ackRecv => match s.acks, s.channel with
    | some acks, (stream, id) :: rest => some { s with channel := rest, acks := some (pushAck acks stream id) }
    | _, _ => none
  | .tick acknowledged => match s.acks with
    | some acks => some
        { s with
          acked := s.acked ++ ackedBy acknowledged acks
          acks := some (acks.map (fun entry => (entry.1, []))) }
    | none => none
  | .restart streams acker => some (s.start streams acker)

/-- Nothing is published and the database is empty. -/
def empty (streams : List String) (acker : Bool) : Ingester :=
  start streams acker { published := [], acked := [], workers := [], channel := [], acks := none, db := {} }

/-- The acknowledgements that have not reached the messenger. -/
def underway (s : Ingester) : List (String × String) := s.channel ++ pairs (s.acks.getD [])

def events (s : Ingester) : List Bubblegum.Event := s.published.flatMap Message.events

end Ingester

end Machine

end DasIndexer.Streams
