import Mathlib.Data.List.Count
import Scanipy.Python.Dict
import Scanipy.Python.Text

/-! The in-memory queue with its dead-letter queue, the idempotent consumer, and the system of
both with the effect of each operation on it.
-/

namespace Scanipy.Services.Substrate

open Python

/-- `UnknownReceiptError`, with the handle its message names. -/
inductive QueueError where
  | unknownReceipt (handle : Int)
  deriving DecidableEq

/-- `Message`. Messages are mutable objects: `object` is the identity of this one, so that two
messages of one body and key stay two messages.
-/
structure Message where
  object : Nat
  body : Dict Text Text
  dedupKey : Text
  receiveCount : Nat
  deriving DecidableEq

structure ReceivedMessage where
  receiptHandle : Int
  message : Message

structure StandardQueue where
  maxReceiveCount : Int
  ready : List Message
  inFlight : Dict Int Message
  dlq : List Message
  nextReceipt : Int

namespace StandardQueue

/-- A new queue: every collection starts empty. -/
def create (maxReceiveCount : Int) : StandardQueue :=
  ⟨maxReceiveCount, [], [], [], 0⟩

def send (queue : StandardQueue) (object : Nat) (body : Dict Text Text) (dedupKey : Text)
    : StandardQueue :=
  { queue with ready := queue.ready ++ [⟨object, body, dedupKey, 0⟩] }

def receive (queue : StandardQueue) : Option ReceivedMessage × StandardQueue :=
  match queue.ready with
  | [] => (none, queue)
  | head :: rest =>
      let message := { head with receiveCount := head.receiveCount + 1 }
      (some ⟨queue.nextReceipt, message⟩,
        { queue with
          ready := rest
          inFlight := queue.inFlight.set queue.nextReceipt message
          nextReceipt := queue.nextReceipt + 1 })

def ack (queue : StandardQueue) (receiptHandle : Int) : Except QueueError Unit × StandardQueue :=
  if receiptHandle ∈ queue.inFlight.keys then
    (.ok (), { queue with inFlight := queue.inFlight.delete receiptHandle })
  else
    (.error (.unknownReceipt receiptHandle), queue)

def fail (queue : StandardQueue) (receiptHandle : Int) : Except QueueError Unit × StandardQueue :=
  match queue.inFlight.get? receiptHandle with
  | none => (.error (.unknownReceipt receiptHandle), queue)
  | some message =>
      let settled := { queue with inFlight := queue.inFlight.delete receiptHandle }
      if queue.maxReceiveCount ≤ message.receiveCount then
        (.ok (), { settled with dlq := queue.dlq ++ [message] })
      else
        (.ok (), { settled with ready := queue.ready ++ [message] })

end StandardQueue

/-- How a handler ends: it returns, raises an `Exception`, or lets something else pass that
`poll_once` does not catch.
-/
inductive HandlerOutcome where
  | returns
  | raises
  | escapes

/-- `IdempotentConsumer`. While its handler runs, `handling` is what `poll_once` received. -/
structure IdempotentConsumer where
  processedKeys : PySet Text
  handlerInvocations : Nat
  handling : Option ReceivedMessage

namespace IdempotentConsumer

def create : IdempotentConsumer :=
  ⟨[], 0, none⟩

/-- `poll_once` up to the call of the handler: `true` when a processed key is acknowledged. -/
def begin (consumer : IdempotentConsumer) (received : ReceivedMessage)
    : Bool × IdempotentConsumer :=
  if received.message.dedupKey ∈ consumer.processedKeys then (true, consumer)
  else (false, { consumer with handling := some received })

/-- `poll_once` after the handler has ended and before the message is settled. -/
def conclude (consumer : IdempotentConsumer) (received : ReceivedMessage)
    : HandlerOutcome → IdempotentConsumer
  | .returns =>
      { processedKeys := consumer.processedKeys.add received.message.dedupKey
        handlerInvocations := consumer.handlerInvocations + 1
        handling := none }
  | .raises | .escapes => { consumer with handling := none }

end IdempotentConsumer

/-- What happened: a delivery, a settled receipt, or a handler that returned. -/
inductive Event (Consumer : Type) where
  | received (handle : Int) (object : Nat)
  | acknowledged (handle : Int) (object : Nat)
  | failed (handle : Int) (object : Nat)
  | completed (consumer : Consumer) (key : Text)
  deriving DecidableEq

/-- One queue with its consumers; `sent` and `history` record what happened and are read by no
operation but the choice of a new object.
-/
structure System (Consumer : Type) where
  queue : StandardQueue
  consumers : Consumer → IdempotentConsumer
  sent : Nat
  history : List (Event Consumer)

namespace System

variable {Consumer : Type} [DecidableEq Consumer]

def create (maxReceiveCount : Int) : System Consumer :=
  ⟨.create maxReceiveCount, fun _ => .create, 0, []⟩

def record (system : System Consumer) (event : Event Consumer) : System Consumer :=
  { system with history := system.history ++ [event] }

def send (system : System Consumer) (body : Dict Text Text) (dedupKey : Text) : System Consumer :=
  { system with queue := system.queue.send system.sent body dedupKey, sent := system.sent + 1 }

def receive (system : System Consumer) : Option ReceivedMessage × System Consumer :=
  match system.queue.receive with
  | (none, queue) => (none, { system with queue })
  | (some received, queue) =>
      (some received,
        record { system with queue } (.received received.receiptHandle received.message.object))

/-- A settled receipt is recorded with the object it stood for. -/
def settle (system : System Consumer) (handle : Int)
    (operation : StandardQueue → Int → Except QueueError Unit × StandardQueue)
    (event : Int → Nat → Event Consumer) : Except QueueError Unit × System Consumer :=
  match operation system.queue handle, system.queue.inFlight.get? handle with
  | (.ok _, queue), some message =>
      (.ok (), record { system with queue } (event handle message.object))
  | (result, queue), _ => (result, { system with queue })

def ack (system : System Consumer) (handle : Int) : Except QueueError Unit × System Consumer :=
  system.settle handle StandardQueue.ack .acknowledged

def fail (system : System Consumer) (handle : Int) : Except QueueError Unit × System Consumer :=
  system.settle handle StandardQueue.fail .failed

def setConsumer (system : System Consumer) (consumer : Consumer) (state : IdempotentConsumer)
    : System Consumer :=
  { system with
    consumers := fun other => if other = consumer then state else system.consumers other }

/-- `poll_once` up to the call of the handler. -/
def pollBegins (system : System Consumer) (consumer : Consumer) : System Consumer :=
  match system.receive with
  | (none, after) => after
  | (some received, after) =>
      match (after.consumers consumer).begin received with
      | (true, _) => (after.ack received.receiptHandle).2
      | (false, state) => after.setConsumer consumer state

/-- `poll_once` from the end of the handler on. -/
def pollEnds (system : System Consumer) (consumer : Consumer) (received : ReceivedMessage)
    (outcome : HandlerOutcome) : System Consumer :=
  let after := system.setConsumer consumer ((system.consumers consumer).conclude received outcome)
  match outcome with
  | .returns =>
      ((after.record (.completed consumer received.message.dedupKey)).ack received.receiptHandle).2
  | .raises => (after.fail received.receiptHandle).2
  | .escapes => after

end System

/-- One operation of anyone. A consumer whose handler runs begins no second poll; everyone else,
and the handler itself, may use the queue meanwhile.
-/
inductive Step {Consumer : Type} [DecidableEq Consumer] (system : System Consumer)
    : System Consumer → Prop where
  | send (body : Dict Text Text) (dedupKey : Text) : Step system (system.send body dedupKey)
  | receive : Step system system.receive.2
  | ack (handle : Int) : Step system (system.ack handle).2
  | fail (handle : Int) : Step system (system.fail handle).2
  | pollBegins (consumer : Consumer) (idle : (system.consumers consumer).handling = none)
      : Step system (system.pollBegins consumer)
  | pollEnds (consumer : Consumer) (received : ReceivedMessage) (outcome : HandlerOutcome)
      (busy : (system.consumers consumer).handling = some received)
      : Step system (system.pollEnds consumer received outcome)

/-- Any number of operations. -/
inductive Steps {Consumer : Type} [DecidableEq Consumer] (start : System Consumer)
    : System Consumer → Prop where
  | refl : Steps start start
  | step {middle finish : System Consumer} (earlier : Steps start middle)
      (last : Step middle finish) : Steps start finish

inductive Place where
  | ready
  | inFlight (handle : Int)
  | deadLettered
  | acknowledged

/-- How often an object is held. -/
def StandardQueue.occurrences (queue : StandardQueue) (object : Nat) : Nat :=
  queue.ready.countP (·.object == object) + queue.inFlight.countP (·.2.object == object)
  + queue.dlq.countP (·.object == object)

namespace System

variable {Consumer : Type} [DecidableEq Consumer]

def acknowledgements (system : System Consumer) (object : Nat) : Nat :=
  system.history.countP fun
    | .acknowledged _ other => other == object
    | _ => false

/-- The places of an object, one for each of its occurrences. -/
def places (system : System Consumer) (object : Nat) : List Place :=
  (system.queue.ready.filter (·.object == object)).map (fun _ => Place.ready)
  ++ (system.queue.inFlight.filter (·.2.object == object)).map (fun entry => Place.inFlight entry.1)
  ++ (system.queue.dlq.filter (·.object == object)).map (fun _ => Place.deadLettered)
  ++ List.replicate (system.acknowledgements object) Place.acknowledged

def timesReceived (system : System Consumer) (object : Nat) : Nat :=
  system.history.countP fun
    | .received _ other => other == object
    | _ => false

def timesFailed (system : System Consumer) (object : Nat) : Nat :=
  system.history.countP fun
    | .failed _ other => other == object
    | _ => false

end System

-- The effect of each operation

/-- A stored entry and the others, by induction on the dictionary. -/
theorem perm_cons_delete {α β : Type} [DecidableEq α] {entries : Dict α β} {key : α} {value : β}
    (distinct : entries.keys.Nodup) (stored : entries.get? key = some value)
    : entries.Perm ((key, value) :: entries.delete key) := by
  induction entries with
  | nil => cases stored
  | cons entry rest ih =>
      obtain ⟨other, first⟩ := entry
      obtain ⟨absent, others⟩ := List.nodup_cons.mp distinct
      by_cases same : other = key
      · subst same
        have kept : Dict.delete rest other = rest := by
          refine List.filter_eq_self.mpr fun later member => ?_
          simp only [decide_eq_true_eq]
          intro equal
          have listed := List.mem_map_of_mem (f := Prod.fst) member
          rw [equal] at listed
          exact absent listed
        have found : first = value := by simpa [Dict.get?] using stored
        have dropped : Dict.delete ((other, first) :: rest) other = Dict.delete rest other := by
          simp [Dict.delete]
        rw [dropped, kept, found]
      · have later : Dict.get? rest key = some value := by
          simpa [Dict.get?, same] using stored
        have kept : Dict.delete ((other, first) :: rest) key
            = (other, first) :: Dict.delete rest key := by
          simp [Dict.delete, same]
        rw [kept]
        exact ((ih others later).cons _).trans (List.Perm.swap _ _ _)

namespace System

variable {Consumer : Type} {system : System Consumer}

/-- Occurrences are counted place by place. -/
theorem length_places (system : System Consumer) (object : Nat)
    : (system.places object).length
      = system.queue.occurrences object + system.acknowledgements object := by
  simp only [places, StandardQueue.occurrences, List.length_append, List.length_map,
    List.length_replicate, List.countP_eq_length_filter]

@[simp]
theorem timesReceived_record (event : Event Consumer) (object : Nat)
    : (system.record event).timesReceived object
      = system.timesReceived object
        + match event with
          | .received _ other => if other = object then 1 else 0
          | _ => 0 := by
  cases event <;> simp [timesReceived, record, List.countP_append, List.countP_singleton]

@[simp]
theorem timesFailed_record (event : Event Consumer) (object : Nat)
    : (system.record event).timesFailed object
      = system.timesFailed object
        + match event with
          | .failed _ other => if other = object then 1 else 0
          | _ => 0 := by
  cases event <;> simp [timesFailed, record, List.countP_append, List.countP_singleton]

@[simp]
theorem acknowledgements_record (event : Event Consumer) (object : Nat)
    : (system.record event).acknowledgements object
      = system.acknowledgements object
        + match event with
          | .acknowledged _ other => if other = object then 1 else 0
          | _ => 0 := by
  cases event <;> simp [acknowledgements, record, List.countP_append, List.countP_singleton]

theorem receive_none (empty : system.queue.ready = [])
    : system.receive = (none, system) := by
  simp [receive, StandardQueue.receive, empty]

/-- A delivery takes the head of the queue. -/
theorem receive_some {head : Message} {rest : List Message}
    (waiting : system.queue.ready = head :: rest)
    : system.receive
      = (some ⟨system.queue.nextReceipt, { head with receiveCount := head.receiveCount + 1 }⟩,
          record
            { system with
              queue :=
                { system.queue with
                  ready := rest
                  inFlight :=
                    system.queue.inFlight.set system.queue.nextReceipt
                      { head with receiveCount := head.receiveCount + 1 }
                  nextReceipt := system.queue.nextReceipt + 1 } }
            (.received system.queue.nextReceipt head.object)) := by
  simp [receive, StandardQueue.receive, waiting]

variable {handle : Int}

/-- An unknown receipt is refused and nothing changes. -/
theorem ack_unknown (unknown : handle ∉ system.queue.inFlight.keys)
    : system.ack handle = (.error (.unknownReceipt handle), system) := by
  simp [ack, settle, StandardQueue.ack, unknown]

theorem get?_eq_none (unknown : handle ∉ system.queue.inFlight.keys)
    : system.queue.inFlight.get? handle = none := by
  by_contra present
  obtain ⟨message, stored⟩ := Option.ne_none_iff_exists'.mp present
  exact unknown (Dict.mem_keys.mpr ⟨message, stored⟩)

theorem fail_unknown (unknown : handle ∉ system.queue.inFlight.keys)
    : system.fail handle = (.error (.unknownReceipt handle), system) := by
  simp [fail, settle, StandardQueue.fail, get?_eq_none unknown]

variable {message : Message}

theorem ack_known (stored : system.queue.inFlight.get? handle = some message)
    : system.ack handle
      = (.ok (),
          record
            { system with
              queue := { system.queue with inFlight := system.queue.inFlight.delete handle } }
            (.acknowledged handle message.object)) := by
  have known : handle ∈ system.queue.inFlight.keys := Dict.mem_keys.mpr ⟨message, stored⟩
  simp [ack, settle, StandardQueue.ack, known, stored]

/-- A failed receipt returns its message, to the dead letters when it was received often enough. -/
theorem fail_known (stored : system.queue.inFlight.get? handle = some message)
    : system.fail handle
      = (.ok (),
          record
            { system with
              queue :=
                { system.queue with
                  inFlight := system.queue.inFlight.delete handle
                  dlq :=
                    if system.queue.maxReceiveCount ≤ message.receiveCount then
                      system.queue.dlq ++ [message]
                    else system.queue.dlq
                  ready :=
                    if system.queue.maxReceiveCount ≤ message.receiveCount then system.queue.ready
                    else system.queue.ready ++ [message] } }
            (.failed handle message.object)) := by
  by_cases often : system.queue.maxReceiveCount ≤ message.receiveCount <;>
    simp [fail, settle, StandardQueue.fail, stored, often]

end System

end Scanipy.Services.Substrate
