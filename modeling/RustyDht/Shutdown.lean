import RustyDht.Lib.Machine

/-!
# The shutdown

`ShutdownSender` and `ShutdownReceiver` (`src/shutdown.rs`): a watch channel that carries the signal, and a broadcast channel that nothing
is ever sent on, whose senders are counted to know when everybody has stopped. A receiver holds the version of the signal that it has
seen, and one sender of the broadcast channel. Every receiver and every task has a number of its own, and a receiver that is no task's to
watch belongs to the application, or to the future that a task runs.
-/

namespace RustyDht

/-- `ShutdownReceiver`, with its number, the task whose future holds it, if any, and the version of the signal that it has seen. -/
structure ShutdownReceiver where
  id : Nat
  owner : Option Nat
  seen : Nat
  deriving DecidableEq

/-- A task of `ShutdownReceiver::spawn_with_shutdown`: the version that its receiver has seen. -/
structure ShutdownTask where
  id : Nat
  seen : Nat
  deriving DecidableEq

/-- A linked pair: the version of the signal, whether the sender is there, whether it has sent, the receivers and the tasks, and whether
`ShutdownSender::shutdown` has returned. -/
structure Shutdown where
  version : Nat
  senderUp : Bool
  signalled : Bool
  receivers : List ShutdownReceiver
  tasks : List ShutdownTask
  nextId : Nat
  returned : Bool
  deriving DecidableEq

/-- What happens to a linked pair. -/
inductive ShutdownEvent where
  /-- A receiver is cloned, for the application or for the future of a task. -/
  | clone (id : Nat) (owner : Option Nat)
  /-- A receiver changes hands. -/
  | give (id : Nat) (owner : Option Nat)
  /-- A receiver is dropped. -/
  | drop (id : Nat)
  /-- `ShutdownReceiver::watch` is polled by whoever holds a receiver. -/
  | watch (id : Nat)
  /-- `ShutdownReceiver::spawn_with_shutdown` takes a receiver. -/
  | spawn (id : Nat)
  /-- A task is polled. Its future may be done then, or its time over. -/
  | poll (id : Nat) (done : Bool)
  /-- `ShutdownSender::shutdown` is called. -/
  | shutdown
  /-- `ShutdownSender::shutdown`, once called, is polled. -/
  | confirm
  /-- The sender is dropped. -/
  | dropSender

namespace Shutdown

/-- `create_shutdown`. -/
def createShutdown : Shutdown where
  version := 0
  senderUp := true
  signalled := false
  receivers := [{ id := 0, owner := none, seen := 0 }]
  tasks := []
  nextId := 1
  returned := false

/-- `ShutdownReceiver::watch` returns where there is a signal that has not been seen, or no sender. -/
def watchReturns (self : Shutdown) (seen : Nat) : Bool := seen != self.version || !self.senderUp

/-- Nobody holds a receiver: all senders of the broadcast channel are gone. -/
def allStopped (self : Shutdown) : Bool := self.receivers.isEmpty && self.tasks.isEmpty

/-- Whether who is to hold a receiver is there. -/
def hasOwner (self : Shutdown) : Option Nat → Bool
  | some t => self.tasks.any (fun task => task.id == t)
  | none => true

/-- The receiver with a number. -/
def receiver (self : Shutdown) (id : Nat) : Option ShutdownReceiver := self.receivers.find? (fun r => r.id == id)

/-- The pair without the receiver with a number. -/
def dropReceiver (self : Shutdown) (id : Nat) : Shutdown := { self with receivers := self.receivers.filter (fun r => r.id != id) }

/-- The pair without a task: its receiver is dropped, and its future with all that it holds. -/
def endTask (self : Shutdown) (id : Nat) : Shutdown :=
  { self with
    tasks := self.tasks.filter (fun task => task.id != id)
    receivers := self.receivers.filter (fun r => r.owner != some id) }

/-- The pair after an event. -/
def step (self : Shutdown) : ShutdownEvent → Shutdown
  | .clone id owner =>
    match self.receiver id with
    | some r =>
      if self.hasOwner owner then
        { self with receivers := self.receivers ++ [{ id := self.nextId, owner, seen := r.seen }], nextId := self.nextId + 1 }
      else self
    | none => self
  | .give id owner =>
    if self.hasOwner owner then
      { self with receivers := self.receivers.map (fun r => if r.id = id then { r with owner } else r) }
    else self
  | .drop id => self.dropReceiver id
  | .watch id =>
    { self with
      receivers := self.receivers.map (fun r => if r.id = id ∧ self.watchReturns r.seen then { r with seen := self.version } else r) }
  | .spawn id =>
    match self.receiver id with
    | some r =>
      { self.dropReceiver id with tasks := self.tasks ++ [{ id := self.nextId, seen := r.seen }], nextId := self.nextId + 1 }
    | none => self
  | .poll id done =>
    match self.tasks.find? (fun task => task.id == id) with
    | some task => if self.watchReturns task.seen || done then self.endTask id else self
    | none => self
  | .shutdown =>
    if self.senderUp then
      -- There is nobody to tell, and the version stays, where no receiver is left.
      { self with version := if self.allStopped then self.version else self.version + 1, signalled := true }
    else self
  | .confirm => if self.signalled && self.allStopped then { self with returned := true } else self
  | .dropSender => { self with senderUp := false }

end Shutdown

end RustyDht
