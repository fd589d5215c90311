import GoSocket.Common.MessageQueue

/-!
# Alarms over the message queue

The alarms are named by a type `α`.  `Start` and `Cancel` hold the alarm's
lock from beginning to end and enter the queue in one locked section, so each
is one step.  A message runs the closure that `SetCallback` made: it checks
`_messageId` under the alarm's lock and then, without the lock, runs the inner
callback, which can do anything the other threads can do.

Which `Start` a posted closure comes from, and the log, are not in the source:
they are what the statements about runs are about.
-/

namespace GoSocket.Common

inductive AlarmStatus where
  | kStatusInit
  | kStatusStart
  | kStatusCancel
  | kStatusAlarm
  deriving DecidableEq, Repr

structure Alarm where
  hasCallback : Bool := false
  messageId : UInt32 := 0
  status : AlarmStatus := .kStatusInit
  userData : Int32 := 0
  deriving DecidableEq, Repr

namespace Alarm

def isWaiting (self : Alarm) : Bool := self.status = .kStatusStart

def isAlarm (self : Alarm) : Bool := self.status = .kStatusAlarm

end Alarm

/-- The closure of an alarm, posted by the `Start` with that number. -/
structure Posted (α : Type) where
  alarm : α
  start : Nat
  deriving DecidableEq, Repr

inductive AlarmEvent (α : Type) where
  | started (a : α) (start : Nat) (deadline : Int)
  | canceled (a : α)
  | fired (a : α) (start : Nat) (time : Int)
  deriving DecidableEq, Repr

structure Alarms (α : Type) where
  alarms : α → Alarm := fun _ => {}
  queue : MessageQueue (Posted α) := {}
  -- the inner callback of the closure that the loop calls is running
  firing : Bool := false
  now : Int := 0
  starts : Nat := 0
  log : List (AlarmEvent α) := []

namespace Alarms

variable {α : Type} [DecidableEq α]

def set (self : Alarms α) (a : α) (alarm : Alarm) : Alarms α :=
  { self with alarms := Function.update self.alarms a alarm }

def setCallback (self : Alarms α) (a : α) : Alarms α :=
  self.set a { self.alarms a with hasCallback := true }

def setUserData (self : Alarms α) (a : α) (userData : Int32) : Alarms α :=
  self.set a { self.alarms a with userData }

/-- Whether `Start` posts a message. -/
def canStart (self : Alarms α) (a : α) : Bool :=
  (self.alarms a).hasCallback && !(self.alarms a).isWaiting

def start (self : Alarms α) (a : α) (afterSec : Int) : Alarms α × Bool :=
  if self.canStart a then
    let posted := self.queue.postMessage self.now afterSec
      (some { alarm := a, start := self.starts })
    ({ self.set a { self.alarms a with
          messageId := posted.2, status := .kStatusStart } with
        queue := posted.1
        starts := self.starts + 1
        log := .started a self.starts (self.now + afterSec * 1000000000) ::
          self.log }, true)
  else (self, false)

def cancel (self : Alarms α) (a : α) : Alarms α × Bool :=
  if (self.alarms a).messageId = 0 then (self, false)
  else
    ({ self.set a { self.alarms a with
          messageId := 0, status := .kStatusCancel } with
        queue := (self.queue.cancelMessage (self.alarms a).messageId).1
        log := .canceled a :: self.log }, true)

def fire (self : Alarms α) : Option (Alarms α) :=
  match self.queue.loop, self.firing with
  | .calling _ posted pass, false =>
      let alarm := self.alarms posted.alarm
      if alarm.messageId = 0 then
        some { self with queue := { self.queue with loop := .next pass } }
      else
        some { self.set posted.alarm { alarm with status := .kStatusAlarm } with
          firing := true
          log := .fired posted.alarm posted.start self.now :: self.log }
  | _, _ => none

def returned (self : Alarms α) : Option (Alarms α) :=
  if self.firing then
    self.queue.returned.map fun queue => { self with queue, firing := false }
  else none

end Alarms

/-! ## All interleavings -/

inductive AlarmAction (α : Type) where
  | setCallback (a : α)
  | setUserData (a : α) (userData : Int32)
  | start (a : α) (afterSec : Int)
  | cancel (a : α)
  | drain
  | checkCanceled
  | fire
  | returned
  | rest
  | wake
  | tick (nanoseconds : Nat)
  deriving DecidableEq, Repr

namespace Alarms

variable {α : Type} [DecidableEq α]

def step (self : Alarms α) : AlarmAction α → Option (Alarms α)
  | .setCallback a => some (self.setCallback a)
  | .setUserData a userData => some (self.setUserData a userData)
  | .start a afterSec => some (self.start a afterSec).1
  | .cancel a => some (self.cancel a).1
  | .drain => (self.queue.drain self.now).map fun queue => { self with queue }
  | .checkCanceled =>
      self.queue.checkCanceled.map fun queue => { self with queue }
  | .fire => self.fire
  | .returned => self.returned
  | .rest => self.queue.rest.map fun queue => { self with queue }
  | .wake => self.queue.wake.map fun queue => { self with queue }
  | .tick nanoseconds => some { self with now := self.now + nanoseconds }

end Alarms

end GoSocket.Common
