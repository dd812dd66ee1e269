import AlertAdmission.ChannelQueues

/-!
Delivery targets, and what happens between handing them a batch and their reply.

A target answers each call by a reply that may depend on the channel of the batch and on the number
of calls before. A reply counts only up to a deadline; one that comes exactly then is in time.
-/

namespace AlertAdmission

/-- How a target answers a batch: with a result after some time, or never. -/
inductive Reply where
  | after (millis : Nat) (result : Except Fault Unit)
  | never
  deriving Repr

namespace Reply

def acceptsAfter (millis : Nat) : Reply := .after millis (.ok ())

def accepts : Reply := acceptsAfter 0

def refuses (reason : String) : Reply := .after 0 (.error (.delivery reason))

/-- When a reply is heard and what its result is, if that is not after the deadline. -/
def heard? (reply : Reply) (deadline : Nat) : Option (Nat × Except Fault Unit) :=
  match reply with
  | .after millis result => if millis ≤ deadline then some (millis, result) else none
  | .never => none

end Reply

/-- A delivery target: its reply to a call, given by the key of the batch and the number of earlier
calls with that key. -/
structure DeliveryTarget where
  reply : String → Nat → Reply

def DeliveryTarget.accepting : DeliveryTarget := ⟨fun _ _ => .accepts⟩

/-- The two ends of a delivery that succeeds. -/
inductive DeliveryStage where
  | attempted
  | finished
  deriving DecidableEq, Repr

/-- Something that happened to a batch, with the milliseconds since the start of the worker. -/
structure DeliveryEvent where
  millis : Nat
  stage : DeliveryStage
  batch : List Notification

namespace DeliveryEvent

def firstChannel (e : DeliveryEvent) : String :=
  match e.batch with
  | [] => ""
  | n :: _ => n.channel

/-- Whether one event is listed no later than another: by time, stage and first channel. -/
def notAfter (a b : DeliveryEvent) : Bool :=
  if a.millis ≠ b.millis then a.millis < b.millis
  else if a.stage ≠ b.stage then a.stage = .attempted
  else !(b.firstChannel < a.firstChannel)

end DeliveryEvent

end AlertAdmission
