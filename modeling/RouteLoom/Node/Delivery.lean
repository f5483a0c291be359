import RouteLoom.Basic
import RouteLoom.Lib.Pool

/-!
# Deliveries

The table of messages this node sends, as far as going to sleep looks at it: every record that has no
verdict yet gets one, and those that are saved are sent again after the wake-up.

* `Delivery.setState` : the only writer of a state
* `DeliveryTable.settleOneSleepDelivery` : one call settles one record
-/

namespace RouteLoom.Mesh

open Lib

inductive Priority
  | bulk | normal | management | urgent
  deriving DecidableEq, Repr, Inhabited

structure SendOptions where
  delivery : DeliveryClass := .reliable
  priority : Priority := .normal
  coalesceKey : UInt16 := 0
  lifetimeMs : UInt32 := 5000
  hopLimit : UInt8 := kDefaultHopLimit
  persistAcrossSleep : Bool := false
  ordered : Bool := false
  deriving DecidableEq, Repr

structure Delivery where
  id : MessageId := {}
  destination : NodeId := kInvalidNodeId
  options : SendOptions := {}
  payload : List UInt8 := []
  state : DeliveryState := .empty
  expiresAtMs : MonotonicMs := 0
  reason : String := "NONE"
  transmitted : Bool := false
  deriving DecidableEq, Repr

/-- The states that are verdicts. -/
def terminal : DeliveryState → Bool
  | .delivered | .failed | .expired | .cancelledBeforeTx | .indeterminate => true
  | _ => false

def sleepTerminal (state : DeliveryState) : Bool := state == .empty || terminal state

inductive SleepWorkPolicy
  | fail | save | defer
  deriving DecidableEq, Repr

namespace Delivery

def setState (state : DeliveryState) (reason : String) (d : Delivery) : Delivery :=
  if d.state == state && d.reason == reason then d
  else { d with state, reason, transmitted := d.transmitted || state == .waitingForMac }

/-- The verdict of an unfinished delivery when the node goes to sleep. -/
def settledForSleep (fallback : SleepWorkPolicy) (saved : Bool) (d : Delivery) : Delivery :=
  let durable := d.options.persistAcrossSleep
  let eligible := durable || fallback == .save
  if eligible && saved then d.setState .indeterminate "SLEEP_SAVED"
  else if fallback == .defer && !durable then d.setState .indeterminate "SLEEP_DEFERRED"
  else d.setState .failed (if eligible then "SLEEP_PERSIST_FULL" else "SLEEP_DRAIN")

end Delivery

def kDeliveryCapacity : Nat := 8

structure DeliveryTable where
  records : Pool Delivery kDeliveryCapacity := Pool.empty

namespace DeliveryTable

def modify (i : Fin kDeliveryCapacity) (f : Delivery → Delivery) (T : DeliveryTable) : DeliveryTable :=
  { T with records := T.records.modify i f }

/-- Settle one unfinished delivery before a sleep, if there is one. -/
def settleOneSleepDelivery (fallback : SleepWorkPolicy) (saved : MessageId → Bool)
    (T : DeliveryTable) : DeliveryTable :=
  match T.records.findIdx fun d => !sleepTerminal d.state with
  | none => T
  | some i => T.modify i fun d => d.settledForSleep fallback (saved d.id)

end DeliveryTable

end RouteLoom.Mesh
