/-
Fault channels: who is told of the faults that operations report instead of failing.

A report calls the handlers that are subscribed when it begins, once each and in order.  A handler
may subscribe further handlers while it is called; those hear of later faults only.  What a handler
does is given by a function of the deliveries so far, so handlers may react to anything that the
channel has seen.
-/
namespace TypedRecords

universe u v

/-- The handlers of a channel with what was reported and delivered. -/
structure FaultChannel (Handler : Type u) (Fault : Type v) where
  /-- The subscribed handlers, the earliest first. -/
  handlers : List Handler := []
  /-- Every reported fault, the earliest first. -/
  reported : List Fault := []
  /-- Every delivery of a fault to a handler, the earliest first. -/
  delivered : List (Handler × Fault) := []
deriving Inhabited

namespace FaultChannel

variable {Handler : Type u} {Fault : Type v}

/-- The handlers that a handler subscribes when it is called with a fault, given the deliveries up
to and with this one. -/
abbrev Reaction (Handler : Type u) (Fault : Type v) :=
  List (Handler × Fault) → Handler → Fault → List Handler

/-- A handler that only takes note. -/
def Reaction.none : Reaction Handler Fault := fun _ _ _ => []

/-- Adds a handler. -/
def subscribe (channel : FaultChannel Handler Fault) (handler : Handler) :
    FaultChannel Handler Fault :=
  { channel with handlers := channel.handlers ++ [handler] }

/-- Calls one handler with a fault. -/
def deliver (react : Reaction Handler Fault) (fault : Fault) (channel : FaultChannel Handler Fault)
    (handler : Handler) : FaultChannel Handler Fault :=
  let delivered := channel.delivered ++ [(handler, fault)]
  { channel with handlers := channel.handlers ++ react delivered handler fault, delivered }

/-- Reports a fault to the handlers subscribed so far. -/
def report (react : Reaction Handler Fault) (channel : FaultChannel Handler Fault) (fault : Fault) :
    FaultChannel Handler Fault :=
  channel.handlers.foldl (deliver react fault)
    { channel with reported := channel.reported ++ [fault] }

end FaultChannel

end TypedRecords
