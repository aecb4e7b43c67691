/-
# The life of an order

An order is confirmed, processed, shipped and delivered, in that order. It can be cancelled until it
is delivered, and refunded once it is delivered or cancelled. After that nothing happens to it.
-/
import StoreQL.Machine.Basic

namespace StoreQL

/-- The states of an order. -/
inductive OrderStatus where
  | pending
  | confirmed
  | processing
  | shipped
  | delivered
  | cancelled
  | refunded
deriving DecidableEq, Repr, Inhabited

namespace OrderStatus

/-- Every state, in the order in which they are listed to users. -/
def all : List OrderStatus :=
  [.pending, .confirmed, .processing, .shipped, .delivered, .cancelled, .refunded]

/-- The name of a state. -/
def name : OrderStatus → String
  | .pending => "pending"
  | .confirmed => "confirmed"
  | .processing => "processing"
  | .shipped => "shipped"
  | .delivered => "delivered"
  | .cancelled => "cancelled"
  | .refunded => "refunded"

/-- Whether nothing happens to the order any more. -/
def isFinal : OrderStatus → Bool
  | .refunded => true
  | _ => false

instance : ToString OrderStatus := ⟨name⟩

end OrderStatus

/-- What can happen to an order. -/
inductive OrderEvent where
  | confirm
  | process
  | ship
  | deliver
  | cancel
  | refund
deriving DecidableEq, Repr, Inhabited

namespace OrderEvent

/-- Every event, in the order in which they are listed to users. -/
def all : List OrderEvent := [.confirm, .process, .ship, .deliver, .cancel, .refund]

/-- The name of an event. -/
def name : OrderEvent → String
  | .confirm => "CONFIRM"
  | .process => "PROCESS"
  | .ship => "SHIP"
  | .deliver => "DELIVER"
  | .cancel => "CANCEL"
  | .refund => "REFUND"

/-- The event of a given name. -/
def ofName? (name : String) : Option OrderEvent := all.find? (fun e => e.name == name)

instance : ToString OrderEvent := ⟨name⟩

end OrderEvent

/-- The edges of the life of an order. -/
def orderEdges : List (Edge OrderStatus OrderEvent) :=
  [⟨.pending, .confirm, .confirmed⟩, ⟨.pending, .cancel, .cancelled⟩,
    ⟨.confirmed, .process, .processing⟩, ⟨.confirmed, .cancel, .cancelled⟩,
    ⟨.processing, .ship, .shipped⟩, ⟨.processing, .cancel, .cancelled⟩,
    ⟨.shipped, .deliver, .delivered⟩, ⟨.shipped, .cancel, .cancelled⟩,
    ⟨.delivered, .refund, .refunded⟩, ⟨.cancelled, .refund, .refunded⟩]

/-- The machine of an order that has just been placed. -/
def orderMachine : Machine OrderStatus OrderEvent ω :=
  orderEdges.foldl (fun m e => m.addEdge e.source e.event e.target) (.start .pending)

end StoreQL
