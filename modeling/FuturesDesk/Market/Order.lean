import FuturesDesk.Dialect
import FuturesDesk.Json.Basic

/-! Sides, directions and market orders. -/
namespace FuturesDesk

inductive OrderSide where
  | buy
  | sell
  deriving DecidableEq, Repr

namespace OrderSide

def name : OrderSide → String
  | buy => "BUY"
  | sell => "SELL"

def all : List OrderSide := [buy, sell]

def ofName? (name : String) : Option OrderSide := all.find? (·.name = name)

def read? {V : Type} (d : Dialect V) (value : V) : Option OrderSide :=
  (d.choice? (all.map name) value).bind ofName?

def opposite : OrderSide → OrderSide
  | buy => sell
  | sell => buy

end OrderSide

/-- Whether a bot gains from rising or from falling prices. -/
inductive Direction where
  | long
  | short
  deriving DecidableEq, Repr

namespace Direction

def name : Direction → String
  | long => "LONG"
  | short => "SHORT"

def debugName : Direction → String
  | long => "Long"
  | short => "Short"

def all : List Direction := [long, short]

def ofName? (name : String) : Option Direction := all.find? (·.name = name)

def read? {V : Type} (d : Dialect V) (value : V) : Option Direction :=
  (d.choice? (all.map name) value).bind ofName?

def entrySide : Direction → OrderSide
  | long => .buy
  | short => .sell

def exitSide (d : Direction) : OrderSide := d.entrySide.opposite

end Direction

/-- A market order. A reduce-only order may make a position smaller and nothing else. -/
structure Order where
  symbol : String
  side : OrderSide
  quantity : Decimal
  reduceOnly : Bool := false
  clientId : Option String := none
  deriving DecidableEq

namespace Order

def read? {V : Type} (d : Dialect V) (value : V) : Option Order := do
  let r ← d.record? ["symbol", "side", "quantity", "reduce_only", "client_order_id"] value
  return {
    symbol := ← r.required "symbol" d.string?
    side := ← r.required "side" (OrderSide.read? d)
    quantity := ← r.required "quantity" d.decimal?
    reduceOnly := ← r.required "reduce_only" d.bool?
    clientId := ← r.optional "client_order_id" d.string? }

def toJson (o : Order) : Json :=
  .object [
    ("symbol", .string o.symbol),
    ("side", .string o.side.name),
    ("quantity", .string o.quantity.toText),
    ("reduce_only", .bool o.reduceOnly),
    ("client_order_id", (o.clientId.map .string).getD .null)]

end Order

/-- An exchange's answer to an order it accepted. -/
structure OrderAck where
  orderId : String
  averagePrice : Option Decimal
  deriving DecidableEq

namespace OrderAck

def read? {V : Type} (d : Dialect V) (value : V) : Option OrderAck := do
  let r ← d.record? ["order_id", "average_price"] value
  return {
    orderId := ← r.required "order_id" d.string?
    averagePrice := ← r.optional "average_price" d.decimal? }

def toJson (a : OrderAck) : Json :=
  .object [
    ("order_id", .string a.orderId),
    ("average_price", (a.averagePrice.map fun p => Json.string p.toText).getD .null)]

end OrderAck

end FuturesDesk
