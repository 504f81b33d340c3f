import FuturesDesk.Decimal.Arithmetic
import FuturesDesk.Gateway.Error
import FuturesDesk.Keyed
import FuturesDesk.Market.Order

/-! A simulated futures account: a wallet, leverages, signed positions and the fills already
answered. A fill adds to a position, reduces it, or closes it and opens the rest the other way. -/
namespace FuturesDesk

structure PaperPosition where
  /-- The signed size, positive for long. -/
  quantity : Decimal
  entry : Decimal
  deriving DecidableEq

namespace PaperPosition

/-- Whether a signed quantity points the same way as another; zero counts as long. -/
def sameSide (a b : Decimal) : Bool := a.isNonneg = b.isNonneg

/-- A position with more of the same side, entered at the average price. -/
def grow (p : PaperPosition) (delta price : Decimal) : Except Decimal.Fault PaperPosition := do
  let size ← p.quantity.abs.add delta.abs
  let cost ← (← p.quantity.abs.mul p.entry).add (← delta.abs.mul price)
  let entry ← cost.div size
  return ⟨← p.quantity.add delta, entry⟩

/-- What is left of a position after a fill of the other side, and the profit on the part closed. A
fill beyond the position opens the rest at its price. -/
def reduce (p : PaperPosition) (delta price : Decimal) :
    Except Decimal.Fault (Option PaperPosition × Decimal) := do
  let closed := delta.abs.min p.quantity.abs
  let side := if p.quantity.isNonneg then Decimal.one else Decimal.negOne
  let profit ← (← (← price.sub p.entry).mul closed).mul side
  let remaining ← p.quantity.add delta
  let position :=
    if remaining.isZero then none
    else if sameSide remaining p.quantity then some ⟨remaining, p.entry⟩
    else some ⟨remaining, price⟩
  return (position, profit)

/-- The position after a signed fill, and the profit that it realizes. -/
def fill (current : Option PaperPosition) (delta price : Decimal) :
    Except Decimal.Fault (Option PaperPosition × Decimal) :=
  match current with
  | none => .ok (some ⟨delta, price⟩, .zero)
  | some p =>
    if sameSide p.quantity delta then do return (some (← p.grow delta price), .zero)
    else p.reduce delta price

end PaperPosition

structure PaperAccount where
  wallet : Decimal
  realizedPnl : Decimal := .zero
  leverages : List (String × UInt32) := []
  positions : List (String × PaperPosition) := []
  /-- The acknowledgements of filled orders by their client's id. -/
  fills : List (String × OrderAck) := []
  fillCount : Nat := 0
  deriving DecidableEq

namespace PaperAccount

/-- The leverage of a symbol, one unless it was set. -/
def leverage (a : PaperAccount) (symbol : String) : Decimal :=
  .ofWord ((Keyed.find? symbol a.leverages).getD 1)

/-- The signed size of the position on a symbol, zero when flat. -/
def position (a : PaperAccount) (symbol : String) : Decimal :=
  ((Keyed.find? symbol a.positions).map (·.quantity)).getD .zero

/-- The margin that a position takes up. -/
def marginOf (a : PaperAccount) (symbol : String) (p : PaperPosition) :
    Except Decimal.Fault Decimal := do
  (← p.quantity.abs.mul p.entry).div (a.leverage symbol)

/-- The margin of all positions, summed in the order of the list. -/
def usedMargin (a : PaperAccount) : Except Decimal.Fault Decimal := do
  a.positions.foldlM (fun sum (symbol, p) => do sum.add (← a.marginOf symbol p)) .zero

/-- The answer to an order that was filled before under its client's id. -/
def previousFill? (a : PaperAccount) (order : Order) : Option OrderAck :=
  order.clientId.bind fun id => Keyed.find? id a.fills

def quantityMessage (quantity : Decimal) : String :=
  "quantity must be positive, got " ++ quantity.toText

/-- What can be answered before the price is known: an earlier fill, or a refusal. -/
def review (a : PaperAccount) (order : Order) : Option (Except GatewayError OrderAck) :=
  match a.previousFill? order with
  | some ack => some (.ok ack)
  | none =>
    if order.quantity ≤ .zero then some (.error (.rejected (quantityMessage order.quantity)))
    else none

def notReducingMessage : String := "reduce-only order would not reduce the position"

def marginMessage (required available : Decimal) : String :=
  "margin is insufficient: need " ++ (required.roundPlaces 2).toText ++ ", available "
    ++ (available.roundPlaces 2).toText

/-- The signed quantity of an order before it is limited. -/
def signedQuantity (order : Order) : Decimal :=
  match order.side with
  | .buy => order.quantity
  | .sell => -order.quantity

/-- The margin that a quantity of a symbol takes up at a price. -/
def requiredMargin (a : PaperAccount) (symbol : String) (quantity price : Decimal) :
    Except Decimal.Fault Decimal := do
  (← quantity.abs.mul price).div (a.leverage symbol)

/-- The signed quantity that an order fills, if the account takes it. A reduce-only order is cut to
the position; an order that opens or adds needs margin for all of its quantity. -/
def admitted (a : PaperAccount) (order : Order) (price : Decimal) :
    Except Decimal.Fault (Except GatewayError Decimal) := do
  let current := a.position order.symbol
  let delta := signedQuantity order
  let opens : Bool := current.isZero || PaperPosition.sameSide current delta
  if order.reduceOnly then
    if opens then return .error (.rejected notReducingMessage)
    else return .ok (if current.abs < delta.abs then -current else delta)
  else if opens then
    let required ← a.requiredMargin order.symbol delta price
    let available ← a.wallet.sub (← a.usedMargin)
    if available < required then return .error (.rejected (marginMessage required available))
    else return .ok delta
  else return .ok delta

def setPosition (a : PaperAccount) (symbol : String) (p : Option PaperPosition) : PaperAccount :=
  match p with
  | some p => { a with positions := Keyed.put symbol p a.positions }
  | none => { a with positions := Keyed.remove symbol a.positions }

/-- Books a signed fill. The position is stored before the profit, so that a fault in the sums
leaves the position changed. -/
def book (a : PaperAccount) (symbol : String) (delta price : Decimal) :
    Except Decimal.Fault Unit × PaperAccount :=
  match PaperPosition.fill (Keyed.find? symbol a.positions) delta price with
  | .error f => (.error f, a)
  | .ok (p, profit) =>
    let a := a.setPosition symbol p
    match a.wallet.add profit with
    | .error f => (.error f, a)
    | .ok wallet =>
      let a := { a with wallet }
      match a.realizedPnl.add profit with
      | .error f => (.error f, a)
      | .ok realizedPnl => (.ok (), { a with realizedPnl })

/-- The acknowledgement of the next fill, stored under the client's id if there is one. -/
def acknowledge (a : PaperAccount) (order : Order) (price : Decimal) : OrderAck × PaperAccount :=
  let count := a.fillCount + 1
  let ack : OrderAck := ⟨"paper-" ++ toString count, some price⟩
  let fills := match order.clientId with
    | some id => Keyed.put id ack a.fills
    | none => a.fills
  (ack, { a with fillCount := count, fills })

/-- Settles an order at a price in one step. The same order may have been filled while the price was
read, so earlier fills are looked up again. -/
def settle (a : PaperAccount) (order : Order) (price : Decimal) :
    Except Decimal.Fault (Except GatewayError OrderAck) × PaperAccount :=
  match a.previousFill? order with
  | some ack => (.ok (.ok ack), a)
  | none =>
    match a.admitted order price with
    | .error f => (.error f, a)
    | .ok (.error e) => (.ok (.error e), a)
    | .ok (.ok delta) =>
      match a.book order.symbol delta price with
      | (.error f, a) => (.error f, a)
      | (.ok (), a) =>
        let (ack, a) := a.acknowledge order price
        (.ok (.ok ack), a)

def leverageMessage (leverage : UInt32) : String :=
  "leverage " ++ toString leverage.toNat ++ " outside 1..=125"

def setLeverage (a : PaperAccount) (symbol : String) (leverage : UInt32) :
    Except GatewayError Unit × PaperAccount :=
  if 1 ≤ leverage ∧ leverage ≤ 125 then
    (.ok (), { a with leverages := Keyed.put symbol leverage a.leverages })
  else (.error (.rejected (leverageMessage leverage)), a)

end PaperAccount

end FuturesDesk
