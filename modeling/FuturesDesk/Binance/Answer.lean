import FuturesDesk.Binance.Failure
import FuturesDesk.Exchange.Call

/-! Reading the bodies of successful responses. -/
namespace FuturesDesk.Binance

/-- A candle from a row of times and decimal texts. -/
def candle? (row : List Json) : Option Candle := do
  let time (index : Nat) : Option Timestamp := do
    Timestamp.ofMillis? (← (← row[index]?).asWhole?)
  let decimal (index : Nat) : Option Decimal := do
    Decimal.ofText? (← (← row[index]?).asString?)
  return {
    openTime := ← time 0
    opening := ← decimal 1
    high := ← decimal 2
    low := ← decimal 3
    closing := ← decimal 4
    volume := ← decimal 5
    closeTime := ← time 6 }

/-- The candles of all rows; malformed rows are dropped. -/
def candles? (body : Json) : Option (List Candle) := do
  let rows ← Json.dialect.list? Json.asArray? body
  if body.isComplete then return rows.filterMap candle? else failure

/-- The only field of interest of a body. -/
def decimalField? (name : String) (body : Json) : Option Decimal := do
  (← Json.dialect.record? [name] body).required name Json.decimal?

/-- An order's acknowledgement; an average price of zero tells nothing. -/
def orderAck? (body : Json) : Option OrderAck := do
  let r ← Json.dialect.record? ["orderId", "avgPrice"] body
  let id ← r.required "orderId" (Json.unsigned? 64)
  let price ← r.withDefault "avgPrice" none (Json.dialect.nullable? Json.decimal?)
  return { orderId := toString id, averagePrice := price.filter fun p => ¬ p.isZero }

/-- What a successful response gives for a call. Fields that are of no interest may hold anything.
-/
def value? : (c : ExchangeCall) → Json → Option c.Value
  | .candles _ _ _, body => candles? body
  | .price _, body => decimalField? "price" body
  | .balance, body => decimalField? "totalMarginBalance" body
  | .setLeverage _ _, body => if body.isComplete then some () else none
  | .placeOrder _, body => orderAck? body

/-- The answer to a call by what became of its request. -/
def answer (c : ExchangeCall) : Http.Outcome → c.Reply
  | .unreachable cause => .error (.transient ("network error: " ++ cause))
  | .brokenOff cause => .error (.transient ("failed reading response: " ++ cause))
  | .response status body =>
    if Http.isSuccess status then
      match (Json.scan? body).bind (value? c) with
      | some value => .ok value
      | none => .error (.transient "unexpected response body: not of the expected form")
    else .error (failureOf c.endpoint status body)

end FuturesDesk.Binance
