import FuturesDesk.Digest.Hmac
import FuturesDesk.Exchange.Call
import FuturesDesk.Http.Query
import FuturesDesk.Text.Quoted

/-! Requests to the futures exchange. Those that concern an account carry a time and a signature of
all that goes before it. -/
namespace FuturesDesk.Binance

structure Client where
  baseUrl : String := "https://fapi.binance.com"
  apiKey : String
  apiSecret : String
  /-- How late a signed request may arrive. -/
  receiveWindowMs : Nat := 5000

/-- Whether a client's order id is filled at most once. The exchange tells ids apart among open
orders only, and a market order is filled at once. -/
def knowsIds : Bool := false

/-- A base URL without slashes at its end. -/
def trimmedUrl (url : String) : String :=
  String.ofList (url.toList.reverse.dropWhile (· = '/')).reverse

/-- Keeps credentials out of logs. -/
def Client.dump (c : Client) : String :=
  "BinanceFuturesClient " ++ Text.braced ("base_url: " ++ Text.quoted c.baseUrl
    ++ ", api_key: \"<redacted>\", api_secret: \"<redacted>\", recv_window_ms: "
    ++ toString c.receiveWindowMs)

inductive Method where
  | get
  | post
  deriving DecidableEq, Repr

def Method.name : Method → String
  | get => "GET"
  | post => "POST"

structure Request where
  method : Method
  path : String
  query : Http.Query
  signed : Bool
  deriving DecidableEq, Repr

/-- The most candles that one request may ask for. -/
def maxCandles : Nat := 1500

def orderQuery (o : Order) : Http.Query :=
  [("symbol", o.symbol), ("side", o.side.name), ("type", "MARKET"),
    ("quantity", o.quantity.normalize.toText), ("newOrderRespType", "RESULT")]
    ++ (if o.reduceOnly then [("reduceOnly", "true")] else [])
    ++ (match o.clientId with
      | some id => [("newClientOrderId", id)]
      | none => [])

/-- The request that carries out a call. -/
def Request.ofCall : ExchangeCall → Request
  | .candles symbol t lookback =>
    ⟨.get, "/fapi/v1/klines", [("symbol", symbol), ("interval", t.interval),
      ("limit", toString (min (max lookback 1) maxCandles))], false⟩
  | .price symbol => ⟨.get, "/fapi/v1/ticker/price", [("symbol", symbol)], false⟩
  | .balance => ⟨.get, "/fapi/v2/account", [], true⟩
  | .setLeverage symbol leverage =>
    ⟨.post, "/fapi/v1/leverage", [("symbol", symbol), ("leverage", toString leverage.toNat)], true⟩
  | .placeOrder order => ⟨.post, "/fapi/v1/order", orderQuery order, true⟩

namespace Client

/-- The parameters that are signed, with the time of the request in milliseconds. -/
def timedQuery (c : Client) (q : Http.Query) (now : Int) : Http.Query :=
  q ++ [("recvWindow", toString c.receiveWindowMs), ("timestamp", toString now)]

def signature (c : Client) (text : String) : String := Hmac.signText c.apiSecret text

/-- The query text of a request at a time. -/
def queryText (c : Client) (r : Request) (now : Int) : String :=
  if r.signed then
    let text := (c.timedQuery r.query now).text
    text ++ "&signature=" ++ c.signature text
  else r.query.text

def url (c : Client) (r : Request) (now : Int) : String :=
  c.baseUrl ++ r.path ++ "?" ++ c.queryText r now

/-- The key that goes along with a request. -/
def keyHeader? (c : Client) (r : Request) : Option String :=
  if r.signed then some c.apiKey else none

end Client

end FuturesDesk.Binance
