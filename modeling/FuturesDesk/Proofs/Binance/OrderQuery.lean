import FuturesDesk.Binance.Client
import FuturesDesk.Proofs.Decimal.Text
import FuturesDesk.Proofs.Http.Query

/-! What the exchange reads in an order. The text that is signed gives back every field of the order,
the quantity at its exact worth, and can be taken apart in one way only. It is what is sent, unless the
symbol or the id holds a character that a URL does not take as it is. -/
namespace FuturesDesk

namespace Http

variable {text : String}

theorem clear_plain (plain : Decimal.Plain text) : Clear text := by
  intro c member
  rcases plain.mem member with digit | rfl
  · exact clear_digit digit
  · decide

theorem clear_digitChar : ∀ n < 16, staysInQuery (Nat.digitChar n) = true ∧
    Nat.digitChar n ≠ '&' ∧ Nat.digitChar n ≠ '=' := by decide

theorem clear_hexText (bytes : List UInt8) : Clear (Hmac.hexText bytes) := by
  intro c member
  rw [Hmac.hexText, String.toList_ofList] at member
  obtain ⟨b, _, digits⟩ := List.mem_flatMap.mp member
  have byte := b.toNat_lt
  simp only [List.mem_cons, List.not_mem_nil, or_false] at digits
  rcases digits with rfl | rfl
  · exact clear_digitChar _ (by omega)
  · exact clear_digitChar _ (by omega)

end Http

namespace Binance
open Http (Bare Clear)

variable {c : Client} {o : Order} {now : Int}

theorem clear_side (side : OrderSide) : Clear side.name := by
  cases side <;> decide

def orderNames : List String :=
  ["symbol", "side", "type", "quantity", "newOrderRespType", "reduceOnly", "newClientOrderId",
    "recvWindow", "timestamp"]

/-- What an order is signed with: names of its own, and values that are clear but for the symbol and
the id, which may be anything. -/
theorem mem_timedQuery (positive : Decimal.zero < o.quantity) {p : String × String}
    (member : p ∈ c.timedQuery (orderQuery o) now) :
    p.1 ∈ orderNames ∧ (Clear p.2 ∨ p.2 = o.symbol ∨ o.clientId = some p.2) := by
  have nonneg : 0 ≤ o.quantity.coefficient := Int.le_of_lt (Decimal.zero_lt_iff.mp positive)
  rcases List.mem_append.mp member with order | timed
  · rcases List.mem_append.mp order with order | id
    · rcases List.mem_append.mp order with fixed | reduce
      · simp only [List.mem_cons, List.not_mem_nil, or_false] at fixed
        rcases fixed with rfl | rfl | rfl | rfl | rfl
        · exact ⟨by simp [orderNames], .inr (.inl rfl)⟩
        · exact ⟨by simp [orderNames], .inl (clear_side o.side)⟩
        · exact ⟨by simp [orderNames], .inl (by decide)⟩
        · exact ⟨by simp [orderNames], .inl (Http.clear_plain (Decimal.plain_normalize nonneg))⟩
        · exact ⟨by simp [orderNames], .inl (by decide)⟩
      · split at reduce
        · rw [List.mem_singleton.mp reduce]
          exact ⟨by simp [orderNames], .inl (by decide)⟩
        · cases reduce
    · split at id
      case h_1 own =>
        rw [List.mem_singleton.mp id]
        exact ⟨by simp [orderNames], .inr (.inr own)⟩
      case h_2 => cases id
  · simp only [List.mem_cons, List.not_mem_nil, or_false] at timed
    rcases timed with rfl | rfl
    · exact ⟨by simp [orderNames], .inl (Http.clear_toString _)⟩
    · exact ⟨by simp [orderNames], .inl (Http.clear_toString_int _)⟩

theorem clear_name : ∀ name ∈ orderNames, Clear name ∧ name ≠ "signature" := by decide

theorem timedQuery_bare (c : Client) (now : Int) (positive : Decimal.zero < o.quantity)
    (symbol : Bare o.symbol) (id : ∀ id ∈ o.clientId, Bare id) :
    ∀ p ∈ c.timedQuery (orderQuery o) now, Bare p.1 ∧ Bare p.2 := by
  intro p member
  obtain ⟨name, value⟩ := mem_timedQuery positive member
  refine ⟨(clear_name p.1 name).1.bare, ?_⟩
  rcases value with clear | same | own
  · exact clear.bare
  · exact same ▸ symbol
  · exact id p.2 own

theorem timedQuery_ne_nil : c.timedQuery (orderQuery o) now ≠ [] :=
  List.append_ne_nil_of_right_ne_nil _ (List.cons_ne_nil _ _)

theorem queryText_order (c : Client) (o : Order) (now : Int) :
    c.queryText (.ofCall (.placeOrder o)) now =
      (c.timedQuery (orderQuery o) now).text ++ "&signature=" ++
        c.signature (c.timedQuery (orderQuery o) now).text := rfl

theorem queryText_eq_text (c : Client) (o : Order) (now : Int) :
    c.queryText (.ofCall (.placeOrder o)) now =
      Http.Query.text (c.timedQuery (orderQuery o) now ++
        [("signature", c.signature (c.timedQuery (orderQuery o) now).text)]) := by
  rw [queryText_order, Http.text_concat timedQuery_ne_nil]
  simp only [String.append_assoc]
  rfl

theorem split_queryText (positive : Decimal.zero < o.quantity) (symbol : Bare o.symbol)
    (id : ∀ id ∈ o.clientId, Bare id) :
    Http.Query.split (c.queryText (.ofCall (.placeOrder o)) now) =
      (c.timedQuery (orderQuery o) now ++
        [("signature", c.signature (c.timedQuery (orderQuery o) now).text)]).map
          fun p => [p.1, p.2] := by
  rw [queryText_eq_text]
  refine Http.split_text (List.append_ne_nil_of_left_ne_nil timedQuery_ne_nil _) ?_
  intro p member
  rcases List.mem_append.mp member with order | signature
  · exact timedQuery_bare c now positive symbol id p order
  · rw [List.mem_singleton.mp signature]
    exact ⟨show Bare "signature" by decide, (Http.clear_hexText _).bare⟩

/-- The text before the signature is the one that was signed, wherever one looks for the signature. -/
theorem payload_unique (positive : Decimal.zero < o.quantity) (symbol : Bare o.symbol)
    (id : ∀ id ∈ o.clientId, Bare id) {before after : String}
    (cut : c.queryText (.ofCall (.placeOrder o)) now = before ++ "&signature=" ++ after) :
    before = (c.timedQuery (orderQuery o) now).text := by
  have bare := timedQuery_bare c now positive symbol id
  refine Http.before_signature (Http.clear_hexText _).bare ?_ cut
  rw [Http.splitOn_text timedQuery_ne_nil bare]
  intro part member
  obtain ⟨p, given, rfl⟩ := List.mem_map.mp member
  exact Http.not_begins (bare p given).1.2 (clear_name p.1 (mem_timedQuery positive given).1).2

/-- The text of the query holds nothing that a URL changes, if the symbol and the id hold nothing. -/
theorem queryText_stays (positive : Decimal.zero < o.quantity)
    (symbol : ∀ d ∈ o.symbol.toList, Http.staysInQuery d = true)
    (id : ∀ id ∈ o.clientId, ∀ d ∈ id.toList, Http.staysInQuery d = true) :
    ∀ d ∈ (c.queryText (.ofCall (.placeOrder o)) now).toList, Http.staysInQuery d = true := by
  rw [queryText_eq_text]
  refine Http.text_stays ?_
  intro p member
  rcases List.mem_append.mp member with order | signature
  · obtain ⟨name, value⟩ := mem_timedQuery positive order
    refine ⟨(clear_name p.1 name).1.stays, ?_⟩
    rcases value with clear | same | own
    · exact clear.stays
    · exact same ▸ symbol
    · exact id p.2 own
  · rw [List.mem_singleton.mp signature]
    exact ⟨(show Clear "signature" by decide).stays, (Http.clear_hexText _).stays⟩

/-- A URL behind its scheme. -/
theorem url_eq {r : Request} {scheme host : String} (base : c.baseUrl = scheme ++ host) :
    c.url r now = scheme ++ (host ++ r.path ++ "?" ++ c.queryText r now) := by
  simp only [Client.url, base, String.append_assoc]

theorem fromHost_eq {r : Request} {scheme host fromHost : String}
    (base : c.baseUrl = scheme ++ host) (url : c.url r now = scheme ++ fromHost) :
    fromHost = host ++ r.path ++ "?" ++ c.queryText r now := by
  have lists := congrArg String.toList (url.symm.trans (url_eq base))
  rw [String.toList_append, String.toList_append] at lists
  exact String.toList_injective (List.append_cancel_left lists)

/-- The query of an order gives back the order. For every order of some quantity whose symbol and id
hold no separator, at every receive window and time, the query text splits into the fields of the
order, the time and the signature, and nothing else; the quantity is written in plain digits and is
read as exactly its worth; and what was signed is exactly the text before the signature. Where the
symbol and the id hold only characters that a URL takes as they are, this text is the query that the
host is sent. -/
theorem order_query_reads_back (c : Client) {o : Order} (now : Int)
    (positive : Decimal.zero < o.quantity) (symbol : Bare o.symbol)
    (id : ∀ id ∈ o.clientId, Bare id) :
    ∃ quantity payload, Decimal.Plain quantity ∧
      (∃ d, Decimal.ofText quantity = .ok d ∧ d.value = o.quantity.value) ∧
      Http.Query.split (c.queryText (.ofCall (.placeOrder o)) now) =
        [["symbol", o.symbol], ["side", o.side.name], ["type", "MARKET"], ["quantity", quantity],
          ["newOrderRespType", "RESULT"]]
        ++ (if o.reduceOnly then [["reduceOnly", "true"]] else [])
        ++ (o.clientId.toList.map fun id => ["newClientOrderId", id])
        ++ [["recvWindow", toString c.receiveWindowMs], ["timestamp", toString now],
          ["signature", c.signature payload]] ∧
      c.queryText (.ofCall (.placeOrder o)) now = payload ++ "&signature=" ++ c.signature payload ∧
      (∀ before after, c.queryText (.ofCall (.placeOrder o)) now = before ++ "&signature=" ++ after →
        before = payload) ∧
      ((∀ d ∈ o.symbol.toList, Http.staysInQuery d = true) →
        (∀ id ∈ o.clientId, ∀ d ∈ id.toList, Http.staysInQuery d = true) →
        ∀ scheme host fromHost, c.baseUrl = scheme ++ host → '?' ∉ host.toList → '#' ∉ host.toList →
          c.url (.ofCall (.placeOrder o)) now = scheme ++ fromHost →
          Http.queryOf (Http.requestTarget fromHost) = c.queryText (.ofCall (.placeOrder o)) now) := by
  have nonneg : 0 ≤ o.quantity.coefficient := Int.le_of_lt (Decimal.zero_lt_iff.mp positive)
  refine ⟨o.quantity.normalize.toText, (c.timedQuery (orderQuery o) now).text,
    Decimal.plain_normalize nonneg,
    ⟨o.quantity.normalize, o.quantity.normalize.ofText_toText, o.quantity.value_normalize⟩,
    ?fields, queryText_order c o now, ?unique, ?sent⟩
  case fields =>
    rw [split_queryText positive symbol id]
    simp only [Client.timedQuery, orderQuery, List.map_append]
    cases reduce : o.reduceOnly <;> cases own : o.clientId <;> rfl
  case unique => exact fun before after cut => payload_unique positive symbol id cut
  case sent =>
    intro symbolStays idStays scheme host fromHost base noQuery noFragment url
    rw [fromHost_eq base url]
    refine Http.queryOf_requestTarget_of_safe ?_ ?_ (queryText_stays positive symbolStays idStays)
    · intro member
      rcases List.mem_append.mp (String.toList_append ▸ member) with own | path
      · exact noQuery own
      · exact absurd path (show '?' ∉ "/fapi/v1/order".toList by decide)
    · intro member
      rcases List.mem_append.mp (String.toList_append ▸ member) with own | path
      · exact noFragment own
      · exact absurd path (show '#' ∉ "/fapi/v1/order".toList by decide)

def halfOrder : Order where
  symbol := "BTCUSDT"
  side := .sell
  quantity := ⟨50, 2, by decide, by decide⟩
  reduceOnly := true
  clientId := some "desk-7"

/-- All parameters of such an order, and that the host is sent what was signed. -/
theorem half_order_reads_back :
    let c : Client := { apiKey := "key", apiSecret := "secret" }
    (c.timedQuery (orderQuery halfOrder) 1700000000000).text =
      "symbol=BTCUSDT&side=SELL&type=MARKET&quantity=0.5&newOrderRespType=RESULT&reduceOnly=true" ++
        "&newClientOrderId=desk-7&recvWindow=5000&timestamp=1700000000000" ∧
    (∃ quantity d, Decimal.ofText quantity = .ok d ∧ d.value = halfOrder.quantity.value ∧
      ["quantity", quantity] ∈
        Http.Query.split (c.queryText (.ofCall (.placeOrder halfOrder)) 1700000000000)) ∧
    Http.queryOf (Http.requestTarget ("fapi.binance.com" ++ "/fapi/v1/order" ++ "?" ++
        c.queryText (.ofCall (.placeOrder halfOrder)) 1700000000000)) =
      c.queryText (.ofCall (.placeOrder halfOrder)) 1700000000000 := by
  intro c
  obtain ⟨quantity, payload, _, ⟨d, read, worth⟩, fields, _, _, sent⟩ :=
    order_query_reads_back c 1700000000000 (o := halfOrder) (by decide) (by decide) (by decide)
  refine ⟨by decide +kernel, ⟨quantity, d, read, worth, ?_⟩, ?_⟩
  · rw [fields]
    simp
  · have symbol : Clear halfOrder.symbol := by decide
    have own : ∀ id ∈ halfOrder.clientId, Clear id := by decide
    exact sent symbol.stays (fun id given => (own id given).stays) "https://" "fapi.binance.com" _
      (by decide) (by decide) (by decide) (url_eq (by decide))

def numberedOrder : Order where
  symbol := "BTCUSDT"
  side := .buy
  quantity := .one
  clientId := some "grid#7"

/-- The id holds no separator of a query, and yet it ends what is sent: the host sees neither the rest
of it nor a time nor a signature. -/
theorem number_sign_cuts_order :
    let c : Client := { apiKey := "key", apiSecret := "secret" }
    let fromHost := "fapi.binance.com" ++ "/fapi/v1/order" ++ "?" ++
      c.queryText (.ofCall (.placeOrder numberedOrder)) 0
    Decimal.zero < numberedOrder.quantity ∧ Bare numberedOrder.symbol ∧
    (∀ id ∈ numberedOrder.clientId, Bare id) ∧
    c.url (.ofCall (.placeOrder numberedOrder)) 0 = "https://" ++ fromHost ∧
    Http.queryOf (Http.requestTarget fromHost) = "symbol=BTCUSDT&side=BUY&type=MARKET&quantity=1" ++
      "&newOrderRespType=RESULT&newClientOrderId=grid" ∧
    ∀ signature, Http.Query.split (Http.queryOf (Http.requestTarget fromHost)) ≠
      [["symbol", "BTCUSDT"], ["side", "BUY"], ["type", "MARKET"], ["quantity", "1"],
        ["newOrderRespType", "RESULT"], ["newClientOrderId", "grid#7"], ["recvWindow", "5000"],
        ["timestamp", "0"], ["signature", signature]] := by
  intro c fromHost
  have signed : c.queryText (.ofCall (.placeOrder numberedOrder)) 0 =
      "symbol=BTCUSDT&side=BUY&type=MARKET&quantity=1" ++
        "&newOrderRespType=RESULT&newClientOrderId=grid" ++ "#" ++
        ("7&recvWindow=5000&timestamp=0&signature=" ++
          c.signature (c.timedQuery (orderQuery numberedOrder) 0).text) := by
    rw [queryText_order, ← String.append_assoc]
    have payload : (c.timedQuery (orderQuery numberedOrder) 0).text ++ "&signature=" =
        "symbol=BTCUSDT&side=BUY&type=MARKET&quantity=1" ++
          "&newOrderRespType=RESULT&newClientOrderId=grid" ++ "#" ++
          "7&recvWindow=5000&timestamp=0&signature=" := by decide +kernel
    rw [payload]
  have sent : Http.queryOf (Http.requestTarget fromHost) =
      "symbol=BTCUSDT&side=BUY&type=MARKET&quantity=1" ++
        "&newOrderRespType=RESULT&newClientOrderId=grid" := by
    rw [show fromHost = _ ++ _ ++ _ ++ _ from rfl, signed]
    have safe : ("symbol=BTCUSDT&side=BUY&type=MARKET&quantity=1" ++
        "&newOrderRespType=RESULT&newClientOrderId=grid").toList.all Http.staysInQuery = true := by
      decide +kernel
    exact Http.queryOf_requestTarget_fragment (by decide) (by decide) (List.all_eq_true.mp safe) _
  refine ⟨by decide, by decide, by decide, url_eq (by decide), sent, ?_⟩
  intro signature same
  have parts : (Http.Query.split (Http.queryOf (Http.requestTarget fromHost))).length = 6 := by
    rw [sent]
    decide +kernel
  rw [same] at parts
  cases parts

end Binance
end FuturesDesk
