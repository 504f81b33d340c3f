import FuturesDesk.Gateway.Guarded
import FuturesDesk.Proofs.Program.Conversation

/-! What a guarded order sends on. Answers may get lost after the exchange has filled the order, the
circuit may open between two attempts and the budget may run out; in every conversation, with all of
the guard's answers left open, an order fills at most once. -/
namespace FuturesDesk.Guarded
open Program

abbrev Talk : Type := List (Program.Exchange Step.Reply)

/-- The calls in a conversation that went to the exchange behind, with its answers. -/
def forwarded (talk : Talk) : List (Program.Exchange ExchangeCall.Reply) :=
  talk.filterMap fun
    | ⟨.forward c, reply⟩ => some ⟨c, reply⟩
    | ⟨.guard _, _⟩ => none

theorem mem_forwarded {talk : Talk} {x : Program.Exchange ExchangeCall.Reply} :
    x ∈ forwarded talk ↔ ⟨.forward x.1, x.2⟩ ∈ talk := by
  rw [forwarded, List.mem_filterMap]
  constructor
  · rintro ⟨⟨q, answer⟩, member, same⟩
    cases q with
    | guard s => cases same
    | forward c =>
      cases same
      exact member
  · intro member
    exact ⟨_, member, rfl⟩

/-- Of all calls on the exchange behind, only this one. -/
def Sends (c : ExchangeCall) : Step → Prop
  | .guard _ => True
  | .forward d => d = c

theorem attempt_sends (c : ExchangeCall) : (attempt c).Only (Sends c) := by
  refine ⟨trivial, ?_⟩
  rintro (_ | admission)
  · trivial
  · refine ⟨trivial, ?_⟩
    rintro (e | ⟨⟩)
    · exact ⟨trivial, fun _ => trivial⟩
    · exact ⟨rfl, fun reply => ⟨trivial, fun _ => trivial⟩⟩

theorem attempts_sends (c : ExchangeCall) (number more : Nat) :
    (attempts c number more).Only (Sends c) := by
  induction more generalizing number with
  | zero => exact attempt_sends c
  | succ more ih =>
    rw [attempts]
    refine (attempt_sends c).bind ?_
    intro reply
    split
    · exact ⟨trivial, fun _ => ih (number + 1)⟩
    · trivial

theorem forwarded_attempt {c : ExchangeCall} {talk : Talk} (held : (attempt c).Holds talk) :
    forwarded talk = [] ∨ ∃ reply, forwarded talk = [⟨c, reply⟩] := by
  obtain rfl | ⟨admission, _, rfl, held⟩ := held
  · exact .inl rfl
  cases admission with
  | none =>
    obtain rfl := held
    exact .inl rfl
  | some admission =>
    obtain rfl | ⟨token, _, rfl, held⟩ := held
    · exact .inl rfl
    cases token with
    | error e =>
      obtain rfl | ⟨_, _, rfl, rfl⟩ := held
      · exact .inl rfl
      · exact .inl rfl
    | ok =>
      obtain rfl | ⟨reply, _, rfl, held⟩ := held
      · exact .inl rfl
      · obtain rfl | ⟨_, _, rfl, rfl⟩ := held
        · exact .inr ⟨reply, rfl⟩
        · exact .inr ⟨reply, rfl⟩

/-- Where ids are known, one id goes with the order for the whole call: its own if it has one. -/
theorem forwarded_identified {p : RetryPolicy} {order : Order} {talk : Talk}
    (held : (placeOrder p true order).Holds talk) :
    ∃ id, (∀ own, order.clientId = some own → id = own) ∧
      ∀ x ∈ forwarded talk, x.1 = .placeOrder { order with clientId := some id } := by
  have sent : ∀ {c : ExchangeCall} {talk : Talk}, (retried p c).Holds talk →
      ∀ x ∈ forwarded talk, x.1 = c := by
    intro c talk held x member
    exact (attempts_sends c 1 _).of_mem held _ (mem_forwarded.mp member)
  cases known : order.clientId with
  | some own =>
    simp only [placeOrder, if_true, identified, known] at held
    refine ⟨own, fun other same => Option.some.inj same, ?_⟩
    rw [← known]
    exact sent held
  | none =>
    simp only [placeOrder, if_true, identified, known] at held
    obtain rfl | ⟨id, rest, rfl, held⟩ := held
    · -- Not even an id was asked for yet; nothing was sent.
      refine ⟨"", ?_, ?_⟩
      · rintro own ⟨⟩
      · simp [forwarded]
    · have later : ∀ x ∈ forwarded rest, _ := sent held
      refine ⟨id, ?_, later⟩
      rintro own ⟨⟩

/-- An order as it reached the exchange behind. The answer does not tell whether it was filled. -/
structure Placement where
  order : Order
  reply : Except GatewayError OrderAck
  filled : Bool

def Placement.exchange (p : Placement) : Program.Exchange ExchangeCall.Reply :=
  ⟨.placeOrder p.order, p.reply⟩

/-- The exchange behind fills an id at most once, whoever placed the orders with it. -/
def FillsOnce (history : List Placement) : Prop :=
  ∀ id, history.countP (fun p => p.filled ∧ p.order.clientId = some id) ≤ 1

theorem FillsOnce.own {history own : List Placement} {id : String} (once : FillsOnce history)
    (part : own.Sublist history) (same : ∀ p ∈ own, p.order.clientId = some id) :
    own.countP (·.filled) ≤ 1 := by
  -- Among orders that carry the id, those filled are those filled under the id.
  have keyed : own.countP (·.filled) =
      own.countP (fun p => p.filled ∧ p.order.clientId = some id) := by
    refine List.countP_congr ?_
    intro p member
    simp [same p member]
  rw [keyed]
  exact Nat.le_trans part.countP_le (once id)

/-- A guarded order fills at most once. On an exchange that does not know ids it is sent once at
most, as it is; on one that does, every attempt carries the same id and is otherwise the order as it
is. The own placements of the call lie anywhere in the history of the exchange. -/
theorem order_fills_once {p : RetryPolicy} {knowsIds : Bool} {order : Order} {talk : Talk}
    (held : (call p knowsIds (.placeOrder order)).Holds talk) :
    (knowsIds = false →
        forwarded talk = [] ∨ ∃ reply, forwarded talk = [⟨.placeOrder order, reply⟩]) ∧
      (knowsIds = true → ∃ id, (∀ own, order.clientId = some own → id = own) ∧
        ∀ x ∈ forwarded talk, x.1 = .placeOrder { order with clientId := some id }) ∧
      ∀ history own : List Placement, own.Sublist history →
        own.map Placement.exchange = forwarded talk →
        (knowsIds = true → FillsOnce history) → own.countP (·.filled) ≤ 1 := by
  have once : knowsIds = false →
      forwarded talk = [] ∨ ∃ reply, forwarded talk = [⟨.placeOrder order, reply⟩] := by
    rintro rfl
    exact forwarded_attempt held
  have keyed : knowsIds = true → ∃ id, (∀ own, order.clientId = some own → id = own) ∧
      ∀ x ∈ forwarded talk, x.1 = .placeOrder { order with clientId := some id } := by
    rintro rfl
    exact forwarded_identified held
  refine ⟨once, keyed, ?_⟩
  intro history own part same fillsOnce
  cases knowsIds with
  | false =>
    have short : own.length ≤ 1 := by
      rw [← List.length_map (f := Placement.exchange), same]
      obtain none_ | ⟨reply, one⟩ := once rfl
      · simp [none_]
      · simp [one]
    exact Nat.le_trans List.countP_le_length short
  | true =>
    obtain ⟨id, _, carried⟩ := keyed rfl
    have named : ∀ placement ∈ own, placement.order.clientId = some id := by
      intro placement member
      have sent := carried placement.exchange (same ▸ List.mem_map_of_mem member)
      rw [ExchangeCall.placeOrder.inj sent]
    exact (fillsOnce rfl).own part named

/-- The exchange fills an order and its answer gets lost; the second attempt is answered and fills
nothing. -/
theorem lost_answer_fills_once :
    ∃ (talk : Talk) (own : List Placement),
      (call {} true (.placeOrder ⟨"BTCUSDT", .buy, .one, false, none⟩)).Holds talk ∧
        own.map Placement.exchange = forwarded talk ∧ own.length = 2 ∧ FillsOnce own ∧
        own.countP (·.filled) ≤ 1 := by
  let keyed : Order := ⟨"BTCUSDT", .buy, .one, false, some "a"⟩
  let lost : Placement := ⟨keyed, .error (.transient "timeout"), true⟩
  let answered : Placement := ⟨keyed, .ok ⟨"1", none⟩, false⟩
  let talk : Talk := [⟨.guard .freshId, "a"⟩,
    ⟨.guard (.acquire .order), some ⟨0⟩⟩, ⟨.guard (.takeToken .order), .ok ()⟩,
    ⟨.forward (.placeOrder keyed), lost.reply⟩,
    ⟨.guard (.report .order ⟨0⟩ (some (.transient "timeout"))), ()⟩, ⟨.guard (.pause 1), ()⟩,
    ⟨.guard (.acquire .order), some ⟨0⟩⟩, ⟨.guard (.takeToken .order), .ok ()⟩,
    ⟨.forward (.placeOrder keyed), answered.reply⟩, ⟨.guard (.report .order ⟨0⟩ none), ()⟩]
  have held : (call {} true (.placeOrder ⟨"BTCUSDT", .buy, .one, false, none⟩)).Holds talk :=
    .inr ⟨_, _, rfl, .inr ⟨_, _, rfl, .inr ⟨_, _, rfl, .inr ⟨_, _, rfl, .inr ⟨_, _, rfl,
      .inr ⟨_, _, rfl, .inr ⟨_, _, rfl, .inr ⟨_, _, rfl, .inr ⟨_, _, rfl, .inr ⟨_, _, rfl,
        rfl⟩⟩⟩⟩⟩⟩⟩⟩⟩⟩
  have once : FillsOnce [lost, answered] := by
    intro id
    by_cases same : "a" = id <;> simp [lost, answered, keyed, same]
  exact ⟨talk, [lost, answered], held, rfl, rfl, once,
    (order_fills_once held).2.2 _ _ (List.Sublist.refl _) rfl fun _ => once⟩

end FuturesDesk.Guarded
