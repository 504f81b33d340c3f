import FuturesDesk.Exchange.Layers
import FuturesDesk.Proofs.Exchange.Account
import FuturesDesk.Proofs.Gateway.Idempotence
import FuturesDesk.Proofs.Program.Conversation
import Mathlib.Logic.Relation

/-! One trader on a paper account that others use. Nobody else trades its symbol or carries its ids;
apart from that the others do what they like between any two steps of its calls. An order then either
fails and leaves the position as it is, or is filled exactly once, whatever is retried on the way. -/
namespace FuturesDesk
open Program

namespace PaperPosition

theorem fill_closes {p : PaperPosition} {after : Option PaperPosition}
    {delta price profit : Decimal} (nonzero : p.quantity.value ≠ 0)
    (opposite : delta.value = -p.quantity.value)
    (filled : fill (some p) delta price = .ok (after, profit)) : after = none := by
  have other : sameSide p.quantity delta = false := by
    refine Bool.eq_false_iff.mpr (mt sameSide_iff.mp ?_)
    rw [opposite, neg_nonneg]
    rcases lt_or_gt_of_ne nonzero with short | long
    · simp [short.le, not_le.mpr short]
    · simp [long.le, not_le.mpr long]
  simp only [fill, other, Bool.false_eq_true, if_false] at filled
  obtain ⟨remaining, adding, rfl⟩ := reduce_ok filled
  have sum := Decimal.add_rounds adding
  rw [opposite, add_neg_cancel] at sum
  have zero_ : remaining.value = 0 := by simpa using sum.unique .zero
  simp [remainder, Decimal.isZero_iff.mpr zero_]

end PaperPosition

namespace PaperAccount

theorem find?_setPosition (a : PaperAccount) (symbol other : String) (p : Option PaperPosition) :
    Keyed.find? other (a.setPosition symbol p).positions =
      if symbol = other then p else Keyed.find? other a.positions := by
  cases p with
  | none => exact Keyed.find?_remove symbol other a.positions
  | some p => exact Keyed.find?_put symbol other p a.positions

theorem settle_elsewhere (a : PaperAccount) {order : Order} (price : Decimal) {symbol : String}
    (elsewhere : order.symbol ≠ symbol) :
    Keyed.find? symbol (a.settle order price).2.positions = Keyed.find? symbol a.positions := by
  have ended := settle_settles a order price
  generalize (a.settle order price).1 = result, (a.settle order price).2 = after at ended ⊢
  cases ended <;> simp [acknowledge, find?_setPosition, elsewhere]

theorem settle_fills_other (a : PaperAccount) {order : Order} (price : Decimal) {id : String}
    (other : order.clientId ≠ some id) :
    Keyed.find? id (a.settle order price).2.fills = Keyed.find? id a.fills := by
  have ended := settle_settles a order price
  generalize (a.settle order price).1 = result, (a.settle order price).2 = after at ended ⊢
  cases ended with
  | filled =>
    cases own : order.clientId with
    | none => simp [acknowledge, own]
    | some known =>
      have different : known ≠ id := fun same => other (own.trans (congrArg some same))
      simp [acknowledge, own, Keyed.find?_put, different]
  | _ => simp

theorem settle_filled {a after : PaperAccount} {order : Order} {price : Decimal} {ack : OrderAck}
    (unknown : a.previousFill? order = none)
    (settled : a.settle order price = (.ok (.ok ack), after)) :
    ack.averagePrice = some price ∧ ∃ delta profit, a.admitted order price = .ok (.ok delta) ∧
      PaperPosition.fill (Keyed.find? order.symbol a.positions) delta price =
        .ok (Keyed.find? order.symbol after.positions, profit) := by
  have ended := settle_settles a order price
  rw [settled] at ended
  cases ended with
  | replayed known =>
    rw [unknown] at known
    cases known
  | @filled delta p profit _ _ _ admitted filled =>
    have stored := (find?_setPosition a order.symbol order.symbol p).trans (if_pos rfl)
    rw [← stored] at filled
    exact ⟨rfl, delta, profit, admitted, filled⟩

end PaperAccount

/-- A trader on one symbol, with the ids that only its orders carry. -/
structure Trader where
  symbol : String
  owns : String → Prop

namespace Trader

/-- One use of the account by anyone else. The positions of an account have no order of their own. -/
inductive Others (who : Trader) : PaperAccount → PaperAccount → Prop where
  | settle {a : PaperAccount} {order : Order} (price : Decimal)
      (elsewhere : order.symbol ≠ who.symbol)
      (theirs : ∀ id, order.clientId = some id → ¬ who.owns id) :
      Others who a (a.settle order price).2
  | setLeverage {a : PaperAccount} (symbol : String) (leverage : UInt32) :
      Others who a (a.setLeverage symbol leverage).2
  | reorder {a : PaperAccount} {positions : List (String × PaperPosition)}
      (same : ∀ symbol, Keyed.find? symbol positions = Keyed.find? symbol a.positions) :
      Others who a { a with positions }

structure Unaffected (who : Trader) (a b : PaperAccount) : Prop where
  position : Keyed.find? who.symbol b.positions = Keyed.find? who.symbol a.positions
  fills : ∀ id, who.owns id → Keyed.find? id b.fills = Keyed.find? id a.fills

variable {who : Trader} {a b c : PaperAccount}

theorem Unaffected.of_same (positions : b.positions = a.positions) (fills : b.fills = a.fills) :
    who.Unaffected a b where
  position := by rw [positions]
  fills := by
    intro id _
    rw [fills]

theorem Unaffected.refl (who : Trader) (a : PaperAccount) : who.Unaffected a a := .of_same rfl rfl

theorem Unaffected.trans (first : who.Unaffected a b) (second : who.Unaffected b c) :
    who.Unaffected a c where
  position := second.position.trans first.position
  fills := by
    intro id own
    exact (second.fills id own).trans (first.fills id own)

theorem Unaffected.signed (same : who.Unaffected a b) :
    b.position who.symbol = a.position who.symbol := by
  rw [PaperAccount.position, PaperAccount.position, same.position]

theorem unaffected_setLeverage (who : Trader) (a : PaperAccount) (symbol : String)
    (leverage : UInt32) : who.Unaffected a (a.setLeverage symbol leverage).2 := by
  obtain ⟨leverages, same⟩ := a.setLeverage_leverages symbol leverage
  rw [same]
  exact .of_same rfl rfl

theorem Others.unaffected (moved : who.Others a b) : who.Unaffected a b := by
  cases moved with
  | settle price elsewhere theirs =>
    refine ⟨a.settle_elsewhere price elsewhere, ?_⟩
    intro id own
    refine a.settle_fills_other price ?_
    intro same
    exact theirs id same own
  | setLeverage symbol leverage => exact unaffected_setLeverage who a symbol leverage
  | reorder same =>
    constructor
    · exact same who.symbol
    · intro _ _
      rfl

abbrev Meanwhile (who : Trader) : PaperAccount → PaperAccount → Prop :=
  Relation.ReflTransGen who.Others

theorem Meanwhile.unaffected (moved : who.Meanwhile a b) : who.Unaffected a b := by
  induction moved with
  | refl => exact .refl who a
  | tail _ last ih => exact ih.trans last.unaffected

def Quotes : (call : ExchangeCall) → call.Reply → Prop
  | .price _, .ok price => .zero < price
  | _, _ => True

/-- An id that the guard gives is the trader's own and was not filled under before. -/
def Issues (who : Trader) (a : PaperAccount) : (s : Guarded.GuardStep) → s.Reply → Prop
  | .freshId, id => who.owns id ∧ Keyed.find? id a.fills = none
  | _, _ => True

/-- One exchange of the layers with their surroundings, after any number of uses of the account by
others. The market fails as it likes, and so does the guard. -/
def Serves (who : Trader) (a : PaperAccount) :
    Program.Exchange Layers.Step.Reply → PaperAccount → Prop
  | ⟨.account q, reply⟩, b => ∃ found, who.Meanwhile a found ∧ q.apply found = (reply, b)
  | ⟨.market call, reply⟩, b => who.Meanwhile a b ∧ Quotes call reply
  | ⟨.guard s, reply⟩, b => who.Meanwhile a b ∧ who.Issues b s reply

/-- A step that settles no order. -/
def Quiet : Layers.Step → Prop
  | .account (.settle _ _) => False
  | _ => True

theorem serves_quiet {x : Program.Exchange Layers.Step.Reply} (quiet : Quiet x.1)
    (served : who.Serves a x b) : who.Unaffected a b := by
  obtain ⟨q, reply⟩ := x
  cases q with
  | guard s => exact Meanwhile.unaffected served.1
  | market call => exact Meanwhile.unaffected served.1
  | account q =>
    obtain ⟨found, others, applied⟩ := served
    refine (Meanwhile.unaffected others).trans ?_
    cases q with
    | settle => exact quiet.elim
    | wallet => exact (Prod.mk.inj applied).2 ▸ .refl who found
    | review => exact (Prod.mk.inj applied).2 ▸ .refl who found
    | setLeverage symbol leverage =>
      have same : (found.setLeverage symbol leverage).2 = b := congrArg Prod.snd applied
      exact same ▸ unaffected_setLeverage who found symbol leverage

theorem path_quiet {talk : List (Program.Exchange Layers.Step.Reply)}
    (quiet : ∀ x ∈ talk, Quiet x.1) (path : Path who.Serves a talk b) : who.Unaffected a b := by
  induction path with
  | nil => exact .refl who _
  | cons first _ ih =>
    have moved := serves_quiet (quiet _ List.mem_cons_self) first
    refine moved.trans (ih ?_)
    intro x member
    exact quiet x (List.mem_cons_of_mem _ member)

structure Places (who : Trader) (a : PaperAccount) (order : Order) : Prop where
  symbol : order.symbol = who.symbol
  owned : ∀ id, order.clientId = some id → who.owns id
  unknown : a.previousFill? order = none

theorem Places.later {order : Order} (places : who.Places a order) (same : who.Unaffected a b) :
    who.Places b order where
  symbol := places.symbol
  owned := places.owned
  unknown := by
    have before := places.unknown
    simp only [PaperAccount.previousFill?, Option.bind_eq_none_iff] at before ⊢
    intro id own
    rw [same.fills id (places.owned id own)]
    exact before id own

/-- The order was filled at the price of its acknowledgement, from the position that the trader had. -/
inductive Fills (who : Trader) (a : PaperAccount) (order : Order) (ack : OrderAck)
    (b : PaperAccount) : Prop where
  | intro {found : PaperAccount} {price delta profit : Decimal}
      (same : found.position who.symbol = a.position who.symbol)
      (sized : 0 < order.quantity.value) (positive : .zero < price)
      (priced : ack.averagePrice = some price)
      (admitted : found.admitted order price = .ok (.ok delta))
      (filled : PaperPosition.fill (Keyed.find? who.symbol a.positions) delta price =
        .ok (Keyed.find? who.symbol b.positions, profit))

def Outcome (who : Trader) (a : PaperAccount) (order : Order) :
    Except GatewayError OrderAck → PaperAccount → Prop
  | .error _, b => who.Unaffected a b
  | .ok ack, b => who.Fills a order ack b

theorem Outcome.after {order : Order} {reply : Except GatewayError OrderAck}
    (same : who.Unaffected a b) (ended : who.Outcome b order reply c) :
    who.Outcome a order reply c := by
  cases reply with
  | error e => exact same.trans ended
  | ok ack =>
    obtain ⟨found, sized, positive, priced, admitted, filled⟩ := ended
    rw [same.position] at filled
    exact ⟨found.trans same.signed, sized, positive, priced, admitted, filled⟩

theorem Outcome.before {order : Order} {reply : Except GatewayError OrderAck}
    (ended : who.Outcome a order reply b) (same : who.Unaffected b c) :
    who.Outcome a order reply c := by
  cases reply with
  | error e => exact Unaffected.trans ended same
  | ok ack =>
    obtain ⟨found, sized, positive, priced, admitted, filled⟩ := ended
    rw [← same.position] at filled
    exact ⟨found, sized, positive, priced, admitted, filled⟩

variable {l : Layers} {order : Order} {reply : Except GatewayError OrderAck}

/-- An order below the guard. Whatever the others do while it waits for its price, the account has
not filled it before. -/
theorem unguarded_outcome (paper : l.paper = true) (places : who.Places a order)
    (ended : Through who.Serves l.unguarded a ⟨.placeOrder order, reply⟩ b) :
    who.Outcome a order reply b := by
  obtain ⟨inner, yields, path⟩ := ended
  simp only [Layers.unguarded, paper, if_true] at yields
  obtain ⟨outer, yields, path⟩ := path_expand.mp ⟨inner, yields, path⟩
  obtain ⟨answer, rest, rfl, yields⟩ := yields
  obtain _ | ⟨first, path⟩ := path
  obtain ⟨found, others, reviewed⟩ := question_path.mp first
  have same := Meanwhile.unaffected others
  obtain ⟨rfl, rfl⟩ := Prod.mk.inj reviewed
  cases open_ : found.review order with
  | some answer =>
    rw [open_] at yields
    obtain ⟨rfl, rfl⟩ := yields
    cases path
    cases answer with
    | error e => exact same
    | ok ack =>
      have known := PaperAccount.review_ok open_
      rw [(places.later same).unknown] at known
      cases known
  | none =>
    -- From here on the account is whatever the others have made of it at each step.
    rw [open_] at yields
    obtain ⟨quote, rest, rfl, yields⟩ := yields
    obtain _ | ⟨read, path⟩ := path
    obtain ⟨waited, quoted⟩ := question_path.mp read
    have same := same.trans (Meanwhile.unaffected waited)
    cases quote with
    | error e =>
      obtain ⟨rfl, rfl⟩ := yields
      cases path
      exact same
    | ok price =>
      obtain ⟨settlement, rest, rfl, yields⟩ := yields
      obtain ⟨rfl, rfl⟩ := yields_ofExcept.mp yields
      obtain ⟨found', others, settled⟩ := question_path.mp path.single
      have same := same.trans (Meanwhile.unaffected others)
      cases reply with
      | error e =>
        have kept := PaperAccount.settle_refused (congrArg Prod.fst settled)
        have ended : (found'.settle order price).2 = b := congrArg Prod.snd settled
        rw [← ended, kept]
        exact same
      | ok ack =>
        obtain ⟨priced, delta, profit, admitted, filled⟩ :=
          PaperAccount.settle_filled (places.later same).unknown settled
        rw [places.symbol, same.position] at filled
        exact ⟨same.signed, PaperAccount.quantity_pos_of_review open_, quoted, priced, admitted,
          filled⟩

theorem guard_unaffected {s : Guarded.GuardStep} {answer : s.Reply}
    (moved : Through who.Serves l.ofGuarded a ⟨.guard s, answer⟩ b) :
    who.Unaffected a b ∧ who.Issues b s answer := by
  obtain ⟨others, issued⟩ := question_path.mp moved
  exact ⟨Meanwhile.unaffected others, issued⟩

theorem attempt_outcome {talk : Guarded.Talk} (paper : l.paper = true)
    (places : who.Places a order)
    (ended : (Guarded.attempt (.placeOrder order)).Yields talk reply)
    (path : Path (Through who.Serves l.ofGuarded) a talk b) : who.Outcome a order reply b := by
  obtain ⟨admission, _, rfl, ended⟩ := ended
  obtain _ | ⟨acquired, path⟩ := path
  have same := (guard_unaffected acquired).1
  cases admission with
  | none =>
    obtain ⟨rfl, rfl⟩ := ended
    cases path
    exact same
  | some admission =>
    obtain ⟨token, _, rfl, ended⟩ := ended
    obtain _ | ⟨taken, path⟩ := path
    have same := same.trans (guard_unaffected taken).1
    cases token with
    | error e =>
      obtain ⟨_, _, rfl, rfl, rfl⟩ := ended
      exact same.trans (guard_unaffected path.single).1
    | ok =>
      obtain ⟨answer, _, rfl, _, _, rfl, rfl, rfl⟩ := ended
      obtain _ | ⟨sent, path⟩ := path
      have placed := unguarded_outcome paper (places.later same) sent
      exact (placed.after same).before (guard_unaffected path.single).1

/-- Attempts one after another. As long as they fail nothing changes for the trader, and the one that
is acknowledged is the last one. -/
theorem attempts_outcome {talk : Guarded.Talk} {number more : Nat} (paper : l.paper = true)
    (places : who.Places a order)
    (ended : (Guarded.attempts (.placeOrder order) number more).Yields talk reply)
    (path : Path (Through who.Serves l.ofGuarded) a talk b) : who.Outcome a order reply b := by
  -- A failed attempt leaves the order unknown to the account, which the next attempt relies on.
  induction more generalizing number a talk with
  | zero => exact attempt_outcome paper places ended path
  | succ more ih =>
    obtain ⟨first, answer, rest, rfl, tried, went⟩ := yields_bind.mp ended
    obtain ⟨middle, before, after⟩ := path_append.mp path
    have outcome := attempt_outcome paper places tried before
    split at went
    · obtain ⟨_, _, rfl, retried⟩ := went
      obtain _ | ⟨paused, after⟩ := after
      have same := Unaffected.trans outcome (guard_unaffected paused).1
      exact (ih (places.later same) retried after).after same
    · obtain ⟨rfl, rfl⟩ := went
      cases after
      exact outcome

theorem order_outcome (paper : l.paper = true) (symbol : order.symbol = who.symbol)
    (unnamed : order.clientId = none)
    (ended : Through who.Serves l.call a ⟨.placeOrder order, reply⟩ b) :
    who.Outcome a order reply b := by
  have places : who.Places a order :=
    ⟨symbol, by simp [unnamed], by simp [PaperAccount.previousFill?, unnamed]⟩
  cases guarded : l.guard with
  | none =>
    refine unguarded_outcome paper places ?_
    simpa only [Through, Layers.call, guarded] using ended
  | some policy =>
    obtain ⟨inner, yields, path⟩ := ended
    simp only [Layers.call, guarded, Layers.knowsIds, paper, Bool.true_or] at yields
    obtain ⟨outer, yields, path⟩ := path_expand.mp ⟨inner, yields, path⟩
    simp only [Guarded.call, Guarded.placeOrder, if_true, Guarded.identified, unnamed] at yields
    obtain ⟨id, rest, rfl, yields⟩ := yields
    obtain _ | ⟨issued, path⟩ := path
    obtain ⟨same, owned, unfilled⟩ := guard_unaffected issued
    -- The id is new, so that no earlier fill can be answered in place of this one.
    have named : who.Places _ { order with clientId := some id } :=
      ⟨symbol, by simpa using owned, unfilled⟩
    have outcome := (attempts_outcome paper named yields path).after same
    cases reply with
    | error e => exact outcome
    | ok ack =>
      obtain ⟨found, sized, positive, priced, admitted, filled⟩ := outcome
      exact ⟨found, sized, positive, priced, admitted, filled⟩

theorem unguarded_quiet {call : ExchangeCall} (other : ∀ order, call ≠ .placeOrder order) :
    (l.unguarded call).Only Quiet := by
  rw [Layers.unguarded]
  split
  · cases call with
    | placeOrder order => exact absurd rfl (other order)
    | candles => exact ⟨trivial, fun _ => trivial⟩
    | price => exact ⟨trivial, fun _ => trivial⟩
    | balance => exact ⟨trivial, fun _ => trivial⟩
    | setLeverage => exact ⟨trivial, fun _ => trivial⟩
  · exact ⟨trivial, fun _ => trivial⟩

theorem call_quiet {call : ExchangeCall} (other : ∀ order, call ≠ .placeOrder order) :
    (l.call call).Only Quiet := by
  rw [Layers.call]
  split
  · have sends : ∀ policy, (Guarded.call policy l.knowsIds call).Only (Guarded.Sends call) := by
      intro policy
      cases call with
      | placeOrder order => exact absurd rfl (other order)
      | _ => exact Guarded.attempts_sends _ 1 _
    refine (sends _).expand ?_
    intro s sent
    cases s with
    | guard s => exact ⟨trivial, fun _ => trivial⟩
    | forward forwarded =>
      obtain rfl : forwarded = call := sent
      exact unguarded_quiet other
  · exact unguarded_quiet other

theorem call_unaffected {call : ExchangeCall} {answer : call.Reply}
    (other : ∀ order, call ≠ .placeOrder order)
    (ended : Through who.Serves l.call a ⟨call, answer⟩ b) : who.Unaffected a b := by
  obtain ⟨inner, yields, path⟩ := ended
  exact path_quiet ((call_quiet other).of_mem yields.holds) path

end Trader

end FuturesDesk
