import FuturesDesk.Exchange.Paper
import FuturesDesk.Proofs.Exchange.Account
import FuturesDesk.Proofs.Program.Conversation

/-! Calls on a paper account side by side. A call looks at the account, waits for a price, and
settles; other calls use the account in between, those that repeat its order among them. The orders
filled so far are kept beside the account, and what every call may rely on is that its books agree
with them. -/
namespace FuturesDesk

namespace PaperAccount

def orderId (n : Nat) : String := "paper-" ++ toString (n + 1)

theorem orderId_injective : Function.Injective orderId := by
  intro n m same
  have digits : Nat.toDigits 10 (n + 1) = Nat.toDigits 10 (m + 1) := by
    simpa [orderId, ← String.toList_inj, Nat.toList_repr] using same
  have read := congrArg (Nat.ofDigitChars 10 · 0) digits
  simpa [Nat.ofDigitChars_toDigits] using read

def recorded (a : PaperAccount) (order : Order) (ack : OrderAck) : List (String × OrderAck) :=
  match order.clientId with
  | some id => Keyed.put id ack a.fills
  | none => a.fills

theorem settle_ok {a : PaperAccount} {order : Order} {price : Decimal} {ack : OrderAck}
    (answered : (a.settle order price).1 = .ok (.ok ack)) :
    (a.previousFill? order = some ack ∧ (a.settle order price).2 = a) ∨
      a.previousFill? order = none ∧ ack.orderId = orderId a.fillCount ∧
        (a.settle order price).2.fillCount = a.fillCount + 1 ∧
        (a.settle order price).2.fills = a.recorded order ack := by
  have ended := settle_settles a order price
  rw [answered] at ended
  generalize (a.settle order price).2 = after at ended ⊢
  cases ended with
  | replayed known => exact .inl ⟨known, rfl⟩
  | filled fresh =>
    refine .inr ⟨fresh, by simp [acknowledge, orderId], by simp [acknowledge], ?_⟩
    cases own : order.clientId <;> simp [acknowledge, recorded, own]

theorem settle_fault {a : PaperAccount} {order : Order} {price : Decimal} {f : Decimal.Fault}
    (faulted : (a.settle order price).1 = .error f) :
    (a.settle order price).2.fillCount = a.fillCount ∧
      (a.settle order price).2.fills = a.fills := by
  have ended := settle_settles a order price
  rw [faulted] at ended
  generalize (a.settle order price).2 = after at ended ⊢
  cases ended <;> simp

end PaperAccount

namespace Paper

/-- One use of the account by a call, with the account that it found. -/
structure Use where
  step : AccountStep
  before : PaperAccount

structure Fill where
  order : Order
  ack : OrderAck

namespace Use

def after (u : Use) : PaperAccount := (u.step.apply u.before).2

/-- The order that a use fills: it is settled with an acknowledgement and was not filled before. -/
def fill? (u : Use) : Option Fill :=
  match u.step with
  | .settle order price =>
    match u.before.previousFill? order, (u.before.settle order price).1 with
    | none, .ok (.ok ack) => some ⟨order, ack⟩
    | _, _ => none
  | _ => none

theorem fill?_settle {a : PaperAccount} {order : Order} {price : Decimal} {ack : OrderAck}
    (fresh : a.previousFill? order = none)
    (answered : (a.settle order price).1 = .ok (.ok ack)) :
    (Use.mk (.settle order price) a).fill? = some ⟨order, ack⟩ := by
  simp [fill?, fresh, answered]

def Faults (u : Use) : Prop :=
  ∃ order price f, u.step = .settle order price ∧ (u.before.settle order price).1 = .error f

/-- What changes an account: an order that it fills, a leverage, or a settlement that faults. -/
theorem changes (u : Use) : u.after = u.before ∨ u.fill?.isSome ∨
    (∃ symbol leverage, u.step = .setLeverage symbol leverage) ∨ u.Faults := by
  obtain ⟨step, a⟩ := u
  cases step with
  | wallet => exact .inl rfl
  | review => exact .inl rfl
  | setLeverage symbol leverage => exact .inr (.inr (.inl ⟨symbol, leverage, rfl⟩))
  | settle order price =>
    cases answer : (a.settle order price).1 with
    | error f => exact .inr (.inr (.inr ⟨order, price, f, rfl, answer⟩))
    | ok reply =>
      cases reply with
      | error e => exact .inl (PaperAccount.settle_refused answer)
      | ok ack =>
        obtain ⟨_, same⟩ | ⟨fresh, _⟩ := PaperAccount.settle_ok answer
        · exact .inl same
        · exact .inr (.inl (by simp [fill?_settle fresh answer]))

end Use

/-- The books of an account agree with the orders filled so far, the first one first. -/
structure Books (filled : List Fill) (a : PaperAccount) : Prop where
  numbered : filled.map (·.ack.orderId) = (List.range a.fillCount).map PaperAccount.orderId
  recorded : ∀ id ack, Keyed.find? id a.fills = some ack ↔
    ∃ fill ∈ filled, fill.order.clientId = some id ∧ fill.ack = ack
  once : ∀ id, filled.countP (·.order.clientId = some id) ≤ 1

namespace Books

variable {filled : List Fill} {a b : PaperAccount} {order : Order} {ack : OrderAck}

theorem new (wallet : Decimal) : Books [] { wallet } where
  numbered := rfl
  recorded := by simp [Keyed.find?]
  once := by simp

theorem of_same (books : Books filled a) (count : b.fillCount = a.fillCount)
    (fills : b.fills = a.fills) : Books filled b where
  numbered := count ▸ books.numbered
  recorded := fills ▸ books.recorded
  once := books.once

theorem length (books : Books filled a) : filled.length = a.fillCount := by
  simpa using congrArg List.length books.numbered

theorem nodup (books : Books filled a) : (filled.map (·.ack.orderId)).Nodup := by
  rw [books.numbered]
  exact List.nodup_range.map PaperAccount.orderId_injective

theorem fresh (books : Books filled a) (unknown : a.previousFill? order = none) :
    ∀ id, order.clientId = some id → ∀ fill ∈ filled, fill.order.clientId ≠ some id := by
  intro id own fill member same
  have known := (books.recorded id fill.ack).mpr ⟨fill, member, same, rfl⟩
  simp [PaperAccount.previousFill?, own, known] at unknown

theorem known (books : Books filled a) (previous : a.previousFill? order = some ack) :
    ∃ fill ∈ filled, fill.order.clientId = order.clientId ∧ fill.ack = ack := by
  obtain ⟨id, own, found⟩ := Option.bind_eq_some_iff.mp previous
  rw [own]
  exact (books.recorded id ack).mp found

theorem fill (books : Books filled a) (unknown : a.previousFill? order = none)
    (numbered : ack.orderId = PaperAccount.orderId a.fillCount)
    (count : b.fillCount = a.fillCount + 1) (fills : b.fills = a.recorded order ack) :
    Books (filled ++ [⟨order, ack⟩]) b where
  numbered := by
    rw [count, List.range_succ, List.map_append, List.map_append, books.numbered]
    simp [numbered]
  recorded := by
    intro id other
    simp only [fills, PaperAccount.recorded, List.mem_append, List.mem_singleton, or_and_right,
      exists_or, exists_eq_left, ← books.recorded]
    cases own : order.clientId with
    | none => simp
    | some known =>
      simp only [Keyed.find?_put, Option.some.injEq]
      by_cases same : known = id
      · have absent : Keyed.find? id a.fills ≠ some other := by
          intro found
          obtain ⟨fill, member, carried, _⟩ := (books.recorded id other).mp found
          exact books.fresh unknown id (own.trans (congrArg some same)) fill member carried
        simp [same, absent]
      · simp [same]
  once := by
    intro id
    rw [List.countP_append]
    -- An id that the account does not know was not filled under before.
    by_cases own : order.clientId = some id
    · have none_ : filled.countP (·.order.clientId = some id) = 0 := by
        rw [List.countP_eq_zero]
        intro fill member
        simpa using books.fresh unknown id own fill member
      simp [none_, own]
    · simpa [own] using books.once id

theorem use (books : Books filled a) (q : AccountStep) :
    Books (filled ++ (Use.mk q a).fill?.toList) (q.apply a).2 := by
  cases q with
  | wallet => simpa [Use.fill?, AccountStep.apply] using books
  | review => simpa [Use.fill?, AccountStep.apply] using books
  | setLeverage symbol leverage =>
    obtain ⟨leverages, same⟩ := a.setLeverage_leverages symbol leverage
    change Books _ (a.setLeverage symbol leverage).2
    rw [same]
    have kept : Books filled { a with leverages } := books.of_same rfl rfl
    simpa [Use.fill?] using kept
  | settle order price =>
    change Books _ (a.settle order price).2
    cases answer : (a.settle order price).1 with
    | error f =>
      obtain ⟨count, fills⟩ := PaperAccount.settle_fault answer
      simpa [Use.fill?, answer] using books.of_same count fills
    | ok reply =>
      cases reply with
      | error e =>
        rw [PaperAccount.settle_refused answer]
        simpa [Use.fill?, answer] using books
      | ok ack =>
        obtain ⟨known, same⟩ | ⟨unknown, numbered, count, fills⟩ := PaperAccount.settle_ok answer
        · rw [same]
          simpa [Use.fill?, known] using books
        · simpa [Use.fill?_settle unknown answer] using books.fill unknown numbered count fills

end Books

structure Answered where
  call : ExchangeCall
  reply : call.Reply
  uses : List Use

def Answered.fill? : Answered → Option Fill
  | ⟨.placeOrder order, .ok ack, _⟩ => some ⟨order, ack⟩
  | _ => none

/-- An error stands for an account that was left alone, an acknowledgement for an order filled under
the same id. -/
structure Right (filled : List Fill) (x : Answered) : Prop where
  refused : ∀ e, x.reply = .error e → ∀ u ∈ x.uses, u.after = u.before
  acknowledged : ∀ answer ∈ x.fill?,
    ∃ fill ∈ filled, fill.order.clientId = answer.order.clientId ∧ fill.ack = answer.ack

/-- Whatever the market answers and whatever the account is at the next use of it, as long as its
books are kept, the call will end with an answer that is right. -/
def Underway (c : ExchangeCall) : Task c.Reply → List Fill → List Use → Prop
  | .done reply, filled, uses => Right filled ⟨c, reply, uses⟩
  | .fault _, _, _ => True
  | .ask (.market _) next, filled, uses => ∀ reply, Underway c (next reply) filled uses
  | .ask (.account q) next, filled, uses => ∀ more a, Books (filled ++ more) a →
      Underway c (next (q.apply a).1) (filled ++ more ++ (Use.mk q a).fill?.toList)
        (uses ++ [⟨q, a⟩])

namespace Right

variable {filled : List Fill} {uses : List Use}

theorem failed {c : ExchangeCall} {e : GatewayError} (still : ∀ u ∈ uses, u.after = u.before) :
    Right filled ⟨c, .error e, uses⟩ where
  refused := by
    intro _ _
    exact still
  acknowledged := by cases c <;> simp [Answered.fill?]

theorem acknowledges {order : Order} {ack : OrderAck}
    (known : ∃ fill ∈ filled, fill.order.clientId = order.clientId ∧ fill.ack = ack) :
    Right filled ⟨.placeOrder order, .ok ack, uses⟩ where
  refused := by rintro e ⟨⟩
  acknowledged := by
    rintro _ ⟨⟩
    exact known

theorem grow {x : Answered} (right : Right filled x) (more : List Fill) :
    Right (filled ++ more) x where
  refused := right.refused
  acknowledged := by
    intro answer acknowledged
    obtain ⟨fill, member, same⟩ := right.acknowledged answer acknowledged
    exact ⟨fill, List.mem_append_left _ member, same⟩

theorem reviewed {a : PaperAccount} {order : Order} {reply : Except GatewayError OrderAck}
    (books : Books filled a) (answered : a.review order = some reply) :
    Right filled ⟨.placeOrder order, reply, [⟨.review order, a⟩]⟩ := by
  cases reply with
  | error e =>
    refine failed ?_
    intro u member
    rw [List.mem_singleton.mp member]
    rfl
  | ok ack => exact acknowledges (books.known (PaperAccount.review_ok answered))

theorem settled {a : PaperAccount} {order : Order} {price : Decimal}
    {reply : Except GatewayError OrderAck} (still : ∀ u ∈ uses, u.after = u.before)
    (books : Books filled a) (answered : (a.settle order price).1 = .ok reply) :
    Right (filled ++ (Use.mk (.settle order price) a).fill?.toList)
      ⟨.placeOrder order, reply, uses ++ [⟨.settle order price, a⟩]⟩ := by
  cases reply with
  | error e =>
    refine failed ?_
    intro u member
    rcases List.mem_append.mp member with earlier | last
    · exact still u earlier
    · rw [List.mem_singleton.mp last]
      exact PaperAccount.settle_refused answered
  | ok ack =>
    refine acknowledges ?_
    obtain ⟨known, _⟩ | ⟨unknown, _⟩ := PaperAccount.settle_ok answered
    · obtain ⟨fill, member, same⟩ := books.known known
      exact ⟨fill, List.mem_append_left _ member, same⟩
    · exact ⟨⟨order, ack⟩, by simp [Use.fill?_settle unknown answered], rfl, rfl⟩

end Right

/-- Orders that others fill in the meantime do no harm. -/
theorem Underway.grow {c : ExchangeCall} {task : Task c.Reply} {filled : List Fill} {uses : List Use}
    (fits : Underway c task filled uses) (more : List Fill) :
    Underway c task (filled ++ more) uses := by
  induction task with
  | done reply => exact Right.grow fits more
  | fault => trivial
  | ask q next ih =>
    cases q with
    | market m =>
      intro reply
      exact ih reply (fits reply)
    | account q =>
      intro later a books
      rw [List.append_assoc filled] at books ⊢
      exact fits (more ++ later) a books

theorem placeOrder_underway (order : Order) (filled : List Fill) :
    Underway (.placeOrder order) (placeOrder order) filled [] := by
  intro more a books
  have still : ∀ u ∈ [Use.mk (.review order) a], u.after = u.before := by
    intro u member
    rw [List.mem_singleton.mp member]
    rfl
  cases reviewed : ((AccountStep.review order).apply a).1 with
  | some answer => exact (Right.reviewed books reviewed).grow _
  | none =>
    rintro (e | price)
    · exact Right.failed still
    · -- The price took its time: this account need not be the one that was reviewed.
      intro later b books
      cases answered : ((AccountStep.settle order price).apply b).1 with
      | error f => trivial
      | ok reply => exact Right.settled still books answered

theorem call_underway (c : ExchangeCall) (filled : List Fill) : Underway c (call c) filled [] := by
  cases c with
  | placeOrder order => exact placeOrder_underway order filled
  | candles symbol timeframe lookback =>
    intro reply
    exact ⟨by simp, by simp [Answered.fill?]⟩
  | price symbol =>
    intro reply
    exact ⟨by simp, by simp [Answered.fill?]⟩
  | balance =>
    intro more a books
    exact ⟨by rintro e ⟨⟩, by simp [Answered.fill?]⟩
  | setLeverage symbol leverage =>
    intro more a books
    refine ⟨?_, by simp [Answered.fill?]⟩
    intro e refused u member
    rw [List.mem_singleton.mp member]
    exact PaperAccount.setLeverage_refused refused

structure Flight where
  call : ExchangeCall
  task : Task call.Reply
  uses : List Use := []

/-- Calls that share an account, with everything that they did to it and the answers they got. -/
structure Traffic where
  account : PaperAccount
  flights : Nat → Option Flight := fun _ => none
  uses : List Use := []
  answers : List Answered := []

namespace Traffic

def filled (s : Traffic) : List Fill := s.uses.filterMap Use.fill?

def put (s : Traffic) (i : Nat) (f : Option Flight) : Traffic :=
  { s with flights := Function.update s.flights i f }

def use (s : Traffic) (q : AccountStep) : Traffic :=
  { s with account := (q.apply s.account).2, uses := s.uses ++ [⟨q, s.account⟩] }

def answer (s : Traffic) (x : Answered) : Traffic := { s with answers := s.answers ++ [x] }

/-- One move of one call. The market answers anything, after any time; the positions of the account
have no order of their own. -/
inductive Moves : Traffic → Traffic → Prop where
  | begin {s : Traffic} {i : Nat} (free : s.flights i = none) (c : ExchangeCall) :
      Moves s (s.put i (some ⟨c, call c, []⟩))
  | use {s : Traffic} {i : Nat} {c : ExchangeCall} {q : AccountStep}
      {next : q.Reply → Task c.Reply} {uses : List Use}
      (found : s.flights i = some ⟨c, .ask (.account q) next, uses⟩) :
      Moves s ((s.use q).put i
        (some ⟨c, next (q.apply s.account).1, uses ++ [⟨q, s.account⟩]⟩))
  | hear {s : Traffic} {i : Nat} {c m : ExchangeCall} {next : m.Reply → Task c.Reply}
      {uses : List Use} (found : s.flights i = some ⟨c, .ask (.market m) next, uses⟩)
      (reply : m.Reply) : Moves s (s.put i (some ⟨c, next reply, uses⟩))
  | finish {s : Traffic} {i : Nat} {c : ExchangeCall} {reply : c.Reply} {uses : List Use}
      (found : s.flights i = some ⟨c, .done reply, uses⟩) :
      Moves s ((s.answer ⟨c, reply, uses⟩).put i none)
  /-- The caller gives up, or the call ended in a fault. -/
  | abandon {s : Traffic} (i : Nat) : Moves s (s.put i none)
  | reorder {s : Traffic} {positions : List (String × PaperPosition)}
      (same : positions.Perm s.account.positions) :
      Moves s { s with account := { s.account with positions } }

inductive Runs : Traffic → Traffic → Prop where
  | refl {s : Traffic} : Runs s s
  | step {s t u : Traffic} (run : Runs s t) (move : Moves t u) : Runs s u

variable {s t : Traffic}

theorem Moves.uses (move : Moves s t) : ∀ u ∈ s.uses, u ∈ t.uses := by
  intro u member
  cases move with
  | use => exact List.mem_append_left _ member
  | _ => exact member

@[simp] theorem filled_use (s : Traffic) (q : AccountStep) :
    (s.use q).filled = s.filled ++ (Use.mk q s.account).fill?.toList := by
  cases fill : (Use.mk q s.account).fill? <;> simp [filled, use, fill]

theorem forall_put {P : Flight → Prop} {i : Nat} {f : Option Flight}
    (held : ∀ j g, s.flights j = some g → P g) (new : ∀ g ∈ f, P g) :
    ∀ j g, (s.put i f).flights j = some g → P g := by
  intro j g found
  obtain ⟨_, this⟩ | ⟨_, other⟩ := Keyed.of_update found
  · exact new g this
  · exact held j g other

structure Sound (s : Traffic) : Prop where
  books : Books s.filled s.account
  flights : ∀ i f, s.flights i = some f → Underway f.call f.task s.filled f.uses
  answers : ∀ x ∈ s.answers, Right s.filled x

namespace Sound

theorem new (wallet : Decimal) : Sound { account := { wallet } } where
  books := .new wallet
  flights := by simp
  answers := by simp

theorem put (sound : s.Sound) {i : Nat} {f : Option Flight}
    (fits : ∀ g ∈ f, Underway g.call g.task s.filled g.uses) : (s.put i f).Sound where
  books := sound.books
  flights := forall_put sound.flights fits
  answers := sound.answers

theorem use (sound : s.Sound) (q : AccountStep) : (s.use q).Sound where
  books := by
    rw [filled_use]
    exact sound.books.use q
  flights := by
    intro i f found
    rw [filled_use]
    exact (sound.flights i f found).grow _
  answers := by
    intro x member
    rw [filled_use]
    exact (sound.answers x member).grow _

theorem answer (sound : s.Sound) {x : Answered} (right : Right s.filled x) : (s.answer x).Sound where
  books := sound.books
  flights := sound.flights
  answers := by
    intro y member
    rcases List.mem_append.mp member with old | new
    · exact sound.answers y old
    · exact List.mem_singleton.mp new ▸ right

end Sound

theorem moves_sound (sound : s.Sound) (move : Moves s t) : t.Sound := by
  cases move with
  | begin free c =>
    refine sound.put ?_
    rintro _ ⟨⟩
    exact call_underway c s.filled
  | @use i c q next uses found =>
    have fits := sound.flights _ _ found [] s.account (by simpa using sound.books)
    refine (sound.use q).put ?_
    rintro _ ⟨⟩
    simpa using fits
  | hear found reply =>
    have fits := sound.flights _ _ found reply
    refine sound.put ?_
    rintro _ ⟨⟩
    exact fits
  | finish found => exact (sound.answer (sound.flights _ _ found)).put (by simp)
  | abandon i => exact sound.put (by simp)
  | reorder same => exact ⟨sound.books.of_same rfl rfl, sound.flights, sound.answers⟩

theorem runs_sound (sound : s.Sound) (run : Runs s t) : t.Sound := by
  induction run with
  | refl => exact sound
  | step _ move ih => exact moves_sound ih move

/-- However calls on a new account interleave: an id is filled at most once, and all
acknowledgements of an id are the same. The account counts the orders that it filled, and numbers
each of them differently. A call that answers with an error has left the account alone at every use,
and nothing else than a fill, a leverage and a settlement without a result ever changes it. -/
theorem resends_fill_once {wallet : Decimal} (run : Runs { account := { wallet } } s) :
    (∀ id, s.filled.countP (·.order.clientId = some id) ≤ 1) ∧
      (∀ x ∈ s.answers, ∀ y ∈ s.answers, ∀ f ∈ x.fill?, ∀ g ∈ y.fill?,
        ∀ id, f.order.clientId = some id → g.order.clientId = some id → f.ack = g.ack) ∧
      s.filled.length = s.account.fillCount ∧ (s.filled.map (·.ack.orderId)).Nodup ∧
      (∀ x ∈ s.answers, ∀ e, x.reply = .error e → ∀ u ∈ x.uses, u.after = u.before) ∧
      ∀ u ∈ s.uses, u.after = u.before ∨ u.fill?.isSome ∨
        (∃ symbol leverage, u.step = .setLeverage symbol leverage) ∨ u.Faults := by
  have sound := runs_sound (.new wallet) run
  refine ⟨sound.books.once, ?_, sound.books.length, sound.books.nodup, ?_, fun u _ => u.changes⟩
  · intro x answeredX y answeredY f isX g isY id idF idG
    obtain ⟨fill, member, same, ackF⟩ := (sound.answers x answeredX).acknowledged f isX
    obtain ⟨other, member', same', ackG⟩ := (sound.answers y answeredY).acknowledged g isY
    have foundF := (sound.books.recorded id f.ack).mpr ⟨fill, member, same.trans idF, ackF⟩
    have foundG := (sound.books.recorded id g.ack).mpr ⟨other, member', same'.trans idG, ackG⟩
    exact Option.some.inj (foundF.symm.trans foundG)
  · intro x answered
    exact (sound.answers x answered).refused

theorem Moves.gives {s : Traffic} {i : Nat} {c : ExchangeCall} {q : AccountStep}
    {next : q.Reply → Task c.Reply} {uses : List Use} (reply : q.Reply) (after : PaperAccount)
    (found : s.flights i = some ⟨c, .ask (.account q) next, uses⟩)
    (applied : q.apply s.account = (reply, after)) :
    Moves s ({ s with account := after, uses := s.uses ++ [Use.mk q s.account] }.put i
      (some ⟨c, next reply, uses ++ [Use.mk q s.account]⟩)) := by
  have move := Moves.use found
  rwa [Traffic.use, applied] at move

/-- A leverage that is set while no other call moves. -/
theorem Runs.setLeverage {s₀ : Traffic} {a after : PaperAccount} (run : Runs s₀ s)
    (idle : s.flights 0 = none) (found : s.account = a) {symbol : String} {leverage : UInt32}
    (set : a.setLeverage symbol leverage = (.ok (), after)) :
    ∃ t, Runs s₀ t ∧ t.flights 0 = none ∧ t.account = after ∧
      t.uses = s.uses ++ [⟨.setLeverage symbol leverage, a⟩] := by
  obtain rfl := found
  have begun := run.step (.begin idle (.setLeverage symbol leverage))
  have ended := (begun.step (.gives (i := 0) _ _ rfl set)).step (.finish (i := 0) rfl)
  exact ⟨_, ended, rfl, rfl, rfl⟩

/-- An order that is settled while no other call moves. -/
theorem Runs.settle {s₀ : Traffic} {order : Order} {a after : PaperAccount}
    {result : Except Decimal.Fault (Except GatewayError OrderAck)} (run : Runs s₀ s)
    (idle : s.flights 0 = none) (found : s.account = a) (price : Decimal)
    (reviewed : a.review order = none) (settled : a.settle order price = (result, after)) :
    ∃ t, Runs s₀ t ∧ t.account = after ∧
      t.flights 0 = some ⟨.placeOrder order, Program.ofExcept result,
        [⟨.review order, a⟩, ⟨.settle order price, a⟩]⟩ ∧
      t.uses = s.uses ++ [⟨.review order, a⟩, ⟨.settle order price, a⟩] := by
  obtain rfl := found
  have look : (AccountStep.review order).apply s.account = (none, s.account) :=
    Prod.ext reviewed rfl
  have begun := run.step (.begin idle (.placeOrder order))
  have priced := (begun.step (.gives (i := 0) _ _ rfl look)).step
    (.hear (i := 0) (m := .price order.symbol) rfl (.ok price))
  exact ⟨_, priced.step (.gives (i := 0) _ _ rfl settled), rfl, rfl, List.append_assoc s.uses _ _⟩

theorem Runs.order {s₀ : Traffic} {order : Order} {ack : OrderAck} {a after : PaperAccount}
    (run : Runs s₀ s) (idle : s.flights 0 = none) (found : s.account = a) (price : Decimal)
    (reviewed : a.review order = none) (settled : a.settle order price = (.ok (.ok ack), after)) :
    ∃ t, Runs s₀ t ∧ t.flights 0 = none ∧ t.account = after ∧
      t.uses = s.uses ++ [⟨.review order, a⟩, ⟨.settle order price, a⟩] := by
  obtain ⟨t, run, found, answered, uses⟩ := run.settle idle found price reviewed settled
  exact ⟨_, run.step (.finish answered), rfl, found, uses⟩

def keyedOrder : Order := ⟨"BTCUSDT", .buy, .one, false, some "a"⟩

def keyedAck : OrderAck := ⟨"paper-1", some .hundred⟩

def walletBefore : PaperAccount := { wallet := .hundred }

def walletAfter : PaperAccount where
  wallet := .hundred
  positions := [("BTCUSDT", ⟨.one, .hundred⟩)]
  fills := [("a", keyedAck)]
  fillCount := 1

theorem settle_keyedOrder :
    walletBefore.settle keyedOrder .hundred = (.ok (.ok keyedAck), walletAfter) := by
  with_unfolding_all rfl

/-- An order and its repetition both wait for a price before either is filled. The second one gets
the acknowledgement of the first. -/
theorem racing_orders_fill_once :
    ∃ s, Runs { account := { wallet := .hundred } } s ∧ s.uses.length = 4 ∧
      s.answers.filterMap Answered.fill? = [⟨keyedOrder, keyedAck⟩, ⟨keyedOrder, keyedAck⟩] ∧
      s.filled.length = s.account.fillCount ∧ s.account = walletAfter := by
  have look : (AccountStep.review keyedOrder).apply walletBefore = (none, walletBefore) := by
    with_unfolding_all rfl
  have fill : (AccountStep.settle keyedOrder .hundred).apply walletBefore = _ := settle_keyedOrder
  have replay : (AccountStep.settle keyedOrder .hundred).apply walletAfter =
      (.ok (.ok keyedAck), walletAfter) := rfl
  have begun := (Runs.refl (s := { account := walletBefore })).step
    (.begin (i := 0) rfl (.placeOrder keyedOrder)) |>.step
    (.begin (i := 1) rfl (.placeOrder keyedOrder))
  have reviewed := begun.step (.gives (i := 0) _ _ rfl look) |>.step
    (.gives (i := 1) _ _ rfl look)
  have priced := reviewed.step (.hear (i := 0) (m := .price "BTCUSDT") rfl (.ok .hundred)) |>.step
    (.hear (i := 1) (m := .price "BTCUSDT") rfl (.ok .hundred))
  have settled := priced.step (.gives (i := 0) _ _ rfl fill) |>.step (.gives (i := 1) _ _ rfl replay)
  have run := settled.step (.finish (i := 0) rfl) |>.step (.finish (i := 1) rfl)
  exact ⟨_, run, rfl, rfl, (resends_fill_once run).2.2.1, rfl⟩

end Traffic

end Paper

end FuturesDesk
