import FuturesDesk.Decimal.Basic

/-! Programs that ask their surroundings and go on with the answers. A program is data: it is run by
whoever answers, one question at a time, so that several programs can take turns in any order. -/
namespace FuturesDesk

/-- A program over questions `Q`, each with its type of answers, and a result in `α`. -/
inductive Program (Q : Type) (Answer : Q → Type) (α : Type) : Type where
  | done (result : α)
  /-- The arithmetic has no result, which ends the program. -/
  | fault (cause : Decimal.Fault)
  | ask (question : Q) (next : Answer question → Program Q Answer α)

namespace Program

variable {Q R : Type} {Answer : Q → Type} {Reply : R → Type} {α β : Type}

def bind (p : Program Q Answer α) (f : α → Program Q Answer β) : Program Q Answer β :=
  match p with
  | done a => f a
  | fault cause => fault cause
  | ask q next => ask q fun answer => (next answer).bind f

instance : Monad (Program Q Answer) where
  pure := done
  bind := bind

/-- A question whose answer is the result. -/
def question (q : Q) : Program Q Answer (Answer q) := ask q done

/-- The result of a computation that may fault. -/
def ofExcept : Except Decimal.Fault α → Program Q Answer α
  | .ok a => done a
  | .error cause => fault cause

/-- Answers every question of a program by a program over other questions. -/
def expand (answer : (q : Q) → Program R Reply (Answer q)) :
    Program Q Answer α → Program R Reply α
  | done a => done a
  | fault cause => fault cause
  | ask q next => (answer q).bind fun a => expand answer (next a)

/-- Runs a program to its end on a state that answers every question at once. -/
def run {σ : Type} (answer : (q : Q) → σ → Answer q × σ) :
    Program Q Answer α → σ → Except Decimal.Fault α × σ
  | done a, s => (.ok a, s)
  | fault cause, s => (.error cause, s)
  | ask q next, s =>
    let (a, s) := answer q s
    run answer (next a) s

@[simp] theorem pure_eq (a : α) : (pure a : Program Q Answer α) = done a := rfl

@[simp] theorem done_bind (a : α) (f : α → Program Q Answer β) : done a >>= f = f a := rfl

@[simp] theorem fault_bind (c : Decimal.Fault) (f : α → Program Q Answer β) :
    (fault c : Program Q Answer α) >>= f = fault c := rfl

@[simp] theorem ask_bind (q : Q) (next : Answer q → Program Q Answer α)
    (f : α → Program Q Answer β) : ask q next >>= f = ask q fun a => next a >>= f := rfl

end Program

end FuturesDesk
