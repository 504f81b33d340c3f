import FuturesDesk.Bot.Session
import FuturesDesk.Simulation.Desk

/-! Bots that trade side by side on one desk. One bot runs at a time, until it has to wait; bots
that wake at one moment take turns in the order in which they began to wait. -/
namespace FuturesDesk

namespace Floor

inductive Phase where
  /-- Has not run yet. -/
  | fresh (bot : Bot)
  /-- Waits for a tick. -/
  | waiting (bot : Bot) (tick : Nat)
  /-- In the middle of a cycle, with the tick after it. -/
  | busy (tick : Nat) (cycle : Fiber Bot.SessionState)
  /-- Ended, by an error or on request. -/
  | ended (error : Option BotError)
  /-- Stopped by arithmetic without a result. -/
  | crashed

structure Seat where
  /-- Milliseconds from tick to tick. -/
  period : Nat
  phase : Phase
  signal : StopSignal := {}

namespace Seat

def ofBot (b : Bot) : Seat := { period := b.trading.tickIntervalSecs * 1000, phase := .fresh b }

def hasEnded (s : Seat) : Bool :=
  match s.phase with
  | .ended _ => true
  | .crashed => true
  | _ => false

/-- The tick after one that was due; a bot that is late skips to the next multiple of its period. -/
def nextTick (s : Seat) (tick now : Nat) : Nat := now + s.period - (now - tick) % s.period

/-- Waits for a tick unless the session is over or the bot was asked to stop. -/
def settle (s : Seat) (tick : Nat) : Bot.SessionState → Seat
  | .ended error _ => { s with phase := .ended error }
  | .waiting b =>
    match s.signal.whileWaiting? with
    | some _ => { s with phase := .ended none }
    | none => { s with phase := .waiting b tick, signal := { s.signal with unseen := false } }

/-- Takes up the state of a cycle. -/
def afterCycle (s : Seat) (tick : Nat) : Fiber Bot.SessionState → Seat
  | .over (.ok state) => s.settle tick state
  | .over (.error _) => { s with phase := .crashed }
  | .asleep wake step next => { s with phase := .busy tick (.asleep wake step next) }

/-- Looks at a tick that may be due. -/
def look (l : Layers) (fired : Nat) (s : Seat) (b : Bot) (tick : Nat) (w : World) :
    Seat × World :=
  if tick ≤ fired then
    let next := s.nextTick tick w.now
    let session : Bot.SessionState := .waiting b
    let (cycle, w) := Fiber.advance (l.carryOut (session.next s.signal.atTick)) w
    (s.afterCycle next cycle, w)
  else (s.settle tick (.waiting b), w)

/-- Runs a bot until it waits. Timers up to `fired` have gone off. -/
def poll (l : Layers) (fired : Nat) (s : Seat) (w : World) : Seat × World :=
  match s.phase with
  | .fresh b => s.look l fired b w.now w
  | .waiting b tick => s.look l fired b tick w
  | .busy tick cycle =>
    let (cycle, w) := cycle.poll w
    (s.afterCycle tick cycle, w)
  | .ended _ => (s, w)
  | .crashed => (s, w)

/-- When the bot wakes by itself. -/
def wake? (s : Seat) : Option Nat :=
  match s.phase with
  | .waiting _ tick => some tick
  | .busy _ cycle => cycle.wake?
  | _ => none

end Seat

/-- A timer of a bot, by its number. -/
structure Timer where
  due : Nat
  bot : Nat
  deriving DecidableEq, Repr

end Floor

structure Floor extends Desk where
  seats : List Floor.Seat
  /-- The bots to run next, in order. -/
  ready : List Nat
  /-- The timers that have not gone off, in the order in which they were set. -/
  timers : List Floor.Timer := []
  /-- The time up to which timers have gone off. -/
  fired : Nat := 0

namespace Floor

/-- All bots of a desk, none of which has run. -/
def ofBots (d : Desk) (bots : List Bot) : Floor :=
  { d with
    seats := bots.map Seat.ofBot
    ready := List.range bots.length
    fired := d.world.now }

/-- Sets the timer of a bot, which has one at most; the same timer keeps its place. -/
def setTimer (f : Floor) (bot : Nat) (due : Option Nat) : Floor :=
  let others := f.timers.filter fun t => t.bot ≠ bot
  match due with
  | none => { f with timers := others }
  | some due =>
    if f.timers.contains ⟨due, bot⟩ then f else { f with timers := others ++ [⟨due, bot⟩] }

def pollBot (f : Floor) (bot : Nat) : Floor :=
  match f.seats[bot]? with
  | none => f
  | some seat =>
    let (seat, world) := seat.poll f.layers f.fired f.world
    { f with seats := f.seats.set bot seat, world }.setTimer bot seat.wake?

/-- Runs every bot that is ready. -/
def runReady (f : Floor) : Floor := f.ready.foldl pollBot { f with ready := [] }

/-- Makes a bot ready, once. -/
def wakeUp (f : Floor) (bot : Nat) : Floor :=
  if f.ready.contains bot then f else { f with ready := f.ready ++ [bot] }

/-- Lets the timers go off that are due, the earliest first. -/
def fire (f : Floor) : Floor :=
  let due := (f.timers.filter fun t => t.due ≤ f.world.now).mergeSort fun s t => s.due ≤ t.due
  let f := { f with
    timers := f.timers.filter fun t => f.world.now < t.due
    fired := f.world.now }
  due.foldl (fun f t => f.wakeUp t.bot) f

/-- Moves the clock forward to a time and lets the timers go off. -/
def moveTo (f : Floor) (now : Nat) : Floor :=
  { f with world := { f.world with now := max f.world.now now } }.fire

def nextTimer? (f : Floor) : Option Nat := (f.timers.map (·.due)).min?

/-- Lets the bots run while somebody else sleeps up to a time. At that time the sleeper goes on
before the bots do. Every round but the last moves the clock. -/
def sleepTo (target : Nat) (f : Floor) : (rounds : Nat) → Floor
  | 0 => f.moveTo target
  | rounds + 1 =>
    let f := f.runReady
    match f.nextTimer? with
    | some due => if due < target then sleepTo target (f.moveTo due) rounds else f.moveTo target
    | none => f.moveTo target

/-- Lets the bots run for some milliseconds. -/
def sleep (f : Floor) (ms : Nat) : Floor :=
  if ms = 0 then f else f.sleepTo (f.world.now + ms) ms

/-- Moves the clock while the bots stand still, then runs those that were ready. -/
def skip (f : Floor) (ms : Nat) : Floor :=
  ({ f with toDesk := f.toDesk.advance ms }.runReady).moveTo (f.world.now + ms)

/-- Changes the signal of a bot, which looks at it if it waits for a tick. -/
def signal (f : Floor) (bot : Nat) (change : StopSignal → StopSignal) : Floor :=
  match f.seats[bot]? with
  | none => f
  | some seat =>
    let f := { f with seats := f.seats.set bot { seat with signal := change seat.signal } }
    match seat.phase with
    | .waiting _ _ => f.wakeUp bot
    | _ => f

def hasEnded (f : Floor) (bot : Nat) : Bool := (f.seats[bot]?).any Seat.hasEnded

/-- Lets the bots run until one has ended, within a number of timers. -/
def awaitEnd (bot : Nat) (f : Floor) : (rounds : Nat) → Option Floor
  | 0 => none
  | rounds + 1 =>
    if f.hasEnded bot then some f
    else
      let f := f.runReady
      if f.hasEnded bot then some f
      else
        match f.nextTimer? with
        | some due => awaitEnd bot (f.moveTo due) rounds
        | none => none

end Floor

end FuturesDesk
