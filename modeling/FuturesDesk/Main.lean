import FuturesDesk.Binance.Answer
import FuturesDesk.Binance.Client
import FuturesDesk.Bot.Session
import FuturesDesk.Exchange.Layers
import FuturesDesk.Launch

/-! The program. It is built without a transport: requests to the exchange stay unanswered, which
the bots take for an outage that passes. -/
namespace FuturesDesk.Live

/-- What the bots of one desk share while they trade. -/
structure Shared where
  client : Binance.Client
  layers : Layers
  guard : IO.Ref BucketGuard
  account : IO.Ref PaperAccount

/-- Fails once the task is cancelled. -/
def goOn : IO Unit := do
  if ← IO.checkCanceled then throw (.userError "cancelled")

/-- Runs a program to its end on answers from outside. A cancelled task ends at a question. -/
def carryOut {Q α : Type} {Answer : Q → Type} (answer : (q : Q) → IO (Answer q)) :
    Program Q Answer α → IO (Except Decimal.Fault α)
  | .done a => return .ok a
  | .fault f => return .error f
  | .ask q next => do
    goOn
    carryOut answer (next (← answer q))

/-- Waits for a time, with a look now and then at whether the task is cancelled. -/
partial def sleepUntil (due : Nat) : IO Unit := do
  goOn
  let now ← IO.monoMsNow
  if now < due then
    IO.sleep (UInt32.ofNat (min (due - now) 100))
    sleepUntil due

def sleepMs (ms : Nat) : IO Unit := do sleepUntil ((← IO.monoMsNow) + ms)

def guardStep (s : Shared) (step : Guarded.GuardStep) : IO step.Reply := do
  let now ← IO.monoNanosNow
  s.guard.modifyGet (Guard.apply (now / 1_000_000) now step)

/-- Waits for a token as long as the policy allows. -/
partial def takeToken (s : Shared) (c : EndpointClass) (deadline : Option Nat) :
    IO (Except GatewayError Unit) := do
  match ← guardStep s (.takeToken c) with
  | .ok () => return .ok ()
  | .error e =>
    let g ← s.guard.get
    match g.settings.rateLimits.policy with
    | .failFast => return .error e
    | .block timeoutMs =>
      let now ← IO.monoNanosNow
      let deadline := deadline.getD (now + timeoutMs * 1_000_000)
      let ready := g.budget.ready c now
      if deadline < ready then
        sleepMs ((deadline - now) / 1_000_000)
        return .error e
      sleepMs ((ready - now) / 1_000_000 + 1)
      takeToken s c (some deadline)

def pause (s : Shared) (attempt : Nat) : IO Unit := do
  let p := (← s.guard.get).settings.retry
  let jitter ← IO.rand 0 (p.jitterBound attempt).toNat
  sleepMs (p.delay attempt (UInt64.ofNat jitter)).toNat

/-- What becomes of a request of a client. -/
def send (_client : Binance.Client) (_request : Binance.Request) : IO Http.Outcome :=
  return .unreachable "no transport"

def answer (s : Shared) : (step : Layers.Step) → IO step.Reply
  | .guard (.takeToken c) => takeToken s c none
  | .guard (.pause attempt) => pause s attempt
  | .guard step => guardStep s step
  | .account step => s.account.modifyGet step.apply
  | .market c => return Binance.answer c (← send s.client (Binance.Request.ofCall c))

/-- Lets a bot trade at its ticks. Gives what halted it. -/
partial def trade (s : Shared) (b : Bot) (due : Nat) : IO String := do
  let period := b.trading.tickIntervalSecs * 1000
  match ← carryOut (answer s) (s.layers.carryOut b.cycle) with
  | .error f => return f.message
  | .ok (.error e, _) => return e.message
  | .ok (.ok (), b) =>
    let now ← IO.monoMsNow
    let next := now + period - (now - due) % period
    sleepUntil next
    trade s b next

/-- The variables of the process, which the system keeps with a null character after each. -/
def environment : IO (List (String × String)) := do
  let text ← try IO.FS.readFile "/proc/self/environ" catch _ => pure ""
  return (text.splitOn (String.singleton (Char.ofNat 0))).filterMap fun entry =>
    match entry.splitOn "=" with
    | name :: value@(_ :: _) => some (name, "=".intercalate value)
    | _ => none

def finish (v : Verdict) : IO UInt32 := do
  v.output.forM IO.println
  v.errors.forM IO.eprintln
  return UInt32.ofNat v.exitCode

/-- Bots that trade side by side, each with what halts it in the end. -/
abbrev Trading : Type := List (String × Task (Except IO.Error String))

def startBots (c : DeskConfig) (g : BucketGuard) (bots : List Bot) : IO Trading := do
  let shared : Shared := {
    client := {
      baseUrl := Binance.trimmedUrl c.exchange.baseUrl, apiKey := c.exchange.apiKey
      apiSecret := c.exchange.apiSecret, receiveWindowMs := c.exchange.receiveWindowMs }
    layers := {
      paper := c.exchange.paper, guard := some c.gateway.retry
      marketKnowsIds := Binance.knowsIds }
    guard := ← IO.mkRef g
    account := ← IO.mkRef { wallet := c.exchange.paperBalance } }
  let start ← IO.monoMsNow
  bots.mapM fun b => do
    return (b.symbol, ← IO.asTask (trade shared b start) Task.Priority.dedicated)

/-- Waits until all bots have halted. -/
def joinBots (trading : Trading) : IO UInt32 := do
  for (symbol, task) in trading do
    let cause := match ← IO.wait task with
      | .ok message => message
      | .error e => toString e
    IO.println (symbol ++ ": bot exited with error: " ++ cause)
  IO.eprintln ("Error: " ++ toString trading.length ++ " bot(s) halted with errors")
  return 1

def run (o : CommandLine.Options) : IO UInt32 := do
  let file ← try some <$> IO.FS.readFile o.configPath catch _ => pure none
  let launch := Launch.ofOptions o file (← environment)
  let some c := launch.config | finish (.ofLaunch launch)
  IO.println "futuresbot starting"
  (← IO.getStdout).flush
  match Guard.ofSettings c.gateway with
  | .error _ => finish (.ofLaunch launch)
  | .ok g =>
    let trading ← startBots c g launch.bots
    if launch.failure.isNone then return ← joinBots trading
    -- The bots ahead of an invalid one are trading by now and are dropped where they stand.
    trading.forM fun (_, task) => IO.cancel task
    finish (.ofLaunch launch)

end FuturesDesk.Live

open FuturesDesk in
def main (arguments : List String) : IO UInt32 :=
  match CommandLine.parse arguments with
  | .run o => Live.run o
  | .help => Live.finish .help
  | .misuse => Live.finish .misuse
