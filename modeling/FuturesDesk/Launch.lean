import FuturesDesk.Bot.Basic
import FuturesDesk.CommandLine
import FuturesDesk.Config.DeskConfig
import FuturesDesk.Gateway.Guard

/-! Starting a desk. The configuration is loaded, the guard is set up, and the bots are started one
by one; a bot runs from its start on, whatever becomes of those after it. -/
namespace FuturesDesk

/-- Why a desk does not go on. -/
inductive LaunchError where
  | configuration (path : String) (error : DeskConfig.LoadError)
  | gateway (error : ConfigurationError)
  | bot (symbol : String) (error : ConfigurationError)
  deriving DecidableEq

namespace LaunchError

def message : LaunchError → String
  | configuration path e => e.message path
  | gateway _ => "Invalid gateway settings"
  | bot symbol _ => "Invalid bot configuration for " ++ symbol

/-- What lies behind the error. -/
def cause? : LaunchError → Option ConfigurationError
  | configuration _ _ => none
  | gateway e => some e
  | bot _ e => some e

def report (e : LaunchError) : List String :=
  ("Error: " ++ e.message).splitOn "\n" ++
    match e.cause? with
    | none => []
    | some cause => ["", "Caused by:"] ++ (cause.message.splitOn "\n").map ("    " ++ ·)

end LaunchError

/-- What starting a desk came to. -/
structure Launch where
  /-- The configuration, if it was taken. -/
  config : Option DeskConfig := none
  /-- The bots that were started, in order. -/
  bots : List Bot := []
  failure : Option LaunchError := none

namespace Launch

/-- Starts bots one after another up to the first that has no parameters. -/
def startBots : List BotConfig → List Bot × Option LaunchError
  | [] => ([], none)
  | c :: rest =>
    match c.toParams with
    | .error e => ([], some (.bot c.symbol e))
    | .ok params =>
      let (bots, failure) := startBots rest
      (.ofParams params :: bots, failure)

/-- Starts the desk of a valid configuration. -/
def ofConfig (c : DeskConfig) : Launch :=
  match Guard.ofSettings c.gateway with
  | .error e => { config := some c, failure := some (.gateway e) }
  | .ok _ =>
    let (bots, failure) := startBots c.bots
    { config := some c, bots, failure }

/-- Starts a desk by the text of its configuration file, if there is one, and the environment. The
option for simulated fills does not make up for missing credentials. -/
def ofOptions (o : CommandLine.Options) (file : Option String)
    (environment : List (String × String)) : Launch :=
  match DeskConfig.load file environment with
  | .error e => { failure := some (.configuration o.configPath e) }
  | .ok c =>
    ofConfig { c with exchange := { c.exchange with paper := c.exchange.paper || o.paper } }

end Launch

/-- How the program ends, unless its bots are still trading. -/
structure Verdict where
  exitCode : Nat := 0
  output : List String := []
  errors : List String := []
  deriving DecidableEq, Repr

namespace Verdict

def misuse : Verdict := { exitCode := 2 }

def help : Verdict := { output := CommandLine.helpLines }

/-- A desk that was started ends well when it is asked to stop. -/
def ofLaunch (l : Launch) : Verdict :=
  match l.failure with
  | none => {}
  | some e => { exitCode := 1, errors := e.report }

end Verdict

end FuturesDesk
