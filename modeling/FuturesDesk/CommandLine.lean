/-! The command line: where the configuration is, and whether fills are simulated. Arguments are
taken one after another; the first one that cannot be taken decides. -/
namespace FuturesDesk.CommandLine

structure Options where
  configPath : String := "config/default.toml"
  /-- Simulates fills whatever the configuration says. -/
  paper : Bool := false
  deriving DecidableEq, Repr

/-- What the arguments ask for. -/
inductive Request where
  | run (options : Options)
  | help
  /-- Nothing that can be done. -/
  | misuse
  deriving DecidableEq, Repr

def helpLines : List String :=
  ["Indicator-driven futures trading bots",
    "",
    "Usage: futuresbot [OPTIONS]",
    "",
    "Options:",
    "  -c, --config <CONFIG>  Path to the TOML configuration file [default: config/default.toml]",
    "      --paper            Simulate fills instead of sending orders to the exchange",
    "  -h, --help             Print help"]

/-- What one argument is. -/
inductive Argument where
  /-- The path of the configuration, which may follow in the next argument. -/
  | config (path : Option String)
  | paper
  | help
  /-- No options come after it. -/
  | separator
  | word (text : String)
  | unknown
  deriving DecidableEq, Repr

/-- An option by its name, with the value after an equals sign. -/
def Argument.ofLong (text : List Char) : Argument :=
  let name := String.ofList (text.takeWhile (· ≠ '='))
  let value := match text.dropWhile (· ≠ '=') with
    | [] => none
    | _ :: value => some (String.ofList value)
  match name, value with
  | "config", value => .config value
  | "paper", none => .paper
  | "help", none => .help
  | _, _ => .unknown

/-- Options of one letter; a value may stand right behind its letter or after an equals sign. -/
def Argument.ofShort : List Char → Argument
  | ['c'] => .config none
  | 'c' :: '=' :: value => .config (some (String.ofList value))
  | 'c' :: value => .config (some (String.ofList value))
  | 'h' :: _ => .help
  | _ => .unknown

def Argument.ofText (text : String) : Argument :=
  match text.toList with
  | ['-', '-'] => .separator
  | '-' :: '-' :: long => .ofLong long
  | ['-'] => .word text
  | '-' :: short => .ofShort short
  | _ => .word text

/-- What was taken so far. -/
structure Draft where
  configPath : Option String := none
  paper : Bool := false

namespace Draft

def request (d : Draft) : Request :=
  let default : Options := {}
  .run { configPath := d.configPath.getD default.configPath, paper := d.paper }

/-- Takes a path, which is given once and is not empty. -/
def withPath? (d : Draft) (path : String) : Option Draft :=
  if d.configPath.isSome ∨ path.isEmpty then none else some { d with configPath := some path }

/-- Takes the arguments in turn. -/
def take (d : Draft) : List Argument → Request
  | [] => d.request
  | .config (some path) :: rest =>
    match d.withPath? path with
    | some d => d.take rest
    | none => .misuse
  | .config none :: .word path :: rest =>
    match d.withPath? path with
    | some d => d.take rest
    | none => .misuse
  | .paper :: rest => if d.paper then .misuse else take { d with paper := true } rest
  | .help :: _ => .help
  | [.separator] => d.request
  | _ => .misuse

end Draft

def parse (arguments : List String) : Request := Draft.take {} (arguments.map Argument.ofText)

end FuturesDesk.CommandLine
