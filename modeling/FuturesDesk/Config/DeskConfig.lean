import FuturesDesk.Config.BotConfig
import FuturesDesk.Gateway.Settings
import FuturesDesk.Settings.Dialect
import FuturesDesk.Settings.Layers
import FuturesDesk.Toml.Reader

/-! The configuration of a whole desk: how it reaches the exchange, how that access is guarded, and
its bots. -/
namespace FuturesDesk

/-- The way to the exchange, and whether it is used for orders at all. -/
structure ExchangeAccess where
  baseUrl : String := "https://fapi.binance.com"
  apiKey : String := ""
  apiSecret : String := ""
  receiveWindowMs : Nat := 5000
  /-- Whether fills are simulated instead of sending orders. -/
  paper : Bool := false
  paperBalance : Decimal := .ofWord 10000

namespace ExchangeAccess

def read? {V : Type} (d : Dialect V) (value : V) : Option ExchangeAccess := do
  let default : ExchangeAccess := {}
  let r ← d.record?
    ["base_url", "api_key", "api_secret", "recv_window_ms", "paper", "paper_balance"] value
  return {
    baseUrl := ← r.withDefault "base_url" default.baseUrl d.string?
    apiKey := ← r.withDefault "api_key" default.apiKey d.string?
    apiSecret := ← r.withDefault "api_secret" default.apiSecret d.string?
    receiveWindowMs := ← r.withDefault "recv_window_ms" default.receiveWindowMs (d.unsigned? 64)
    paper := ← r.withDefault "paper" default.paper d.bool?
    paperBalance := ← r.withDefault "paper_balance" default.paperBalance d.decimal? }

/-- Keeps credentials out of logs. -/
def dump (x : ExchangeAccess) : String :=
  "ExchangeConfig " ++ Text.braced ("base_url: " ++ Text.quoted x.baseUrl
    ++ ", api_key: \"<redacted>\", api_secret: \"<redacted>\", recv_window_ms: "
    ++ toString x.receiveWindowMs ++ ", paper: " ++ (if x.paper then "true" else "false")
    ++ ", paper_balance: " ++ x.paperBalance.toText)

end ExchangeAccess

structure DeskConfig where
  exchange : ExchangeAccess
  gateway : GatewaySettings := {}
  bots : List BotConfig := []

namespace DeskConfig

def read? {V : Type} (d : Dialect V) (value : V) : Option DeskConfig := do
  let r ← d.record? ["exchange", "gateway", "bots"] value
  return {
    exchange := ← r.required "exchange" (ExchangeAccess.read? d)
    gateway := ← r.withDefault "gateway" {} (GatewaySettings.read? d)
    bots := ← r.withDefault "bots" [] (d.list? (BotConfig.read? d)) }

/-- What keeps the desk as a whole from working. Settings of the gateway and of the bots are checked
when those are set up. -/
def violations (c : DeskConfig) : List Violation :=
  (if ¬ c.exchange.paper ∧ (c.exchange.apiKey.isEmpty ∨ c.exchange.apiSecret.isEmpty) then
      [.missingCredentials] else [])
    ++ if c.bots.isEmpty then [.noBots] else []

inductive LoadError where
  /-- There is no file, or it holds no document. -/
  | unreadable
  | wrongLayout
  | invalid (error : ConfigurationError)
  deriving DecidableEq

/-- What is wrong with the file at a path. -/
def LoadError.message (path : String) : LoadError → String
  | unreadable => "Failed to load configuration from " ++ path
  | wrongLayout => "Configuration does not match the expected layout"
  | invalid e => e.message

/-- The configuration in the text of a file, if there is one, with the variables of an environment
laid over it. -/
def load (file : Option String) (environment : List (String × String)) :
    Except LoadError DeskConfig :=
  match file.bind Toml.read? with
  | none => .error .unreadable
  | some document =>
    match read? Setting.dialect { value := Settings.layered document environment } with
    | none => .error .wrongLayout
    | some config =>
      match ConfigurationError.check config.violations with
      | .ok () => .ok config
      | .error e => .error (.invalid e)

end DeskConfig

end FuturesDesk
