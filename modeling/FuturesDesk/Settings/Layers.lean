import FuturesDesk.Binary64.Reader
import FuturesDesk.Settings.Address

/-! Settings in layers: those of a file, and over them those of the environment. -/
namespace FuturesDesk.Settings

/-- How the names of the variables begin that are settings, in any case. -/
def variableMark : String := "futuresbot__"

/-- The address that a variable sets; two low lines stand between its parts. -/
def variableAddress? (name : String) : Option Address :=
  let name := Text.lowered name
  if name.startsWith variableMark then
    let parts := (name.drop variableMark.length).toString.splitOn "__"
    some (.ofText (".".intercalate parts))
  else none

/-- What the text of a variable means: a flag, a whole number of 64 bits, a double, or itself. -/
def variableValue (text : String) : Json :=
  match Text.lowered text with
  | "true" => .bool true
  | "false" => .bool false
  | _ =>
    match (Text.whole? text.toList).filter isWord64 with
    | some n => .whole n
    | none =>
      match Binary64.ofText? text with
      | some x => .double x
      | none => .string text

/-- The members of a file, whose outermost names may be in any case. -/
def ofFile (file : Json) : Json :=
  (file.asObject?.getD []).foldl
    (fun tree (name, value) => (Address.ofText (Text.lowered name)).put value tree) (.object [])

/-- Lays a variable over a tree, if it is a setting. -/
def setVariable (tree : Json) (name text : String) : Json :=
  match variableAddress? name with
  | some address => address.put (variableValue text) tree
  | none => tree

def layered (file : Json) (environment : List (String × String)) : Json :=
  environment.foldl (fun tree (name, text) => setVariable tree name text) (ofFile file)

end FuturesDesk.Settings
