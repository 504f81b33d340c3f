import FuturesDesk.Json.Basic
import FuturesDesk.Binary64.Text

/-! Writing JSON without blanks. -/
namespace FuturesDesk.Json

def hexChar (n : Nat) : Char := if n < 10 then Char.ofNat (48 + n) else Char.ofNat (87 + n)

def escapeChar (c : Char) : List Char :=
  if c = '"' then ['\\', '"']
  else if c = '\\' then ['\\', '\\']
  else if c = '\n' then ['\\', 'n']
  else if c = '\r' then ['\\', 'r']
  else if c = '\t' then ['\\', 't']
  else if c.toNat < 0x20 then
    ['\\', 'u', '0', '0', hexChar (c.toNat / 16), hexChar (c.toNat % 16)]
  else [c]

def quote (s : String) : String :=
  String.ofList ('"' :: s.toList.flatMap escapeChar ++ ['"'])

mutual

def render : Json → String
  | null | beyond => "null"
  | bool b => if b then "true" else "false"
  | whole n => toString n
  | double x => if x.isFinite then Binary64.markedText x else "null"
  | string s => quote s
  | array items => "[" ++ renderItems items ++ "]"
  | object members => String.singleton (Char.ofNat 123) ++ renderMembers members
      ++ String.singleton (Char.ofNat 125)

def renderItems : List Json → String
  | [] => ""
  | [item] => render item
  | item :: rest => render item ++ "," ++ renderItems rest

def renderMembers : List (String × Json) → String
  | [] => ""
  | [(name, item)] => quote name ++ ":" ++ render item
  | (name, item) :: rest => quote name ++ ":" ++ render item ++ "," ++ renderMembers rest

end

end FuturesDesk.Json
