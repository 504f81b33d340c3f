import FuturesDesk.Text.Visible

/-! Text between double quotes for logs and dumps: quotes, backslashes and characters that do not
show by themselves are escaped. -/
namespace FuturesDesk.Text

/-- The code point in lower-case hex between braces. -/
def escapedCodePoint (c : Char) : List Char :=
  '\\' :: 'u' :: Char.ofNat 123 :: (Nat.toDigits 16 c.toNat ++ [Char.ofNat 125])

def escapedChar (c : Char) : List Char :=
  if c = '"' then ['\\', '"']
  else if c = '\\' then ['\\', '\\']
  else if c = '\n' then ['\\', 'n']
  else if c = '\r' then ['\\', 'r']
  else if c = '\t' then ['\\', 't']
  else if c.toNat = 0 then ['\\', '0']
  else if isVisible c then [c]
  else escapedCodePoint c

def quoted (s : String) : String :=
  String.ofList ('"' :: s.toList.flatMap escapedChar ++ ['"'])

/-- A list of fields between braces. -/
def braced (fields : String) : String :=
  String.singleton (Char.ofNat 123) ++ " " ++ fields ++ " " ++ String.singleton (Char.ofNat 125)

def bracketed (items : List String) : String := "[" ++ ", ".intercalate items ++ "]"

end FuturesDesk.Text
