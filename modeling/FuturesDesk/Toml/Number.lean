import FuturesDesk.Toml.Text

/-! Numbers in TOML: whole numbers of 64 bits in four bases, and doubles. Single separators may
stand between digits. -/
namespace FuturesDesk.Toml

/-- The digits at the front with single separators between them, and the rest. -/
def moreDigits (isDigit : Char → Bool) : List Char → List Char × List Char
  | [] => ([], [])
  | [c] => if isDigit c then ([c], []) else ([], [c])
  | c :: d :: rest =>
    if isDigit c then
      let (digits, rest) := moreDigits isDigit (d :: rest)
      (c :: digits, rest)
    else if c = '_' && isDigit d then moreDigits isDigit (d :: rest)
    else ([], c :: d :: rest)

/-- One digit at least. -/
def digits? (isDigit : Char → Bool) (text : List Char) : Option (List Char × List Char) :=
  if text.head?.any isDigit then some (moreDigits isDigit text) else none

/-- A whole number in another base, after its mark. -/
def based? (base : Nat) (text : List Char) : Option (Json × List Char) := do
  let isDigit (c : Char) : Bool := (Json.hexDigit? c).any (· < base)
  let (digits, rest) ← digits? isDigit text
  let n := (digits.filterMap Json.hexDigit?).foldl (fun n d => n * base + d) 0
  if isWord64 n then return (.whole n, rest) else none

def exponent? (text : List Char) : Option (Int × List Char) := do
  let (negative, text) := match text with
    | '-' :: rest => (true, rest)
    | '+' :: rest => (false, rest)
    | _ => (false, text)
  let (digits, rest) ← digits? Char.isDigit text
  let n := (Text.digitsValue digits : Int)
  return (if negative then -n else n, rest)

/-- A decimal number after its sign. Among the numbers too large for a double only the negative ones
are read. -/
def decimal? (negative : Bool) (text : List Char) : Option (Json × List Char) := do
  let (whole, text) ← digits? Char.isDigit text
  if whole.head? = some '0' ∧ 1 < whole.length then none
  let (fraction, text) ← match text with
    | '.' :: rest => (digits? Char.isDigit rest).map fun (places, rest) => (some places, rest)
    | _ => some (none, text)
  let (exponent, text) ← match text with
    | 'e' :: rest | 'E' :: rest => (exponent? rest).map fun (n, rest) => (some n, rest)
    | _ => some (none, text)
  if fraction.isNone ∧ exponent.isNone then
    let n := if negative then -(Text.digitsValue whole : Int) else Text.digitsValue whole
    if isWord64 n then return (.whole n, text) else none
  else
    let places := fraction.getD []
    let x := Binary64.ofDecimalDigits (Text.digitsValue (whole ++ places))
      (exponent.getD 0 - places.length)
    if x.isInf ∧ ¬ negative then none
    else return (.double (if negative then -x else x), text)

/-- A number that may have a sign. -/
def signed? (negative : Bool) : List Char → Option (Json × List Char)
  | 'i' :: 'n' :: 'f' :: rest =>
    some (.double (if negative then -Binary64.infinity else Binary64.infinity), rest)
  | 'n' :: 'a' :: 'n' :: rest => some (.double (0.0 / 0.0), rest)
  | text => decimal? negative text

def number? : List Char → Option (Json × List Char)
  | '0' :: 'x' :: rest => based? 16 rest
  | '0' :: 'o' :: rest => based? 8 rest
  | '0' :: 'b' :: rest => based? 2 rest
  | '-' :: rest => signed? true rest
  | '+' :: rest => signed? false rest
  | text => signed? false text

end FuturesDesk.Toml
