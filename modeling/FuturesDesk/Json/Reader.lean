import FuturesDesk.Json.Basic
import FuturesDesk.Text.Digits

/-! Reading JSON text: one value between blanks. Three things are well-formed and still beyond what
a value holds: numbers outside of the doubles, lone surrogates, and containers nested more than 127
deep. -/
namespace FuturesDesk.Json

def skipSpace (text : List Char) : List Char :=
  text.dropWhile fun c => c = ' ' || c = '\t' || c = '\n' || c = '\r'

def hexDigit? (c : Char) : Option Nat :=
  if '0' ≤ c ∧ c ≤ '9' then some (c.toNat - 48)
  else if 'a' ≤ c ∧ c ≤ 'f' then some (c.toNat - 87)
  else if 'A' ≤ c ∧ c ≤ 'F' then some (c.toNat - 55)
  else none

/-- The code unit of four hex digits, and the rest. -/
def codeUnit? : List Char → Option (Nat × List Char)
  | a :: b :: c :: d :: rest => do
    let unit := (((← hexDigit? a) * 16 + (← hexDigit? b)) * 16 + (← hexDigit? c)) * 16
      + (← hexDigit? d)
    return (unit, rest)
  | _ => none

/-- The character of an escaped code unit, which takes a second unit after a high surrogate. A lone
surrogate is no character. -/
def escapedUnit? (text : List Char) : Option (Option Char × List Char) := do
  let (unit, rest) ← codeUnit? text
  if 0xD800 ≤ unit ∧ unit < 0xDC00 then
    match rest with
    | '\\' :: 'u' :: second =>
      let (low, afterPair) ← codeUnit? second
      if 0xDC00 ≤ low ∧ low < 0xE000 then
        return (some (Char.ofNat (0x10000 + (unit - 0xD800) * 0x400 + (low - 0xDC00))), afterPair)
      else return (none, rest)
    | _ => return (none, rest)
  else if 0xDC00 ≤ unit ∧ unit < 0xE000 then return (none, rest)
  else return (some (Char.ofNat unit), rest)

def escape? : List Char → Option (Option Char × List Char)
  | '"' :: rest => some ('"', rest)
  | '\\' :: rest => some ('\\', rest)
  | '/' :: rest => some ('/', rest)
  | 'b' :: rest => some ('\x08', rest)
  | 'f' :: rest => some ('\x0c', rest)
  | 'n' :: rest => some ('\n', rest)
  | 'r' :: rest => some ('\r', rest)
  | 't' :: rest => some ('\t', rest)
  | 'u' :: rest => escapedUnit? rest
  | _ => none

/-- The characters up to the closing quote, unless one of them is a lone surrogate; `fuel` bounds
their number. -/
def stringBody? : Nat → Option (List Char) → List Char → Option (Option String × List Char)
  | 0, _, _ => none
  | fuel + 1, done, text =>
    match text with
    | [] => none
    | '"' :: rest => some (done.map fun cs => String.ofList cs.reverse, rest)
    | '\\' :: rest => (escape? rest).bind fun (c, rest) =>
      stringBody? fuel (c.bind fun c => done.map (c :: ·)) rest
    | c :: rest => if c.toNat < 0x20 then none else stringBody? fuel (done.map (c :: ·)) rest

/-- A string after its opening quote. -/
def openedString? (text : List Char) : Option (Option String × List Char) :=
  stringBody? text.length.succ (some []) text

/-- One or more digits, and the rest. -/
def someDigits? (text : List Char) : Option (List Char × List Char) :=
  let digits := text.takeWhile Char.isDigit
  if digits.isEmpty then none else some (digits, text.drop digits.length)

/-- The digits of a whole part: no zero in front of others. -/
def wholeDigits? (text : List Char) : Option (List Char × List Char) := do
  let (digits, rest) ← someDigits? text
  if digits.head? = some '0' ∧ 1 < digits.length then failure
  return (digits, rest)

def exponentPart? (text : List Char) : Option (Int × List Char) := do
  let (negative, text) := match text with
    | '-' :: rest => (true, rest)
    | '+' :: rest => (false, rest)
    | _ => (false, text)
  let (digits, rest) ← someDigits? text
  let n := (Text.digitsValue digits : Int)
  return (if negative then -n else n, rest)

/-- The value of the first of some digits, as many as fit 64 bits, and the digits left. -/
def leadingValue (n : Nat) : List Char → Nat × List Char
  | [] => (n, [])
  | c :: rest =>
    let next := 10 * n + Text.digitValue c
    if next < twoTo 64 then leadingValue next rest else (n, c :: rest)

/-- A double times a power of ten, rounded. The largest power that is a double takes two steps. -/
def scaled (x : Float) (exponent : Int) : Float :=
  let power (k : Int) : Float := Binary64.ofDecimalDigits 1 k
  if x == 0 then x
  else if 0 ≤ exponent then x * power exponent
  else if -308 ≤ exponent then x / power (-exponent)
  else x / power 308 / power (-exponent - 308)

/-- The double of a decimal: its leading digits are rounded, and their product with a power of ten
is rounded once more. -/
def doubleOf (digits places : List Char) (exponent : Int) : Float :=
  let (n, left) := leadingValue 0 (digits ++ places)
  scaled (Binary64.ofNat n) (exponent - places.length + left.length)

/-- A number after its sign. -/
def unsignedNumber? (negative : Bool) (text : List Char) : Option (Json × List Char) := do
  let (digits, text) ← wholeDigits? text
  let (fraction, text) ← match text with
    | '.' :: rest => (someDigits? rest).map fun (places, rest) => (some places, rest)
    | _ => some (none, text)
  let (exponent, text) ← match text with
    | 'e' :: rest | 'E' :: rest => (exponentPart? rest).map fun (n, rest) => (some n, rest)
    | _ => some (none, text)
  let n := Text.digitsValue digits
  let isWhole := fraction.isNone ∧ exponent.isNone
    ∧ if negative then 0 < n ∧ n ≤ twoTo 63 else n < twoTo 64
  if isWhole then return (.whole (if negative then -(n : Int) else n), text)
  let x := doubleOf digits (fraction.getD []) (exponent.getD 0)
  if x.isInf then return (.beyond, text)
  return (.double (if negative then -x else x), text)

def number? : List Char → Option (Json × List Char)
  | '-' :: rest => unsignedNumber? true rest
  | text => unsignedNumber? false text

/-- The most containers within each other. -/
def maxDepth : Nat := 127

/-- A container that may nest so far; where nothing is left it is beyond what can be held. -/
def nested (depth : Nat) : Json × List Char → Json × List Char
  | (container, rest) => (if depth = 0 then .beyond else container, rest)

mutual

/-- One value; `depth` tells how far it may nest and `fuel` bounds the characters looked at. -/
def value? (depth : Nat) : Nat → List Char → Option (Json × List Char)
  | 0, _ => none
  | fuel + 1, text =>
    match skipSpace text with
    | 'n' :: 'u' :: 'l' :: 'l' :: rest => some (.null, rest)
    | 't' :: 'r' :: 'u' :: 'e' :: rest => some (.bool true, rest)
    | 'f' :: 'a' :: 'l' :: 's' :: 'e' :: rest => some (.bool false, rest)
    | '"' :: rest => (openedString? rest).map fun (s, rest) => ((s.map .string).getD .beyond, rest)
    | '[' :: rest =>
      match skipSpace rest with
      | ']' :: rest => some (nested depth (.array [], rest))
      | rest => (elements? (depth - 1) fuel [] rest).map (nested depth)
    | '{' :: rest =>
      match skipSpace rest with
      | '}' :: rest => some (nested depth (.object [], rest))
      | rest => (members? (depth - 1) fuel (some []) rest).map (nested depth)
    | rest => number? rest

/-- The elements up to the closing bracket, after those in `done`. -/
def elements? (depth : Nat) : Nat → List Json → List Char → Option (Json × List Char)
  | 0, _, _ => none
  | fuel + 1, done, text => do
    let (item, rest) ← value? depth fuel text
    match skipSpace rest with
    | ',' :: rest => elements? depth fuel (item :: done) rest
    | ']' :: rest => some (.array (item :: done).reverse, rest)
    | _ => none

/-- The members up to the closing brace, after those in `done`, unless a name is beyond a string. -/
def members? (depth : Nat) :
    Nat → Option (List (String × Json)) → List Char → Option (Json × List Char)
  | 0, _, _ => none
  | fuel + 1, done, text => do
    let (name, rest) ← match skipSpace text with
      | '"' :: rest => openedString? rest
      | _ => none
    let rest ← match skipSpace rest with
      | ':' :: rest => some rest
      | _ => none
    let (item, rest) ← value? depth fuel rest
    let done := name.bind fun name => done.map ((name, item) :: ·)
    match skipSpace rest with
    | ',' :: rest => members? depth fuel done rest
    | '}' :: rest => some ((done.map fun ms => .object ms.reverse).getD .beyond, rest)
    | _ => none

end

/-- The value that a whole text denotes, with parts that may be beyond what can be held. -/
def scan? (text : String) : Option Json := do
  let chars := text.toList
  let (value, rest) ← value? maxDepth (2 * chars.length + 2) chars
  if (skipSpace rest).isEmpty then return value else failure

/-- The value that a whole text denotes, all of which can be held. -/
def read? (text : String) : Option Json := (scan? text).filter isComplete

end FuturesDesk.Json
