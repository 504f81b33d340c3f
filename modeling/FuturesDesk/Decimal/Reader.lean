import FuturesDesk.Decimal.Arithmetic
import FuturesDesk.Text.Digits

/-! Reading decimals from text: a sign, digits with at most one point, separators after the first
digit, and optionally a decimal exponent. Places beyond the range are rounded away. -/
namespace FuturesDesk.Decimal

open Text

inductive ReadError where
  | empty
  | noDigits
  | secondPoint
  | leadingSeparator
  | unknownCharacter
  | tooManyDigits
  | roundedOutOfRange
  | malformedExponent
  | exponentTooLarge (places : Nat)
  | outOfRange
  deriving DecidableEq, Repr

def ReadError.message : ReadError → String
  | empty => "Invalid decimal: empty"
  | noDigits => "Invalid decimal: no digits found"
  | secondPoint => "Invalid decimal: two decimal points"
  | leadingSeparator => "Invalid decimal: must start lead with a number"
  | unknownCharacter => "Invalid decimal: unknown character"
  | tooManyDigits => "Invalid decimal: overflow from too many digits"
  | roundedOutOfRange => "Invalid decimal: overflow from mantissa after rounding"
  | malformedExponent => "Failed to parse"
  | exponentTooLarge places =>
    "Scale exceeds the maximum precision allowed: " ++ toString places ++ " > 28"
  | outOfRange => "Number exceeds maximum value that can be represented."

/-- What is wrong with a character that cannot continue a number. -/
def misplaced (c : Char) : ReadError :=
  if c = '.' then .secondPoint else if c = '_' then .leadingSeparator else .unknownCharacter

/-- The characters after the last place that fits: they are looked at and dropped. -/
def skipDigits : List Char → Except ReadError Unit
  | [] => .ok ()
  | c :: rest => if c.isDigit ∨ c = '_' then skipDigits rest else .error (misplaced c)

/-- The first place that does not fit rounds the magnitude up from five on. -/
def roundOff (magnitude scale : Nat) (c : Char) (rest : List Char) :
    Except ReadError (Nat × Nat) := do
  if ¬ (c.isDigit ∨ c = '_') then throw (misplaced c)
  skipDigits rest
  if c.isDigit ∧ 5 ≤ digitValue c then
    if magnitude + 1 < coefficientBound then return (magnitude + 1, scale)
    else if scale = 0 then throw .roundedOutOfRange
    else return ((magnitude + 1 + 4) / 10, scale - 1)
  else return (magnitude, scale)

/-- The magnitude and places of unsigned digits; `point` tells whether the point was passed, `seen`
whether there was a digit. -/
def readDigits (magnitude scale : Nat) (point seen : Bool) :
    List Char → Except ReadError (Nat × Nat)
  | [] => if seen then .ok (magnitude, scale) else .error .noDigits
  | c :: rest =>
    if point ∧ scale = maxScale then roundOff magnitude scale c rest
    else if c.isDigit then
      let longer := magnitude * 10 + digitValue c
      if longer < coefficientBound then
        readDigits longer (if point then scale + 1 else scale) point true rest
      else if point then roundOff magnitude scale c rest
      else .error .tooManyDigits
    else if c = '.' ∧ ¬ point then readDigits magnitude scale true seen rest
    else if c = '_' ∧ seen then readDigits magnitude scale point seen rest
    else .error (misplaced c)

/-- A decimal without an exponent. -/
def readPlain (text : List Char) : Except ReadError Decimal := do
  let (negative, digits) ← match text with
    | [] => throw .empty
    | '-' :: rest => pure (true, rest)
    | '+' :: rest => pure (false, rest)
    | _ => pure (false, text)
  let (magnitude, scale) ← readDigits 0 0 false false digits
  match ofParts? (if negative then -(magnitude : Int) else magnitude) scale with
  | some d => return d
  | none => throw .outOfRange

/-- The digits of an exponent, below `2 ^ 32`, after an optional plus. -/
def readExponent (text : List Char) : Except ReadError Nat :=
  let digits := match text with
    | '+' :: rest => rest
    | _ => text
  let n := digitsValue digits
  if digits.isEmpty ∨ ¬ digits.all Char.isDigit ∨ twoTo 32 ≤ n then .error .malformedExponent
  else .ok n

/-- Division by a power of ten that is written as further places. Where they do not all fit, the
last places go, rounded up from five on. -/
def lowerBy (places : Nat) (d : Decimal) : Except ReadError Decimal :=
  if maxScale < places then .error (.exponentTooLarge places)
  else
    let magnitude := d.coefficient.natAbs
    let excess := d.scale + places - maxScale
    let kept := if excess = 0 then magnitude
      else magnitude / tenTo excess + if 5 ≤ magnitude / tenTo (excess - 1) % 10 then 1 else 0
    match ofParts? (if d.coefficient < 0 then -(kept : Int) else kept)
        (d.scale + places - excess) with
    | some r => .ok r
    | none => .error .outOfRange

/-- Multiplication by a power of ten: places are taken back as far as there are any, else the
coefficient grows, by at most nineteen digits at a time. -/
def raiseBy (places : Nat) (d : Decimal) : Except ReadError Decimal := do
  if places ≤ d.scale then
    match ofParts? d.coefficient (d.scale - places) with
    | some r => return r
    | none => throw .outOfRange
  else if maxScale < places then throw (.exponentTooLarge places)
  else
    let powers := if places < 19 then [places] else [19, places - 19]
    let raised ← powers.foldlM (fun d k => timesPower k d) d
    return raised.normalize
where
  timesPower (k : Nat) (d : Decimal) : Except ReadError Decimal :=
    match (ofParts? (tenTo k) 0).map (mul d) with
    | some (.ok r) => .ok r
    | _ => .error .outOfRange

/-- A decimal before `e` or `E` and a whole exponent after it. -/
def readScientific (text : List Char) : Except ReadError Decimal := do
  let isMark (c : Char) : Bool := c = 'e' || c = 'E'
  let base := text.takeWhile (fun c => ¬ isMark c)
  match text.dropWhile (fun c => ¬ isMark c) with
  | [] => throw .malformedExponent
  | _ :: exponent =>
    let d ← readPlain base
    match exponent with
    | '-' :: places => lowerBy (← readExponent places) d
    | _ => raiseBy (← readExponent exponent) d

/-- The decimal that a text denotes. -/
def ofText (text : String) : Except ReadError Decimal :=
  match readPlain text.toList with
  | .ok d => .ok d
  | .error e =>
    if text.toList.any (fun c => c = 'e' || c = 'E') then readScientific text.toList else .error e

def ofText? (text : String) : Option Decimal := (ofText text).toOption

end FuturesDesk.Decimal
