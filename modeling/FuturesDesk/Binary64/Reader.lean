import FuturesDesk.Binary64.Rounding
import FuturesDesk.Text.Case
import FuturesDesk.Text.Digits

/-! Reading doubles from text: a sign, digits with at most one point, an exponent; or the names of
the infinities and of what is not a number, in any case. -/
namespace FuturesDesk.Binary64

/-- A number without a sign. There is a digit before or after the point. -/
def unsigned? (text : List Char) : Option Float := do
  let isMark (c : Char) : Bool := c = 'e' || c = 'E'
  let mantissa := text.takeWhile fun c => ¬ isMark c
  let exponent ← match text.dropWhile fun c => ¬ isMark c with
    | [] => some 0
    | _ :: exponent => Text.whole? exponent
  let whole := mantissa.takeWhile (· ≠ '.')
  let places := (mantissa.dropWhile (· ≠ '.')).drop 1
  let n ← Text.natural? (whole ++ places)
  return ofDecimalDigits n (exponent - places.length)

def ofText? (text : String) : Option Float :=
  let (negative, digits) := match text.toList with
    | '-' :: rest => (true, rest)
    | '+' :: rest => (false, rest)
    | rest => (false, rest)
  let magnitude := match Text.lowered (String.ofList digits) with
    | "inf" => some infinity
    | "infinity" => some infinity
    | "nan" => some (0.0 / 0.0)
    | _ => unsigned? digits
  magnitude.map fun x => if negative then -x else x

end FuturesDesk.Binary64
