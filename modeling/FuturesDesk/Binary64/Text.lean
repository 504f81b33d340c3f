import FuturesDesk.Binary64.Shortest

/-! The two texts of a double: the plain one without an exponent, and the marked one that always
shows that the number is not whole-number data. Both print the shortest digits that read back. -/
namespace FuturesDesk.Binary64

/-- Which texts are positional and whether a whole number ends in `.0`. -/
structure Style where
  pointZero : Bool
  /-- The positional texts are those whose leading digit stands at a power of ten in this range. -/
  positional : Int → Bool

/-- Positional always, whole numbers bare. -/
def plainStyle : Style := ⟨false, fun _ => true⟩

/-- Positional from `1e-4` to below `1e16`, whole numbers with `.0`. -/
def markedStyle : Style := ⟨true, fun leading => -4 ≤ leading ∧ leading < 16⟩

def positionalText (pointZero : Bool) (d : Digits) : String :=
  let digits := Nat.toDigits 10 d.digits
  let zeros (n : Nat) : List Char := List.replicate n '0'
  let text :=
    if 0 ≤ d.exponent then
      digits ++ zeros d.exponent.toNat ++ if pointZero then ['.', '0'] else []
    else
      let places := (-d.exponent).toNat
      let padded := zeros (places + 1 - digits.length) ++ digits
      padded.take (padded.length - places) ++ '.' :: padded.drop (padded.length - places)
  String.ofList text

def exponentText (d : Digits) : String :=
  match Nat.toDigits 10 d.digits with
  | [] => ""
  | first :: rest =>
    let mantissa := if rest.isEmpty then [first] else first :: '.' :: rest
    String.ofList mantissa ++ "e" ++ toString (d.exponent + rest.length)

def Style.render (style : Style) (x : Float) : String :=
  if x.isNaN then "NaN"
  else
    let sign := if isNegative x then "-" else ""
    if x.isInf then sign ++ "inf"
    else
      let d := shortest (magnitude x)
      let leading := d.exponent + ((Nat.toDigits 10 d.digits).length - 1 : Nat)
      sign ++ if d.digits = 0 ∨ style.positional leading then positionalText style.pointZero d
        else exponentText d

/-- The text without an exponent. -/
def plainText (x : Float) : String := plainStyle.render x

/-- The text that keeps a mark of being a double. -/
def markedText (x : Float) : String := markedStyle.render x

end FuturesDesk.Binary64
