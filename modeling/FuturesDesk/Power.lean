/-! Powers of ten, the units of decimal places, and powers of two, the bounds of words. -/
namespace FuturesDesk

abbrev tenTo (n : Nat) : Nat := Nat.pow 10 n

abbrev twoTo (n : Nat) : Nat := Nat.pow 2 n

/-- Whether a number fits a signed word of 64 bits. -/
def isWord64 (n : Int) : Bool :=
  -9_223_372_036_854_775_808 ≤ n ∧ n < 9_223_372_036_854_775_808

end FuturesDesk
