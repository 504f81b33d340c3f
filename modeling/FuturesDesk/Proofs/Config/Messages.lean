import FuturesDesk.Config.Violation
import FuturesDesk.Proofs.Decimal.Text
import Mathlib.Data.List.Infix

/-! How messages about a configuration end. They quote symbols, names and numbers that could be
anything, but what they end with is their own, so a message can be told by its ending. -/
namespace FuturesDesk

namespace Text
variable {s t front back : String}

theorem endsWith_iff : s.endsWith t = true ↔ t.toList <:+ s.toList := by
  rw [String.endsWith_eq_endsWith_toSlice, String.Slice.endsWith_string_iff, String.copy_toSlice]

/-- What stands before an ending does not matter. -/
theorem endsWith_append (longer : t.toList.length ≤ back.toList.length) :
    (front ++ back).endsWith t = back.endsWith t := by
  rw [Bool.eq_iff_iff, endsWith_iff, endsWith_iff, String.toList_append]
  constructor
  · intro ending
    exact List.suffix_of_suffix_length_le ending (List.suffix_append _ _) longer
  · intro ending
    exact ending.trans (List.suffix_append _ _)

def EndsInDigit (s : String) : Prop := ∃ c ∈ s.toList.getLast?, c.isDigit = true

theorem EndsInDigit.append (digit : EndsInDigit back) : EndsInDigit (front ++ back) := by
  obtain ⟨c, last, isDigit⟩ := digit
  refine ⟨c, ?_, isDigit⟩
  rw [String.toList_append, List.getLast?_append, Option.mem_def.mp last]
  rfl

theorem getLast?_of_endsWith {c : Char} (last : t.toList.getLast? = some c)
    (ends : s.endsWith t = true) : s.toList.getLast? = some c := by
  obtain ⟨front, same⟩ := endsWith_iff.mp ends
  rw [← same, List.getLast?_append, last]
  rfl

theorem endsInDigit_ofList (front : List Char) {digits : List Char} (some_ : digits ≠ [])
    (all : ∀ c ∈ digits, c.isDigit = true) : EndsInDigit (String.ofList (front ++ digits)) := by
  refine ⟨digits.getLast some_, ?_, all _ (List.getLast_mem some_)⟩
  rw [String.toList_ofList, List.getLast?_append, List.getLast?_eq_getLast_of_ne_nil some_]
  rfl

/-- Digits with a point among them, which is left out at their end. -/
theorem endsInDigit_split {digits : List Char} (sign : List Char) (some_ : digits ≠ [])
    (all : ∀ c ∈ digits, c.isDigit = true) (n : Nat) :
    EndsInDigit (String.ofList (sign ++ if (digits.drop n).isEmpty then digits.take n
      else digits.take n ++ '.' :: digits.drop n)) := by
  split
  case isTrue whole =>
    have uncut : digits.take n = digits :=
      List.take_of_length_le (List.drop_eq_nil_iff.mp (List.isEmpty_iff.mp whole))
    rw [uncut]
    exact endsInDigit_ofList sign some_ all
  case isFalse places =>
    rw [List.append_cons, ← List.append_assoc]
    exact endsInDigit_ofList _ (mt List.isEmpty_iff.mpr places)
      fun c member => all c (List.mem_of_mem_drop member)

theorem endsInDigit_toString (n : Nat) : EndsInDigit (toString n) := by
  rw [Nat.toString_eq_ofList_toDigits]
  exact endsInDigit_ofList [] Nat.toDigits_ne_nil
    fun _ => Nat.isDigit_of_mem_toDigits (by decide) (by decide)

end Text

namespace Decimal

theorem endsInDigit_toText (d : Decimal) : Text.EndsInDigit d.toText := by
  have some_ := paddedDigits_ne_nil (d.scale + 1) d.coefficient.natAbs
  rw [toText]
  split
  · exact Text.endsInDigit_split ['-'] some_ (fun _ => isDigit_of_mem_paddedDigits) _
  · exact Text.endsInDigit_split [] some_ (fun _ => isDigit_of_mem_paddedDigits) _

end Decimal

namespace Violation

variable {text front : String}

theorem not_endsWith_required (other : ¬ "is required".toList <:+ text.toList) :
    text.endsWith "is required" = false :=
  Bool.eq_false_iff.mpr (mt Text.endsWith_iff.mp other)

theorem not_endsWith_required_of_append (back : String)
    (longer : "is required".toList.length ≤ back.toList.length)
    (other : ¬ "is required".toList <:+ back.toList) :
    (front ++ back).endsWith "is required" = false :=
  (Text.endsWith_append longer).trans (not_endsWith_required other)

theorem not_endsWith_required_of_last {c : Char} (last : text.toList.getLast? = some c)
    (other : c ≠ 'd') : text.endsWith "is required" = false := by
  refine Bool.eq_false_iff.mpr fun ends => ?_
  have letter := Text.getLast?_of_endsWith (t := "is required") (c := 'd') (by decide) ends
  exact other (Option.some.inj (last.symm.trans letter))

theorem not_endsWith_required_of_digit (digit : Text.EndsInDigit text) :
    text.endsWith "is required" = false := by
  obtain ⟨c, last, isDigit⟩ := digit
  refine not_endsWith_required_of_last last ?_
  rintro rfl
  cases isDigit

/-- Of all messages that are put together here, exactly those about missing parts end as they do,
whatever symbol, name or number stands in them. -/
theorem endsWith_required {v : Violation} (written : ∀ text, v ≠ .stated text) :
    v.message.endsWith "is required" = v.isMissingPart := by
  cases v with
  | missingPart part =>
    have long : "is required".toList.length ≤ " is required".toList.length := by decide
    change (part.label ++ " is required").endsWith "is required" = true
    rw [Text.endsWith_append long, Text.endsWith_iff]
    decide
  | leverageOutOfRange n =>
    exact not_endsWith_required_of_digit (.append (Text.endsInDigit_toString n.toNat))
  | quantityNotPositive q => exact not_endsWith_required_of_digit q.endsInDigit_toText.append
  | percentOutOfRange p => exact not_endsWith_required_of_digit p.endsInDigit_toText.append
  | uncomputedIndicator condition t indicator =>
    exact not_endsWith_required_of_append " which is not computed" (by decide) (by decide)
  | unknownIndicator name =>
    refine not_endsWith_required_of_last (c := '\'') ?_ (by decide)
    change ("unknown indicator '" ++ name ++ "'").toList.getLast? = _
    rw [String.toList_append, List.getLast?_append]
    rfl
  | noRefill c =>
    exact not_endsWith_required_of_append " rate limit per_second must be positive"
      (by decide) (by decide)
  | noBurst c =>
    exact not_endsWith_required_of_append " rate limit burst must be positive"
      (by decide) (by decide)
  | stated text => exact absurd rfl (written text)
  | _ => exact not_endsWith_required (by decide)

end Violation

end FuturesDesk
