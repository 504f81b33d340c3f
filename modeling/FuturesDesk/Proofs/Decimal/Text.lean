import FuturesDesk.Decimal.Reader
import FuturesDesk.Proofs.Decimal.Value

/-! Decimals as text. The text of a decimal is read as the same decimal again, places included.
Without the zeros that end its places a decimal is worth the same, and its text is as short as it can
be. -/
namespace FuturesDesk

namespace Text

/-- The number that digits make when they follow those of another number. -/
def continued (n : Nat) (digits : List Char) : Nat :=
  digits.foldl (fun n c => n * 10 + digitValue c) n

variable {n : Nat} {c : Char} {digits : List Char}

theorem continued_append (n : Nat) (front back : List Char) :
    continued n (front ++ back) = continued (continued n front) back :=
  List.foldl_append

theorem le_continued (n : Nat) (digits : List Char) : n ≤ continued n digits := by
  induction digits generalizing n with
  | nil => exact Nat.le_refl n
  | cons c digits ih =>
    have longer : n ≤ n * 10 + digitValue c := by omega
    exact longer.trans (ih _)

theorem continued_zeros (count : Nat) : continued 0 (List.replicate count '0') = 0 := by
  induction count with
  | zero => rfl
  | succ count ih => exact ih

theorem continued_toDigits (n : Nat) : continued 0 (Nat.toDigits 10 n) = n := by
  have read := Nat.ofDigitChars_toDigits (b := 10) (n := n) (by decide) (by decide)
  rw [Nat.ofDigitChars_eq_foldl] at read
  simpa only [continued, digitValue, Nat.mul_comm 10] using read

end Text

namespace Decimal
open Text

variable {d : Decimal} {c : Char} {whole places : List Char}

theorem isDigit_of_mem_paddedDigits {width n : Nat} (member : c ∈ paddedDigits width n) :
    c.isDigit = true := by
  rcases List.mem_append.mp member with zero_ | digit
  · rw [List.eq_of_mem_replicate zero_]
    rfl
  · exact Nat.isDigit_of_mem_toDigits (by decide) (by decide) digit

theorem paddedDigits_ne_nil (width n : Nat) : paddedDigits width n ≠ [] :=
  List.append_ne_nil_of_right_ne_nil _ Nat.toDigits_ne_nil

theorem le_length_paddedDigits (width n : Nat) : width ≤ (paddedDigits width n).length := by
  simp only [paddedDigits, List.length_append, List.length_replicate]
  omega

theorem continued_paddedDigits (width n : Nat) : continued 0 (paddedDigits width n) = n := by
  rw [paddedDigits, continued_append, continued_zeros, continued_toDigits]

/-- The last of the digits counts the units. -/
theorem getLast?_paddedDigits (width n : Nat) :
    (paddedDigits width n).getLast? = some (Nat.digitChar (n % 10)) := by
  have last : (Nat.toDigits 10 n).getLast? = some (Nat.digitChar (n % 10)) := by
    by_cases small : n < 10
    · rw [Nat.toDigits_of_lt_base small, Nat.mod_eq_of_lt small]
      rfl
    · rw [Nat.toDigits_of_base_le (by decide) (Nat.not_lt.mp small), List.getLast?_append]
      rfl
  rw [paddedDigits, List.getLast?_append, last]
  rfl

def pointed (whole places : List Char) : List Char :=
  if places.isEmpty then whole else whole ++ '.' :: places

theorem mem_pointed (member : c ∈ pointed whole places) : c ∈ whole ++ places ∨ c = '.' := by
  rw [pointed] at member
  split at member
  case isTrue => exact .inl (List.mem_append_left _ member)
  case isFalse =>
    rcases List.mem_append.mp member with front | back
    · exact .inl (List.mem_append_left _ front)
    · rcases List.mem_cons.mp back with point | back
      · exact .inr point
      · exact .inl (List.mem_append_right _ back)

/-- How a decimal is written: the digits of its coefficient, as many of them behind the point as it
has places. -/
theorem toText_digits (d : Decimal) : ∃ whole places,
    whole ++ places = paddedDigits (d.scale + 1) d.coefficient.natAbs ∧ whole ≠ [] ∧
      places.length = d.scale ∧
      d.toText.toList = (if d.coefficient < 0 then ['-'] else []) ++ pointed whole places := by
  have long := le_length_paddedDigits (d.scale + 1) d.coefficient.natAbs
  refine ⟨_, _, List.take_append_drop
    ((paddedDigits (d.scale + 1) d.coefficient.natAbs).length - d.scale) _, ?_, ?_, ?_⟩
  · refine List.ne_nil_of_length_pos ?_
    rw [List.length_take]
    omega
  · rw [List.length_drop]
    omega
  · rw [toText, String.toList_ofList]
    split <;> rfl

theorem readDigits_append {scale magnitude : Nat} (point seen : Bool) {digits : List Char}
    (rest : List Char) (all : ∀ c ∈ digits, c.isDigit = true)
    (fits : continued magnitude digits < coefficientBound)
    (room : point = true → scale + digits.length ≤ maxScale) :
    readDigits magnitude scale point seen (digits ++ rest) =
      readDigits (continued magnitude digits) (if point then scale + digits.length else scale) point
        (seen || !digits.isEmpty) rest := by
  induction digits generalizing magnitude scale seen with
  | nil => cases point <;> simp [continued]
  | cons c digits ih =>
    have digit := all c List.mem_cons_self
    have fitting : magnitude * 10 + digitValue c < coefficientBound :=
      Nat.lt_of_le_of_lt (le_continued _ digits) fits
    have space : ¬ (point = true ∧ scale = maxScale) := by
      rintro ⟨passed, full⟩
      have := room passed
      rw [List.length_cons] at this
      omega
    have later : point = true → (if point then scale + 1 else scale) + digits.length ≤ maxScale := by
      intro passed
      have := room passed
      rw [List.length_cons] at this
      rw [if_pos passed]
      omega
    rw [List.cons_append, readDigits, if_neg space, if_pos digit, if_pos fitting,
      ih _ (fun c member => all c (List.mem_cons_of_mem _ member)) fits later]
    cases point <;> simp [continued, Nat.add_assoc, Nat.add_comm 1]

theorem readDigits_pointed {n : Nat} (all : ∀ c ∈ whole ++ places, c.isDigit = true)
    (some_ : whole ≠ []) (value : continued 0 (whole ++ places) = n) (fits : n < coefficientBound)
    (room : places.length ≤ maxScale) :
    readDigits 0 0 false false (pointed whole places) = .ok (n, places.length) := by
  have front : ∀ c ∈ whole, c.isDigit = true := fun c member => all c (List.mem_append_left _ member)
  have back : ∀ c ∈ places, c.isDigit = true :=
    fun c member => all c (List.mem_append_right _ member)
  have seen : (!whole.isEmpty) = true := by simpa using some_
  rw [continued_append] at value
  have small : continued 0 whole < coefficientBound :=
    Nat.lt_of_le_of_lt (le_continued _ places) (value ▸ fits)
  rw [pointed]
  split
  case isTrue none_ =>
    obtain rfl := List.isEmpty_iff.mp none_
    have read : readDigits 0 0 false false (whole ++ []) = _ :=
      readDigits_append false false [] front small nofun
    rw [List.append_nil, seen] at read
    exact read.trans (congrArg (fun n => Except.ok (n, 0)) value)
  case isFalse =>
    have passed : readDigits (continued 0 whole) 0 false true ('.' :: places) =
        readDigits (continued 0 whole) 0 true true (places ++ []) := by
      rw [List.append_nil]
      rfl
    rw [readDigits_append false false _ front small nofun, seen, Bool.or_true, if_neg nofun, passed,
      readDigits_append true true [] back (value ▸ fits) (fun _ => (Nat.zero_add _).trans_le room),
      value, if_pos rfl, Nat.zero_add]
    rfl

theorem ofParts?_self (d : Decimal) : ofParts? d.coefficient d.scale = some d := by
  rw [ofParts?, dif_pos ⟨d.coefficient_lt, d.scale_le⟩]

theorem readPlain_negative {digits : List Char} (negative : d.coefficient < 0)
    (read : readDigits 0 0 false false digits = .ok (d.coefficient.natAbs, d.scale)) :
    readPlain ('-' :: digits) = .ok d := by
  have signed : -(d.coefficient.natAbs : Int) = d.coefficient := by omega
  simp only [readPlain, pure, Except.pure, bind, Except.bind, read, if_true, signed, ofParts?_self]

/-- A digit is no sign. -/
theorem readPlain_unsigned {digits : List Char} (unsigned : 0 ≤ d.coefficient)
    (first : ∀ c ∈ digits.head?, c.isDigit = true) (some_ : digits ≠ [])
    (read : readDigits 0 0 false false digits = .ok (d.coefficient.natAbs, d.scale)) :
    readPlain digits = .ok d := by
  have same : (d.coefficient.natAbs : Int) = d.coefficient := by omega
  unfold readPlain
  split
  case h_1 => exact absurd rfl some_
  case h_2 => cases first '-' rfl
  case h_3 => cases first '+' rfl
  case h_4 =>
    simp only [pure, Except.pure, bind, Except.bind, read, Bool.false_eq_true, if_false, same,
      ofParts?_self]

theorem head?_pointed (some_ : whole ≠ []) (places : List Char) :
    (pointed whole places).head? = whole.head? := by
  rw [pointed]
  split
  · rfl
  · exact List.head?_append_of_ne_nil _ some_

/-- What was written is read again, sign and places included. -/
theorem ofText_toText (d : Decimal) : ofText d.toText = .ok d := by
  obtain ⟨whole, places, digits, some_, count, text⟩ := d.toText_digits
  have all : ∀ c ∈ whole ++ places, c.isDigit = true := by
    rw [digits]
    exact fun c => isDigit_of_mem_paddedDigits
  have read : readDigits 0 0 false false (pointed whole places) =
      .ok (d.coefficient.natAbs, d.scale) := by
    rw [← count]
    exact readDigits_pointed all some_ (digits ▸ continued_paddedDigits _ _) d.coefficient_lt
      (count ▸ d.scale_le)
  have plain : readPlain d.toText.toList = .ok d := by
    rw [text]
    by_cases negative : d.coefficient < 0
    · rw [if_pos negative]
      exact readPlain_negative negative read
    · rw [if_neg negative, List.nil_append]
      have first := head?_pointed some_ places
      refine readPlain_unsigned (Int.not_lt.mp negative) ?_ ?_ read
      · intro c head
        rw [first] at head
        exact all c (List.mem_append_left _ (List.mem_of_mem_head? head))
      · intro none_
        rw [none_] at first
        exact some_ (List.head?_eq_none_iff.mp first.symm)
  rw [ofText, plain]

/-- Plain digits, with places that do not end in a zero behind a point. -/
def Plain (text : String) : Prop := ∃ whole places, whole ≠ [] ∧
  (∀ c ∈ whole ++ places, c.isDigit = true) ∧ text.toList = pointed whole places ∧
  places.getLast? ≠ some '0'

theorem Plain.mem {text : String} (plain : Plain text) (member : c ∈ text.toList) :
    c.isDigit = true ∨ c = '.' := by
  obtain ⟨whole, places, _, all, written, _⟩ := plain
  rw [written] at member
  exact (mem_pointed member).imp_left (all c)

theorem strip_spec {places : Nat} (count : d.scale = places) :
    (normalize.strip places d).value = d.value ∧
      ((normalize.strip places d).scale = 0 ∨ (normalize.strip places d).coefficient % 10 ≠ 0) := by
  induction places generalizing d with
  | zero => exact ⟨rfl, .inl count⟩
  | succ places ih =>
    rw [normalize.strip]
    split
    case isTrue zero_ =>
      have bound := d.coefficient_lt
      have fewer := d.scale_le
      have fits : (d.coefficient / 10).natAbs < coefficientBound ∧ places ≤ maxScale := by
        simp only [coefficientBound, maxScale] at bound fewer ⊢
        omega
      rw [ofParts?, dif_pos fits]
      obtain ⟨worth, ends⟩ := ih (d := ⟨d.coefficient / 10, places, fits.1, fits.2⟩) rfl
      refine ⟨worth.trans ?_, ends⟩
      have tenfold : d.coefficient = d.coefficient / 10 * 10 := by omega
      rw [value, value, count, pow_succ]
      conv_rhs => rw [tenfold, Int.cast_mul]
      field_simp
      norm_num
    case isFalse ends => exact ⟨rfl, .inr ends⟩

/-- Zeros at the end of the places count nothing. -/
@[simp] theorem value_normalize (d : Decimal) : d.normalize.value = d.value := (strip_spec rfl).1

theorem normalize_ends (d : Decimal) :
    d.normalize.scale = 0 ∨ d.normalize.coefficient % 10 ≠ 0 := (strip_spec rfl).2

theorem digitChar_ne_zero : ∀ n < 10, 0 < n → Nat.digitChar n ≠ '0' := by decide

/-- The text of a decimal that is not negative, without the zeros that end its places. -/
theorem plain_normalize (nonneg : 0 ≤ d.coefficient) : Plain d.normalize.toText := by
  have unsigned : ¬ d.normalize.coefficient < 0 := by
    rw [Int.not_lt, ← value_nonneg_iff, value_normalize, value_nonneg_iff]
    exact nonneg
  obtain ⟨whole, places, digits, some_, count, text⟩ := d.normalize.toText_digits
  rw [if_neg unsigned, List.nil_append] at text
  refine ⟨whole, places, some_, ?_, text, ?_⟩
  · rw [digits]
    exact fun c => isDigit_of_mem_paddedDigits
  · intro zero_
    have last := getLast?_paddedDigits (d.normalize.scale + 1) d.normalize.coefficient.natAbs
    rw [← digits, List.getLast?_append, zero_] at last
    rcases d.normalize_ends with scale | ends
    · rw [scale] at count
      rw [List.eq_nil_of_length_eq_zero count] at zero_
      cases zero_
    · have positive : 0 < d.normalize.coefficient.natAbs % 10 := by omega
      have small := Nat.mod_lt d.normalize.coefficient.natAbs (show 10 > 0 by decide)
      exact digitChar_ne_zero _ small positive (Option.some.inj last).symm

end Decimal
end FuturesDesk
