import FuturesDesk.Http.Query

/-! What can be read from a query. Parameters without separators are read back from their text; text
in characters that a URL takes as they are is sent as it is, and other text is escaped, or cut off
where a fragment begins. -/
namespace FuturesDesk.Http

/-- The parts of a query text between the ampersands, each of them cut at its equals signs. -/
def Query.split (text : String) : List (List String) :=
  (text.toList.splitOn '&').map fun part => (part.splitOn '=').map String.ofList

def Bare (text : String) : Prop := '&' ∉ text.toList ∧ '=' ∉ text.toList

instance (text : String) : Decidable (Bare text) := inferInstanceAs (Decidable (_ ∧ _))

def queryOf (target : String) : String :=
  String.ofList (target.toList.dropWhile (· ≠ '?')).tail

variable {q : Query} {name value text host : String} {kept : Char → Bool}

def parameter (p : String × String) : List Char := p.1.toList ++ '=' :: p.2.toList

theorem toList_text (q : Query) : q.text.toList = ['&'].intercalate (q.map parameter) := by
  have each : (String.toList ∘ fun p : String × String => p.1 ++ "=" ++ p.2) = parameter := by
    funext p
    simp [parameter]
  rw [Query.text, String.toList_intercalate, List.map_map, each]
  rfl

theorem splitOn_parameter {p : String × String} (name : Bare p.1) (value : Bare p.2) :
    (parameter p).splitOn '=' = [p.1.toList, p.2.toList] := by
  rw [parameter, List.splitOn_append_cons_self_of_not_mem name.2, List.splitOn_eq_singleton value.2]

theorem not_mem_parameter {p : String × String} (name : Bare p.1) (value : Bare p.2) :
    '&' ∉ parameter p := by
  intro member
  rcases List.mem_append.mp member with front | back
  · exact name.1 front
  · exact value.1 ((List.mem_cons.mp back).resolve_left (by decide))

theorem splitOn_text (some_ : q ≠ []) (bare : ∀ p ∈ q, Bare p.1 ∧ Bare p.2) :
    q.text.toList.splitOn '&' = q.map parameter := by
  rw [toList_text]
  refine List.splitOn_intercalate '&' ?_ (mt List.map_eq_nil_iff.mp some_)
  intro part member
  obtain ⟨p, given, rfl⟩ := List.mem_map.mp member
  exact not_mem_parameter (bare p given).1 (bare p given).2

/-- Parameters without separators are read back, in order and nothing else. -/
theorem split_text (some_ : q ≠ []) (bare : ∀ p ∈ q, Bare p.1 ∧ Bare p.2) :
    Query.split q.text = q.map fun p => [p.1, p.2] := by
  rw [Query.split, splitOn_text some_ bare, List.map_map]
  refine List.map_congr_left ?_
  intro p member
  have parts := splitOn_parameter (bare p member).1 (bare p member).2
  simp [parts]

theorem intercalate_concat {parts : List (List Char)} (some_ : parts ≠ []) (sep last : List Char) :
    sep.intercalate (parts ++ [last]) = sep.intercalate parts ++ sep ++ last := by
  induction parts with
  | nil => exact absurd rfl some_
  | cons part parts ih =>
    by_cases single : parts = []
    · subst single
      rw [List.singleton_append, List.intercalate_cons_of_ne_nil (List.cons_ne_nil _ _)]
      simp only [List.intercalate_singleton]
    · have longer := List.append_ne_nil_of_left_ne_nil single [last]
      rw [List.cons_append, List.intercalate_cons_of_ne_nil longer,
        List.intercalate_cons_of_ne_nil single, ih single]
      simp only [List.append_assoc]

/-- One more parameter is written behind an ampersand. -/
theorem text_concat (some_ : q ≠ []) (name value : String) :
    Query.text (q ++ [(name, value)]) = q.text ++ "&" ++ name ++ "=" ++ value := by
  apply String.toList_injective
  rw [toList_text, List.map_append, List.map_singleton,
    intercalate_concat (mt List.map_eq_nil_iff.mp some_), ← toList_text]
  simp [parameter]

/-- A name is told from others by the equals sign behind it. -/
theorem not_begins {p : String × String} (name : '=' ∉ p.1.toList) (other : p.1 ≠ "signature") :
    ¬ "signature=".toList <+: parameter p := by
  rintro ⟨rest, begins⟩
  have left : ("signature".toList ++ '=' :: rest).splitOn '=' = _ :=
    List.splitOn_append_cons_self_of_not_mem (by decide) rest
  have right : (parameter p).splitOn '=' = _ :=
    List.splitOn_append_cons_self_of_not_mem name p.2.toList
  have same : "signature".toList ++ '=' :: rest = parameter p := begins
  rw [same, right] at left
  exact other (String.toList_injective (List.cons.inj left).1)

theorem splitOn_append_of_not_mem {sep : Char} {front : List Char} (free : sep ∉ front)
    (back : List Char) : ∃ part rest, (front ++ back).splitOn sep = (front ++ part) :: rest := by
  induction front with
  | nil => exact List.exists_cons_of_ne_nil (List.splitOn_ne_nil sep back)
  | cons c front ih =>
    obtain ⟨other, free⟩ := not_or.mp (mt List.mem_cons.mpr free)
    obtain ⟨part, rest, cut⟩ := ih free
    refine ⟨part, rest, ?_⟩
    rw [List.cons_append, List.splitOn_cons_eq_if_modifyHead, if_neg (by simpa using Ne.symm other),
      cut]
    rfl

/-- Only one place of a text can be that of the signature: no parameter before it has this name. -/
theorem before_signature {signature before after : String} (bare : Bare signature)
    (others : ∀ part ∈ text.toList.splitOn '&', ¬ "signature=".toList <+: part)
    (cut : text ++ "&signature=" ++ signature = before ++ "&signature=" ++ after) :
    before = text := by
  have sign : "&signature=".toList = '&' :: "signature=".toList := by decide
  have written : text.toList ++ '&' :: ("signature=".toList ++ signature.toList) =
      before.toList ++ '&' :: ("signature=".toList ++ after.toList) := by
    have lists := congrArg String.toList cut
    simpa only [String.toList_append, List.append_assoc, sign, List.cons_append] using lists
  have last : '&' ∉ "signature=".toList ++ signature.toList := by
    intro member
    rcases List.mem_append.mp member with name | value
    · exact absurd name (by decide)
    · exact bare.1 value
  obtain ⟨part, rest, found⟩ : ∃ part rest, ("signature=".toList ++ after.toList).splitOn '&' =
      ("signature=".toList ++ part) :: rest :=
    splitOn_append_of_not_mem (by decide) after.toList
  have parts := congrArg (List.splitOn '&') written
  rw [List.splitOn_append_cons_self, List.splitOn_append_cons_self,
    List.splitOn_eq_singleton last, found] at parts
  -- The part of the text after the cut that has the name is the last one of all.
  obtain rfl | ⟨between, final, rfl⟩ := List.eq_nil_or_concat rest
  · have joined := congrArg (List.intercalate ['&']) (List.append_inj_left' parts rfl)
    rw [List.intercalate_splitOn, List.intercalate_splitOn] at joined
    exact String.toList_injective joined.symm
  · rw [List.concat_eq_append, ← List.cons_append, ← List.append_assoc] at parts
    refine absurd (List.prefix_append _ part) (others _ ?_)
    rw [List.append_inj_left' parts rfl]
    exact List.mem_append_right _ List.mem_cons_self

theorem hexDigit_ne : ∀ n < 16, hexDigit n ≠ '?' := by decide

/-- Nothing that was escaped for a path begins a query. -/
theorem not_mem_escape (escapes : kept '?' = false) (text : List Char) :
    '?' ∉ escape kept text := by
  intro member
  obtain ⟨c, _, written⟩ := List.mem_flatMap.mp member
  split at written
  case isTrue stays =>
    rw [← List.mem_singleton.mp written, escapes] at stays
    cases stays
  case isFalse =>
    obtain ⟨b, _, encoded⟩ := List.mem_flatMap.mp written
    have byte := b.toNat_lt
    simp only [percentEncoded, List.mem_cons, List.not_mem_nil, or_false] at encoded
    rcases encoded with percent | high | low
    · exact absurd percent (by decide)
    · exact hexDigit_ne (b.toNat / 16) (by omega) high.symm
    · exact hexDigit_ne (b.toNat % 16) (by omega) low.symm

theorem not_mem_resolvedPath (text : List Char) : '?' ∉ resolvedPath text := by
  intro member
  obtain ⟨step, _, written⟩ := List.mem_flatMap.mp member
  rcases List.mem_cons.mp written with slash | escaped
  · exact absurd slash (by decide)
  · exact not_mem_escape (by decide) step escaped

/-- The characters that a URL is read without. -/
def blanks (c : Char) : Bool := c = '\t' ∨ c = '\n' ∨ c = '\r'

theorem dropWhile_authority (front back : List Char) (noQuery : '?' ∉ front)
    (noFragment : '#' ∉ front) :
    ∃ rest, '?' ∉ rest ∧ '#' ∉ rest ∧
      (front ++ '?' :: back).dropWhile (fun c => ¬ endsAuthority c) = rest ++ '?' :: back := by
  induction front with
  | nil => exact ⟨[], nofun, nofun, rfl⟩
  | cons c front ih =>
    by_cases ends : endsAuthority c = true
    · exact ⟨c :: front, noQuery, noFragment, List.dropWhile_cons_of_neg (by simp [ends])⟩
    · rw [List.cons_append, List.dropWhile_cons_of_pos (by simp [ends])]
      exact ih (mt (List.mem_cons_of_mem c) noQuery) (mt (List.mem_cons_of_mem c) noFragment)

theorem ne_of_not_mem {front : List Char} {sep : Char} (free : sep ∉ front) :
    ∀ c ∈ front, decide (c ≠ sep) = true := by
  intro c member
  rw [decide_eq_true_iff]
  rintro rfl
  exact free member

/-- What is sent of a query: all before a fragment, without blanks, and escaped. -/
theorem queryOf_requestTarget (noQuery : '?' ∉ host.toList) (noFragment : '#' ∉ host.toList)
    (text : String) : queryOf (requestTarget (host ++ "?" ++ text)) =
      String.ofList
        (escape staysInQuery ((text.toList.filter (! blanks ·)).takeWhile (· ≠ '#'))) := by
  have keeps : (fun c => decide (¬ (c = '\t' ∨ c = '\n' ∨ c = '\r'))) = fun c => ! blanks c := by
    funext c
    simp [blanks]
  have written : (host ++ "?" ++ text).toList.filter (! blanks ·) =
      host.toList.filter (! blanks ·) ++ '?' :: text.toList.filter (! blanks ·) := by
    rw [String.toList_append, String.toList_append, List.filter_append, List.filter_append,
      List.append_assoc]
    rfl
  obtain ⟨rest, noQuery, noFragment, start⟩ :=
    dropWhile_authority (host.toList.filter (! blanks ·)) (text.toList.filter (! blanks ·))
      (fun member => noQuery (List.mem_filter.mp member).1)
      (fun member => noFragment (List.mem_filter.mp member).1)
  have unquestioned := ne_of_not_mem noQuery
  rw [requestTarget, keeps, written]
  simp only [start]
  rw [List.takeWhile_append_of_pos (ne_of_not_mem noFragment),
    List.takeWhile_cons_of_pos (by decide), List.takeWhile_append_of_pos unquestioned,
    List.takeWhile_cons_of_neg (by decide), List.dropWhile_append_of_pos unquestioned,
    List.dropWhile_cons_of_neg (by decide)]
  simp only [queryOf, String.toList_ofList]
  rw [List.dropWhile_append_of_pos (ne_of_not_mem (not_mem_resolvedPath _)),
    List.dropWhile_cons_of_neg (by decide), List.tail_cons]

theorem escape_of_stays {text : List Char} (safe : ∀ c ∈ text, kept c = true) :
    escape kept text = text := by
  induction text with
  | nil => rfl
  | cons c text ih =>
    rw [escape, List.flatMap_cons, if_pos (safe c List.mem_cons_self)]
    exact congrArg (c :: ·) (ih fun d member => safe d (List.mem_cons_of_mem c member))

theorem staysInQuery_not_blank {c : Char} (safe : staysInQuery c = true) : blanks c = false := by
  rw [Bool.eq_false_iff]
  intro blank
  obtain rfl | rfl | rfl : c = '\t' ∨ c = '\n' ∨ c = '\r' := by simpa [blanks] using blank
  all_goals exact absurd safe (by decide)

theorem filter_blanks {text : List Char} (safe : ∀ c ∈ text, staysInQuery c = true) :
    text.filter (! blanks ·) = text := by
  rw [List.filter_eq_self]
  intro c member
  rw [staysInQuery_not_blank (safe c member)]
  rfl

theorem ne_fragment {text : List Char} (safe : ∀ c ∈ text, staysInQuery c = true) :
    ∀ c ∈ text, decide (c ≠ '#') = true :=
  ne_of_not_mem fun member => absurd (safe '#' member) (by decide)

/-- A query in characters that a URL takes as they are is sent as it is. -/
theorem queryOf_requestTarget_of_safe (noQuery : '?' ∉ host.toList) (noFragment : '#' ∉ host.toList)
    (safe : ∀ c ∈ text.toList, staysInQuery c = true) :
    queryOf (requestTarget (host ++ "?" ++ text)) = text := by
  have whole : text.toList.takeWhile (· ≠ '#') = text.toList := by
    rw [← List.append_nil text.toList, List.takeWhile_append_of_pos (ne_fragment safe)]
    rfl
  rw [queryOf_requestTarget noQuery noFragment, filter_blanks safe, whole, escape_of_stays safe,
    String.ofList_toList]

theorem mem_intercalate {parts : List (List Char)} {sep c : Char}
    (member : c ∈ [sep].intercalate parts) : c = sep ∨ ∃ part ∈ parts, c ∈ part := by
  induction parts with
  | nil => cases member
  | cons part parts ih =>
    by_cases single : parts = []
    · subst single
      rw [List.intercalate_singleton] at member
      exact .inr ⟨part, List.mem_cons_self, member⟩
    · rw [List.intercalate_cons_of_ne_nil single, List.append_assoc] at member
      rcases List.mem_append.mp member with first | member
      · exact .inr ⟨part, List.mem_cons_self, first⟩
      · rcases List.mem_cons.mp member with separator | later
        · exact .inl separator
        · obtain separator | ⟨other, given, held⟩ := ih later
          · exact .inl separator
          · exact .inr ⟨other, List.mem_cons_of_mem part given, held⟩

/-- A query holds what its parameters hold, and its separators. -/
theorem text_stays (safe : ∀ p ∈ q, (∀ c ∈ p.1.toList, staysInQuery c = true) ∧
    ∀ c ∈ p.2.toList, staysInQuery c = true) : ∀ c ∈ q.text.toList, staysInQuery c = true := by
  intro c member
  rw [toList_text] at member
  obtain rfl | ⟨part, given, held⟩ := mem_intercalate member
  · decide
  · obtain ⟨p, listed, rfl⟩ := List.mem_map.mp given
    rcases List.mem_append.mp held with name | held
    · exact (safe p listed).1 c name
    · rcases List.mem_cons.mp held with rfl | value
      · decide
      · exact (safe p listed).2 c value

/-- What stands behind a number sign is not sent. -/
theorem queryOf_requestTarget_fragment (noQuery : '?' ∉ host.toList)
    (noFragment : '#' ∉ host.toList) (safe : ∀ c ∈ text.toList, staysInQuery c = true)
    (fragment : String) :
    queryOf (requestTarget (host ++ "?" ++ (text ++ "#" ++ fragment))) = text := by
  have written : (text ++ "#" ++ fragment).toList.filter (! blanks ·) =
      text.toList ++ '#' :: fragment.toList.filter (! blanks ·) := by
    rw [String.toList_append, String.toList_append, List.filter_append, List.filter_append,
      List.append_assoc, filter_blanks safe]
    rfl
  rw [queryOf_requestTarget noQuery noFragment, written,
    List.takeWhile_append_of_pos (ne_fragment safe), List.takeWhile_cons_of_neg (by decide),
    List.append_nil, escape_of_stays safe, String.ofList_toList]

/-- The text stays in a query as it is, and separates nothing there. -/
def Clear (text : String) : Prop := ∀ c ∈ text.toList, staysInQuery c = true ∧ c ≠ '&' ∧ c ≠ '='

instance (text : String) : Decidable (Clear text) :=
  decidable_of_iff (text.toList.all fun c => staysInQuery c && c != '&' && c != '=') <| by
    simp only [Clear, List.all_eq_true, Bool.and_eq_true, bne_iff_ne, and_assoc]

theorem Clear.bare (clear : Clear text) : Bare text :=
  ⟨fun member => (clear '&' member).2.1 rfl, fun member => (clear '=' member).2.2 rfl⟩

theorem Clear.stays (clear : Clear text) : ∀ c ∈ text.toList, staysInQuery c = true :=
  fun c member => (clear c member).1

theorem clear_digit {c : Char} (digit : c.isDigit = true) :
    staysInQuery c = true ∧ c ≠ '&' ∧ c ≠ '=' := by
  have all : ∀ n < 58, 48 ≤ n → staysInQuery (Char.ofNat n) = true ∧
      Char.ofNat n ≠ '&' ∧ Char.ofNat n ≠ '=' := by decide
  have least : 48 ≤ c.toNat := Char.isDigit_iff_toNat.mp digit |>.1
  have most : c.toNat < 58 := Nat.lt_succ_of_le (Char.isDigit_iff_toNat.mp digit).2
  rw [← Char.ofNat_toNat c]
  exact all c.toNat most least

theorem clear_toString (n : Nat) : Clear (toString n) := by
  intro c member
  rw [Nat.toString_eq_ofList_toDigits, String.toList_ofList] at member
  exact clear_digit (Nat.isDigit_of_mem_toDigits (by decide) (by decide) member)

theorem clear_toString_int (n : Int) : Clear (toString n) := by
  intro c member
  cases n with
  | ofNat n => exact clear_toString n c member
  | negSucc n =>
    have written : c ∈ ("-" ++ toString (n + 1)).toList := member
    rw [String.toList_append] at written
    rcases List.mem_append.mp written with sign | digits
    · rw [List.mem_singleton.mp sign]
      decide
    · exact clear_toString (n + 1) c digits

end FuturesDesk.Http
