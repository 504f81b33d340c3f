import FuturesDesk.Json.Reader

/-! The characters, strings and keys of TOML. A reader takes what it knows from the front of a text
and gives the rest. -/
namespace FuturesDesk.Toml

def isSpace (c : Char) : Bool := c = ' ' || c = '\t'

def skipSpace (text : List Char) : List Char := text.dropWhile isSpace

/-- What may stand in a comment, and for itself in a string: all but control characters. -/
def isPrintable (c : Char) : Bool := c = '\t' || (32 ≤ c.toNat && c.toNat ≠ 127)

/-- The text after a line end, if it begins with one. -/
def newline? : List Char → Option (List Char)
  | '\n' :: rest => some rest
  | '\r' :: '\n' :: rest => some rest
  | _ => none

/-- The text after the end of its first line, which holds nothing more than a comment. -/
def lineEnd? (text : List Char) : Option (List Char) :=
  let text := match skipSpace text with
    | '#' :: rest => rest.dropWhile isPrintable
    | text => text
  if text.isEmpty then some [] else newline? text

/-- Drops spaces and line ends. -/
def skipLines : List Char → List Char
  | [] => []
  | '\r' :: '\n' :: rest => skipLines rest
  | c :: rest => if isSpace c || c = '\n' then skipLines rest else c :: rest

/-- Drops spaces, line ends and comments. -/
def skipTrivia (inComment : Bool) : List Char → List Char
  | [] => []
  | '\r' :: '\n' :: rest => skipTrivia false rest
  | c :: rest =>
    if c = '\n' then skipTrivia false rest
    else if isSpace c || (inComment && isPrintable c) then skipTrivia inComment rest
    else if c = '#' then skipTrivia true rest
    else c :: rest

/-- The character whose code point is given in so many hex digits. -/
def codePoint? (width : Nat) (text : List Char) : Option (Char × List Char) := do
  let digits ← (text.take width).mapM Json.hexDigit?
  let n := digits.foldl (fun n d => n * 16 + d) 0
  if digits.length = width ∧ n.isValidChar then return (Char.ofNat n, text.drop width) else none

def escape? : List Char → Option (Char × List Char)
  | 'b' :: rest => some ('\x08', rest)
  | 't' :: rest => some ('\t', rest)
  | 'n' :: rest => some ('\n', rest)
  | 'f' :: rest => some ('\x0c', rest)
  | 'r' :: rest => some ('\r', rest)
  | '"' :: rest => some ('"', rest)
  | '\\' :: rest => some ('\\', rest)
  | 'u' :: rest => codePoint? 4 rest
  | 'U' :: rest => codePoint? 8 rest
  | _ => none

/-- How a string is written. -/
structure Quoting where
  quote : Char
  /-- Whether a backslash escapes. -/
  escapes : Bool
  /-- Whether line ends may stand in it. Then three quotes end it, and one or two do not. -/
  multiLine : Bool

/-- Past a line end and all blanks after it, if a line may go on there. -/
def lineJoin? (q : Quoting) (text : List Char) : Option (List Char) :=
  if q.multiLine then (newline? (skipSpace text)).map skipLines else none

/-- The characters up to the closing quotes; up to two quotes before those belong to the string.
`fuel` bounds the number of characters. -/
def body? (q : Quoting) : Nat → List Char → List Char → Option (String × List Char)
  | 0, _, _ => none
  | _, _, [] => none
  | fuel + 1, done, c :: rest =>
    if c = q.quote then
      if q.multiLine then
        let run := (rest.takeWhile (· = c)).length
        if run < 2 then body? q fuel (c :: done) rest
        else
          let inside := min 2 (run - 2)
          some (String.ofList (done.reverse ++ List.replicate inside c), rest.drop (inside + 2))
      else some (String.ofList done.reverse, rest)
    else if c = '\\' ∧ q.escapes then
      match lineJoin? q rest with
      | some rest => body? q fuel done rest
      | none => (escape? rest).bind fun (c, rest) => body? q fuel (c :: done) rest
    else if isPrintable c then body? q fuel (c :: done) rest
    else if q.multiLine then
      (newline? (c :: rest)).bind fun rest => body? q fuel ('\n' :: done) rest
    else none

/-- A string on one line, after its opening quote. -/
def lineString? (quote : Char) (text : List Char) : Option (String × List Char) :=
  body? ⟨quote, quote = '"', false⟩ text.length.succ [] text

/-- A string that may hold line ends, after its opening quotes; a line end right there is dropped.
-/
def blockString? (quote : Char) (text : List Char) : Option (String × List Char) :=
  let text := (newline? text).getD text
  body? ⟨quote, quote = '"', true⟩ text.length.succ [] text

def isQuote (c : Char) : Bool := c = '"' || c = '\x27'

def string? : List Char → Option (String × List Char)
  | a :: b :: c :: rest =>
    if ¬ isQuote a then none
    else if b = a ∧ c = a then blockString? a rest
    else lineString? a (b :: c :: rest)
  | a :: rest => if isQuote a then lineString? a rest else none
  | [] => none

/-- A character that needs no quotes in a key. -/
def isBare (c : Char) : Bool := c.isAlphanum || c = '_' || c = '-'

def keyPart? (text : List Char) : Option (String × List Char) :=
  match text with
  | [] => none
  | c :: rest =>
    if isQuote c then lineString? c rest
    else
      let name := text.takeWhile isBare
      if name.isEmpty then none else some (String.ofList name, text.drop name.length)

/-- The parts of a key: a path of tables and a name in the last one. -/
structure Key where
  path : List String
  name : String
  deriving DecidableEq, Repr

/-- The names from the outermost table on. -/
def Key.parts (k : Key) : List String := k.path ++ [k.name]

/-- A key of at most so many parts, with spaces around each of them. -/
def dottedKey? : Nat → List Char → Option (Key × List Char)
  | 0, _ => none
  | most + 1, text => do
    let (part, rest) ← keyPart? (skipSpace text)
    match skipSpace rest with
    | '.' :: rest =>
      let (key, rest) ← dottedKey? most rest
      return (⟨part :: key.path, key.name⟩, rest)
    | rest => return (⟨[], part⟩, rest)

/-- The deepest nesting of tables and arrays that is read. -/
def maxDepth : Nat := 79

def key? (text : List Char) : Option (Key × List Char) := dottedKey? maxDepth text

end FuturesDesk.Toml
