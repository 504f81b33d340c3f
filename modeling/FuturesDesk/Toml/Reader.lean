import FuturesDesk.Toml.DateTime
import FuturesDesk.Toml.Number
import FuturesDesk.Toml.Table

/-! Reading TOML documents into the values of JSON. Dates and times become text; doubles may be
infinite. -/
namespace FuturesDesk.Toml

mutual

/-- One value; `depth` bounds the nesting and `fuel` the characters looked at. -/
def value? (depth : Nat) : Nat → List Char → Option (Json × List Char)
  | 0, _ => none
  | fuel + 1, text =>
    match text with
    | 't' :: 'r' :: 'u' :: 'e' :: rest => some (.bool true, rest)
    | 'f' :: 'a' :: 'l' :: 's' :: 'e' :: rest => some (.bool false, rest)
    | '[' :: rest => if depth = 0 then none else items? (depth - 1) fuel [] rest
    | '{' :: rest =>
      if depth = 0 then none
      else
        match skipSpace rest with
        | '}' :: rest => some (.object [], rest)
        | rest => members? (depth - 1) fuel [] rest
    | _ =>
      match string? text, dateTime? text with
      | some (s, rest), _ => some (.string s, rest)
      | none, some (s, rest) => some (.string s, rest)
      | none, none => number? text

/-- The items up to the closing bracket, after those in `done`. -/
def items? (depth : Nat) : Nat → List Json → List Char → Option (Json × List Char)
  | 0, _, _ => none
  | fuel + 1, done, text =>
    match skipTrivia false text with
    | ']' :: rest => some (.array done.reverse, rest)
    | text => do
      let (item, rest) ← value? depth fuel text
      match skipTrivia false rest with
      | ',' :: rest => items? depth fuel (item :: done) rest
      | ']' :: rest => some (.array (item :: done).reverse, rest)
      | _ => none

/-- The members up to the closing brace, added to `entries`. -/
def members? (depth : Nat) : Nat → Entries → List Char → Option (Json × List Char)
  | 0, _, _ => none
  | fuel + 1, entries, text => do
    let (key, rest) ← key? text
    let (value, rest) ← value? depth fuel (skipSpace (← after? '=' rest))
    let entries ← assign key value .headed entries
    match skipSpace rest with
    | ',' :: rest => members? depth fuel entries rest
    | '}' :: rest => some (.object (membersOf entries), rest)
    | _ => none

end

/-- A document as far as it was read. -/
structure Draft where
  /-- The names in the last header. -/
  header : List String := []
  root : Entries := []

/-- A header after its brackets, which opens a table. -/
def Draft.header? (d : Draft) (repeated : Bool) (text : List Char) :
    Option (Draft × List Char) := do
  let (key, rest) ← key? text
  let rest ← after? ']' rest
  let rest ← if repeated then after? ']' rest else some rest
  let change := if repeated then openItem key.name else openTable key.name
  let root ← changeAt false change key.path .headed d.root
  return ({ header := key.parts, root }, ← lineEnd? rest)

/-- A key and its value in the table of the last header. -/
def Draft.pair? (d : Draft) (text : List Char) : Option (Draft × List Char) := do
  let (key, rest) ← key? text
  let text := skipSpace (← after? '=' rest)
  let (value, rest) ← value? maxDepth (2 * text.length + 2) text
  let root ← changeAt false (assign key value) d.header .headed d.root
  return ({ d with root }, ← lineEnd? rest)

/-- One line, or as many as one value takes. -/
def Draft.line? (d : Draft) (text : List Char) : Option (Draft × List Char) :=
  match lineEnd? text with
  | some rest => some (d, rest)
  | none =>
    match skipSpace text with
    | '[' :: '[' :: rest => d.header? true rest
    | '[' :: rest => d.header? false rest
    | text => d.pair? text

/-- All lines; each one takes a character of a text that is not empty, so `fuel` bounds their
number. -/
def Draft.lines? : Nat → Draft → List Char → Option Draft
  | 0, _, _ => none
  | fuel + 1, d, text =>
    if text.isEmpty then some d else (d.line? text).bind fun (d, rest) => lines? fuel d rest

/-- The table that a document denotes. A byte order mark before it is dropped. -/
def read? (text : String) : Option Json :=
  let chars := match text.toList with
    | '\uFEFF' :: rest => rest
    | chars => chars
  (Draft.lines? chars.length.succ {} chars).map fun d => .object (membersOf d.root)

end FuturesDesk.Toml
