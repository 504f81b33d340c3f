/-! Query parameters in order, and the escaping that a URL gives to them on the wire. -/
namespace FuturesDesk.Http

abbrev Query : Type := List (String × String)

/-- The parameters as they are signed. Values are symbols, numbers, names and ids; nothing in them
is escaped. -/
def Query.text (q : Query) : String :=
  "&".intercalate (q.map fun (name, value) => name ++ "=" ++ value)

def hexDigit (n : Nat) : Char := (Nat.digitChar n).toUpper

def percentEncoded (b : UInt8) : List Char :=
  ['%', hexDigit (b.toNat / 16), hexDigit (b.toNat % 16)]

/-- The bytes that stay in a URL outside of its query. -/
def staysInPath (c : Char) : Bool :=
  '!' ≤ c ∧ c ≤ '~' ∧ ¬ ("\"#<>?`".toList.contains c ∨ c = Char.ofNat 123 ∨ c = Char.ofNat 125)

/-- The bytes that stay in the query of a URL. -/
def staysInQuery (c : Char) : Bool := '!' ≤ c ∧ c ≤ '~' ∧ ¬ "\"#<>'".toList.contains c

def escape (stays : Char → Bool) (text : List Char) : List Char :=
  text.flatMap fun c =>
    if stays c then [c] else (String.singleton c).toUTF8.data.toList.flatMap percentEncoded

/-- The steps of a path between its slashes. -/
def pathSteps : List Char → List (List Char)
  | [] => [[]]
  | c :: rest =>
    if c = '/' ∨ c = '\\' then [] :: pathSteps rest
    else match pathSteps rest with
      | step :: steps => (c :: step) :: steps
      | [] => [[c]]

/-- Whether a step stays where it is. A dot may be written with its code. -/
def isDot (step : List Char) : Bool :=
  [".", "%2e"].contains (String.ofList step).toLower

/-- Whether a step leads back to the one before. -/
def isDoubleDot (step : List Char) : Bool :=
  ["..", ".%2e", "%2e.", "%2e%2e"].contains (String.ofList step).toLower

/-- The steps that remain, when those in `done` were taken last first. A path that ends in dots ends
in a slash. -/
def resolve (done : List (List Char)) : List (List Char) → List (List Char)
  | [] => done.reverse
  | step :: rest =>
    if isDoubleDot step then
      resolve (if rest.isEmpty then [] :: done.tail else done.tail) rest
    else if isDot step then resolve (if rest.isEmpty then [] :: done else done) rest
    else resolve (step :: done) rest

/-- The path that a URL's text stands for, from its first slash on. -/
def resolvedPath (text : List Char) : List Char :=
  (resolve [] (pathSteps text.tail)).flatMap fun step => '/' :: escape staysInPath step

def endsAuthority (c : Char) : Bool := "/\\?#".toList.contains c

/-- What a URL asks its host for: path and query, escaped and without line breaks and tabs; a
fragment is not sent. The text begins within the name of the host. -/
def requestTarget (fromHost : String) : String :=
  let text := fromHost.toList.filter fun c => ¬ (c = '\t' ∨ c = '\n' ∨ c = '\r')
  let text := (text.dropWhile fun c => ¬ endsAuthority c).takeWhile (· ≠ '#')
  let path := resolvedPath (text.takeWhile (· ≠ '?'))
  match text.dropWhile (· ≠ '?') with
  | [] => String.ofList path
  | _ :: query => String.ofList (path ++ '?' :: escape staysInQuery query)

/-- Whether a header can carry a text. -/
def isHeaderText (text : String) : Bool :=
  text.toList.all fun c => c = '\t' ∨ (' ' ≤ c ∧ c.toNat ≠ 127)

end FuturesDesk.Http
