/-! Lower case for comparing texts with names of ASCII letters. The Kelvin sign is the one character
beyond ASCII whose lower case is an ASCII letter. -/
namespace FuturesDesk.Text

def lowerChar (c : Char) : Char := if c = '\u212A' then 'k' else c.toLower

def lowered (s : String) : String := String.ofList (s.toList.map lowerChar)

end FuturesDesk.Text
