import LoopProtocol.Text.CodeRanges

/-!
# Quoted text

Names appear in messages between double quotes, with every character that could be misread
replaced by an escape.
-/

namespace LoopProtocol.Text

/-- Whether the code point of `c` lies in one of the ranges. -/
def inRanges (ranges : Array CodeRange) (c : Char) : Bool :=
  ranges.any fun (first, last) => first ≤ c.toNat && c.toNat ≤ last

/-- Whether a character attaches to the one before it. -/
def isCombining (c : Char) : Bool := inRanges combiningRanges c

/-- Whether a character leaves no visible mark, or is a blank other than the space. -/
def isUnprintable (c : Char) : Bool := inRanges unprintableRanges c

/-- Whether a display leaves the character out by default. -/
def isIgnorable (c : Char) : Bool := inRanges ignorableRanges c

/-- Whether a character inside quotes would not be seen as what it is. -/
def isObscure (c : Char) : Bool := isCombining c || isUnprintable c || isIgnorable c

/-- The escape `\u{…}` of a character: its code point in lower-case hexadecimal digits. -/
def codePointEscape (c : Char) : List Char :=
  ['\\', 'u', '\x7b'] ++ Nat.toDigits 16 c.toNat ++ ['\x7d']

/-- How one character is written inside quotes: the controls and marks that have a name by name,
all others that are obscure by number, and the rest as they are. -/
def quotedChar (c : Char) : List Char :=
  if c = '\x00' then ['\\', '0']
  else if c = '\t' then ['\\', 't']
  else if c = '\n' then ['\\', 'n']
  else if c = '\r' then ['\\', 'r']
  else if c = '"' then ['\\', '"']
  else if c = '\\' then ['\\', '\\']
  else if isObscure c then codePointEscape c
  else [c]

/-- The text between double quotes, escaped. -/
def quoted (s : String) : String :=
  String.ofList ('"' :: s.toList.flatMap quotedChar ++ ['"'])

end LoopProtocol.Text
