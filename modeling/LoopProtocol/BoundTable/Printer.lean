import LoopProtocol.BoundTable.Basic

/-!
# Writing a table as JSON

A table is written as one JSON object without blanks: its names in table order, each with its
number in decimal digits.
-/

namespace LoopProtocol

/-- How one character of a name is written: the quote, the backslash and five controls by a short
escape, the other controls by their code unit, all else as it is. -/
def jsonChar (c : Char) : List Char :=
  if c = '"' then ['\\', '"']
  else if c = '\\' then ['\\', '\\']
  else if c = '\x08' then ['\\', 'b']
  else if c = '\x0c' then ['\\', 'f']
  else if c = '\n' then ['\\', 'n']
  else if c = '\r' then ['\\', 'r']
  else if c = '\t' then ['\\', 't']
  else if c.toNat < 0x20 then
    ['\\', 'u', '0', '0', Nat.digitChar (c.toNat / 16), Nat.digitChar (c.toNat % 16)]
  else [c]

namespace BoundTable

/-- A member of the object: the name in quotes, a colon and the number. -/
def memberChars (e : String × UInt64) : List Char :=
  '"' :: e.1.toList.flatMap jsonChar ++ ['"', ':'] ++ Nat.toDigits 10 e.2.toNat

/-- The members with a comma between each two. -/
def membersChars : BoundEntries → List Char
  | [] => []
  | [e] => memberChars e
  | e :: rest => memberChars e ++ ',' :: membersChars rest

/-- The table as compact JSON text. -/
def json (t : BoundTable) : String :=
  String.ofList ('\x7b' :: membersChars t.entries ++ ['\x7d'])

end BoundTable

end LoopProtocol
