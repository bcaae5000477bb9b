import LoopProtocol.BoundTable.Basic
import LoopProtocol.Text.CodeUnit

/-!
# Reading a table from JSON

A table is read from exactly one JSON object whose values are whole numbers below 2 ^ 64, written
without sign, fraction, exponent or leading zeros. The reader takes one character at a time and
stops at the first that the format does not allow; of a repeated name the last number counts.
-/

namespace LoopProtocol

open Text

/-- How far into the object the reader is. -/
inductive ReaderStage where
  /-- Before the opening brace. -/
  | start
  /-- After the opening brace, where a name or the closing brace stands. -/
  | opened
  /-- After a comma, where a name stands. -/
  | next
  /-- In a name of which these units were read, the latest first. -/
  | name (units : List TextUnit)
  /-- After a backslash in a name. -/
  | escape (units : List TextUnit)
  /-- In the four digits of a code unit, of which `left` are still to come. -/
  | codeUnit (units : List TextUnit) (left : Nat) (value : Nat)
  /-- After a name, where a colon stands. -/
  | colon (name : String)
  /-- After the colon, where a number stands. -/
  | value (name : String)
  /-- In a number of which this much was read. -/
  | number (name : String) (value : Nat)
  /-- After a number, where a comma or the closing brace stands. -/
  | between
  /-- After the closing brace. -/
  | closed
deriving DecidableEq

/-- The reader of a table: where it is, and the members it has read. -/
structure TableReader where
  stage : ReaderStage
  table : BoundTable
deriving DecidableEq

/-- The four characters that may stand between the parts of JSON text. -/
def isJsonBlank (c : Char) : Bool := c = ' ' || c = '\t' || c = '\n' || c = '\r'

/-- The value of a hexadecimal digit. -/
def hexDigit? (c : Char) : Option Nat :=
  if '0' ≤ c && c ≤ '9' then some (c.toNat - '0'.toNat)
  else if 'a' ≤ c && c ≤ 'f' then some (c.toNat - 'a'.toNat + 10)
  else if 'A' ≤ c && c ≤ 'F' then some (c.toNat - 'A'.toNat + 10)
  else none

/-- The character that a one-letter escape stands for. -/
def shortEscape? (c : Char) : Option Char :=
  match c with
  | '"' => some '"'
  | '\\' => some '\\'
  | '/' => some '/'
  | 'b' => some '\x08'
  | 'f' => some '\x0c'
  | 'n' => some '\n'
  | 'r' => some '\r'
  | 't' => some '\t'
  | _ => none

namespace TableReader

/-- Goes on to another stage with the same members. -/
def goto (r : TableReader) (stage : ReaderStage) : Option TableReader := some { r with stage }

/-- Reads a character that stands between a member and what follows it. -/
def between (r : TableReader) (c : Char) : Option TableReader :=
  if isJsonBlank c then r.goto .between
  else if c = ',' then r.goto .next
  else if c = '\x7d' then r.goto .closed
  else none

/-- Reads one character of a name. -/
def inName (r : TableReader) (units : List TextUnit) (c : Char) : Option TableReader :=
  if c = '"' then do
    let chars ← joinUnits units.reverse
    r.goto (.colon (String.ofList chars))
  else if c = '\\' then r.goto (.escape units)
  else if c.toNat < 0x20 then none
  else r.goto (.name (.plain c :: units))

/-- Reads the character after a backslash. -/
def inEscape (r : TableReader) (units : List TextUnit) (c : Char) : Option TableReader :=
  if c = 'u' then r.goto (.codeUnit units 4 0)
  else do
    let e ← shortEscape? c
    r.goto (.name (.plain e :: units))

/-- Reads one digit of a code unit. -/
def inCodeUnit (r : TableReader) (units : List TextUnit) (left value : Nat) (c : Char) :
    Option TableReader := do
  let d ← hexDigit? c
  if left ≤ 1 then r.goto (.name (.code (value * 16 + d) :: units))
  else r.goto (.codeUnit units (left - 1) (value * 16 + d))

/-- Reads the character after a digit of a number: another digit, unless the number is zero so far
or would leave 64 bits, or what stands after the member. -/
def inNumber (r : TableReader) (name : String) (value : Nat) (c : Char) : Option TableReader :=
  if c.isDigit then
    if value = 0 then none
    else
      let grown := value * 10 + (c.toNat - '0'.toNat)
      if grown < UInt64.size then r.goto (.number name grown) else none
  else { r with table := r.table.insert name (UInt64.ofNat value) }.between c

/-- Reads one character. -/
def step (r : TableReader) (c : Char) : Option TableReader :=
  match r.stage with
  | .start => if isJsonBlank c then some r else if c = '\x7b' then r.goto .opened else none
  | .opened =>
    if isJsonBlank c then some r
    else if c = '"' then r.goto (.name [])
    else if c = '\x7d' then r.goto .closed
    else none
  | .next => if isJsonBlank c then some r else if c = '"' then r.goto (.name []) else none
  | .name units => r.inName units c
  | .escape units => r.inEscape units c
  | .codeUnit units left value => r.inCodeUnit units left value c
  | .colon name => if isJsonBlank c then some r else if c = ':' then r.goto (.value name) else none
  | .value name =>
    if isJsonBlank c then some r
    else if c.isDigit then r.goto (.number name (c.toNat - '0'.toNat))
    else none
  | .number name value => r.inNumber name value c
  | .between => r.between c
  | .closed => if isJsonBlank c then some r else none

/-- Reads all characters of a text. -/
def read (r : TableReader) (text : List Char) : Option TableReader := text.foldlM step r

end TableReader

/-- The table that a JSON text describes, if it describes one. -/
def BoundTable.ofJson? (text : String) : Option BoundTable := do
  let r ← TableReader.read ⟨.start, .empty⟩ text.toList
  if r.stage = .closed then some r.table else none

end LoopProtocol
