/-!
# Code units

An escape in a text can name a character by its 16-bit code unit. A character beyond U+FFFF takes
two of them, a leading and a trailing surrogate, and neither surrogate is a character alone.
-/

namespace LoopProtocol.Text

/-- One element of a text as it was written: a character, or a code unit below 2 ^ 16. -/
inductive TextUnit where
  | plain (c : Char)
  | code (unit : Nat)
deriving DecidableEq

/-- Whether a code unit is the first half of a pair. -/
def isLeadingSurrogate (unit : Nat) : Bool := 0xd800 ≤ unit && unit < 0xdc00

/-- Whether a code unit is the second half of a pair. -/
def isTrailingSurrogate (unit : Nat) : Bool := 0xdc00 ≤ unit && unit < 0xe000

/-- The character that a leading and a trailing surrogate name together. -/
def surrogatePair (lead trail : Nat) : Char :=
  Char.ofNat (0x10000 + (lead - 0xd800) * 0x400 + (trail - 0xdc00))

/-- The characters that the units name; none when a surrogate stands without its partner. -/
def joinUnits : List TextUnit → Option (List Char)
  | [] => some []
  | .plain c :: rest => (joinUnits rest).map (c :: ·)
  | .code lead :: .code trail :: rest =>
    if isLeadingSurrogate lead then
      if isTrailingSurrogate trail then (joinUnits rest).map (surrogatePair lead trail :: ·)
      else none
    else if isTrailingSurrogate lead then none
    else (joinUnits (.code trail :: rest)).map (Char.ofNat lead :: ·)
  | .code unit :: rest =>
    if isLeadingSurrogate unit || isTrailingSurrogate unit then none
    else (joinUnits rest).map (Char.ofNat unit :: ·)

end LoopProtocol.Text
