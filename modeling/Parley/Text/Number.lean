import Parley.Text.Words

/-!
# Written numbers

Numbers in attributes are written in decimal digits of ASCII, with a plus sign in front if one
likes, and are below 2 ^ 64.
-/

namespace Parley.Text

/-- The number that decimal digits stand for. -/
def decimalValue (digits : List Char) : Nat :=
  digits.foldl (fun n d => n * 10 + (d.toNat - '0'.toNat)) 0

/-- Digits without the sign that may stand in front of them. -/
def dropPlus : List Char → List Char
  | '+' :: rest => rest
  | cs => cs

/-- The number that a text stands for. -/
def readNumber? (s : String) : Option Nat :=
  let digits := dropPlus s.toList
  if digits.isEmpty || !digits.all Char.isDigit then none
  else if decimalValue digits < UInt64.size then some (decimalValue digits)
  else none

end Parley.Text
