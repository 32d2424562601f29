/-
  ShiftReduce.Text.Quoted
  ────────────────────────────────
  **TEXT BETWEEN QUOTES, WITH NOTHING INVISIBLE LEFT IN IT.**

  The quote and the backslash are escaped, four controls have a letter of their
  own, and every other character that would not be seen as it is, because it
  cannot be printed or is drawn upon its neighbour, is shown by its code point.
-/
import ShiftReduce.Text.GraphemeExtend
import ShiftReduce.Text.Unprintable

namespace ShiftReduce

/-- A character shown by its code point in hexadecimal, without leading zeros. -/
def codePointEscape (c : Char) : List Char :=
  ['\\', 'u', '\x7b'] ++ Nat.toDigits 16 c.toNat ++ ['\x7d']

/-- A character as it appears between the quotes. -/
def quotedChar (c : Char) : List Char :=
  if c = '"' then ['\\', '"']
  else if c = '\\' then ['\\', '\\']
  else if c = '\t' then ['\\', 't']
  else if c = '\n' then ['\\', 'n']
  else if c = '\r' then ['\\', 'r']
  else if c.toNat = 0 then ['\\', '0']
  else if isAttachedMark c || isUnprintable c then codePointEscape c
  else [c]

/-- The text between quotes. -/
def quoted (text : String) : String :=
  "\"" ++ String.ofList (text.toList.flatMap quotedChar) ++ "\""

end ShiftReduce
