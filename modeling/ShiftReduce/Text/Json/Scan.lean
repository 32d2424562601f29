/-
  ShiftReduce.Text.Json.Scan
  ────────────────────────────────
  **READING JSON, PIECE BY PIECE.**

  Every function takes the text that is left and gives the text after the piece
  it has read, or nothing if the piece is not there.  Values that nobody asks
  for are skipped: their grammar is checked, but not what their escapes stand
  for.
-/
import ShiftReduce.Text.Json

namespace ShiftReduce.Json

/-! ## §1. Blanks, words and digits. -/

/-- The four characters that may stand between the pieces. -/
def isBlank (c : Char) : Bool :=
  c = ' ' || c = '\t' || c = '\n' || c = '\r'

/-- The text without the blanks at its beginning. -/
def skipBlanks (text : List Char) : List Char :=
  text.dropWhile isBlank

/-- Reads exactly the given word. -/
def skipWord? (word : String) (text : List Char) : Option (List Char) :=
  word.toList.isPrefixOf? text

/-- The value of a hexadecimal digit of either case. -/
def hexValue? (c : Char) : Option Nat :=
  let n := c.toNat
  if 48 ≤ n ∧ n ≤ 57 then some (n - 48)
  else if 65 ≤ n ∧ n ≤ 70 then some (n - 55)
  else if 97 ≤ n ∧ n ≤ 102 then some (n - 87)
  else none

/-- The number that four hexadecimal digits stand for. -/
def hexUnit? (a b c d : Char) : Option Nat := do
  let a ← hexValue? a
  let b ← hexValue? b
  let c ← hexValue? c
  let d ← hexValue? d
  pure (((a * 16 + b) * 16 + c) * 16 + d)

/-! ## §2. Strings. -/

/-- The character that a backslash and the given letter stand for. -/
def letterEscape? (c : Char) : Option Char :=
  match c with
  | '"' => some '"'
  | '\\' => some '\\'
  | '/' => some '/'
  | 'b' => some (Char.ofNat 8)
  | 'f' => some (Char.ofNat 12)
  | 'n' => some '\n'
  | 'r' => some '\r'
  | 't' => some '\t'
  | _ => none

/-- Reads a string up to its closing quote, once the opening one has been read;
the escapes are checked and left as they are. -/
def takeString? : List Char → Option (List Char × List Char)
  | [] => none
  | '"' :: rest => some ([], rest)
  | '\\' :: 'u' :: a :: b :: c :: d :: rest =>
    if (hexUnit? a b c d).isSome then
      (takeString? rest).map fun taken => ('\\' :: 'u' :: a :: b :: c :: d :: taken.1, taken.2)
    else none
  | '\\' :: c :: rest =>
    if (letterEscape? c).isSome then
      (takeString? rest).map fun taken => ('\\' :: c :: taken.1, taken.2)
    else none
  | c :: rest =>
    if c = '\\' || c.toNat < 32 then none
    else (takeString? rest).map fun taken => (c :: taken.1, taken.2)

/-- Replaces the escapes of a string by what they stand for.  A code point
above U+FFFF is written as two units, a high and a low surrogate; a surrogate
that stands alone is refused. -/
def unescape? : List Char → Option (List Char)
  | [] => some []
  | '\\' :: 'u' :: a :: b :: c :: d :: rest =>
    match hexUnit? a b c d with
    | none => none
    | some unit =>
      if 0xDC00 ≤ unit ∧ unit ≤ 0xDFFF then none
      else if 0xD800 ≤ unit ∧ unit ≤ 0xDBFF then
        match rest with
        | '\\' :: 'u' :: e :: f :: g :: h :: rest =>
          match hexUnit? e f g h with
          | none => none
          | some low =>
            if 0xDC00 ≤ low ∧ low ≤ 0xDFFF then
              (unescape? rest).map
                (Char.ofNat (0x10000 + (unit - 0xD800) * 0x400 + (low - 0xDC00)) :: ·)
            else none
        | _ => none
      else (unescape? rest).map (Char.ofNat unit :: ·)
  | '\\' :: c :: rest =>
    match letterEscape? c with
    | none => none
    | some escaped => (unescape? rest).map (escaped :: ·)
  | c :: rest => (unescape? rest).map (c :: ·)

/-! ## §3. Numbers and truth values. -/

/-- Reads the digits of a whole number, which begin with a zero only if there is no other. -/
def takeDigits? (text : List Char) : Option (List Char × List Char) :=
  match text.takeWhile Char.isDigit with
  | [] => none
  | ['0'] => some (['0'], text.drop 1)
  | '0' :: _ => none
  | digits => some (digits, text.dropWhile Char.isDigit)

/-- Reads digits, at least one, whatever they begin with. -/
def skipDigits? (text : List Char) : Option (List Char) :=
  if (text.takeWhile Char.isDigit).isEmpty then none else some (text.dropWhile Char.isDigit)

/-- Reads an exponent, if there is one. -/
def skipExponent? (text : List Char) : Option (List Char) :=
  match text with
  | c :: rest =>
    if c = 'e' || c = 'E' then
      match rest with
      | '+' :: digits => skipDigits? digits
      | '-' :: digits => skipDigits? digits
      | digits => skipDigits? digits
    else some text
  | [] => some text

/-- Reads a fraction, if there is one. -/
def skipFraction? (text : List Char) : Option (List Char) :=
  match text with
  | '.' :: digits => skipDigits? digits
  | _ => some text

/-- Reads a number of any form. -/
def skipNumber? (text : List Char) : Option (List Char) := do
  let unsigned :=
    match text with
    | '-' :: rest => rest
    | _ => text
  let (_, rest) ← takeDigits? unsigned
  skipExponent? (← skipFraction? rest)

/-- Reads a whole number that is not negative and is written without fraction and exponent. -/
def takeNat? (text : List Char) : Option (Nat × List Char) := do
  let (digits, rest) ← takeDigits? text
  match rest with
  | c :: _ =>
    if c = '.' || c = 'e' || c = 'E' then none
    else pure (valueOf digits, rest)
  | [] => pure (valueOf digits, rest)
where
  /-- The number that decimal digits stand for. -/
  valueOf (digits : List Char) : Nat :=
    digits.foldl (fun value c => value * 10 + (c.toNat - 48)) 0

/-- Reads a truth value. -/
def takeBool? (text : List Char) : Option (Bool × List Char) :=
  match skipWord? "true" text with
  | some rest => some (true, rest)
  | none => (skipWord? "false" text).map fun rest => (false, rest)

/-! ## §4. Values of any kind. -/

mutual

/-- Reads a value of any kind, with blanks before it, if it nests no deeper
than `fuel` allows. -/
def skipValue? : Nat → List Char → Option (List Char)
  | 0, _ => none
  | fuel + 1, text =>
    match skipBlanks text with
    | '"' :: rest => (takeString? rest).map Prod.snd
    | '[' :: rest =>
      match skipBlanks rest with
      | ']' :: rest => some rest
      | rest => skipItems? fuel rest
    | '\x7b' :: rest =>
      match skipBlanks rest with
      | '\x7d' :: rest => some rest
      | rest => skipFields? fuel rest
    | 'n' :: rest => skipWord? "ull" rest
    | 't' :: rest => skipWord? "rue" rest
    | 'f' :: rest => skipWord? "alse" rest
    | rest => skipNumber? rest

/-- Reads the items of an array up to its closing bracket. -/
def skipItems? : Nat → List Char → Option (List Char)
  | 0, _ => none
  | fuel + 1, text =>
    match (skipValue? fuel text).map skipBlanks with
    | some (',' :: rest) => skipItems? fuel rest
    | some (']' :: rest) => some rest
    | _ => none

/-- Reads the fields of an object up to its closing brace. -/
def skipFields? : Nat → List Char → Option (List Char)
  | 0, _ => none
  | fuel + 1, text =>
    match skipBlanks text with
    | '"' :: rest =>
      match (takeString? rest).map (fun taken => skipBlanks taken.2) with
      | some (':' :: rest) =>
        match (skipValue? fuel rest).map skipBlanks with
        | some (',' :: rest) => skipFields? fuel rest
        | some ('\x7d' :: rest) => some rest
        | _ => none
      | _ => none
    | _ => none

end

end ShiftReduce.Json
