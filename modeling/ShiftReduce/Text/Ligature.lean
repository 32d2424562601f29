/-
  ShiftReduce.Text.Ligature
  ────────────────────────────────
  **LETTERS THAT SHARE THEIR COLUMNS.**

  In some scripts letters next to each other are drawn as one.  A text is read
  from its end: `Ligature` is the last part of such a sign, with which the rest
  of the text begins, and `Ligature.extend?` says what the character before it
  does to it.

      Arabic       a lam takes in the alef behind it
      Buginese     the letter a with the vowel i, joined with a ya
      Hebrew       an alef, joined with a lamed
      Khmer        a letter goes below the one before it, after a coeng sign
      Lisu         two tone letters
      Old Turkic   the letters ec and i, joined
      Tifinagh     two consonants with a joiner between them

  Marks that a display may ignore can stand anywhere inside, and so can a zero
  width joiner; in Arabic it is every transparent mark instead.
-/
import ShiftReduce.Text.Emoji
import ShiftReduce.Text.ZeroWidth

namespace ShiftReduce

/-! ## §1. Classes of letters. -/

/-- The character is a form of the Arabic letter lam. -/
def isLam (c : Char) : Bool :=
  inRanges [(0x644, 0x644), (0x6B5, 0x6B8), (0x76A, 0x76A), (0x8A6, 0x8A6), (0x8C7, 0x8C7)] c

/-- The character is a form of the Arabic letter alef. -/
def isAlef (c : Char) : Bool :=
  inRanges [(0x622, 0x623), (0x625, 0x625), (0x627, 0x627), (0x671, 0x673), (0x675, 0x675),
    (0x773, 0x774), (0x870, 0x882)] c

/-- The character is a Khmer letter that can go below another. -/
def isKhmerSubscript (c : Char) : Bool :=
  inRanges [(0x1780, 0x1782), (0x1784, 0x1787), (0x1789, 0x178C), (0x178E, 0x1793),
    (0x1795, 0x1798), (0x179B, 0x179D), (0x17A0, 0x17A0), (0x17A2, 0x17A2), (0x17A7, 0x17A7),
    (0x17AB, 0x17AC), (0x17AF, 0x17AF)] c

/-- The character is a Tifinagh consonant. -/
def isTifinaghConsonant (c : Char) : Bool :=
  inRanges [(0x2D31, 0x2D65), (0x2D6F, 0x2D6F)] c

/-- The character can be the first letter of a Lisu tone. -/
def isLisuToneStart (c : Char) : Bool :=
  inRanges [(0xA4F8, 0xA4FB)] c

/-- The character can be the second letter of a Lisu tone. -/
def isLisuToneEnd (c : Char) : Bool :=
  inRanges [(0xA4FC, 0xA4FD)] c

/-! ## §2. The last part of a ligature. -/

/-- The last part of a ligature.  A part that is `joined` has a zero width
joiner in front of it. -/
inductive Ligature where
  /-- An Arabic alef, perhaps behind marks. -/
  | alef
  /-- A Hebrew lamed. -/
  | lamed (joined : Bool)
  /-- A Khmer letter that can go below another. -/
  | khmerSubscript
  /-- A Buginese ya. -/
  | ya (joined : Bool)
  /-- A Buginese vowel i, joined with a ya. -/
  | vowelYa
  /-- The second letter of a Lisu tone. -/
  | lisuToneEnd
  /-- An Old Turkic i. -/
  | orkhonI (joined : Bool)
  /-- A Tifinagh consonant. -/
  | tifinagh (joined : Bool)
  /-- A Tifinagh consonant behind the joiner of its script. -/
  | tifinaghPair
  deriving DecidableEq

namespace Ligature

/-- The last part that a single character is. -/
def ofChar? (c : Char) : Option Ligature :=
  if isAlef c then some .alef
  else if c.toNat = 0x5DC then some (.lamed false)
  else if isKhmerSubscript c then some .khmerSubscript
  else if c.toNat = 0x1A10 then some (.ya false)
  else if isLisuToneEnd c then some .lisuToneEnd
  else if c.toNat = 0x10C03 then some (.orkhonI false)
  else if isTifinaghConsonant c then some (.tifinagh false)
  else none

/-- The part with a zero width joiner in front of it. -/
def join : Ligature → Ligature
  | .lamed _ => .lamed true
  | .ya _ => .ya true
  | .orkhonI _ => .orkhonI true
  | .tifinagh _ => .tifinagh true
  | part => part

/-! ## §3. The character in front of it. -/

/-- What a letter in front of the part makes of it: the columns that the letter
adds, and the larger part, if the ligature is not complete.  A coeng sign and
the first of two Tifinagh consonants take back the column that was counted for
what they join.  There is nothing if the letter does not belong to the
ligature. -/
def letter? : Ligature → Char → Option (Int × Option Ligature)
  | .alef, c =>
    if isLam c then some (0, none)
    else if isTransparent c then some (0, some .alef)
    else none
  | .lamed joined, c => if joined && c.toNat = 0x5D0 then some (0, none) else none
  | .khmerSubscript, c => if c.toNat = 0x17D2 then some (-1, none) else none
  | .ya joined, c => if joined && c.toNat = 0x1A17 then some (0, some .vowelYa) else none
  | .vowelYa, c => if c.toNat = 0x1A15 then some (0, none) else none
  | .lisuToneEnd, c => if isLisuToneStart c then some (0, none) else none
  | .orkhonI joined, c => if joined && c.toNat = 0x10C32 then some (0, none) else none
  | .tifinagh joined, c =>
    if c.toNat = 0x2D7F then some (1, some .tifinaghPair)
    else if joined && isTifinaghConsonant c then some (0, none)
    else none
  | .tifinaghPair, c => if isTifinaghConsonant c then some (-1, none) else none

/-- What a character in front of the part makes of it, with what may stand
inside of a ligature taken into account. -/
def extend? (part : Ligature) (c : Char) : Option (Int × Option Ligature) :=
  if part = .alef then part.letter? c
  else if c = joiner then some (0, some part.join)
  else if isIgnorableMark c then some (0, some part)
  else part.letter? c

end Ligature

end ShiftReduce
