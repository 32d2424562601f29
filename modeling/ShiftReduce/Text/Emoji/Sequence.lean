/-
  ShiftReduce.Text.Emoji.Sequence
  ────────────────────────────────
  **CHARACTERS THAT ARE SHOWN AS ONE EMOJI.**

  An emoji takes two columns, and so does a sequence of characters that makes
  one emoji: a person with a skin tone, a flag of two letters, several emoji
  put together by zero width joiners.  A text is read from its end:
  `EmojiTail` is the last part of such a sequence, with which the rest of the
  text begins, and `EmojiTail.extend?` says what the character before it does
  to it.
-/
import ShiftReduce.Text.Emoji

namespace ShiftReduce

/-! ## §1. The last part of a sequence. -/

/-- The last part of a sequence that makes an emoji. -/
inductive EmojiTail where
  /-- An emoji. -/
  | emoji
  /-- A skin tone, which colours the character before it. -/
  | skinTone
  /-- One letter of a flag, or several. -/
  | flagLetters (several : Bool)
  /-- A zero width joiner and an emoji. -/
  | joined
  /-- The frame of a key in front of a joiner and an emoji. -/
  | joinedKeycap
  /-- One letter of a flag in front of a joiner and an emoji. -/
  | joinedFlagLetter
  /-- At least two letters of flags in front of a joiner and an emoji. -/
  | joinedFlagLetters (even : Bool)
  /-- The tags of a subdivision in front of a joiner and an emoji: the end, in
  front of it so many letters, and in front of them so many digits. -/
  | joinedTags (letters digits : Nat)
  deriving DecidableEq

namespace EmojiTail

/-- The last part that a single character is. -/
def ofChar? (c : Char) : Option EmojiTail :=
  if isRegional c then some (.flagLetters false)
  else if isSkinTone c then some .skinTone
  else if isWideEmoji c then some .emoji
  else none

/-! ## §2. The character in front of it. -/

/-- What a tag, or the flag that they all belong to, makes of the tags behind
it.  A subdivision has one to three digits in front of at most four letters, or
three to six letters and no digit. -/
def tag? (letters digits : Nat) (c : Char) : Option EmojiTail :=
  if digits = 0 then
    if isTagLetter c && letters < 6 then some (.joinedTags (letters + 1) 0)
    else if isTagDigit c && letters ≤ 4 then some (.joinedTags letters 1)
    else if c = taggedFlag && 3 ≤ letters then some .emoji
    else none
  else if isTagDigit c && digits < 3 then some (.joinedTags letters (digits + 1))
  else if c = taggedFlag && digits = 3 then some .emoji
  else none

/-- What a character in front of the part makes of it: the columns that the
character adds, and the larger part.  Behind a joiner all is one emoji, and
the letters of flags that stand there count in pairs, the second of a pair
taking back what was counted for the first.  There is nothing if the character
does not belong to the sequence. -/
def extend? : EmojiTail → Char → Option (Int × EmojiTail)
  | .emoji, c => if c = joiner then some (0, .joined) else none
  | .skinTone, c =>
    if isModifierBase c then some (0, .emoji)
    else if c = joiner then some (0, .joined)
    else none
  | .flagLetters several, c =>
    if isRegional c then some (1, .flagLetters true)
    else if several && c = joiner then some (0, .joined)
    else none
  | .joined, c =>
    if c = enclosingKeycap then some (0, .joinedKeycap)
    else if isRegional c then some (1, .joinedFlagLetter)
    else if isSkinTone c then some (0, .skinTone)
    else if c = tagEnd then some (0, .joinedTags 0 0)
    else if isWideEmoji c then some (0, .emoji)
    else none
  | .joinedKeycap, _ => none
  | .joinedFlagLetter, c => if isRegional c then some (-1, .joinedFlagLetters true) else none
  | .joinedFlagLetters even, c =>
    if c = joiner then some (0, .joined)
    else if isRegional c then some (if even then 3 else -1, .joinedFlagLetters (!even))
    else none
  | .joinedTags letters digits, c => (tag? letters digits c).map fun part => (0, part)

/-- An emoji selector in front of the part can make the character before it a
part of the same emoji. -/
def takesSelector : EmojiTail → Bool
  | .joined | .joinedKeycap => true
  | _ => false

end EmojiTail

end ShiftReduce
