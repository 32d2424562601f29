/-
  ShiftReduce.Text.Width
  ────────────────────────────────
  **HOW MANY COLUMNS A TEXT TAKES.**

  A character by itself takes no column, one or two; one sign of Khmer takes
  three.  In a text a control takes one, a line feed with a carriage return in
  front of it one for both, and three things change the sum: letters of some
  scripts share a column, several characters are shown as one emoji, and a
  selector makes an emoji or a text of the character before it.  Each of them
  hangs on what stands behind a character, so a text is measured from its end.
-/
import ShiftReduce.Text.Emoji.Sequence
import ShiftReduce.Text.Ligature
import ShiftReduce.Text.Wide

namespace ShiftReduce

/-! ## §1. One character. -/

/-- The number of columns that a character takes by itself.  Controls take
none. -/
def charWidth (c : Char) : Nat :=
  if c.toNat < 0x20 || (0x7F ≤ c.toNat && c.toNat < 0xA0) then 0
  else if c.toNat ≤ 0xA0 then 1
  else if c.toNat = 0x17D8 then 3
  else if isZeroWidth c then 0
  else if isWide c then 2
  else 1

/-! ## §2. What a text begins with. -/

/-- The sign that a text begins with, as far as a character in front of it can
belong to it. -/
inductive Opening where
  /-- Nothing that a character in front of it belongs to. -/
  | other
  /-- A line feed. -/
  | lineFeed
  /-- The last part of a ligature. -/
  | ligature (part : Ligature)
  /-- The last part of an emoji. -/
  | emoji (part : EmojiTail)
  deriving DecidableEq

/-- How a selector asks for the character before it to be shown. -/
inductive Presentation where
  | text
  | emoji
  deriving DecidableEq

/-- The beginning of a text: a sign, and perhaps a selector in front of it. -/
structure Beginning where
  opening : Opening
  selector : Option Presentation

namespace Beginning

/-- The beginning of a text that no character in front of it belongs to. -/
def other : Beginning := ⟨.other, none⟩

/-- A single character. -/
def ofChar (c : Char) : Beginning :=
  match Ligature.ofChar? c, EmojiTail.ofChar? c with
  | some part, _ => ⟨.ligature part, none⟩
  | none, some part => ⟨.emoji part, none⟩
  | none, none => other

/-- A selector in front of a sign.  A ligature goes on across it, and so does an
emoji that the selector can enlarge. -/
def ofSelector (presentation : Presentation) (opening : Opening) : Beginning :=
  match opening with
  | .ligature part => ⟨.ligature part, some presentation⟩
  | .emoji part =>
    if presentation = .emoji && part.takesSelector then ⟨.emoji part, some .emoji⟩
    else ⟨.other, some presentation⟩
  | _ => ⟨.other, some presentation⟩

/-- The sign as a character sees it on which the selector has no effect.  Only a
ligature goes on across such a selector. -/
def pastSelector (beginning : Beginning) : Opening :=
  match beginning.selector, beginning.opening with
  | none, opening => opening
  | some _, .ligature part => .ligature part
  | some _, _ => .other

end Beginning

/-! ## §3. A character in front of a text. -/

/-- A character that belongs to no sign behind it: its own width, and the
beginning that it is. -/
def standAlone (c : Char) : Int × Beginning :=
  (charWidth c, .ofChar c)

/-- The columns that a character adds to a text that begins with the given sign,
and the beginning of the longer text. -/
def Opening.push (c : Char) (next : Opening) : Int × Beginning :=
  if c = '\n' then (1, ⟨.lineFeed, none⟩)
  else if c = '\r' && next = .lineFeed then (0, .other)
  else if c.toNat ≤ 0xA0 then (1, .other)
  else if c = emojiSelector then (0, .ofSelector .emoji next)
  else if c = textSelector then (0, .ofSelector .text next)
  else
    match next with
    | .ligature part =>
      match part.extend? c with
      | some (columns, some larger) => (columns, ⟨.ligature larger, none⟩)
      | some (columns, none) => (columns, .other)
      | none => standAlone c
    | .emoji part =>
      match part.extend? c with
      | some (columns, larger) => (columns, ⟨.emoji larger, none⟩)
      | none => standAlone c
    | _ => standAlone c

/-- The columns that a character adds to the text behind it, and the beginning
of the longer text.  With an emoji selector behind it a character becomes an
emoji, or a part of the emoji that follows. -/
def Beginning.push (c : Char) (next : Beginning) : Int × Beginning :=
  match next.selector with
  | some .emoji =>
    if takesEmojiSelector c then
      (match next.opening with | .emoji _ => 0 | _ => 2, ⟨.emoji .emoji, none⟩)
    else next.pastSelector.push c
  | some .text =>
    if takesTextSelector c then (1, .other) else next.pastSelector.push c
  | none => next.opening.push c

/-! ## §4. A text. -/

/-- The number of columns that a text takes, and what it begins with. -/
def textExtent (text : List Char) : Int × Beginning :=
  text.foldr
    (fun c rest =>
      let (columns, beginning) := rest.2.push c
      (rest.1 + columns, beginning))
    (0, .other)

/-- The number of columns that a text takes. -/
def textWidth (text : List Char) : Nat :=
  (textExtent text).1.toNat

end ShiftReduce
