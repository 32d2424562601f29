/-
  ShiftReduce.Text.Styled
  ────────────────────────────────
  **TEXT WITH STYLES FOR A TERMINAL.**

  A style begins with an escape and an opening bracket and ends with the first
  letter m behind them.  A terminal does not show it, so from the bracket to
  the m every character that could be seen gives back one column.  The escape
  keeps its column, and a style that does not end takes the rest of the text.
-/
import ShiftReduce.Text.Width

namespace ShiftReduce

/-- A place in a text, as styles divide it. -/
inductive StylePlace where
  /-- Outside of a style. -/
  | plain
  /-- Behind an escape. -/
  | escape
  /-- Behind an escape and an opening bracket. -/
  | style

/-- The number of columns that the styles in a text give back, when its first
character stands at the given place. -/
def hiddenColumns : StylePlace → List Char → Nat
  | _, [] => 0
  | .plain, c :: rest => hiddenColumns (if c = '\x1b' then .escape else .plain) rest
  | .escape, c :: rest =>
    if c = '[' then 1 + hiddenColumns .style rest else hiddenColumns .plain rest
  | .style, c :: rest =>
    (if charWidth c = 0 then 0 else 1)
      + hiddenColumns (if c = 'm' then .plain else .style) rest

/-- The number of columns that a terminal shows of a text. -/
def shownWidth (text : List Char) : Nat :=
  textWidth text - hiddenColumns .plain text

end ShiftReduce
