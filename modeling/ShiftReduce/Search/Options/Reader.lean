/-
  ShiftReduce.Search.Options.Reader
  ────────────────────────────────
  **READING THE OPTIONS OF A SEARCH.**

  Options are an object with the fields `deduplicate` and `max_steps`, or an
  array of their values in this order.  What is missing has its default, and
  fields with other names are skipped; a field given twice is refused.
-/
import ShiftReduce.Search.Options
import ShiftReduce.Text.Json.Scan

namespace ShiftReduce.SearchOptions

open Json

/-! ## §1. Values. -/

/-- The largest step limit that can be read: what 64 bits hold. -/
def largestLimit : Nat := 0xFFFFFFFFFFFFFFFF

/-- Reads the value of `deduplicate`. -/
def takeDeduplicate? (text : List Char) : Option (Bool × List Char) :=
  takeBool? (skipBlanks text)

/-- Reads the value of `max_steps`: a whole number, or `null` for no limit. -/
def takeMaxSteps? (text : List Char) : Option (Option Nat × List Char) :=
  match skipWord? "null" (skipBlanks text) with
  | some rest => some (none, rest)
  | none =>
    match takeNat? (skipBlanks text) with
    | some (limit, rest) => if limit ≤ largestLimit then some (some limit, rest) else none
    | none => none

/-! ## §2. Objects. -/

/-- The fields read so far. -/
structure GivenFields where
  deduplicate : Option Bool
  maxSteps : Option (Option Nat)

/-- The options with the given fields, and the defaults for the others. -/
def ofFields (fields : GivenFields) : SearchOptions :=
  { deduplicate := fields.deduplicate.getD false
    maxSteps := fields.maxSteps.getD none }

/-- Reads the value of the field called `name`. -/
def takeField? (fields : GivenFields) (name : List Char) (text : List Char) :
    Option (GivenFields × List Char) :=
  if name = "deduplicate".toList then
    if fields.deduplicate.isSome then none
    else (takeDeduplicate? text).map fun taken =>
      ({ fields with deduplicate := some taken.1 }, taken.2)
  else if name = "max_steps".toList then
    if fields.maxSteps.isSome then none
    else (takeMaxSteps? text).map fun taken =>
      ({ fields with maxSteps := some taken.1 }, taken.2)
  else (skipValue? (2 * text.length + 2) text).map fun rest => (fields, rest)

/-- Reads a field, its name first, after the blanks in front of it. -/
def takeNamedField? (fields : GivenFields) (text : List Char) : Option (GivenFields × List Char) :=
  match skipBlanks text with
  | '"' :: rest => do
    let (escaped, rest) ← takeString? rest
    let name ← unescape? escaped
    match skipBlanks rest with
    | ':' :: rest => takeField? fields name rest
    | _ => none
  | _ => none

/-- Reads at most `count` fields and the closing brace. -/
def takeFields? : Nat → GivenFields → List Char → Option (GivenFields × List Char)
  | 0, _, _ => none
  | count + 1, fields, text =>
    match takeNamedField? fields text with
    | none => none
    | some (fields, rest) =>
      match skipBlanks rest with
      | ',' :: rest => takeFields? count fields rest
      | '\x7d' :: rest => some (fields, rest)
      | _ => none

/-! ## §3. Arrays. -/

/-- Reads what follows the opening bracket of an array: up to two values and
the closing bracket. -/
def takeArray? (text : List Char) : Option (SearchOptions × List Char) :=
  match skipBlanks text with
  | ']' :: rest => some ({}, rest)
  | rest => do
    let (deduplicate, rest) ← takeDeduplicate? rest
    match skipBlanks rest with
    | ']' :: rest => some ({ deduplicate }, rest)
    | ',' :: rest => do
      let (maxSteps, rest) ← takeMaxSteps? rest
      match skipBlanks rest with
      | ']' :: rest => some ({ deduplicate, maxSteps }, rest)
      | _ => none
    | _ => none

/-- Reads what follows the opening brace of an object. -/
def takeObject? (text : List Char) : Option (SearchOptions × List Char) :=
  match skipBlanks text with
  | '\x7d' :: rest => some ({}, rest)
  | rest => (takeFields? rest.length ⟨none, none⟩ rest).map fun taken => (ofFields taken.1, taken.2)

/-- The options that a text describes, with nothing but blanks around them. -/
def ofJson? (text : String) : Option SearchOptions := do
  let (options, rest) ←
    match skipBlanks text.toList with
    | '[' :: rest => takeArray? rest
    | '\x7b' :: rest => takeObject? rest
    | _ => none
  if (skipBlanks rest).isEmpty then pure options else none

end ShiftReduce.SearchOptions
