/-
**Laying out lines of text.**

Columns are padded with blanks to a width that counts characters, and a text is cut into lines at
every character that ends a line.

Main definitions:

* `CandyCircle.Text.padRight`, `CandyCircle.Text.padLeft` — a text in a column of given width;
* `CandyCircle.Text.joinLines`, `CandyCircle.Text.commaSeparated` — lines put under one another, and
  words put next to one another;
* `CandyCircle.Text.lines`, `CandyCircle.Text.lineCount` — the lines of a text, and their number.
-/

set_option autoImplicit false

namespace CandyCircle.Text

/-- As many blanks as asked for. -/
def blanks (n : Nat) : String :=
  String.ofList (List.replicate n ' ')

/-- The text at the left of a column; a text that is too wide is kept whole. -/
def padRight (width : Nat) (s : String) : String :=
  s ++ blanks (width - s.length)

/-- The text at the right of a column; a text that is too wide is kept whole. -/
def padLeft (width : Nat) (s : String) : String :=
  blanks (width - s.length) ++ s

/-- Lines under one another, without a line end after the last. -/
def joinLines (lines : List String) : String :=
  String.intercalate "\n" lines

/-- Words with commas between them. -/
def commaSeparated (words : List String) : String :=
  String.intercalate ", " words

/-- Whether a character ends a line: line feed, carriage return, vertical tab, form feed, the
information separators `U+001C` to `U+001E`, next line, line separator and paragraph separator. -/
def endsLine (c : Char) : Bool :=
  c == '\n' || c == '\r' || c == '\x0b' || c == '\x0c' || c == '\x1c' || c == '\x1d' ||
    c == '\x1e' || c == '\u0085' || c == '\u2028' || c == '\u2029'

/-- The lines that characters make up, the first of which begins with characters read already, the
latest first.  A carriage return and its line feed end one line together. -/
def linesFrom : List Char → List Char → List String
  | begun, [] => if begun.isEmpty then [] else [String.ofList begun.reverse]
  | begun, '\r' :: '\n' :: rest => String.ofList begun.reverse :: linesFrom [] rest
  | begun, c :: rest =>
      if endsLine c then String.ofList begun.reverse :: linesFrom [] rest
      else linesFrom (c :: begun) rest

/-- The lines of a text, without what ends them; a line end at the very end opens no further line.
-/
def lines (s : String) : List String :=
  linesFrom [] s.toList

/-- The number of lines of a text. -/
def lineCount (s : String) : Nat :=
  (lines s).length

end CandyCircle.Text
