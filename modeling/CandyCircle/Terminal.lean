/-
**Colours on a terminal.**

Text for reading is coloured if a terminal can show it, and left as it is otherwise.

Main definitions:

* `CandyCircle.Terminal`, `CandyCircle.Terminal.paint` — terminals, and text in a rendition;
* `CandyCircle.Terminal.red`, `CandyCircle.Terminal.green`, `CandyCircle.Terminal.cyan`,
  `CandyCircle.Terminal.bold`, `CandyCircle.Terminal.dim` — the renditions in use;
* `CandyCircle.Terminal.tick`, `CandyCircle.Terminal.cross` — the marks of success and failure.
-/

set_option autoImplicit false

namespace CandyCircle

/-- What a terminal can show. -/
inductive Terminal where
  /-- Text alone. -/
  | plain
  /-- Text in colours. -/
  | coloured
  deriving DecidableEq, Repr

namespace Terminal

/-- Text in the rendition of a number; the rendition ends with the text. -/
def paint (t : Terminal) (rendition text : String) : String :=
  match t with
  | plain => text
  | coloured => "\x1b[" ++ rendition ++ "m" ++ text ++ "\x1b[0m"

/-- Text in red. -/
def red (t : Terminal) : String → String :=
  t.paint "31"

/-- Text in green. -/
def green (t : Terminal) : String → String :=
  t.paint "32"

/-- Text in cyan. -/
def cyan (t : Terminal) : String → String :=
  t.paint "36"

/-- Text in bold type. -/
def bold (t : Terminal) : String → String :=
  t.paint "1"

/-- Text in faint type. -/
def dim (t : Terminal) : String → String :=
  t.paint "2"

/-- The mark of success. -/
def tick (t : Terminal) : String :=
  t.green "✔"

/-- The mark of failure. -/
def cross (t : Terminal) : String :=
  t.red "✖"

end Terminal

end CandyCircle
