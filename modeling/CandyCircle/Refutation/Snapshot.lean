/-
**Proof runs as data.**

A view of a run shows its layers as they stand, but each with all the constants that it comes to
declare: a layer that is shown early lists also what is declared in it later.

Main definitions:

* `CandyCircle.Layer.toData` — a layer as data;
* `CandyCircle.Context.viewedFrom`, `CandyCircle.Context.toData` — the layers of a proof run and
  what it committed and retired, seen from a later moment and at once.
-/
import CandyCircle.Refutation.Context

set_option autoImplicit false

namespace CandyCircle

/-- A layer as data; of its facts only the names are shown. -/
def Layer.toData (l : Layer) (symbols : List String) : Data :=
  .ofFields
    [("name", .text l.name), ("depth", .nat l.depth), ("symbols", .list (symbols.map .text)),
      ("facts", .list (l.facts.map fun f => .text f.1)), ("assumptions", .nat l.assumptions)]

/-- The layers of a proof run, the base first, and what it committed and retired; the constants of
its layers are those that they declare up to a later moment. -/
def Context.viewedFrom (c later : Context) : Data :=
  .ofFields
    [("depth", .nat c.depth), ("current", .text c.current.name),
      ("committed", .list (c.committed.map .text)),
      ("layers",
        .list (c.layers.reverse.map fun l => l.toData (later.declaredIn l.serial))),
      ("retired", .list ((Logic.sortedNames c.retired).map .text))]

/-- The layers of a proof run as they stand, and what it committed and retired. -/
def Context.toData (c : Context) : Data :=
  c.viewedFrom c

end CandyCircle
