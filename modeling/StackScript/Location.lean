/-!
Places in program text.
-/
namespace StackScript

structure Span where
  start : Nat
  stop : Nat
  deriving DecidableEq, Repr

/-- Rows count from one, columns from zero and in code points. -/
structure Location where
  source : String
  row : Nat
  columns : Span
  deriving DecidableEq, Repr

def Location.text (place : Location) : String :=
  s!"{place.source}:{place.row}:{place.columns.start + 1}"

end StackScript
