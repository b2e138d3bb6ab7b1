import Mathlib.Data.List.Infix

/-!
# Error texts

An error is the text its code writes, cut into pieces: what the format string of the code says, and
what is inserted into it (an identifier, or the text of a foreign error). An error of the program
that is inserted into another one keeps its own pieces. So what an error itself says can be told
from what an exchange or the database answered.
-/

namespace AutoTrader

/-- A piece of an error text. -/
inductive Piece where
  /-- Text of the code. -/
  | lit (s : String)
  /-- Text inserted at run time. -/
  | arg (s : String)
  deriving DecidableEq, Repr

/-- An error, by the pieces of its text in their order. -/
abbrev Error := List Piece

/-- Texts of the code that contain `phrase`. -/
def Piece.tells (phrase : String) : Piece → Bool
  | .lit s => decide (phrase.toList <:+: s.toList)
  | .arg _ => false

end AutoTrader
