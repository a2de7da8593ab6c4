import GhostDataplane.Lib.Text
import Mathlib.Algebra.Order.Ring.Rat

/-!
# Decimal numbers

What `strtod` takes for a number, as far as decimal notation goes: a sign,
digits with a point somewhere among them, and an exponent. Only one digit is
required. An `e` that no digits follow does not belong to the number, and the
number ends before it.

The value is the rational number that is meant. What a floating-point type
makes of it is not said here.
-/

namespace GhostDataplane.Lib

/-- A number in decimal notation. -/
structure Decimal where
  negative : Bool
  /-- The digits before the point. -/
  whole : List Char
  /-- The digits after the point. -/
  fraction : List Char
  exponent : Int
deriving DecidableEq

namespace Decimal

/-- The digits, without the point, as an integer. -/
def mantissa (d : Decimal) : Int :=
  let m := Nat.ofDigitChars 10 (d.whole ++ d.fraction) 0
  if d.negative then -m else m

/-- The number that is meant. -/
def value (d : Decimal) : Rat :=
  match d.exponent - d.fraction.length with
  | .ofNat k => ((d.mantissa * 10 ^ k : Int) : Rat)
  | .negSucc k => mkRat d.mantissa (10 ^ (k + 1))

end Decimal

/-- A point and the digits after it. -/
def scanFraction : List Char → List Char × List Char
  | [] => ([], [])
  | c :: s =>
      if c = '.' then (s.takeWhile Char.isDigit, s.dropWhile Char.isDigit)
      else ([], c :: s)

/-- An exponent, if there is one. -/
def scanExponent : List Char → Int × List Char
  | [] => (0, [])
  | c :: s =>
      let (negative, s') := takeSign s
      let digits := s'.takeWhile Char.isDigit
      if (c = 'e' ∨ c = 'E') ∧ digits ≠ [] then
        let m := Nat.ofDigitChars 10 digits 0
        (if negative then -m else m, s'.dropWhile Char.isDigit)
      else (0, c :: s)

/-- The number at the beginning of a text, and the rest of the text. -/
def scanDecimal (s : List Char) : Option (Decimal × List Char) :=
  let (negative, s) := takeSign s
  let whole := s.takeWhile Char.isDigit
  let (fraction, s) := scanFraction (s.dropWhile Char.isDigit)
  if whole = [] ∧ fraction = [] then none
  else
    let (exponent, s) := scanExponent s
    some (⟨negative, whole, fraction, exponent⟩, s)

end GhostDataplane.Lib
