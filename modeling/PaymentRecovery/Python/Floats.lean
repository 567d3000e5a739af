import Mathlib.Algebra.Order.Floor.Ring
import Mathlib.Data.Int.Log
import Mathlib.Data.Rat.Floor

/-!
# Floats as Python writes them

A float is kept as an exact number. Rounding is half to even throughout, and `repr`
writes the shortest decimal that reads back as the double nearest to the number.
-/

namespace PaymentRecovery.Python

/-- `round(x)`: a tie goes to the even neighbour. -/
def roundHalfEven (x : ℚ) : Int :=
  let below := x.floor
  if x - below < 1 / 2 then below
  else if 1 / 2 < x - below then below + 1
  else if below % 2 = 0 then below else below + 1

/-- `round(x, 3)`. -/
def round3 (x : ℚ) : ℚ := roundHalfEven (x * 1000) / 1000

/-- The double nearest to a number: 53 binary digits, and no finer than the subnormal ones. -/
def nearestDouble (x : ℚ) : ℚ :=
  let spacing : ℚ := 2 ^ max (Int.log 2 |x| - 52) (-1074)
  roundHalfEven (x / spacing) * spacing

/-- The decimals with so many significant digits on both sides of a positive number, after the
one nearest to it. -/
def decimalsNear (x : ℚ) (digits : Nat) : List ℚ :=
  let unit : ℚ := 10 ^ (Int.log 10 x + 1 - digits)
  [roundHalfEven (x / unit) * unit, (x / unit).floor * unit, (x / unit).ceil * unit]

/-- The shortest decimal that reads back as a positive double. With 17 digits one does. -/
def shortestDecimal (x : ℚ) : ℚ :=
  (((List.range' 1 17).flatMap (decimalsNear x)).find? fun d => nearestDouble d = x).getD x

/-- A positive decimal of at most 17 significant digits: positional from `1e-4` on and below
`1e16`, and with an exponent elsewhere. -/
def decimalText (x : ℚ) : String :=
  let exponent := Int.log 10 x
  let digits := ((Nat.toDigits 10 (x / 10 ^ (exponent - 16)).num.natAbs).reverse.dropWhile
    (· = '0')).reverse
  let point (places : Nat) (digits : List Char) : String :=
    String.ofList (digits.rightpad (places + 1) '0' |>.take places) ++ "." ++
      String.ofList (digits.rightpad (places + 1) '0' |>.drop places)
  if exponent < -4 ∨ 16 ≤ exponent then
    (if digits.length = 1 then String.ofList digits else point 1 digits) ++
      (if exponent < 0 then "e-" else "e+") ++
      String.ofList ((Nat.toDigits 10 exponent.natAbs).leftpad 2 '0')
  else if exponent < 0 then point 1 (List.replicate exponent.natAbs '0' ++ digits)
  else point (exponent.natAbs + 1) digits

/-- `repr` of a float. -/
def floatRepr (x : ℚ) : String :=
  let double := nearestDouble x
  if double = 0 then "0.0"
  else if double < 0 then "-" ++ decimalText (shortestDecimal (-double))
  else decimalText (shortestDecimal double)

/-- A half, a third as far as a double holds it, and both notations with an exponent. -/
example : [1 / 2, 1 / 3, 20, 1 / 100000, -(10 ^ 16)].map floatRepr =
    ["0.5", "0.3333333333333333", "20.0", "1e-05", "-1e+16"] := by
  decide +kernel

end PaymentRecovery.Python
