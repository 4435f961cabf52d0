/-!
# Floating point numbers as shortest decimals

A finite floating point number is `m · 2 ^ q` for whole numbers `m` and `q`. All reals between the midpoints to its two
neighbours round to it, the midpoints themselves when `m` is even. `shortest` finds the decimal with the fewest
digits in that interval, and of several the nearest one, by exact arithmetic on whole numbers. `floatText`
writes it: positionally with a point as long as the exponent is between minus four and fifteen, and with
an exponent of at least two digits otherwise.
-/

namespace Switchboard.Decimal

/-- The absolute value of a floating point number. -/
inductive Magnitude where
  | nan
  | infinite
  /-- `m · 2 ^ q`; `evenSpacing` says that both neighbours are equally far away. -/
  | finite (m : Nat) (q : Int) (evenSpacing : Bool)
deriving DecidableEq, Repr, Inhabited

/-- A power of two. -/
def twoTo (n : Nat) : Nat := Nat.pow 2 n

/-- A power of ten. -/
def tenTo (n : Nat) : Nat := Nat.pow 10 n

/-- Whether the sign bit is set. -/
def isNegative (x : Float) : Bool := decide (twoTo 63 ≤ x.toBits.toNat)

/-- Takes apart the bits of a floating point number. -/
def magnitude (x : Float) : Magnitude :=
  let bits := x.toBits.toNat % twoTo 63
  let exponent := bits / twoTo 52
  let fraction := bits % twoTo 52
  if exponent == 2047 then if fraction == 0 then .infinite else .nan
  else if exponent == 0 then .finite fraction (-1074) true
  else .finite (twoTo 52 + fraction) (Int.ofNat exponent - 1075) (fraction != 0 || exponent == 1)

/-- A positive decimal: `0.d₁d₂… · 10 ^ point` with the digits of `digits`. -/
structure Digits where
  digits : Nat
  count : Nat
  point : Int
deriving DecidableEq, Repr, Inhabited

/-- The exponent `k` with `10 ^ (k - 1) ≤ num / den < 10 ^ k`, sought upwards from `k`. -/
def pointFrom (num den : Nat) : Nat → Int → Int
  | 0, k => k
  | fuel + 1, k =>
    let below := if 0 ≤ k then decide (num < den * tenTo k.toNat) else decide (num * tenTo (-k).toNat < den)
    if below then k else pointFrom num den fuel (k + 1)

/-- The distance of two whole numbers. -/
def distance (a b : Nat) : Nat := (a - b) + (b - a)

/-- The decimal of `count` digits that lies in the interval and is nearest to `value`. All four bounds are counted in
one unit; `step` is the unit of the last digit. -/
def onGrid? (low value high step : Nat) (closed : Bool) : Option Nat :=
  let inside (c : Nat) : Bool :=
    if closed then decide (low ≤ c * step) && decide (c * step ≤ high)
    else decide (low < c * step) && decide (c * step < high)
  let floor := value / step
  match inside floor, inside (floor + 1) with
  | true, true =>
    let below := distance (floor * step) value
    let above := distance ((floor + 1) * step) value
    if below < above || (below == above && floor % 2 == 0) then some floor else some (floor + 1)
  | true, false => some floor
  | false, true => some (floor + 1)
  | false, false => none

/-- Tries one digit after another, from `count` digits on. -/
def shortestFrom (m : Nat) (q : Int) (evenSpacing : Bool) (point : Int) : Nat → Nat → Digits
  | 0, count => ⟨m, count, point⟩
  | fuel + 1, count =>
    let scale := Int.ofNat count - point
    let up := twoTo q.toNat * tenTo scale.toNat
    let step := 4 * twoTo (-q).toNat * tenTo (-scale).toNat
    let low := (4 * m - if evenSpacing then 2 else 1) * up
    match onGrid? low (4 * m * up) ((4 * m + 2) * up) step (m % 2 == 0) with
    | some digits => ⟨digits, count, point⟩
    | none => shortestFrom m q evenSpacing point fuel (count + 1)

/-- The shortest decimal that rounds to `m · 2 ^ q`, for a positive `m`. -/
def shortest (m : Nat) (q : Int) (evenSpacing : Bool) : Digits :=
  let point := pointFrom (m * twoTo q.toNat) (twoTo (-q).toNat) 700 (-330)
  shortestFrom m q evenSpacing point 17 1

/-- The decimal digits of a number, without the zeros at their end. -/
def significant (n : Nat) : List Char :=
  ((toString n).toList.reverse.dropWhile (· == '0')).reverse

/-- So many zeros. -/
def zeros (n : Nat) : List Char := List.replicate n '0'

/-- The text of a positive decimal. -/
def Digits.text (d : Digits) : List Char :=
  let all := (toString d.digits).toList
  let point := d.point + (Int.ofNat all.length - Int.ofNat d.count)
  let ds := significant d.digits
  if -4 < point && point ≤ 16 then
    if point ≤ 0 then '0' :: '.' :: zeros (-point).toNat ++ ds
    else if Int.ofNat ds.length ≤ point then ds ++ zeros (point - Int.ofNat ds.length).toNat ++ ['.', '0']
    else ds.take point.toNat ++ '.' :: ds.drop point.toNat
  else
    let exponent := point - 1
    let mantissa := match ds with
      | c :: [] => [c]
      | c :: rest => c :: '.' :: rest
      | [] => []
    let size := toString exponent.natAbs
    mantissa ++ 'e' :: (if exponent < 0 then '-' else '+')
      :: (if size.length < 2 then '0' :: size.toList else size.toList)

end Switchboard.Decimal

namespace Switchboard

/-- The shortest decimal text of a floating point number. -/
def floatText (x : Float) : String :=
  let sign := if Decimal.isNegative x then "-" else ""
  match Decimal.magnitude x with
  | .nan => "nan"
  | .infinite => sign ++ "inf"
  | .finite 0 _ _ => sign ++ "0.0"
  | .finite m q evenSpacing => sign ++ String.ofList (Decimal.shortest m q evenSpacing).text

/-- The whole number that a floating point number is equal to, if there is one. -/
def floatWhole? (x : Float) : Option Int :=
  match Decimal.magnitude x with
  | .finite m q _ =>
    let size? := if 0 ≤ q then some (m * Decimal.twoTo q.toNat)
      else if m % Decimal.twoTo (-q).toNat == 0 then some (m / Decimal.twoTo (-q).toNat) else none
    size?.map fun size => if Decimal.isNegative x then -Int.ofNat size else Int.ofNat size
  | _ => none

end Switchboard
