/-
  Fleet.Decimal.Double — numbers at double precision in exact arithmetic: a decimal
  rounds to the nearest `mantissa * 2 ^ exponent` with a mantissa below 2^53, a tie to the
  even mantissa (`Double.ofDecimal`), and a double is written with the fewest digits that
  round back to it, the nearest such decimal if there are several (`Double.shortest`).

  No machine float is involved, so the functions can be evaluated and reasoned about.
-/

namespace Fleet

/-- `digits * 10 ^ exponent`, not negative. -/
structure Decimal where
  digits : Nat
  exponent : Int
  deriving DecidableEq, Repr

/-- A non-negative double: `mantissa * 2 ^ exponent`, or too large for one. -/
inductive Double where
  | finite (mantissa : Nat) (exponent : Int)
  | infinite
  deriving DecidableEq, Repr

/-! ## Fractions -/

/-- `num * base ^ e / den` as a fraction with a natural numerator and denominator. -/
def scaled (base num den : Nat) (e : Int) : Nat × Nat :=
  match e with
  | .ofNat n => (num * Nat.pow base n, den)
  | .negSucc n => (num, den * Nat.pow base (n + 1))

def roundHalfEven (num den : Nat) : Nat :=
  let q := num / den
  let r := num % den
  if 2 * r < den then q
  else if den < 2 * r then q + 1
  else if q % 2 = 0 then q else q + 1

namespace Double

/-! ## Rounding a decimal -/

/-- The least mantissa that uses all 53 bits. -/
def leastFull : Nat := Nat.pow 2 52

/-- Below this exponent mantissas lose bits instead. -/
def minExponent : Int := -1074

def maxExponent : Int := 971

/-- The exponent of the last place of a double near `num / den`. -/
def placeOf (num den : Nat) : Int :=
  let guess : Int := (Nat.log2 num : Int) - Nat.log2 den - 52
  let (n, d) := scaled 2 num den (-guess)
  max minExponent (if n < leastFull * d then guess - 1 else guess)

def ofFraction (num den : Nat) : Double :=
  if num = 0 then .finite 0 minExponent
  else
    let place := placeOf num den
    let (n, d) := scaled 2 num den (-place)
    let m := roundHalfEven n d
    let (m, place) := if m = 2 * leastFull then (leastFull, place + 1) else (m, place)
    if maxExponent < place then .infinite else .finite m place

/-- How many decimal digits a number has; zero has none. -/
def digitCount (n : Nat) : Nat := if n = 0 then 0 else (toString n).length

/-- The nearest double to a decimal. Decimals far outside the range of doubles are not
    multiplied out. -/
def ofDecimal (d : Decimal) : Double :=
  let top : Int := (digitCount d.digits : Int) + d.exponent
  if d.digits = 0 ∨ top < -400 then .finite 0 minExponent
  else if 400 < top then .infinite
  else let (n, m) := scaled 10 d.digits 1 d.exponent
       ofFraction n m

/-! ## The shortest decimal -/

/-- The fractions that round to a double, as three numerators over one denominator: the
    lower bound, the double itself and the upper bound. -/
def interval (mantissa : Nat) (exponent : Int) : (Nat × Nat × Nat) × Nat :=
  let lowGap := if mantissa = leastFull ∧ minExponent < exponent then 1 else 2
  let (unit, den) := scaled 2 1 1 (exponent - 2)
  (((4 * mantissa - lowGap) * unit, 4 * mantissa * unit, (4 * mantissa + 2) * unit), den)

/-- The decimals with last place `10 ^ place` next to `value / den` that lie between the
    bounds (bounds included if `closed`), the nearer first. -/
def candidates (low value high den : Nat) (closed : Bool) (place : Int) : List Decimal :=
  let (g, h) := scaled 10 1 1 place
  -- `k` stands for `k * g / h`; compare with `x / den`.
  let q := value * h / (den * g)
  let inside (k : Nat) : Bool :=
    let here := k * g * den
    if closed then low * h ≤ here && here ≤ high * h else low * h < here && here < high * h
  let nearUp := 2 * (value * h % (den * g)) > den * g
  let order := if nearUp then [q + 1, q] else [q, q + 1]
  (order.filter inside).map fun k => ⟨k, place⟩

/-- The first candidate at `place` or a finer one, `steps` places on at most. -/
def search (low value high den : Nat) (closed : Bool) : Nat → Int → Decimal
  | 0, place => ⟨0, place⟩
  | steps + 1, place =>
    match candidates low value high den closed place with
    | d :: _ => d
    | [] => search low value high den closed steps (place - 1)

/-- The fewest digits that round back to the double, at most 17. -/
def shortest (mantissa : Nat) (exponent : Int) : Decimal :=
  if mantissa = 0 then ⟨0, 0⟩
  else
    let ((low, value, high), den) := interval mantissa exponent
    let top : Int := (digitCount (value / den) : Int)
    let start := if value / den = 0 then -((digitCount (den / value) : Int)) + 1 else top
    search low value high den (mantissa % 2 = 0) 19 start

end Double

/-! ## Text -/

def Decimal.positional (d : Decimal) : String :=
  let digits := toString d.digits
  match d.exponent with
  | .ofNat n => if d.digits = 0 then "0" else digits ++ String.ofList (List.replicate n '0')
  | .negSucc n =>
    let places := n + 1
    let padded := List.replicate (places + 1 - digits.length) '0' ++ digits.toList
    let whole := padded.take (padded.length - places)
    let fraction := (padded.drop (padded.length - places)).reverse.dropWhile (· == '0')
    if fraction = [] then String.ofList whole
    else String.ofList whole ++ "." ++ String.ofList fraction.reverse

end Fleet
