/-
  Fleet.Toml.Literal — numbers, dates and times as a document writes them. A bare value
  is first cut out whole and then recognized here (`Scalar.ofLiteral?`), so each form is a
  condition on a finite list of characters.
-/

import Fleet.Toml.Node

namespace Fleet.Toml

/-! ## Digits -/

def digitValue (c : Char) : Nat :=
  if c.isDigit then c.toNat - '0'.toNat
  else if 'a' ≤ c ∧ c ≤ 'f' then c.toNat - 'a'.toNat + 10
  else if 'A' ≤ c ∧ c ≤ 'F' then c.toNat - 'A'.toNat + 10
  else 99

def isDigitOf (base : Nat) (c : Char) : Bool := digitValue c < base

def valueOf (base : Nat) (digits : List Char) : Nat :=
  digits.foldl (fun acc c => acc * base + digitValue c) 0

/-- The digits of a number whose digits may be set apart by single underscores. -/
def plainDigits? (base : Nat) : List Char → Option (List Char)
  | [] => none
  | [c] => if isDigitOf base c then some [c] else none
  | c :: '_' :: rest => if isDigitOf base c then (plainDigits? base rest).map (c :: ·) else none
  | c :: rest => if isDigitOf base c then (plainDigits? base rest).map (c :: ·) else none

def splitSign : List Char → Bool × List Char
  | '-' :: rest => (true, rest)
  | '+' :: rest => (false, rest)
  | cs => (false, cs)

def decimalDigits? (cs : List Char) : Option (List Char) :=
  match plainDigits? 10 cs with
  | some ('0' :: _ :: _) => none
  | r => r

/-! ## Integers -/

def bounded? (n : Int) : Option Int := if Int64.minValue.toInt ≤ n ∧ n ≤ Int64.maxValue.toInt then some n else none

def integer? (cs : List Char) : Option Int :=
  match cs with
  | '0' :: 'x' :: rest => (plainDigits? 16 rest).bind fun ds => bounded? (valueOf 16 ds)
  | '0' :: 'o' :: rest => (plainDigits? 8 rest).bind fun ds => bounded? (valueOf 8 ds)
  | '0' :: 'b' :: rest => (plainDigits? 2 rest).bind fun ds => bounded? (valueOf 2 ds)
  | cs =>
    let (negative, rest) := splitSign cs
    (decimalDigits? rest).bind fun ds =>
      bounded? (if negative then -(valueOf 10 ds : Int) else valueOf 10 ds)

/-! ## Reals -/

/-- An exponent: a sign and digits, idle zeros allowed. -/
def exponent? (cs : List Char) : Option Int :=
  let (negative, rest) := splitSign cs
  (plainDigits? 10 rest).map fun ds => if negative then -(valueOf 10 ds : Int) else valueOf 10 ds

def fraction? (cs : List Char) : Option (List Char) := plainDigits? 10 cs

def isExponentMark (c : Char) : Bool := c == 'e' || c == 'E'

def Decimal.ofParts (whole fraction : List Char) (exponent : Int) : Decimal :=
  ⟨valueOf 10 (whole ++ fraction), exponent - fraction.length⟩

/-- A number with a fraction, an exponent or both. A number too large for a double is
    refused, unless it is negative: that one is read as negative infinity. -/
def finite? (cs : List Char) : Option Real := do
  let (negative, rest) := splitSign cs
  let body := rest.takeWhile fun c => !isExponentMark c
  let mark := rest.dropWhile fun c => !isExponentMark c
  let whole := body.takeWhile (· != '.')
  let point := body.dropWhile (· != '.')
  let ds ← decimalDigits? whole
  let fs ← if point = [] then some [] else fraction? (point.drop 1)
  let e ← if mark = [] then some 0 else exponent? (mark.drop 1)
  if point = [] ∧ mark = [] then none
  match Double.ofDecimal (Decimal.ofParts ds fs e) with
  | .finite m x => some (.finite negative (Double.shortest m x))
  | .infinite => if negative then some (.infinite true) else none

def real? (cs : List Char) : Option Real :=
  let (negative, rest) := splitSign cs
  if rest = "inf".toList then some (.infinite negative)
  else if rest = "nan".toList then some .notANumber
  else finite? cs

/-! ## Dates and times -/

def fixedDigits? (n : Nat) (cs : List Char) : Option (Nat × List Char) :=
  let ds := cs.take n
  if ds.length = n ∧ ds.all Char.isDigit then some (valueOf 10 ds, cs.drop n) else none

def expect? (c : Char) : List Char → Option (List Char)
  | d :: rest => if d = c then some rest else none
  | [] => none

def isLeapYear (year : Nat) : Bool := year % 4 == 0 && (year % 100 != 0 || year % 400 == 0)

def daysIn (year month : Nat) : Nat :=
  if month = 2 then (if isLeapYear year then 29 else 28)
  else if [4, 6, 9, 11].contains month then 30 else 31

def date? (cs : List Char) : Option (List Char) := do
  let (year, cs) ← fixedDigits? 4 cs
  let cs ← expect? '-' cs
  let (month, cs) ← fixedDigits? 2 cs
  let cs ← expect? '-' cs
  let (day, cs) ← fixedDigits? 2 cs
  if 1 ≤ month ∧ month ≤ 12 ∧ 1 ≤ day ∧ day ≤ daysIn year month then some cs else none

def time? (cs : List Char) : Option (List Char) := do
  let (hour, cs) ← fixedDigits? 2 cs
  let cs ← expect? ':' cs
  let (minute, cs) ← fixedDigits? 2 cs
  let cs ← expect? ':' cs
  let (second, cs) ← fixedDigits? 2 cs
  if ¬ (hour ≤ 23 ∧ minute ≤ 59 ∧ second ≤ 60) then none
  match cs with
  | '.' :: rest => if (rest.takeWhile Char.isDigit).isEmpty then none else some (rest.dropWhile Char.isDigit)
  | cs => some cs

/-- Nothing, or an offset from universal time and nothing behind it. -/
def isOffset (cs : List Char) : Bool :=
  match cs with
  | [] | ['z'] | ['Z'] => true
  | sign :: rest =>
    (sign == '+' || sign == '-') &&
      (do let (hour, cs) ← fixedDigits? 2 rest
          let cs ← expect? ':' cs
          let (minute, cs) ← fixedDigits? 2 cs
          some (decide (hour ≤ 23 ∧ minute ≤ 59 ∧ cs = []))).getD false

def isMoment (cs : List Char) : Bool :=
  match date? cs with
  | some [] => true
  | some (mark :: rest) =>
    (mark == 'T' || mark == 't' || mark == ' ') && ((time? rest).map isOffset).getD false
  | none => time? cs == some []

/-! ## All bare values -/

def isLiteralChar (c : Char) : Bool := c.isAlphanum || "+-_.:".toList.contains c

def Scalar.ofLiteral? (cs : List Char) : Option Scalar :=
  if cs = "true".toList then some (.boolean true)
  else if cs = "false".toList then some (.boolean false)
  else if isMoment cs then some .moment
  else match integer? cs with
    | some n => some (.integer n)
    | none => (real? cs).map .real

end Fleet.Toml
