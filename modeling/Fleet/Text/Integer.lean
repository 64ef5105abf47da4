/-
  Fleet.Text.Integer — reading an integer of limited size from a text: an optional sign
  and decimal digits, nothing else. Digits are looked at from the left, and the first that
  is none, or that makes the number too large, is the fault.
-/

namespace Fleet.Text

inductive IntegerFault where
  | empty
  | invalidDigit
  | tooLarge
  | tooSmall
  deriving DecidableEq, Repr

def IntegerFault.message : IntegerFault → String
  | .empty => "cannot parse integer from empty string"
  | .invalidDigit => "invalid digit found in string"
  | .tooLarge => "number too large to fit in target type"
  | .tooSmall => "number too small to fit in target type"

/-- Append digits to a number that must not pass `limit`. -/
def readDigits (limit : Nat) (passed : IntegerFault) : List Char → Nat → Except IntegerFault Nat
  | [], n => .ok n
  | c :: rest, n =>
    if ¬ c.isDigit then .error .invalidDigit
    else
      let n' := n * 10 + (c.toNat - '0'.toNat)
      if limit < n' then .error passed else readDigits limit passed rest n'

def readMagnitude (limit : Nat) (passed : IntegerFault) (cs : List Char) : Except IntegerFault Nat :=
  if cs = [] then .error .invalidDigit else readDigits limit passed cs 0

/-- How far down signed integers of 64 bits go; up, they go one less far. -/
def signedDepth : Nat := UInt64.size / 2

def readInt64 (text : String) : Except IntegerFault Int :=
  match text.toList with
  | [] => .error .empty
  | '-' :: cs => (readMagnitude signedDepth .tooSmall cs).map fun n => -(n : Int)
  | '+' :: cs => (readMagnitude (signedDepth - 1) .tooLarge cs).map fun n => (n : Int)
  | cs => (readMagnitude (signedDepth - 1) .tooLarge cs).map fun n => (n : Int)

/-- An unsigned integer of 64 bits; a minus is no sign here. -/
def readNat64 (text : String) : Except IntegerFault Nat :=
  match text.toList with
  | [] => .error .empty
  | '+' :: cs => readMagnitude (UInt64.size - 1) .tooLarge cs
  | cs => readMagnitude (UInt64.size - 1) .tooLarge cs

end Fleet.Text
