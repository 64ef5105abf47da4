/-
  Fleet.Shell.Numeral — the numbers that a shell reads: decimal digits and nothing else
  where it counts, and in arithmetic also a sign, `0x` before hexadecimal digits and `0`
  before octal ones.
-/

namespace Fleet.Shell.Numeral

def digit? (base : Nat) (c : Char) : Option Nat :=
  let value := if c.isDigit then c.toNat - '0'.toNat
    else if 'a' ≤ c ∧ c ≤ 'f' then c.toNat - 'a'.toNat + 10
    else if 'A' ≤ c ∧ c ≤ 'F' then c.toNat - 'A'.toNat + 10
    else base
  if value < base then some value else none

def inBase? (base : Nat) (cs : List Char) : Option Nat :=
  if cs = [] then none else (cs.mapM (digit? base)).map fun ds => ds.foldl (fun n d => n * base + d) 0

def decimal? (text : String) : Option Nat := inBase? 10 text.toList

/-- A number whose first characters tell its base. -/
def unsigned? : List Char → Option Nat
  | '0' :: 'x' :: digits | '0' :: 'X' :: digits => inBase? 16 digits
  | '0' :: digits => inBase? 8 ('0' :: digits)
  | digits => inBase? 10 digits

def signed? : List Char → Option Int
  | '-' :: digits => (unsigned? digits).map fun n => -(n : Int)
  | '+' :: digits => (unsigned? digits).map Int.ofNat
  | digits => (unsigned? digits).map Int.ofNat

end Fleet.Shell.Numeral
