/-
  Fleet.Shell.Format — output by format: backslash escapes, and a format with directives
  that take arguments, used again as long as arguments are left.
-/

import Fleet.Shell.Numeral
import Fleet.Text.Utf8

namespace Fleet.Shell.Format

open Fleet.Text

def charBytes (c : Char) : Bytes := toBytes c.toString

/-! ## Escapes -/

def letter? : Char → Option UInt8
  | 'a' => some 7
  | 'b' => some 8
  | 'f' => some 12
  | 'n' => some 10
  | 'r' => some 13
  | 't' => some 9
  | 'v' => some 11
  | '\\' => some 92
  | _ => none

def octal? (c : Char) : Option Nat := if '0' ≤ c ∧ c ≤ '7' then some (c.toNat - '0'.toNat) else none

/-- At most three octal digits at the start of a text: their byte, and how many. -/
def octal (cs : List Char) : UInt8 × Nat :=
  let digits := ((cs.take 3).takeWhile fun c => (octal? c).isSome).filterMap octal?
  (UInt8.ofNat (digits.foldl (fun n d => n * 8 + d) 0), digits.length)

/-- A text with its escapes replaced. `zero` says that an octal number needs a leading 0
    beyond its three digits. The flag tells whether the text was cut off by `\c`. -/
def unescape (zero : Bool) : (n : Nat) → List Char → Bytes × Bool
  | 0, _ | _, [] => ([], false)
  | n + 1, '\\' :: c :: rest =>
    if c = 'c' then ([], true)
    else
      let (bytes, rest) := match letter? c with
        | some b => ([b], rest)
        | none =>
          let digits := if zero ∧ c = '0' then rest else c :: rest
          let (b, count) := octal digits
          if zero ∧ c ≠ '0' ∨ !zero ∧ count = 0 then (charBytes '\\' ++ charBytes c, rest)
          else ([b], digits.drop count)
      let (more, cut) := unescape zero n rest
      (bytes ++ more, cut)
  | n + 1, c :: rest =>
    let (more, cut) := unescape zero n rest
    (charBytes c ++ more, cut)

/-! ## Directives -/

structure Directive where
  left : Bool := false
  zeros : Bool := false
  width : Nat := 0
  precision : Option Nat := none
  kind : Char
  deriving DecidableEq, Repr

def digitsValue (cs : List Char) : Nat := cs.foldl (fun n c => n * 10 + (c.toNat - '0'.toNat)) 0

def directive? (cs : List Char) : Option (Directive × List Char) :=
  let isFlag (c : Char) : Bool := "-0+ #".toList.contains c
  let flags := cs.takeWhile isFlag
  let cs := cs.dropWhile isFlag
  let width := digitsValue (cs.takeWhile Char.isDigit)
  let cs := cs.dropWhile Char.isDigit
  let (precision, cs) := match cs with
    | '.' :: rest => (some (digitsValue (rest.takeWhile Char.isDigit)), rest.dropWhile Char.isDigit)
    | cs => (none, cs)
  match cs with
  | kind :: rest =>
    some (⟨flags.contains '-', flags.contains '0' ∧ !flags.contains '-', width, precision, kind⟩, rest)
  | [] => none

def Directive.pad (d : Directive) (text : String) : String :=
  let gap := d.width - text.length
  let fill (c : Char) : String := String.ofList (List.replicate gap c)
  if d.left then text ++ fill ' '
  else if d.zeros ∧ d.kind ≠ 's' then
    match text.toList with
    | '-' :: digits => "-" ++ fill '0' ++ String.ofList digits
    | _ => fill '0' ++ text
  else fill ' ' ++ text

def argument? (text : String) : Option Int :=
  match text.toList with
  | [] => some 0
  | '\'' :: c :: _ | '"' :: c :: _ => some c.toNat
  | cs => Numeral.signed? cs

def digitsIn (base : Nat) (a : Int) : String := String.ofList (Nat.toDigits base (a % UInt64.size).toNat)

/-- What a directive writes for an argument, and whether the argument was fit for it. -/
def Directive.write (d : Directive) (argument : String) : Bytes × Bool :=
  let number (text : Int → String) : Bytes × Bool :=
    match argument? argument with
    | some a => (toBytes (d.pad (text a)), true)
    | none => (toBytes (d.pad (text 0)), false)
  match d.kind with
  | 'd' | 'i' => number toString
  | 'u' => number (digitsIn 10)
  | 'o' => number (digitsIn 8)
  | 'x' => number (digitsIn 16)
  | 'X' => number fun a => (digitsIn 16 a).map Char.toUpper
  | 'c' => (toBytes (d.pad (String.ofList (argument.toList.take 1))), true)
  | 'b' => ((unescape true argument.length argument.toList).1, true)
  | _ => (toBytes (d.pad (match d.precision with
      | some limit => String.ofList (argument.toList.take limit)
      | none => argument)), true)

/-- One pass over a format: what it writes, the arguments left, and whether all went well. -/
def pass : (n : Nat) → List Char → List String → Bytes × List String × Bool
  | 0, _, arguments | _, [], arguments => ([], arguments, true)
  | n + 1, '%' :: '%' :: rest, arguments =>
    let (bytes, left, ok) := pass n rest arguments
    (charBytes '%' ++ bytes, left, ok)
  | n + 1, '%' :: rest, arguments =>
    match directive? rest with
    | none => (charBytes '%', arguments, false)
    | some (d, rest) =>
      let (bytes, fit) := d.write (arguments.head?.getD "")
      let (more, left, ok) := pass n rest (arguments.drop 1)
      (bytes ++ more, left, fit && ok)
  | n + 1, '\\' :: 'c' :: rest, arguments =>
    let (bytes, left, ok) := pass n rest arguments
    (charBytes '\\' ++ charBytes 'c' ++ bytes, left, ok)
  | n + 1, '\\' :: c :: rest, arguments =>
    let isOctal (c : Char) : Bool := (octal? c).isSome
    let more := if isOctal c then (rest.take 2).takeWhile isOctal else []
    let escape := '\\' :: c :: more
    let (bytes, left, ok) := pass n (rest.drop more.length) arguments
    ((unescape false escape.length escape).1 ++ bytes, left, ok)
  | n + 1, c :: rest, arguments =>
    let (bytes, left, ok) := pass n rest arguments
    (charBytes c ++ bytes, left, ok)

/-- Passes over a format as long as arguments are left that it takes; at most `n`. -/
def passes (format : List Char) : (n : Nat) → List String → Bytes × Bool
  | 0, _ => ([], true)
  | n + 1, arguments =>
    let (bytes, left, ok) := pass format.length format arguments
    if left = [] ∨ left.length = arguments.length then (bytes, ok)
    else
      let (more, fine) := passes format n left
      (bytes ++ more, ok && fine)

def apply (format : String) (arguments : List String) : Bytes × Bool :=
  passes format.toList (arguments.length + 1) arguments

end Fleet.Shell.Format
