/-
  Fleet.Shell.Arithmetic — the value of an arithmetic expression. Integers, parameters
  (with or without a dollar), parentheses, signs, `!`, and the usual operators, each of
  which binds as tightly as its rank says. A comparison is 1 if it holds and 0 if not.
-/

import Fleet.Shell.Numeral
import Fleet.Shell.Token

namespace Fleet.Shell.Arithmetic

structure Operator where
  text : List Char
  rank : Nat
  apply : Int → Int → Option Int

def truth (b : Bool) : Option Int := some (if b then 1 else 0)

/-- The operators; one that begins like another stands after it. -/
def operators : List Operator :=
  [⟨"||".toList, 1, fun a b => truth (a ≠ 0 ∨ b ≠ 0)⟩, ⟨"&&".toList, 2, fun a b => truth (a ≠ 0 ∧ b ≠ 0)⟩,
    ⟨"==".toList, 3, fun a b => truth (a = b)⟩, ⟨"!=".toList, 3, fun a b => truth (a ≠ b)⟩,
    ⟨"<=".toList, 4, fun a b => truth (a ≤ b)⟩, ⟨">=".toList, 4, fun a b => truth (b ≤ a)⟩,
    ⟨"<".toList, 4, fun a b => truth (a < b)⟩, ⟨">".toList, 4, fun a b => truth (b < a)⟩,
    ⟨"+".toList, 5, fun a b => some (a + b)⟩, ⟨"-".toList, 5, fun a b => some (a - b)⟩,
    ⟨"*".toList, 6, fun a b => some (a * b)⟩,
    ⟨"/".toList, 6, fun a b => if b = 0 then none else some (a.tdiv b)⟩,
    ⟨"%".toList, 6, fun a b => if b = 0 then none else some (a.tmod b)⟩]

def skipBlanks (cs : List Char) : List Char := cs.dropWhile fun c => isBlank c ∨ c = '\n'

def operator? (cs : List Char) : Option (Operator × List Char) :=
  operators.findSome? fun o => if o.text.isPrefixOf cs then some (o, cs.drop o.text.length) else none

/-- The integer that a text is, the empty text counting as 0. -/
def number? (text : String) : Option Int :=
  if text.isEmpty then some 0 else Numeral.signed? text.toList

mutual

/-- A number, a parameter, or a signed or bracketed expression. -/
def operand (value : String → Option Int) : (n : Nat) → List Char → Option (Int × List Char)
  | 0, _ => none
  | n + 1, cs =>
    match skipBlanks cs with
    | '-' :: rest => (operand value n rest).map fun (a, rest) => (-a, rest)
    | '+' :: rest => operand value n rest
    | '!' :: rest => (operand value n rest).map fun (a, rest) => (if a = 0 then 1 else 0, rest)
    | '(' :: rest => do
      let (a, rest) ← expression value n 0 rest
      match skipBlanks rest with
      | ')' :: rest => some (a, rest)
      | _ => none
    | '$' :: '\x7b' :: rest => do
      let a ← value (String.ofList (rest.takeWhile (· ≠ '\x7d')))
      some (a, (rest.dropWhile (· ≠ '\x7d')).drop 1)
    | '$' :: c :: rest =>
      if isNameStart c then operand value n (c :: rest) else (value c.toString).map fun a => (a, rest)
    | c :: rest =>
      let word := (c :: rest).takeWhile isNameChar
      let behind := (c :: rest).dropWhile isNameChar
      if c.isDigit then (Numeral.unsigned? word).map fun a => ((a : Int), behind)
      else if isNameStart c then (value (String.ofList word)).map fun a => (a, behind)
      else none
    | [] => none

/-- An expression whose operators all bind tighter than `rank`. -/
def expression (value : String → Option Int) : (n : Nat) → (rank : Nat) → List Char → Option (Int × List Char)
  | 0, _, _ => none
  | n + 1, rank, cs => do
    let (a, rest) ← operand value n cs
    extend value n rank a rest

/-- Take in the operators behind an expression that bind tighter than `rank`. -/
def extend (value : String → Option Int) : (n : Nat) → (rank : Nat) → Int → List Char → Option (Int × List Char)
  | 0, _, _, _ => none
  | n + 1, rank, a, cs =>
    match operator? (skipBlanks cs) with
    | some (o, rest) =>
      if o.rank ≤ rank then some (a, cs)
      else do
        let (b, rest) ← expression value n o.rank rest
        extend value n rank (← o.apply a b) rest
    | none => some (a, cs)

end

def evaluate (value : String → Option Int) (source : String) : Option Int := do
  let cs := source.toList
  match skipBlanks cs with
  | [] => some 0
  | cs => match ← expression value (2 * cs.length + 4) 0 cs with
    | (a, rest) => if skipBlanks rest = [] then some a else none

end Fleet.Shell.Arithmetic
