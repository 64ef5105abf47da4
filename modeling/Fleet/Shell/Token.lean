/-
  Fleet.Shell.Token — a shell command line taken apart (`tokens`): words between
  unquoted blanks, operators, and the ends of lines.

  A word is kept in pieces, and each character in it knows whether a quote, double quote
  or backslash took away its meaning. What is still to be filled in when the command runs
  (parameters, arithmetic, output of commands) is a piece of its own.
  The text is read character by character (`Lexer.step`); the state says what has begun.
-/

import Fleet.Shell.Numeral

namespace Fleet.Shell

/-! ## Words and tokens -/

inductive Piece where
  | char (c : Char) (quoted : Bool)
  /-- A pair of quotes, whatever is between them: the word is there even if it is empty. -/
  | quotes
  /-- The value of a parameter; `otherwise` is what stands behind `:-` in braces. -/
  | parameter (name : String) (otherwise : Option String) (quoted : Bool)
  | length (name : String) (quoted : Bool)
  | arithmetic (source : String) (quoted : Bool)
  | output (source : String) (quoted : Bool)
  deriving DecidableEq, Repr

abbrev Word := List Piece

inductive Token where
  | word (w : Word)
  /-- A number right before a redirection. -/
  | descriptor (n : Nat)
  | operator (text : String)
  | newline
  deriving DecidableEq, Repr

namespace Word

def bare? (w : Word) : Option (List Char) :=
  w.mapM fun
    | .char c false => some c
    | _ => none

/-- The characters of a word once its quotes are removed, if there is nothing to fill in. -/
def literal? (w : Word) : Option (List Char) :=
  (w.filter (· ≠ .quotes)).mapM fun
    | .char c _ => some c
    | _ => none

end Word

/-! ## Characters -/

def isBlank (c : Char) : Bool := c = ' ' ∨ c = '\t'

def isNameStart (c : Char) : Bool := c.isAlpha ∨ c = '_'

def isNameChar (c : Char) : Bool := c.isAlphanum ∨ c = '_'

/-- Parameters whose names are one character. -/
def isSpecial (c : Char) : Bool := c.isDigit ∨ "?#$!@*-".toList.contains c

def isOperatorStart (c : Char) : Bool := "&|;<>()".toList.contains c

def operators : List (List Char) :=
  ["&", "|", ";", "<", ">", "(", ")", "&&", "||", ";;", ">>", "<<", ">&", "<&", ">|", "<>"].map String.toList

/-! ## The lexer -/

/-- What has begun and has not ended yet. `inner` says that it stands in double quotes. -/
inductive Mode where
  | plain
  | comment
  | operator (text : List Char)
  | single
  | double
  | escape (inner : Bool)
  | dollar (inner : Bool)
  | name (chars : List Char) (inner : Bool)
  | braces (chars : List Char) (inner : Bool)
  | parens (chars : List Char) (depth : Nat) (inner : Bool)
  | backquote (chars : List Char) (inner : Bool)
  deriving DecidableEq, Repr

structure Lexer where
  tokens : List Token := []
  word : Option Word := none
  mode : Mode := .plain
  deriving DecidableEq, Repr

namespace Lexer

def push (s : Lexer) (t : Token) : Lexer := { s with tokens := s.tokens ++ [t] }

def add (s : Lexer) (p : Piece) : Lexer := { s with word := some (s.word.getD [] ++ [p]) }

def enter (s : Lexer) (mode : Mode) : Lexer := { s with mode }

def leave (s : Lexer) (inner : Bool) : Lexer := s.enter (if inner then .double else .plain)

def endWord (s : Lexer) : Lexer :=
  match s.word with
  | some w => { s with tokens := s.tokens ++ [.word w], word := none }
  | none => s

/-- End the word before a redirection: a bare number names a descriptor. -/
def endDescriptor (s : Lexer) : Lexer :=
  match s.word.bind Word.bare? with
  | some digits =>
    match Numeral.inBase? 10 digits with
    | some n => { s with tokens := s.tokens ++ [.descriptor n], word := none }
    | none => s.endWord
  | none => s.endWord

/-- A character outside all quotes. -/
def stepPlain (s : Lexer) (c : Char) : Lexer :=
  if isBlank c then s.endWord.enter .plain
  else if c = '\n' then (s.endWord.push .newline).enter .plain
  else if c = '\'' then (s.add .quotes).enter .single
  else if c = '"' then (s.add .quotes).enter .double
  else if c = '\\' then s.enter (.escape false)
  else if c = '$' then s.enter (.dollar false)
  else if c = '\x60' then s.enter (.backquote [] false)
  else if c = '#' ∧ s.word = none then s.enter .comment
  else if isOperatorStart c then (if c = '<' ∨ c = '>' then s.endDescriptor else s.endWord).enter (.operator [c])
  else (s.add (.char c false)).enter .plain

/-- A character between double quotes. -/
def stepDouble (s : Lexer) (c : Char) : Lexer :=
  if c = '"' then s.enter .plain
  else if c = '\\' then s.enter (.escape true)
  else if c = '$' then s.enter (.dollar true)
  else if c = '\x60' then s.enter (.backquote [] true)
  else (s.add (.char c true)).enter .double

/-- A character that ends what came before it and stands for itself as well. -/
def resume (s : Lexer) (inner : Bool) (c : Char) : Lexer := if inner then s.stepDouble c else s.stepPlain c

/-- The piece for what stands in braces behind a dollar. -/
def braced (chars : List Char) (inner : Bool) : Piece :=
  let name := chars.takeWhile (· ≠ ':')
  match chars, chars.dropWhile (· ≠ ':') with
  | '#' :: c :: rest, _ => .length (String.ofList (c :: rest)) inner
  | _, ':' :: '-' :: rest => .parameter (String.ofList name) (some (String.ofList rest)) inner
  | _, _ => .parameter (String.ofList chars) none inner

def enclosed (chars : List Char) (inner : Bool) : Piece :=
  match chars, chars.getLast? with
  | '(' :: rest, some ')' => .arithmetic (String.ofList rest.dropLast) inner
  | _, _ => .output (String.ofList chars) inner

def step (s : Lexer) (c : Char) : Lexer :=
  match s.mode with
  | .plain => s.stepPlain c
  | .comment => if c = '\n' then (s.push .newline).enter .plain else s
  | .operator text =>
    if operators.contains (text ++ [c]) then s.enter (.operator (text ++ [c]))
    else (s.push (.operator (String.ofList text))).stepPlain c
  | .single => if c = '\'' then s.enter .plain else s.add (.char c true)
  | .double => s.stepDouble c
  | .escape inner =>
    let kept := if inner ∧ !"$`\"\\\n".toList.contains c then s.add (.char '\\' true) else s
    (if c = '\n' then kept else kept.add (.char c true)).leave inner
  | .dollar inner =>
    if c = '(' then s.enter (.parens [] 1 inner)
    else if c = '\x7b' then s.enter (.braces [] inner)
    else if isNameStart c then s.enter (.name [c] inner)
    else if isSpecial c then (s.add (.parameter c.toString none inner)).leave inner
    else (s.add (.char '$' inner)).resume inner c
  | .name chars inner =>
    if isNameChar c then s.enter (.name (chars ++ [c]) inner)
    else (s.add (.parameter (String.ofList chars) none inner)).resume inner c
  | .braces chars inner =>
    if c = '\x7d' then (s.add (braced chars inner)).leave inner else s.enter (.braces (chars ++ [c]) inner)
  | .parens chars depth inner =>
    if c = ')' ∧ depth ≤ 1 then (s.add (enclosed chars inner)).leave inner
    else
      let depth := if c = '(' then depth + 1 else if c = ')' then depth - 1 else depth
      s.enter (.parens (chars ++ [c]) depth inner)
  | .backquote chars inner =>
    if c = '\x60' then (s.add (.output (String.ofList chars) inner)).leave inner
    else s.enter (.backquote (chars ++ [c]) inner)

def finish (s : Lexer) : Option (List Token) :=
  match s.mode with
  | .plain | .comment => some s.endWord.tokens
  | .operator text => some (s.push (.operator (String.ofList text))).tokens
  | .dollar false => some (s.add (.char '$' false)).endWord.tokens
  | .name chars false => some (s.add (.parameter (String.ofList chars) none false)).endWord.tokens
  | _ => none

end Lexer

/-- The tokens of a text, if all quotes and brackets in it are closed. -/
def tokens (text : List Char) : Option (List Token) := (text.foldl Lexer.step {}).finish

end Fleet.Shell
