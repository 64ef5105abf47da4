/-
  Fleet.Shell.Script — a shell script as a tree, and the reading of one from its tokens
  (`Script.parse`).

  A word counts as a keyword, or as the assignment of a variable, only where a command
  may begin; `Script.simple` keeps the words of a plain command as they stand.
-/

import Fleet.Shell.Token

namespace Fleet.Shell

/-! ## Trees -/

inductive RedirectKind where
  | read
  | write
  | append
  /-- The same as another descriptor, which the target names. -/
  | duplicate
  deriving DecidableEq, Repr

structure Redirect where
  descriptor : Nat
  kind : RedirectKind
  target : Word
  deriving DecidableEq, Repr

inductive Script where
  | empty
  | simple (assignments : List (String × Word)) (words : List Word) (redirects : List Redirect)
  | sequence (first second : Script)
  /-- The second runs if the first succeeds (`wanted`) or if it fails. -/
  | chain (wanted : Bool) (first second : Script)
  | negate (body : Script)
  | pipe (first second : Script)
  | background (body : Script)
  | subshell (body : Script)
  | choose (condition yes no : Script)
  /-- The body runs as long as the condition succeeds (`wanted`) or fails. -/
  | loop (wanted : Bool) (condition body : Script)
  /-- The body runs for each word; without words, for each argument. -/
  | each (name : String) (words : Option (List Word)) (body : Script)
  /-- The body runs if the subject matches one of the patterns, else the rest. -/
  | select (subject : Word) (patterns : List Word) (body rest : Script)
  | redirected (body : Script) (redirects : List Redirect)
  deriving Repr

/-! ## Words -/

def assignment? (w : Word) : Option (String × Word) :=
  let isNamePiece : Piece → Bool
    | .char c false => isNameChar c
    | _ => false
  let name := w.takeWhile isNamePiece
  match name, w.dropWhile isNamePiece with
  | .char first false :: _, .char '=' false :: value =>
    if isNameStart first then (Word.bare? name).map fun chars => (String.ofList chars, value) else none
  | _, _ => none

def keywords : List String :=
  ["if", "then", "else", "elif", "fi", "while", "until", "do", "done", "for", "in", "case", "esac", "!", "\x7b", "\x7d"]

def Token.bare? : Token → Option String
  | .word w => w.bare?.map String.ofList
  | _ => none

def Token.isKeyword (t : Token) : Bool := t.bare?.any keywords.contains

/-! ## Reading -/

namespace Script

def skipNewlines : List Token → List Token
  | .newline :: rest => skipNewlines rest
  | tokens => tokens

def expect (keyword : String) : List Token → Option (List Token)
  | t :: rest => if t.bare? = some keyword then some rest else none
  | [] => none

def redirectKind? : String → Option (RedirectKind × Nat)
  | "<" => some (.read, 0)
  | ">" | ">|" => some (.write, 1)
  | ">>" => some (.append, 1)
  | ">&" => some (.duplicate, 1)
  | "<&" => some (.duplicate, 0)
  | _ => none

def redirect? : List Token → Option (Redirect × List Token)
  | .descriptor n :: .operator text :: .word target :: rest =>
    (redirectKind? text).map fun (kind, _) => (⟨n, kind, target⟩, rest)
  | .operator text :: .word target :: rest =>
    (redirectKind? text).map fun (kind, n) => (⟨n, kind, target⟩, rest)
  | _ => none

def redirects : (n : Nat) → List Token → List Redirect × List Token
  | 0, tokens => ([], tokens)
  | n + 1, tokens =>
    match redirect? tokens with
    | some (r, rest) =>
      let (more, rest) := redirects n rest
      (r :: more, rest)
    | none => ([], tokens)

def wordsAndRedirects : (n : Nat) → List Token → (List Word × List Redirect) × List Token
  | 0, tokens => (([], []), tokens)
  | n + 1, tokens =>
    match redirect? tokens, tokens with
    | some (r, rest), _ =>
      let ((words, more), rest) := wordsAndRedirects n rest
      ((words, r :: more), rest)
    | none, .word w :: rest =>
      let ((words, more), rest) := wordsAndRedirects n rest
      ((w :: words, more), rest)
    | none, _ => (([], []), tokens)

/-- Assignments stand before all other words of a command. -/
def ofWords (words : List Word) (redirects : List Redirect) : Script :=
  let isAssignment (w : Word) : Bool := (assignment? w).isSome
  .simple ((words.takeWhile isAssignment).filterMap assignment?) (words.dropWhile isAssignment) redirects

def wordsToEnd : (n : Nat) → List Token → List Word × List Token
  | n + 1, .word w :: rest =>
    let (words, rest) := wordsToEnd n rest
    (w :: words, rest)
  | _, tokens => ([], tokens)

def skipSeparator : List Token → List Token
  | .operator ";" :: rest => skipNewlines rest
  | tokens => skipNewlines tokens

def patterns : (n : Nat) → List Token → Option (List Word × List Token)
  | n + 1, .word w :: .operator "|" :: rest => (patterns n rest).map fun (ws, rest) => (w :: ws, rest)
  | _, .word w :: .operator ")" :: rest => some ([w], rest)
  | _, _ => none

mutual

/-- Commands up to a keyword, a closing bracket or the end. -/
def list : (n : Nat) → List Token → Option (Script × List Token)
  | 0, _ => none
  | n + 1, tokens =>
    match skipNewlines tokens with
    | [] => some (.empty, [])
    | t :: rest =>
      if (t.isKeyword ∧ t.bare? ≠ some "if" ∧ t.bare? ≠ some "while" ∧ t.bare? ≠ some "until" ∧
          t.bare? ≠ some "for" ∧ t.bare? ≠ some "case" ∧ t.bare? ≠ some "!" ∧ t.bare? ≠ some "\x7b") ∨
          t = .operator ")" ∨ t = .operator ";;" then some (.empty, t :: rest)
      else do
        let (first, rest) ← chained n (t :: rest)
        match rest with
        | .operator "&" :: rest => do
          let (second, rest) ← list n rest
          some (.sequence (.background first) second, rest)
        | .operator ";" :: rest | .newline :: rest => do
          let (second, rest) ← list n rest
          some (.sequence first second, rest)
        | rest => some (first, rest)

/-- Pipelines joined by `&&` and `||`, from the left. -/
def chained : (n : Nat) → List Token → Option (Script × List Token)
  | 0, _ => none
  | n + 1, tokens => do
    let (first, rest) ← pipeline n tokens
    chainedAfter n first rest

def chainedAfter : (n : Nat) → Script → List Token → Option (Script × List Token)
  | n + 1, first, .operator "&&" :: rest => do
    let (second, rest) ← pipeline n (skipNewlines rest)
    chainedAfter n (.chain true first second) rest
  | n + 1, first, .operator "||" :: rest => do
    let (second, rest) ← pipeline n (skipNewlines rest)
    chainedAfter n (.chain false first second) rest
  | _, first, rest => some (first, rest)

def pipeline : (n : Nat) → List Token → Option (Script × List Token)
  | 0, _ => none
  | n + 1, tokens =>
    match expect "!" tokens with
    | some rest => (pipeline n rest).map fun (body, rest) => (.negate body, rest)
    | none => do
      let (first, rest) ← command n tokens
      match rest with
      | .operator "|" :: rest => (pipeline n (skipNewlines rest)).map fun (second, rest) => (.pipe first second, rest)
      | rest => some (first, rest)

def command : (n : Nat) → List Token → Option (Script × List Token)
  | 0, _ => none
  | n + 1, tokens => do
    match tokens with
    | [] => none
    | t :: rest =>
      let compound : Option (Script × List Token) ←
        if t = .operator "(" then do
          let (body, rest) ← list n rest
          match rest with
          | .operator ")" :: rest => some (some (Script.subshell body, rest))
          | _ => none
        else match t.bare? with
          | some "\x7b" => do
            let (body, rest) ← list n rest
            let rest ← expect "\x7d" rest
            some (some (body, rest))
          | some "if" => do
            let (found, rest) ← choice n rest
            some (some (found, rest))
          | some "while" => do
            let (found, rest) ← looping n true rest
            some (some (found, rest))
          | some "until" => do
            let (found, rest) ← looping n false rest
            some (some (found, rest))
          | some "for" => do
            let (found, rest) ← forEach n rest
            some (some (found, rest))
          | some "case" => do
            match rest with
            | .word subject :: rest => do
              let rest ← expect "in" (skipNewlines rest)
              let (found, rest) ← cases n subject rest
              some (some (found, rest))
            | _ => none
          | _ => some none
      match compound with
      | some (body, rest) =>
        match redirects n rest with
        | ([], rest) => some (body, rest)
        | (rs, rest) => some (.redirected body rs, rest)
      | none =>
        if t.isKeyword then none
        else match wordsAndRedirects n tokens with
          | (([], []), _) => none
          | ((words, rs), rest) => some (ofWords words rs, rest)

def choice : (n : Nat) → List Token → Option (Script × List Token)
  | 0, _ => none
  | n + 1, tokens => do
    let (condition, rest) ← list n tokens
    let rest ← expect "then" rest
    let (yes, rest) ← list n rest
    match expect "elif" rest, expect "else" rest with
    | some rest, _ => (choice n rest).map fun (no, rest) => (.choose condition yes no, rest)
    | none, some rest => do
      let (no, rest) ← list n rest
      let rest ← expect "fi" rest
      some (.choose condition yes no, rest)
    | none, none => do
      let rest ← expect "fi" rest
      some (.choose condition yes .empty, rest)

def looping : (n : Nat) → Bool → List Token → Option (Script × List Token)
  | 0, _, _ => none
  | n + 1, wanted, tokens => do
    let (condition, rest) ← list n tokens
    let rest ← expect "do" rest
    let (body, rest) ← list n rest
    let rest ← expect "done" rest
    some (.loop wanted condition body, rest)

def forEach : (n : Nat) → List Token → Option (Script × List Token)
  | 0, _ => none
  | n + 1, tokens => do
    match tokens with
    | t :: rest =>
      let name ← t.bare?
      let (words, rest) := match expect "in" (skipNewlines rest) with
        | some rest =>
          let (words, rest) := wordsToEnd n rest
          (some words, rest)
        | none => (none, rest)
      let rest ← expect "do" (skipSeparator rest)
      let (body, rest) ← list n rest
      let rest ← expect "done" rest
      some (.each name words body, rest)
    | [] => none

def cases : (n : Nat) → Word → List Token → Option (Script × List Token)
  | 0, _, _ => none
  | n + 1, subject, tokens =>
    let tokens := skipNewlines tokens
    match expect "esac" tokens with
    | some rest => some (.empty, rest)
    | none => do
      let (ws, rest) ← patterns n (match tokens with | .operator "(" :: rest => rest | rest => rest)
      let (body, rest) ← list n rest
      let rest := match rest with | .operator ";;" :: rest => rest | rest => rest
      let (others, rest) ← cases n subject rest
      some (.select subject ws body others, rest)

end

def parse (text : String) : Option Script := do
  let ts ← tokens text.toList
  match ← list (4 * ts.length + 8) ts with
  | (script, []) => some script
  | _ => none

end Script

end Fleet.Shell
