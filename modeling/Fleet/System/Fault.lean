/-
  Fleet.System.Fault — why the operating system refuses something, with its number and its
  words for it.
-/

namespace Fleet.System

inductive Fault where
  | noEntry
  | noFormat
  | denied
  | entryExists
  | notDirectory
  | isDirectory
  | nameTooLong
  | zeroInPath
  | zeroInCommand
  | notText
  /-- Whatever else a system may refuse something for. -/
  | other (words : String) (number : Option Nat)
  deriving DecidableEq, Repr

namespace Fault

def wording : Fault → String × Option Nat
  | .noEntry => ("No such file or directory", some 2)
  | .noFormat => ("Exec format error", some 8)
  | .denied => ("Permission denied", some 13)
  | .entryExists => ("File exists", some 17)
  | .notDirectory => ("Not a directory", some 20)
  | .isDirectory => ("Is a directory", some 21)
  | .nameTooLong => ("File name too long", some 36)
  | .zeroInPath => ("file name contained an unexpected NUL byte", none)
  | .zeroInCommand => ("nul byte found in provided data", none)
  | .notText => ("stream did not contain valid UTF-8", none)
  | .other words number => (words, number)

def message (f : Fault) : String :=
  match f.wording with
  | (words, some number) => s!"{words} (os error {number})"
  | (words, none) => words

end Fault

end Fleet.System
