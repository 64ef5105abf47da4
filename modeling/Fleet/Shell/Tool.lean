/-
  Fleet.Shell.Tool — the programs of the system, as far as workers use them.
-/

import Fleet.Shell.Format
import Fleet.Shell.Process
import Fleet.Text.OsText

namespace Fleet.Shell.Tool

open Fleet.System Fleet.Text

variable (p : Process)

/-! ## Output -/

/-- The shell's own `echo` replaces escapes. -/
def echo (arguments : List String) : Process × Flow :=
  let (newline, words) := match arguments with
    | "-n" :: rest => (false, rest)
    | words => (true, words)
  let text := (" ".intercalate words).toList
  let (bytes, cut) := Format.unescape true text.length text
  (p.write p.output (bytes ++ if newline && !cut then [10] else [])).done 0

/-- The system's `echo` replaces escapes only when asked to. -/
def plainEcho (arguments : List String) : Process × Flow :=
  let isOption (a : String) : Bool := match a.toList with
    | '-' :: c :: rest => (c :: rest).all "neE".toList.contains
    | _ => false
  let letters := (arguments.takeWhile isOption).flatMap fun a => a.toList.drop 1
  let text := (" ".intercalate (arguments.dropWhile isOption)).toList
  let escapes := (letters.filter (· ≠ 'n')).getLast? = some 'e'
  let (bytes, cut) := if escapes then Format.unescape true text.length text else (toBytes (String.ofList text), false)
  (p.write p.output (bytes ++ if !letters.contains 'n' && !cut then [10] else [])).done 0

def printf : List String → Process × Flow
  | [] => p.fail 2 "printf: usage: printf format [arg ...]"
  | format :: arguments =>
    let (bytes, ok) := Format.apply format arguments
    (p.write p.output bytes).done (if ok then 0 else 1)

/-! ## Files -/

/-- What a path holds. The state of the process itself can be read as a file. -/
def contentOf (path : String) : Except Fault Bytes :=
  if path = s!"/proc/{p.number}/stat" then
    .ok (toBytes s!"{p.number} (sh) S {p.number - 1} 2 {p.number - 1} 0 -1\n")
  else p.files.read path

def catOne (p : Process) (path : String) : Process × Bool :=
  if path = "-" then (p.write p.output p.input, true)
  else match contentOf p path with
    | .ok bytes => (p.write p.output bytes, true)
    | .error fault =>
      let words := fault.wording.1
      (p.complain s!"cat: {path}: {words}\n", false)

def cat (paths : List String) : Process × Flow :=
  let (p, ok) := (if paths = [] then ["-"] else paths).foldl
    (fun (p, ok) path => let (p, fine) := catOne p path; (p, ok && fine)) (p, true)
  p.done (if ok then 0 else 1)

def touchOne (p : Process) (path : String) : Process :=
  match p.files.find path, p.files.follow path with
  | .error _, .ok place => p.put place (.file [] false)
  | _, _ => p

def touch (paths : List String) : Process × Flow := (paths.foldl touchOne p).done 0

def mkdir (arguments : List String) : Process × Flow :=
  let paths := arguments.filter fun a => !a.startsWith "-"
  let make (p : Process) (path : String) : Process :=
    let made := if arguments.contains "-p" then (p.files.makeDirectories path).1
      else (p.files.makeDirectory path).toOption.getD p.files
    (made.entries.drop p.files.entries.length).foldl (fun p (place, entry) => p.put place entry) p
  (paths.foldl make p).done 0

def rm (arguments : List String) : Process × Flow :=
  let removeOne (p : Process) (path : String) : Process :=
    match p.files.find path with
    | .ok (place, .file ..) => p.remove place
    | _ => p
  ((arguments.filter fun a => !a.startsWith "-").foldl removeOne p).done 0

/-! ## Conditions -/

def compare? (operator a b : String) : Option Bool :=
  let numbers (holds : Int → Int → Bool) : Option Bool := do
    return holds (← Format.argument? a) (← Format.argument? b)
  match operator with
  | "=" | "==" => some (a = b)
  | "!=" => some (a ≠ b)
  | "-eq" => numbers (· = ·)
  | "-ne" => numbers (· ≠ ·)
  | "-lt" => numbers (· < ·)
  | "-le" => numbers (· ≤ ·)
  | "-gt" => numbers (· > ·)
  | "-ge" => numbers (· ≥ ·)
  | _ => none

def property? (operator a : String) : Option Bool :=
  let lookup? : Option Entry := (p.files.find a).toOption.map (·.2)
  match operator with
  | "-n" => some (!a.isEmpty)
  | "-z" => some a.isEmpty
  | "-e" | "-r" | "-w" => some lookup?.isSome
  | "-d" => some (lookup? = some .directory)
  | "-f" => some (match lookup? with | some (.file ..) => true | _ => false)
  | "-s" => some (match lookup? with | some (.file content _) => content ≠ [] | _ => false)
  | "-x" => some (match lookup? with | some (.file _ x) => x | some .null | none => false | some _ => true)
  | "-t" => some false
  | _ => none

def condition? : List String → Option Bool
  | [] => some false
  | [a] => some (!a.isEmpty)
  | "!" :: rest => (condition? rest).map (!·)
  | [operator, a] => property? p operator a
  | [a, operator, b] => compare? operator a b
  | _ => none

/-- Conditions joined by `-a`, which binds tighter, and `-o`. -/
def conditions? (arguments : List String) : Option Bool :=
  (condition? p arguments).orElse fun _ =>
    if !(arguments.contains "-a" || arguments.contains "-o") then none
    else (arguments.splitOn "-o").foldlM (fun any part => do
      let all ← (part.splitOn "-a").foldlM (fun all c => return all && (← condition? p c)) true
      return any || all) false

def test (name : String) (arguments : List String) : Process × Flow :=
  let given := if name = "[" then (if arguments.getLast? = some "]" then some arguments.dropLast else none)
    else some arguments
  match given.bind (conditions? p) with
  | some true => p.done 0
  | some false => p.done 1
  | none => p.fail 2 s!"{p.name}: {name}: unexpected operator"

/-! ## Time -/

/-- Milliseconds in a text of seconds, with a fraction and a unit or without. -/
def duration? (text : String) : Option Nat :=
  let cs := text.toList
  let whole := cs.takeWhile Char.isDigit
  let rest := cs.dropWhile Char.isDigit
  let (fraction, unit) := match rest with
    | '.' :: digits => (digits.takeWhile Char.isDigit, digits.dropWhile Char.isDigit)
    | rest => ([], rest)
  if whole = [] ∧ fraction = [] then none
  else
    let ms := Format.digitsValue whole * 1000 + Format.digitsValue ((fraction ++ ['0', '0', '0']).take 3)
    match unit with
    | [] | ['s'] => some ms
    | ['m'] => some (ms * 60)
    | ['h'] => some (ms * 3600)
    | ['d'] => some (ms * 86400)
    | _ => none

def sleep (arguments : List String) : Process × Flow :=
  match arguments.mapM duration? with
  | some (first :: rest) => (p.sleep ((first :: rest).foldl (· + ·) 0)).done 0
  | _ =>
    if arguments.contains "infinity" then (p, .never)
    else p.fail 1 ("sleep: invalid time interval '" ++ " ".intercalate arguments ++ "'")

/-! ## Signals -/

def signals : List (String × Nat) :=
  [("HUP", 1), ("INT", 2), ("QUIT", 3), ("ILL", 4), ("TRAP", 5), ("ABRT", 6), ("BUS", 7), ("FPE", 8), ("KILL", 9),
    ("USR1", 10), ("SEGV", 11), ("USR2", 12), ("PIPE", 13), ("ALRM", 14), ("TERM", 15), ("CHLD", 17), ("CONT", 18),
    ("STOP", 19), ("TSTP", 20)]

def signal? (text : String) : Option Nat :=
  match Numeral.decimal? text with
  | some n => some n
  | none =>
    let name := if text.startsWith "SIG" then String.ofList (text.toList.drop 3) else text
    signals.lookup name

def signal (number target : Nat) : Process × Flow :=
  if number = 0 ∨ number = 17 ∨ number = 18 then p.done 0
  else if target = Process.launcher then
    (if number = 2 ∨ number = 15 then p.act .ask else p).done 0
  else if target ≤ p.number then
    if number = 19 ∨ number = 20 then (p, .never) else (p, .killed target number)
  else p.fail 1 s!"{p.name}: kill: No such process"

def kill (arguments : List String) : Process × Flow :=
  let chosen : Option (Nat × List String) := match arguments with
    | "-s" :: name :: rest => (signal? name).map (·, rest)
    | first :: rest =>
      match first.toList with
      | '-' :: name => (signal? (String.ofList name)).map (·, rest)
      | _ => some (15, first :: rest)
    | [] => none
  match chosen with
  | some (number, rest) =>
    match (rest.filter (· ≠ "--")).mapM Numeral.decimal? with
    | some [target] => signal p number target
    | _ => p.fail 2 s!"{p.name}: kill: Illegal number"
  | none => p.fail 2 s!"{p.name}: kill: usage"

/-! ## All of them -/

def pwd : Process × Flow := (p.print ("/" ++ "/".intercalate p.files.here ++ "\n")).done 0

def seq (arguments : List String) : Process × Flow :=
  let range := match arguments.mapM Numeral.decimal? with
    | some [last] => some (1, last)
    | some [first, last] => some (first, last)
    | _ => none
  match range with
  | some (first, last) =>
    (p.print (String.join ((List.range (last + 1 - first)).map fun k => s!"{first + k}\n"))).done 0
  | none => p.fail 1 "seq: invalid argument"

def inputWords (input : Bytes) : List OsText :=
  ((input.splitOnP fun b => b = 32 ∨ b = 9 ∨ b = 10).filter (· ≠ [])).map .ofBytes

def xargsStatus (status : Nat) : Nat := if status = 0 ∨ status = 126 ∨ status = 127 then status else 123

/-- Run a program of the system by its name. `within` says that a shell runs it itself. -/
def run (within : Bool) (name : String) (arguments : List String) : Option (Process × Flow) :=
  match name with
  | "true" | ":" => some (p.done 0)
  | "false" => some (p.done 1)
  | "echo" => some (if within then echo p arguments else plainEcho p arguments)
  | "printf" => some (printf p arguments)
  | "test" | "[" => some (test p name arguments)
  | "cat" => some (cat p arguments)
  | "sleep" => some (sleep p arguments)
  | "kill" => some (kill p arguments)
  | "touch" => some (touch p arguments)
  | "mkdir" => some (mkdir p arguments)
  | "rm" => some (rm p arguments)
  | "pwd" => some (pwd p)
  | "seq" => some (seq p arguments)
  | _ => none

def builtins : List String := ["true", ":", "false", "echo", "printf", "test", "[", "kill", "pwd"]

def names : List String :=
  ["true", "false", "echo", "printf", "test", "[", "cat", "sleep", "kill", "touch", "mkdir", "rm", "pwd", "seq", "env",
    "xargs", "sh", "dash", "bash"]

end Fleet.Shell.Tool
