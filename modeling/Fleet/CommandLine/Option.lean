/-
  Fleet.CommandLine.Option — the flags of a command and the reading of a list of words
  against them (`Grammar.read`).

  Words are handled from the left. A flag's value may be attached to it or be the next
  word; a next word is only taken as the value when the flag after it, or the end, shows
  that it is complete (`Progress.settle`), so a fault in a word in between comes first.
  A word that names a subcommand ends the reading (`Reading.next`).
-/

import Fleet.Settings.Error
import Fleet.Text.Integer
import Fleet.Text.OsText

namespace Fleet.CommandLine

open Text

/-! ## Faults -/

inductive UsageFault where
  | unknownArgument (shown : String)
  | missingValue (spec : String)
  | unlistedValue (value spec : String)
  | invalidValue (value spec reason : String)
  /-- A value that is no text where one is needed. -/
  | notText
  | repeated (spec : String)
  | unneededValue (value spec : String)
  | unknownSubcommand (word : String)
  | missingSubcommand (command : String)
  deriving DecidableEq, Repr

def UsageFault.message : UsageFault → String
  | .unknownArgument shown => s!"error: unexpected argument '{shown}' found"
  | .missingValue spec => s!"error: a value is required for '{spec}' but none was supplied"
  | .unlistedValue value spec => s!"error: invalid value '{value}' for '{spec}'"
  | .invalidValue value spec reason => s!"error: invalid value '{value}' for '{spec}': {reason}"
  | .notText => "error: invalid UTF-8 was detected in one or more arguments"
  | .repeated spec => s!"error: the argument '{spec}' cannot be used multiple times"
  | .unneededValue value spec => s!"error: unexpected value '{value}' for '{spec}' found; no more were expected"
  | .unknownSubcommand word => s!"error: unrecognized subcommand '{word}'"
  | .missingSubcommand command => s!"error: '{command}' requires a subcommand but one was not provided"

/-- Why the reading of a command line ends early. -/
inductive Stop where
  | fault (fault : UsageFault)
  | version (command : List String)
  /-- Help was asked for, or nothing was said at all. -/
  | help (command : List String) (asked : Bool)
  deriving DecidableEq, Repr

/-! ## Values -/

inductive ValueFault where
  | missing
  | unlisted
  | notText
  | invalid (reason : String)
  deriving DecidableEq, Repr

abbrev ReadValue (α : Type) := OsText → Except ValueFault α

def reading {α : Type} (read : String → Except ValueFault α) : ReadValue α
  | .text s => read s
  | .raw .. => .error .notText

def readText : ReadValue String := reading .ok

def readPath : ReadValue OsText := fun path => if path = .text "" then .error .missing else .ok path

/-- A path of which no more is needed than what is shown of it. -/
def readShownPath : ReadValue String := fun path => (readPath path).map OsText.shown

/-- An integer from 0 up to `bound`, which is excluded. -/
def readBelow (bound : Nat) : ReadValue Nat := reading fun s =>
  match Text.readInt64 s with
  | .error fault => .error (.invalid fault.message)
  | .ok n =>
    if 0 ≤ n ∧ n < bound then .ok n.toNat else .error (.invalid s!"{n} is not in 0..={bound - 1}")

def readU32 : ReadValue UInt32 := fun s => (readBelow UInt32.size s).map UInt32.ofNat

def readU16 : ReadValue UInt16 := fun s => (readBelow UInt16.size s).map UInt16.ofNat

def readU64 : ReadValue UInt64 := reading fun s =>
  match Text.readNat64 s with
  | .error fault => .error (.invalid fault.message)
  | .ok n => .ok (UInt64.ofNat n)

def readRetrieval : ReadValue Retrieval := reading fun s =>
  (Retrieval.parse s).mapError fun e => .invalid e.message

def readOptimization : ReadValue Optimization := reading fun s =>
  (Optimization.parse s).mapError fun e => .invalid e.message

/-! ## Flags -/

/-- What a flag does to the record `σ` of a command's settings. -/
inductive Effect (σ : Type) where
  | switch (set : σ → σ)
  | value (name : String) (repeatable : Bool) (read : ReadValue (σ → σ))

structure Flag (σ : Type) where
  long : String
  short : Option Char
  effect : Effect σ

namespace Flag

variable {σ τ α : Type}

def spec (f : Flag σ) : String :=
  match f.effect with
  | .switch _ => "--" ++ f.long
  | .value name .. => "--" ++ f.long ++ " <" ++ name ++ ">"

def switch (long : String) (set : σ → σ) : Flag σ := ⟨long, none, .switch set⟩

def single (long : String) (short : Option Char) (name : String) (read : ReadValue α) (set : α → σ → σ) : Flag σ :=
  ⟨long, short, .value name false fun s => (read s).map set⟩

def repeated (long : String) (short : Option Char) (name : String) (read : ReadValue α) (add : α → σ → σ) : Flag σ :=
  ⟨long, short, .value name true fun s => (read s).map add⟩

/-- The same flag for a part of a larger record. -/
def within (lift : (σ → σ) → τ → τ) (f : Flag σ) : Flag τ where
  long := f.long
  short := f.short
  effect := match f.effect with
    | .switch set => .switch (lift set)
    | .value name repeatable read => .value name repeatable fun s => (read s).map lift

end Flag

/-! ## Reading words -/

structure Grammar (σ : Type) where
  path : List String
  flags : List (Flag σ)
  subcommands : List String := []

structure Progress (σ : Type) where
  values : σ
  seen : List String := []
  /-- The last flag, if its value is not settled: no word yet, or the word behind it. -/
  pending : Option (Flag σ × Option OsText) := none

namespace Progress

variable {σ : Type}

/-- Whether the next word is looked at as a value. -/
def awaits (p : Progress σ) : Bool :=
  match p.pending with
  | some (_, none) => true
  | _ => false

def apply (p : Progress σ) (f : Flag σ) (value : Option OsText) : Except Stop (Progress σ) :=
  match f.effect, value with
  | .value .., none => .error (.fault (.missingValue f.spec))
  | .value _ repeatable read, some v =>
    if !repeatable && p.seen.contains f.long then .error (.fault (.repeated f.spec))
    else match read v with
      | .ok set => .ok { p with values := set p.values, seen := f.long :: p.seen }
      | .error .missing => .error (.fault (.missingValue f.spec))
      | .error .unlisted =>
        .error (.fault (if v = .text "" then .missingValue f.spec else .unlistedValue v.shown f.spec))
      | .error .notText => .error (.fault .notText)
      | .error (.invalid reason) => .error (.fault (.invalidValue v.shown f.spec reason))
  | .switch set, _ =>
    if p.seen.contains f.long then .error (.fault (.repeated f.spec))
    else .ok { p with values := set p.values, seen := f.long :: p.seen }

/-- Enter the last flag if that is still to be done. -/
def settle (p : Progress σ) : Except Stop (Progress σ) :=
  match p.pending with
  | none => .ok p
  | some (f, value) => { p with pending := none }.apply f value

def take (p : Progress σ) (f : Flag σ) (attached : Option OsText) : Except Stop (Progress σ) := do
  let p ← p.settle
  match f.effect, attached with
  | .value .., none => return { p with pending := some (f, none) }
  | _, attached => p.apply f attached

end Progress

/-- The end of the reading of one command's words: what was read, and the subcommand that
    follows with its words. -/
structure Reading (σ : Type) where
  progress : Progress σ
  next : Option (String × List OsText)

namespace Grammar

variable {σ : Type}

/-- `-h` and `-V` with their long names; every command has them. -/
def builtin? (g : Grammar σ) (long : String) (short : Option Char) : Option Stop :=
  if long == "help" || short == some 'h' then some (.help g.path true)
  else if long == "version" || short == some 'V' then some (.version g.path)
  else none

def byLong? (g : Grammar σ) (name : String) : Option (Flag σ) := g.flags.find? (·.long == name)

def byShort? (g : Grammar σ) (c : Char) : Option (Flag σ) := g.flags.find? (·.short == some c)

/-- A word of the form `--name` or `--name=value`. -/
def readLong (g : Grammar σ) (p : Progress σ) (body : List Letter) : Except Stop (Progress σ) := do
  let name := (OsText.ofLetters (body.takeWhile (· ≠ .char '='))).shown
  let attached := match body.dropWhile (· ≠ .char '=') with
    | [] => none
    | _ :: value => some (OsText.ofLetters value)
  match g.byLong? name with
  | some f =>
    match f.effect, attached with
    | .switch _, some value => throw (.fault (.unneededValue value.shown f.spec))
    | _, _ => p.take f attached
  | none =>
    match g.builtin? name none, attached with
    | some stop, none => do discard p.settle; throw stop
    | some _, some value => throw (.fault (.unneededValue value.shown ("--" ++ name)))
    | none, _ => throw (.fault (.unknownArgument ("--" ++ name)))

/-- The letters behind a single dash: switches, and at most one flag with a value, whose
    value is what follows it. -/
def readShorts (g : Grammar σ) : List Letter → Progress σ → Except Stop (Progress σ)
  | [], p => .ok p
  | .stray bytes :: rest, _ =>
    .error (.fault (.unknownArgument ("-" ++ (OsText.ofLetters (.stray bytes :: rest)).shown)))
  | .char c :: rest, p =>
    match g.byShort? c with
    | some f =>
      match f.effect with
      | .switch _ => do readShorts g rest (← p.take f none)
      | .value .. =>
        match rest with
        | [] => p.take f none
        | .char '=' :: value => p.take f (some (OsText.ofLetters value))
        | value => p.take f (some (OsText.ofLetters value))
    | none =>
      match g.builtin? "" (some c) with
      | some stop => do discard p.settle; throw stop
      | none => .error (.fault (.unknownArgument ("-" ++ c.toString)))

def stray (g : Grammar σ) (trailing : Bool) (word : String) : Stop :=
  if g.subcommands = [] ∨ (trailing ∧ word ∈ g.subcommands) then .fault (.unknownArgument word)
  else .fault (.unknownSubcommand word)

/-- Read words up to the end or a subcommand. `trailing` says that a lone `--` came before:
    no flag and no value follows it. -/
def readWords (g : Grammar σ) : List OsText → Bool → Progress σ → Except Stop (Reading σ)
  | [], _, p => .ok ⟨p, none⟩
  | word :: rest, trailing, p =>
    if trailing then .error (g.stray true word.shown)
    else if !p.awaits && g.subcommands.contains word.shown then .ok ⟨p, some (word.shown, rest)⟩
    else if word = .text "--" then readWords g rest true p
    else match word.letters with
      | .char '-' :: .char '-' :: body => do readWords g rest false (← g.readLong p body)
      | .char '-' :: c :: shorts => do readWords g rest false (← g.readShorts (c :: shorts) p)
      | _ =>
        match p.pending with
        | some (f, none) => readWords g rest false { p with pending := some (f, some word) }
        | _ => .error (g.stray false word.shown)

def read (g : Grammar σ) (start : σ) (words : List OsText) : Except Stop σ := do
  let reading ← g.readWords words false { values := start }
  return (← reading.progress.settle).values

end Grammar

end Fleet.CommandLine
