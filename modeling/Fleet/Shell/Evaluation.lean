/-
  Fleet.Shell.Evaluation — what a script does. Each step of the evaluation uses up one of
  `n` steps; a script that uses them all counts as one that never ends.
-/

import Fleet.Shell.Expansion
import Fleet.Shell.Preview
import Fleet.Shell.Script
import Fleet.Shell.Tool

namespace Fleet.Shell

open Fleet.System Fleet.Text

namespace Process

/-! ## Children -/

/-- A program started from a process gets its streams and its exported variables. -/
def child (p : Process) (name : String) (arguments : List String) (extra : List (String × String)) : Process :=
  { p with
    name, arguments, number := p.number + 1, jobs := [], doom := none, status := 0
    bindings := extra ++ p.bindings.filter fun v => p.exported.contains v.1
    exported := extra.map (·.1) ++ p.exported }

/-- What a process keeps of another that ran in its place for a while. -/
def after (p c : Process) : Process :=
  { p with files := c.files, clock := c.clock, effects := c.effects, captured := c.captured, status := c.status }

def afterChild (p c : Process) : Flow → Process × Flow
  | .killed number signal =>
    if number = c.number then ({ p.after c with status := 128 + signal }, .next) else (p.after c, .killed number signal)
  | .never => (p.after c, .never)
  | _ => (p.after c, .next)

/-- A subshell has ended: what it did to its variables is forgotten. -/
def afterSubshell (p c : Process) : Flow → Process × Flow
  | .killed number signal => (p.after c, .killed number signal)
  | .never => (p.after c, .never)
  | _ => (p.after c, .next)

/-- A background job has run: its effects stay, but no time has passed. -/
def afterJob (p c : Process) (flow : Flow) : Process :=
  let kept := { p with
    effects := c.effects, status := 0, files := if c.clock = p.clock then c.files else p.files
    jobs := (if flow = .never then none else some c.clock) :: p.jobs }
  match flow with
  | .killed _ _ => { kept with doom := earlier? p.doom (some c.clock) }
  | _ => kept

/-! ## Redirections -/

def afterSlash (fault : Fault) : String :=
  match fault with
  | .noEntry | .notDirectory => "Directory nonexistent"
  | fault => fault.wording.1

def redirect (p : Process) (r : Redirect) (target : String) : Process × Bool :=
  let refuse (verb : String) (fault : Fault) : Process × Bool :=
    (p.complain s!"{p.name}: 1: cannot {verb} {target}: {afterSlash fault}\n", false)
  match r.kind with
  | .duplicate =>
    match (Numeral.decimal? target).bind p.stream? with
    | some stream => (p.setStream r.descriptor stream, true)
    | none => (p, true)
  | .read =>
    match Tool.contentOf p target with
    | .ok bytes => ({ p with input := bytes }, true)
    | .error .noEntry => (p.complain s!"{p.name}: 1: cannot open {target}: No such file\n", false)
    | .error fault => refuse "open" fault
  | .write | .append =>
    match p.files.openAppend target with
    | .error fault => refuse "create" fault
    | .ok (_, place) =>
      let p := match p.files.lookup? place with
        | some (.file content executable) =>
          if r.kind = RedirectKind.write ∧ content ≠ [] then p.put place (.file [] executable) else p
        | some _ => p
        | none => p.put place (.file [] false)
      (p.setStream r.descriptor (.file place), true)

def redirectAll (capture : Capture) (p : Process) : List Redirect → Process × Bool
  | [] => (p, true)
  | r :: rest =>
    let (p, target) := p.text capture r.target
    match p.redirect r target with
    | (p, true) => redirectAll capture p rest
    | (p, false) => (p, false)

def withStreamsOf (p q : Process) : Process := { p with input := q.input, output := q.output, error := q.error }

/-! ## What only the shell itself can do -/

def setAll (p : Process) (assignments : List (String × String)) : Process :=
  assignments.foldl (fun p (name, value) => p.setVariable name value) p

def exportOne (p : Process) (word : String) : Process :=
  let name := String.ofList (word.toList.takeWhile (· ≠ '='))
  let p := match word.toList.dropWhile (· ≠ '=') with
    | '=' :: value => p.setVariable name (String.ofList value)
    | _ => p
  { p with exported := name :: p.exported }

/-- The first line of the input into variables, the last of which gets what is left. -/
def readLine (p : Process) (names : List String) : Process × Flow :=
  let line := p.input.takeWhile (· ≠ 10)
  let rest := p.input.drop (line.length + 1)
  let status := if line.length < p.input.length then 0 else 1
  let words := fieldsFrom none (fragments false (ofBytes line))
  let set (p : Process) (k : Nat) (name : String) : Process :=
    p.setVariable name (if k + 1 = names.length then " ".intercalate (words.drop k) else (words[k]?.getD ""))
  ({ names.zipIdx.foldl (fun p (name, k) => set p k name) p with input := rest }).done status

def waitAll (p : Process) : Process × Flow :=
  if p.jobs.contains none then (p, .never)
  else { p with clock := (p.jobs.filterMap id).foldl max p.clock, jobs := [] }.done 0

def changeDirectory (p : Process) (path : String) : Process × Flow :=
  match p.files.find path with
  | .ok (place, .directory) => { p with files := { p.files with here := place } }.done 0
  | _ => p.fail 2 s!"{p.name}: 1: cd: can't cd to {path}"

def count? (arguments : List String) : Option Nat := Numeral.decimal? (arguments.head?.getD "1")

def special (p : Process) (name : String) (arguments : List String) : Option (Process × Flow) :=
  match name with
  | "exit" =>
    match arguments.head? with
    | none => some (p, .exit)
    | some a => match Numeral.decimal? a with
      | some n => some ({ p with status := n % 256 }, .exit)
      | none => some ((p.fail 2 s!"{p.name}: 1: exit: Illegal number: {a}").1, .exit)
  | "set" =>
    match arguments with
    | "--" :: rest => some ({ p with arguments := rest }.done 0)
    | first :: _ => some ((if first.startsWith "-" || first.startsWith "+" then p else { p with arguments }).done 0)
    | [] => some (p.done 0)
  | "shift" => some ({ p with arguments := p.arguments.drop ((count? arguments).getD 1) }.done 0)
  | "export" => some ((arguments.foldl exportOne p).done 0)
  | "unset" => some ((arguments.foldl unsetVariable p).done 0)
  | "read" => some (p.readLine (arguments.filter (· ≠ "-r")))
  | "wait" => some p.waitAll
  | "cd" => some (p.changeDirectory (arguments.head?.getD "/"))
  | "trap" | "umask" | "ulimit" => some (p.done 0)
  | "break" => some (p, .out (((count? arguments).getD 1) - 1))
  | "continue" => some (p, .again (((count? arguments).getD 1) - 1))
  | _ => none

end Process

/-! ## Evaluation -/

/-- What the end of one round means for the loop: on to the next, or out with a flow. -/
def roundEnd : Flow → Option Flow
  | .next | .again 0 => none
  | .out 0 => some .next
  | .out (k + 1) => some (.out k)
  | .again (k + 1) => some (.again k)
  | flow => some flow

mutual

/-- A script as a tree: the process behind it, and where the flow goes from there. -/
def exec : (n : Nat) → Script → Process → Process × Flow
  | 0, _, p => (p, .never)
  | n + 1, script, p =>
    match script with
    | .empty => (p, .next)
    | .simple assignments words redirects => simple n assignments words redirects p
    | .sequence first second =>
      match exec n first p with
      | (p, .next) => exec n second p
      | stopped => stopped
    | .chain wanted first second =>
      match exec n first p with
      | (p, .next) => if (p.status == 0) == wanted then exec n second p else (p, .next)
      | stopped => stopped
    | .negate body =>
      match exec n body p with
      | (p, .next) => p.done (if p.status = 0 then 1 else 0)
      | stopped => stopped
    | .pipe first second =>
      let (c, flow) := exec n first { p with output := .capture, captured := [] }
      match p.afterSubshell { c with captured := p.captured } flow with
      | (q, .next) =>
        let (d, flow) := exec n second { q with input := c.captured }
        q.afterSubshell d flow
      | stopped => stopped
    | .background body =>
      let (c, flow) := exec n body { p with input := [], jobs := [] }
      (p.afterJob c flow, .next)
    | .subshell body =>
      let (c, flow) := exec n body { p with jobs := [] }
      p.afterSubshell c flow
    | .choose condition yes no =>
      match exec n condition p with
      | (p, .next) => if p.status = 0 then exec n yes p else exec n no { p with status := 0 }
      | stopped => stopped
    | .loop wanted condition body => rounds n wanted condition body 0 p
    | .each name words body =>
      let (p, values) := match words with
        | some words => p.fields (capture n) words
        | none => (p, p.arguments)
      eachOf n name values body { p with status := 0 }
    | .select subject patterns body rest =>
      let (p, subject') := p.text (capture n) subject
      let matching (w : Word) : Bool := fits (wholeOf (p.fill (capture n) w).2) subject'.toList
      if patterns.any matching then exec n body p else exec n rest { p with status := 0 }
    | .redirected body redirects =>
      match p.redirectAll (capture n) redirects with
      | (q, true) =>
        let (q, flow) := exec n body q
        (q.withStreamsOf p, flow)
      | (q, false) => (q.withStreamsOf p).done 2

/-- The rounds of a loop; `last` is the status of the last one. -/
def rounds : (n : Nat) → Bool → Script → Script → (last : Nat) → Process → Process × Flow
  | 0, _, _, _, _, p => (p, .never)
  | n + 1, wanted, condition, body, last, p =>
    match exec n condition p with
    | (p, .next) =>
      if (p.status == 0) != wanted then p.done last
      else
        let (p, flow) := exec n body p
        match roundEnd flow with
        | none => rounds n wanted condition body p.status p
        | some flow => (p, flow)
    | (p, flow) =>
      match roundEnd flow with
      | none => rounds n wanted condition body p.status p
      | some flow => (p, flow)

def eachOf : (n : Nat) → String → List String → Script → Process → Process × Flow
  | 0, _, _, _, p => (p, .never)
  | _ + 1, _, [], _, p => (p, .next)
  | n + 1, name, value :: rest, body, p =>
    let (p, flow) := exec n body (p.setVariable name value)
    match roundEnd flow with
    | none => eachOf n name rest body p
    | some flow => (p, flow)

/-- A plain command: its words are filled in, then its assignments, then it is run. -/
def simple : (n : Nat) → List (String × Word) → List Word → List Redirect → Process → Process × Flow
  | 0, _, _, _, p => (p, .never)
  | n + 1, assignments, words, redirects, p =>
    let (p, arguments) := p.fields (capture n) words
    let (p, values) := assignments.foldl (fun (p, done) (name, w) =>
      let (p, value) := p.text (capture n) w
      (p, done ++ [(name, value)])) ({ p with status := if words = [] then 0 else p.status }, [])
    match p.redirectAll (capture n) redirects with
    | (q, false) => (q.withStreamsOf p).done 2
    | (q, true) =>
      match arguments with
      | [] => ((q.withStreamsOf p).setAll values, .next)
      | "exec" :: [] => (q, .next)
      | "exec" :: name :: rest =>
        match program n name (rest.map .text) values q with
        | (q, .next) => (q, .exit)
        | stopped => stopped
      | "eval" :: rest =>
        let (q, flow) := source n (" ".intercalate rest) q
        (q.withStreamsOf p, flow)
      | name :: rest =>
        let (r, flow) := match q.special name rest with
          | some done => done
          | none =>
            match if Tool.builtins.contains name then Tool.run q true name rest else none with
            | some done => done
            | none => program n name (rest.map .text) values q
        (r.withStreamsOf { p with input := if redirects = [] then r.input else p.input }, flow)

def program : (n : Nat) → String → List OsText → List (String × String) → Process → Process × Flow
  | 0, _, _, _, p => (p, .never)
  | n + 1, name, arguments, extra, p =>
    let texts := arguments.map OsText.shown
    match p.files.command name with
    | .error .noFormat =>
      let (c, flow) := shell n (name :: texts) (p.child name texts extra)
      p.afterChild c flow
    | .error .denied => p.fail 126 s!"{p.name}: 1: {name}: Permission denied"
    | .error _ => p.fail 127 s!"{p.name}: 1: {name}: not found"
    | .ok (tool, before) =>
      let (c, flow) := run n tool (before.map .text ++ arguments) (p.child name (before ++ texts) extra)
      p.afterChild c flow

/-- A program of the system in a process that was made for it. Its arguments need not be
    texts, but only the launcher, and `xargs` for it, make something of those that are not. -/
def run : (n : Nat) → String → List OsText → Process → Process × Flow
  | 0, _, _, p => (p, .never)
  | n + 1, tool, arguments, p =>
    match tool with
    | "sh" | "dash" | "bash" => shell n (arguments.map OsText.shown) p
    | "env" =>
      let isSetting (a : OsText) : Bool := a.shown.contains '='
      match arguments.dropWhile isSetting with
      | [] => p.done 0
      | name :: rest =>
        let p := ((arguments.takeWhile isSetting).map OsText.shown).foldl Process.exportOne p
        match p.files.command name.shown with
        | .ok (tool, before) => run n tool (before.map .text ++ rest) { p with name := name.shown }
        | .error fault => p.fail 127 s!"env: '{name.shown}': {fault.wording.1}"
    | "xargs" =>
      match arguments with
      | [] => p.done 0
      | name :: rest =>
        match program n name.shown (rest ++ Tool.inputWords p.input) [] { p with input := [] } with
        | (q, .next) => q.done (Tool.xargsStatus q.status)
        | stopped => stopped
    | "pung-launch" => (p.launcher? arguments).getD (p.done 0)
    | tool => (Tool.run p false tool (arguments.map OsText.shown)).getD (p.done 0)

def shell : (n : Nat) → List String → Process → Process × Flow
  | 0, _, p => (p, .never)
  | n + 1, arguments, p =>
    match arguments.dropWhile fun a => a.startsWith "-" ∧ a ≠ "-c" ∧ a ≠ "-" with
    | "-c" :: text :: name :: rest => source n text { p with name, arguments := rest }
    | "-c" :: text :: [] => source n text { p with name := "sh", arguments := [] }
    | path :: rest =>
      match p.files.read path with
      | .ok bytes => source n (ofBytes bytes) { p with name := path, arguments := rest }
      | .error _ => p.fail 2 s!"sh: 0: cannot open {path}: No such file"
    | [] => source n (ofBytes p.input) { p with name := "sh", arguments := [], input := [] }

def source : (n : Nat) → String → Process → Process × Flow
  | 0, _, p => (p, .never)
  | n + 1, text, p =>
    match Script.parse text with
    | some script => exec n script p
    | none => ((p.fail 2 s!"{p.name}: 1: Syntax error").1, .exit)

/-- The output of a script that runs in a subshell. -/
def capture : (n : Nat) → Process → String → Process × Bytes
  | 0, p, _ => (p, [])
  | n + 1, p, text =>
    let (c, _) := source n text { p with output := .capture, captured := [], jobs := [] }
    (p.after { c with captured := p.captured }, c.captured)

end

def maxSteps : Nat := 10000

end Fleet.Shell
