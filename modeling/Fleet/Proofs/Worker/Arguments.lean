/-
  Fleet.Proofs.Worker.Arguments — what a worker reads in its argument list.

  A list is read in pairs from the front, a flag and its value (`argPairs`). So only its
  place makes a text a flag: an address or a secret that is spelled like a flag is a value
  all the same. `Command.value?` looks a flag up in what was read.

  A server works out its port from its base port and its id (`Command.listens?`); a client
  is told where to call and finds the port behind the last colon (`Command.calls?`), however
  many colons the address has before it.
-/

import Fleet.Worker.Invocation
import Mathlib

namespace Fleet

/-! ## Pairs -/

def argPairs : List String → List (String × String)
  | flag :: value :: rest => (flag, value) :: argPairs rest
  | _ => []

@[simp] theorem argPairs_flatArgs (ps : List (String × String)) : argPairs (flatArgs ps) = ps := by
  induction ps with
  | nil => rfl
  | cons p ps ih =>
    show p :: argPairs (flatArgs ps) = p :: ps
    rw [ih]

/-! ## Addresses -/

def behindLastColon (text : String) : String :=
  .ofList (text.toList.reverse.takeWhile (· != ':')).reverse

theorem behindLastColon_append {rest : String} (host : String) (h : ':' ∉ rest.toList) :
    behindLastColon (host ++ ":" ++ rest) = rest := by
  have hrest : ∀ c ∈ rest.toList.reverse, (c != ':') = true := by
    intro c hc
    rw [bne_iff_ne]
    rintro rfl
    exact h (List.mem_reverse.mp hc)
  have htext : (host ++ ":" ++ rest).toList.reverse = rest.toList.reverse ++ ':' :: host.toList.reverse := by simp
  rw [behindLastColon, htext, List.takeWhile_append_of_pos hrest]
  simp

theorem isDigit_of_mem_repr {n : Nat} {c : Char} (h : c ∈ n.repr.toList) : c.isDigit = true := by
  rw [Nat.toList_repr] at h
  exact Nat.isDigit_of_mem_toDigits (by decide) (by decide) h

theorem not_mem_repr (n : Nat) {c : Char} (hc : c.isDigit = false) : c ∉ n.repr.toList := by
  intro h
  rw [isDigit_of_mem_repr h] at hc
  cases hc

/-! ## Commands -/

namespace Command

variable (c : Command)

def value? (flag : String) : Option String := (argPairs c.args).lookup flag

def number? (flag : String) : Option Nat := (c.value? flag).bind String.toNat?

def calls? : Option Nat := (c.value? "-h").bind fun address => (behindLastColon address).toNat?

def listens? : Option Nat := do return (← c.number? "-s") + (← c.number? "-p")

end Command

namespace ServerInvocation

variable (i : ServerInvocation) (slot : UInt32) (program : String)

theorem value?_toCommand (flag : String) : (i.toCommand slot program).value? flag = i.pairs.lookup flag := by
  simp only [Command.value?, toCommand, argPairs_flatArgs]

theorem listens?_toCommand :
    (i.toCommand slot program).listens? = some (i.basePort.toNat + i.serverId.toNat) := by
  have hs : (i.toCommand slot program).value? "-s" = some i.basePort.toNat.repr := by
    rw [value?_toCommand]; rfl
  have hp : (i.toCommand slot program).value? "-p" = some i.serverId.toNat.repr := by
    rw [value?_toCommand]; rfl
  simp [Command.listens?, Command.number?, hs, hp, Nat.toNat?_repr]

theorem lookup_opt : i.pairs.lookup "-o" = i.opt.map Optimization.flag := by
  cases h : i.opt <;> simp [pairs, optPairs, h, List.lookup_cons]

end ServerInvocation

namespace ClientInvocation

variable (i : ClientInvocation) (program : String)

theorem value?_toCommand (flag : String) : (i.toCommand program).value? flag = i.pairs.lookup flag := by
  simp only [Command.value?, toCommand, argPairs_flatArgs]

theorem lookup_opt : i.pairs.lookup "-o" = i.opt.map Optimization.flag := by
  cases h : i.opt <;> simp [pairs, optPairs, h, List.lookup_cons]

/-- The retrieval type stands behind the optimization, whether there is one or not. -/
theorem lookup_type : i.pairs.lookup "-t" = some i.ret.flag := by
  cases h : i.opt <;> simp [pairs, optPairs, h, List.lookup_cons]

theorem calls?_toCommand {host : String} {port : Nat} (h : i.serverAddr = host ++ ":" ++ port.repr) :
    (i.toCommand program).calls? = some port := by
  have hh : (i.toCommand program).value? "-h" = some i.serverAddr := by
    rw [value?_toCommand]; rfl
  rw [Command.calls?, hh, h]
  show (behindLastColon (host ++ ":" ++ port.repr)).toNat? = some port
  rw [behindLastColon_append host (not_mem_repr port rfl), Nat.toNat?_repr]

end ClientInvocation

end Fleet
