/-
  Fleet.Proofs.Worker.Orders — an argument list as a code for what a worker is told.

  What a server or a client is told are its orders (`ServerOrders`, `ClientOrders`): the
  fields of its invocation that its arguments carry. Reading goes by place, a flag and then
  its value (`argPairs`), so it does not matter what an address, a secret or a file name
  looks like, a flag included.

  An argument list is whole pairs, has every flag of its kind once and `-o` only where
  there is an optimization, and gives the orders back (`Tells`). So two lists of a kind are
  equal exactly where the orders are, and a server's list is never a client's
  (`args_tell_orders`).
-/

import Fleet.Proofs.Worker.Arguments

namespace Fleet

/-! ## Reading values -/

def argValue? (args : List String) (flag : String) : Option String := (argPairs args).lookup flag

def numberBelow? (bound : Nat) (word : String) : Option Nat :=
  word.toNat?.bind fun n => if n < bound then some n else none

def word16? (word : String) : Option UInt16 := (numberBelow? UInt16.size word).map UInt16.ofNat

def word32? (word : String) : Option UInt32 := (numberBelow? UInt32.size word).map UInt32.ofNat

/-- The optimization behind `-o`: none where the flag is missing, nothing where its word is unknown. -/
def optOf? : Option String → Option (Option Optimization)
  | none => some none
  | some word => (Optimization.ofFlag? word).map some

theorem numberBelow?_repr {bound n : Nat} (h : n < bound) : numberBelow? bound n.repr = some n := by
  simp [numberBelow?, Nat.toNat?_repr, h]

@[simp] theorem word16?_toString (n : UInt16) : word16? (toString n) = some n := by
  have hn : numberBelow? UInt16.size n.toNat.repr = some n.toNat := numberBelow?_repr n.toNat_lt
  show (numberBelow? UInt16.size n.toNat.repr).map UInt16.ofNat = some n
  rw [hn, Option.map_some, UInt16.ofNat_toNat]

@[simp] theorem word32?_toString (n : UInt32) : word32? (toString n) = some n := by
  have hn : numberBelow? UInt32.size n.toNat.repr = some n.toNat := numberBelow?_repr n.toNat_lt
  show (numberBelow? UInt32.size n.toNat.repr).map UInt32.ofNat = some n
  rw [hn, Option.map_some, UInt32.ofNat_toNat]

@[simp] theorem toInt?_toString (n : Int) : (toString n).toInt? = some n := Int.toInt?_repr n

@[simp] theorem Retrieval.ofFlag?_flag (r : Retrieval) : ofFlag? r.flag = some r :=
  ofFlag?_eq_some_iff.mpr rfl

@[simp] theorem optOf?_flag (opt : Option Optimization) : optOf? (opt.map Optimization.flag) = some opt := by
  cases opt with
  | none => rfl
  | some o => simp [optOf?, Optimization.ofFlag?_eq_some_iff.mpr rfl]

/-! ## Orders -/

structure ServerOrders where
  bindIp : String
  basePort : UInt16
  depth : UInt32
  ret : Retrieval
  capacity : UInt32
  hostFile : String
  totalServers : UInt32
  serverId : UInt32
  rate : UInt32
  opt : Option Optimization
  deriving DecidableEq, Repr

structure ClientOrders where
  clientId : UInt32
  localPort : UInt32
  secret : String
  serverAddr : String
  depth : UInt32
  rounds : UInt32
  /-- Below zero where the servers alone send more than the target. -/
  extra : Int
  rate : UInt32
  opt : Option Optimization
  ret : Retrieval
  deriving DecidableEq, Repr

def ServerOrders.read? (args : List String) : Option ServerOrders := do
  let value? := argValue? args
  return {
    bindIp := ← value? "-i"
    basePort := ← (value? "-s").bind word16?
    depth := ← (value? "-d").bind word32?
    ret := ← (value? "-t").bind Retrieval.ofFlag?
    capacity := ← (value? "-m").bind word32?
    hostFile := ← value? "-h"
    totalServers := ← (value? "-n").bind word32?
    serverId := ← (value? "-p").bind word32?
    rate := ← (value? "-k").bind word32?
    opt := ← optOf? (value? "-o") }

def ClientOrders.read? (args : List String) : Option ClientOrders := do
  let value? := argValue? args
  return {
    clientId := ← (value? "-n").bind word32?
    localPort := ← (value? "-p").bind word32?
    secret := ← value? "-x"
    serverAddr := ← value? "-h"
    depth := ← (value? "-d").bind word32?
    rounds := ← (value? "-r").bind word32?
    extra := ← (value? "-b").bind String.toInt?
    rate := ← (value? "-k").bind word32?
    opt := ← optOf? (value? "-o")
    ret := ← (value? "-t").bind Retrieval.ofFlag? }

/-- `args` are pairs of a flag and a value, the flags are `flags` in this order and none
    comes twice, and reading gives `told`. -/
structure Tells {α : Type} (args flags : List String) (read? : List String → Option α) (told : α) : Prop where
  even : Even args.length
  paired : flatArgs (argPairs args) = args
  flags_eq : (argPairs args).map Prod.fst = flags
  nodup : flags.Nodup
  reads : read? args = some told

def optFlags (opt : Option Optimization) : List String := if opt.isSome then ["-o"] else []

@[simp] theorem map_fst_optPairs (opt : Option Optimization) : (optPairs opt).map Prod.fst = optFlags opt := by
  cases opt <;> rfl

theorem length_flatArgs (ps : List (String × String)) : (flatArgs ps).length = 2 * ps.length := by
  induction ps with
  | nil => rfl
  | cons p ps ih =>
    have hstep : (flatArgs (p :: ps)).length = (flatArgs ps).length + 2 := rfl
    rw [hstep, ih, List.length_cons, Nat.mul_succ]

theorem tells_flatArgs {α : Type} {ps : List (String × String)} {flags : List String}
    {read? : List String → Option α} {told : α} (hflags : ps.map Prod.fst = flags) (hnodup : flags.Nodup)
    (hread : read? (flatArgs ps) = some told) : Tells (flatArgs ps) flags read? told where
  even := ⟨ps.length, by rw [length_flatArgs, Nat.two_mul]⟩
  paired := by rw [argPairs_flatArgs]
  flags_eq := by rw [argPairs_flatArgs, hflags]
  nodup := hnodup
  reads := hread

theorem argValue?_flatArgs (ps : List (String × String)) (flag : String) :
    argValue? (flatArgs ps) flag = ps.lookup flag := by
  rw [argValue?, argPairs_flatArgs]

theorem flatArgs_inj {ps qs : List (String × String)} : flatArgs ps = flatArgs qs ↔ ps = qs := by
  constructor
  · intro h
    rw [← argPairs_flatArgs ps, h, argPairs_flatArgs]
  · rintro rfl
    rfl

/-! ## Servers -/

namespace ServerInvocation

variable (i : ServerInvocation)

def orders : ServerOrders where
  bindIp := i.bindIp
  basePort := i.basePort
  depth := i.depth
  ret := i.ret
  capacity := i.capacity
  hostFile := i.hostFile
  totalServers := i.totalServers
  serverId := i.serverId
  rate := i.rate
  opt := i.opt

def flags : List String := ["-i", "-s", "-d", "-t", "-m", "-h", "-n", "-p", "-k"] ++ optFlags i.opt

theorem map_fst_pairs : i.pairs.map Prod.fst = i.flags := by
  simp [pairs, flags]

theorem nodup_flags : i.flags.Nodup := by
  cases h : i.opt <;> simp [flags, optFlags, h]

theorem read?_pairs : ServerOrders.read? (flatArgs i.pairs) = some i.orders := by
  -- Only `-o` may be missing, so it is looked up by a lemma of its own; the others stand where they always do.
  simp only [ServerOrders.read?, argValue?_flatArgs, lookup_opt, optOf?_flag]
  simp [pairs, List.lookup_cons, orders]

theorem tells (slot : UInt32) (program : String) :
    Tells (i.toCommand slot program).args i.flags ServerOrders.read? i.orders :=
  tells_flatArgs i.map_fst_pairs i.nodup_flags i.read?_pairs

theorem pairs_congr {i j : ServerInvocation} (h : i.orders = j.orders) : i.pairs = j.pairs := by
  simp only [orders, ServerOrders.mk.injEq] at h
  obtain ⟨hip, hport, hdepth, hret, hcapacity, hfile, htotal, hid, hrate, hopt⟩ := h
  simp only [pairs, hip, hport, hdepth, hret, hcapacity, hfile, htotal, hid, hrate, hopt]

end ServerInvocation

/-! ## Clients -/

namespace ClientInvocation

variable (i : ClientInvocation)

def orders : ClientOrders where
  clientId := i.clientId
  localPort := i.localPort
  secret := i.secret
  serverAddr := i.serverAddr
  depth := i.depth
  rounds := i.rounds
  extra := i.extra
  rate := i.rate
  opt := i.opt
  ret := i.ret

/-- The flags of a client, in the order in which it gets them: its retrieval type comes last. -/
def flags : List String := ["-n", "-p", "-x", "-h", "-d", "-r", "-b", "-k"] ++ optFlags i.opt ++ ["-t"]

theorem map_fst_pairs : i.pairs.map Prod.fst = i.flags := by
  simp [pairs, flags]

theorem nodup_flags : i.flags.Nodup := by
  cases h : i.opt <;> simp [flags, optFlags, h]

theorem read?_pairs : ClientOrders.read? (flatArgs i.pairs) = some i.orders := by
  -- What stands before the optimization and what stands behind it are found in the same way.
  simp only [ClientOrders.read?, argValue?_flatArgs, lookup_opt, lookup_type, optOf?_flag]
  simp [pairs, List.lookup_cons, orders]

theorem tells (program : String) : Tells (i.toCommand program).args i.flags ClientOrders.read? i.orders :=
  tells_flatArgs i.map_fst_pairs i.nodup_flags i.read?_pairs

theorem pairs_congr {i j : ClientInvocation} (h : i.orders = j.orders) : i.pairs = j.pairs := by
  simp only [orders, ClientOrders.mk.injEq] at h
  obtain ⟨hid, hport, hsecret, haddr, hdepth, hrounds, hextra, hrate, hopt, hret⟩ := h
  simp only [pairs, hid, hport, hsecret, haddr, hdepth, hrounds, hextra, hrate, hopt, hret]

end ClientInvocation

/-! ## Both -/

/-- Where two lists tell orders through the same reader, equal lists tell equal orders. -/
theorem Tells.unique {α : Type} {args flags flags' : List String} {read? : List String → Option α} {told told' : α}
    (h : Tells args flags read? told) (h' : Tells args flags' read? told') : told = told' := by
  have hsome : some told = some told' := h.reads.symm.trans h'.reads
  exact Option.some.inj hsome

/-- Every argument list tells the orders of its invocation. Two lists of a kind are equal
    where the orders are and nowhere else, whatever place and program the commands have; a
    list for a server is no list for a client. -/
theorem args_tell_orders :
    (∀ (i : ServerInvocation) (slot : UInt32) (program : String),
      Tells (i.toCommand slot program).args i.flags ServerOrders.read? i.orders)
    ∧ (∀ (i : ClientInvocation) (program : String),
      Tells (i.toCommand program).args i.flags ClientOrders.read? i.orders)
    ∧ (∀ (i j : ServerInvocation) (slot slot' : UInt32) (program program' : String),
      (i.toCommand slot program).args = (j.toCommand slot' program').args ↔ i.orders = j.orders)
    ∧ (∀ (i j : ClientInvocation) (program program' : String),
      (i.toCommand program).args = (j.toCommand program').args ↔ i.orders = j.orders)
    ∧ (∀ (i : ServerInvocation) (j : ClientInvocation) (slot : UInt32) (program program' : String),
      (i.toCommand slot program).args ≠ (j.toCommand program').args) := by
  refine ⟨ServerInvocation.tells, ClientInvocation.tells, ?servers, ?clients, ?apart⟩
  case servers =>
    intro i j slot slot' program program'
    constructor
    · intro h
      have hi := i.tells slot program
      rw [h] at hi
      exact hi.unique (j.tells slot' program')
    · intro h
      exact flatArgs_inj.mpr (ServerInvocation.pairs_congr h)
  case clients =>
    intro i j program program'
    constructor
    · intro h
      have hi := i.tells program
      rw [h] at hi
      exact hi.unique (j.tells program')
    · intro h
      exact flatArgs_inj.mpr (ClientInvocation.pairs_congr h)
  case apart =>
    intro i j slot program program' h
    have hflags : i.flags = j.flags := by
      rw [← (i.tells slot program).flags_eq, h, (j.tells program').flags_eq]
    -- A server's list starts with its address, a client's with its number.
    simp [ServerInvocation.flags, ClientInvocation.flags] at hflags

end Fleet
