/-
  Fleet.Settings.File — the settings file: six sections of optional settings
  (`FileSettings`), and how a document is fitted to them (`FileSettings.ofEntries`,
  `FileSettings.parse`).

  A section is a list of fields (`Field`), each with its name and the reading of its value.
  A table is fitted entry by entry in document order, so the first fault is the first in
  the document; a name that is no field is a fault. A section may also be written as a list
  of all its values in order.
-/

import Fleet.Settings.Error
import Fleet.Text.OsText
import Fleet.Toml.Reader

namespace Fleet

/-! ## The sections -/

structure TopologySection where
  totalServers : Option UInt32 := none
  totalClients : Option UInt32 := none
  serverVms : Option UInt32 := none
  clientVms : Option UInt32 := none
  vmId : Option UInt32 := none
  deriving DecidableEq, Repr, Inhabited

structure BinariesSection where
  server : Option String := none
  client : Option String := none
  deriving DecidableEq, Repr, Inhabited

structure RetrievalSection where
  rate : Option UInt32 := none
  opt : Option Optimization := none
  ret : Option Retrieval := none
  depth : Option UInt32 := none
  port : Option UInt16 := none
  deriving DecidableEq, Repr, Inhabited

structure ServerSection where
  ip : Option String := none
  hostFile : Option OsText := none
  out : Option OsText := none
  deriving DecidableEq, Repr, Inhabited

structure ClientSection where
  ip : Option String := none
  num : Option (List UInt32) := none
  trial : Option UInt32 := none
  rounds : Option UInt32 := none
  out : Option String := none
  secret : Option String := none
  deriving DecidableEq, Repr, Inhabited

structure LaunchSection where
  strict : Option Bool := none
  settleSecs : Option UInt64 := none
  workerTimeoutSecs : Option UInt64 := none
  deriving DecidableEq, Repr, Inhabited

structure FileSettings where
  topology : TopologySection := {}
  binaries : BinariesSection := {}
  retrieval : RetrievalSection := {}
  server : ServerSection := {}
  client : ClientSection := {}
  launch : LaunchSection := {}
  deriving DecidableEq, Repr, Inhabited

/-! ## Reading values -/

namespace Toml

abbrev Decode (α : Type) := Node → Except Fault α

def misfit {α : Type} (node : Node) (expected : String) : Except Fault α :=
  .error ⟨.invalidKind node.described expected, node.span?⟩

def decodeNat (bound : Nat) (expected : String) : Decode Nat
  | .scalar (.integer n) span =>
    if 0 ≤ n ∧ n < bound then .ok n.toNat else .error ⟨.invalidInteger n expected, some span⟩
  | node => misfit node expected

def decodeU16 : Decode UInt16 := fun node => (decodeNat UInt16.size "u16" node).map UInt16.ofNat

def decodeU32 : Decode UInt32 := fun node => (decodeNat UInt32.size "u32" node).map UInt32.ofNat

def decodeU64 : Decode UInt64 := fun node => (decodeNat UInt64.size "u64" node).map UInt64.ofNat

def decodeBool : Decode Bool
  | .scalar (.boolean b) _ => .ok b
  | node => misfit node "a boolean"

def decodeText (expected : String) : Decode String
  | .scalar (.text s) _ => .ok s
  | node => misfit node expected

def decodeString : Decode String := decodeText "a string"

def decodePath : Decode String := decodeText "path string"

def decodeOsPath : Decode OsText := fun node => (decodePath node).map .text

/-- A list of values, or the tables that share a name. -/
def decodeList {α : Type} (item : Decode α) : Decode (List α)
  | .array items _ => items.mapM item
  | .tables items => items.mapM item
  | node => misfit node "a sequence"

/-- The word that a scheme is written as: a text, or the one key of a table that says
    nothing more about it. -/
def decodeWord {α : Type} (ofWord? : String → Option α) (known : List String) : Decode α := fun node =>
  let find (word : String) (span : Option Span) : Except Fault α :=
    match ofWord? word with
    | some a => .ok a
    | none => .error ⟨.unknownVariant word known, span⟩
  match node with
  | .scalar (.text word) span => find word (some span)
  | .table _ span [(key, content)] => do
    let a ← find key.text (some key.span)
    match content with
    | .table _ _ [] | .array [] _ | .tables [] => return a
    | .table _ inner _ => throw ⟨.notEmptyTable, inner <|> span⟩
    | .array _ inner => throw ⟨.notEmptyArray, some inner⟩
    | .tables items => throw ⟨.notEmptyArray, (Node.tables items).span? <|> span⟩
    | .scalar _ inner => throw ⟨.notTable content.kindName, some inner⟩
  | .table _ span entries => .error ⟨.notOneEntry entries.isEmpty, span⟩
  | node => .error ⟨.notWord, node.span?⟩

def decodeOptimization : Decode Optimization := decodeWord Optimization.ofFlag? (Optimization.all.map (·.flag))

def decodeRetrieval : Decode Retrieval := decodeWord Retrieval.ofFlag? (Retrieval.all.map (·.flag))

/-! ## Reading sections -/

structure Field (σ : Type) where
  name : String
  set : Node → σ → Except Fault σ

def field {σ α : Type} (name : String) (decode : Decode α) (put : α → σ → σ) : Field σ :=
  ⟨name, fun node s => (decode node).map (put · s)⟩

/-- Set the field that an entry names. A fault without a place gets the entry's. -/
def setEntry {σ : Type} (fields : List (Field σ)) (s : σ) (entry : Key × Node) : Except Fault σ :=
  match fields.find? (·.name == entry.1.text) with
  | none => .error ⟨.unknownField entry.1.text (fields.map (·.name)), some entry.1.span⟩
  | some f => (f.set entry.2 s).mapError (Fault.at (entry.2.span? <|> some entry.1.span))

def setEntries {σ : Type} (fields : List (Field σ)) (s : σ) (entries : Entries) : Except Fault σ :=
  entries.foldlM (setEntry fields) s

/-- Set each field from the value in its place; values beyond the last field are ignored. -/
def setItems {σ : Type} (name : String) (count : Nat) (span : Option Span) :
    List (Field σ) → List Node → σ → Except Fault σ
  | [], _, s => .ok s
  | f :: fields, item :: items, s => do
    setItems name count span fields items (← (f.set item s).mapError (Fault.at item.span?))
  | f :: fields, [], _ => .error ⟨.tooShort (count - (f :: fields).length) name count, span⟩

def decodeSection {σ : Type} [Inhabited σ] (name : String) (fields : List (Field σ)) : Decode σ := fun node =>
  match node with
  | .table _ _ entries => setEntries fields default entries
  | .array items span => setItems name fields.length (some span) fields items default
  | .tables items => setItems name fields.length node.span? fields items default
  | .scalar .moment span => .error ⟨.unknownField "$__toml_private_datetime" (fields.map (·.name)), some span⟩
  | .scalar .. => misfit node s!"struct {name}"

end Toml

/-! ## The schema -/

open Toml in
def TopologySection.fields : List (Toml.Field TopologySection) :=
  [field "total_servers" decodeU32 fun v s => { s with totalServers := some v },
    field "total_clients" decodeU32 fun v s => { s with totalClients := some v },
    field "server_vms" decodeU32 fun v s => { s with serverVms := some v },
    field "client_vms" decodeU32 fun v s => { s with clientVms := some v },
    field "vm_id" decodeU32 fun v s => { s with vmId := some v }]

open Toml in
def BinariesSection.fields : List (Toml.Field BinariesSection) :=
  [field "server" decodePath fun v s => { s with server := some v },
    field "client" decodePath fun v s => { s with client := some v }]

open Toml in
def RetrievalSection.fields : List (Toml.Field RetrievalSection) :=
  [field "rate" decodeU32 fun v s => { s with rate := some v },
    field "opt" decodeOptimization fun v s => { s with opt := some v },
    field "type" decodeRetrieval fun v s => { s with ret := some v },
    field "depth" decodeU32 fun v s => { s with depth := some v },
    field "port" decodeU16 fun v s => { s with port := some v }]

open Toml in
def ServerSection.fields : List (Toml.Field ServerSection) :=
  [field "ip" decodeString fun v s => { s with ip := some v },
    field "host_file" decodeOsPath fun v s => { s with hostFile := some v },
    field "out" decodeOsPath fun v s => { s with out := some v }]

open Toml in
def ClientSection.fields : List (Toml.Field ClientSection) :=
  [field "ip" decodeString fun v s => { s with ip := some v },
    field "num" (decodeList decodeU32) fun v s => { s with num := some v },
    field "trial" decodeU32 fun v s => { s with trial := some v },
    field "rounds" decodeU32 fun v s => { s with rounds := some v },
    field "out" decodePath fun v s => { s with out := some v },
    field "secret" decodeString fun v s => { s with secret := some v }]

open Toml in
def LaunchSection.fields : List (Toml.Field LaunchSection) :=
  [field "strict" decodeBool fun v s => { s with strict := some v },
    field "settle_secs" decodeU64 fun v s => { s with settleSecs := some v },
    field "worker_timeout_secs" decodeU64 fun v s => { s with workerTimeoutSecs := some v }]

namespace FileSettings

open Toml in
def fields : List (Toml.Field FileSettings) :=
  [field "topology" (decodeSection "TopologyConfig" TopologySection.fields) fun v s => { s with topology := v },
    field "binaries" (decodeSection "BinariesConfig" BinariesSection.fields) fun v s => { s with binaries := v },
    field "retrieval" (decodeSection "RetrievalConfig" RetrievalSection.fields) fun v s => { s with retrieval := v },
    field "server" (decodeSection "ServerConfig" ServerSection.fields) fun v s => { s with server := v },
    field "client" (decodeSection "ClientConfig" ClientSection.fields) fun v s => { s with client := v },
    field "launch" (decodeSection "LaunchSection" LaunchSection.fields) fun v s => { s with launch := v }]

def ofEntries (entries : Toml.Entries) : Except Toml.Fault FileSettings :=
  Toml.setEntries fields {} entries

def parse (document : String) : Except SettingError FileSettings :=
  match Toml.read? document with
  | none => .error .illFormed
  | some entries => (ofEntries entries).mapError fun fault => .misfit ⟨document, fault⟩

end FileSettings

end Fleet
