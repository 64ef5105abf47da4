/-
  Fleet.Proofs.Settings.Document — a settings file gives back the settings written in it.

  What a document says is told without reading it. A field of the schema (`Slot`) has a name, and
  its kind (`Kind`) says how a value is written and which values of that form it cannot have.
  `Describes`: the entries of a table are the fields that a section has, each with its value, in
  whatever order. `Faulty`: an entry has a name that no field has, or a value that its field
  cannot have. A section is a value of a kind too, so a document is a table of tables, and all of
  this can be evaluated.

  `Schema.reads` and `Schema.refuses` hold of any section whose fields keep to a schema
  (`Schema`), by induction on the entries: after some of them, the fields that they name are set
  and all others are as they were (`Schema.setEntries`).
-/

import Fleet.Settings.File
import Mathlib.Data.List.Forall2
import Mathlib.Data.List.Nodup

namespace Fleet

namespace Toml

/-! ## Values -/

namespace Node

def text? : Node → Option String
  | .scalar (.text s) _ => some s
  | _ => none

def integer? : Node → Option Int
  | .scalar (.integer n) _ => some n
  | _ => none

def boolean? : Node → Option Bool
  | .scalar (.boolean b) _ => some b
  | _ => none

def items? : Node → Option (List Node)
  | .array items _ => some items
  | _ => none

def entries? : Node → Option Entries
  | .table _ _ entries => some entries
  | _ => none

variable {node : Node}

theorem text?_eq_some_iff {s : String} : node.text? = some s ↔ ∃ span, node = .scalar (.text s) span := by
  unfold text?
  split <;> simp_all

theorem integer?_eq_some_iff {n : Int} : node.integer? = some n ↔ ∃ span, node = .scalar (.integer n) span := by
  unfold integer?
  split <;> simp_all

theorem boolean?_eq_some_iff {b : Bool} : node.boolean? = some b ↔ ∃ span, node = .scalar (.boolean b) span := by
  unfold boolean?
  split
  · simp
  · rename_i other
    exact ⟨nofun, fun ⟨span, h⟩ => absurd h (other b span)⟩

theorem items?_eq_some_iff {items : List Node} : node.items? = some items ↔ ∃ span, node = .array items span := by
  unfold items?
  split <;> simp_all

theorem entries?_eq_some_iff {entries : Entries} :
    node.entries? = some entries ↔ ∃ origin span, node = .table origin span entries := by
  unfold entries?
  split <;> simp_all

end Node

/-! ## Kinds of values -/

/-- A kind of values: how they are written, and what has their form but is none of them. -/
structure Kind (α : Type) where
  Tells : Node → α → Prop
  Rejects : Node → Prop
  [decTells : ∀ node a, Decidable (Tells node a)]
  [decRejects : ∀ node, Decidable (Rejects node)]

namespace Kind

variable {α : Type}

instance (kind : Kind α) (node : Node) (a : α) : Decidable (kind.Tells node a) := kind.decTells node a

instance (kind : Kind α) (node : Node) : Decidable (kind.Rejects node) := kind.decRejects node

def text : Kind String where
  Tells node s := node.text? = some s
  Rejects _ := False

def path : Kind OsText where
  Tells node p := node.text?.map .text = some p
  Rejects _ := False

def boolean : Kind Bool where
  Tells node b := node.boolean? = some b
  Rejects _ := False

def integer (bound : Nat) (toNat : α → Nat) : Kind α where
  Tells node a := node.integer? = some (toNat a : Int)
  Rejects node := ∃ n ∈ node.integer?, ¬(0 ≤ n ∧ n < bound)

def list (item : Kind α) : Kind (List α) where
  Tells node as := ∃ items ∈ node.items?, List.Forall₂ item.Tells items as
  Rejects node := ∃ items ∈ node.items?, ∃ i ∈ items, item.Rejects i

def word (known : List α) (spelling : α → String) : Kind α where
  Tells node a := node.text? = some (spelling a)
  Rejects node := ∃ word ∈ node.text?, word ∉ known.map spelling

def optional (kind : Kind α) : Kind (Option α) where
  Tells node o := ∃ a ∈ o, kind.Tells node a
  Rejects := kind.Rejects

end Kind

/-! ## Schemas -/

/-- A field of a schema: its name, what of a section it is, what it is when it is not written, and
    its kind. -/
structure Slot (σ : Type) where
  name : String
  Held : Type
  get : σ → Held
  absent : Held
  kind : Kind Held
  [decEq : DecidableEq Held]

instance {σ : Type} (slot : Slot σ) : DecidableEq slot.Held := slot.decEq

/-- The entries of a table say a section: they are fields that it has, in any order, and what they
    do not say is absent. -/
structure Describes {σ : Type} (slots : List (Slot σ)) (entries : Entries) (v : σ) : Prop where
  written : ∀ e ∈ entries, ∃ slot ∈ slots, slot.name = e.1.text ∧ slot.kind.Tells e.2 (slot.get v)
  omitted : ∀ slot ∈ slots, slot.name ∉ entries.map (·.1.text) → slot.get v = slot.absent

/-- Some entry of a table is no field of the schema, or has a value that the field cannot have. -/
def Faulty {σ : Type} (slots : List (Slot σ)) (entries : Entries) : Prop :=
  ∃ e ∈ entries, (∀ slot ∈ slots, slot.name ≠ e.1.text) ∨
    ∃ slot ∈ slots, slot.name = e.1.text ∧ slot.kind.Rejects e.2

instance {σ : Type} (slots : List (Slot σ)) (entries : Entries) (v : σ) : Decidable (Describes slots entries v) :=
  decidable_of_iff (_ ∧ _) ⟨fun ⟨written, omitted⟩ => ⟨written, omitted⟩, fun h => ⟨h.written, h.omitted⟩⟩

instance {σ : Type} (slots : List (Slot σ)) (entries : Entries) : Decidable (Faulty slots entries) :=
  inferInstanceAs (Decidable (∃ e ∈ entries, _ ∨ _))

def Kind.table {σ : Type} (slots : List (Slot σ)) : Kind σ where
  Tells node v := ∃ entries ∈ node.entries?, Describes slots entries v
  Rejects node := ∃ entries ∈ node.entries?, Faulty slots entries

def Slot.optional {σ α : Type} [DecidableEq α] (name : String) (get : σ → Option α) (kind : Kind α) : Slot σ :=
  ⟨name, Option α, get, none, kind.optional⟩

/-- A section of a larger one. It may be left out where all of it is absent. -/
def Slot.table {σ τ : Type} [Inhabited τ] [DecidableEq τ] (name : String) (get : σ → τ) (slots : List (Slot τ)) : Slot σ :=
  ⟨name, τ, get, default, .table slots⟩

/-! ## Reading kinds -/

/-- A reading takes what is written for what it is, and refuses what is out of range. -/
structure Kind.ReadBy {α : Type} (kind : Kind α) (decode : Decode α) : Prop where
  reads : ∀ node a, kind.Tells node a → decode node = .ok a
  refuses : ∀ node, kind.Rejects node → ∃ fault, decode node = .error fault

namespace Kind

variable {α : Type} {decode : Decode α}

theorem readBy_text (expected : String) : text.ReadBy (decodeText expected) where
  reads node s told := by
    obtain ⟨span, rfl⟩ := Node.text?_eq_some_iff.mp told
    rfl
  refuses _ := False.elim

theorem readBy_path : path.ReadBy decodeOsPath where
  reads node p told := by
    obtain ⟨s, hs, rfl⟩ := Option.map_eq_some_iff.mp told
    obtain ⟨span, rfl⟩ := Node.text?_eq_some_iff.mp hs
    rfl
  refuses _ := False.elim

theorem readBy_boolean : boolean.ReadBy decodeBool where
  reads node b told := by
    obtain ⟨span, rfl⟩ := Node.boolean?_eq_some_iff.mp told
    rfl
  refuses _ := False.elim

theorem readBy_integer {bound : Nat} {toNat : α → Nat} {ofNat : Nat → α} (expected : String)
    (below : ∀ a, toNat a < bound) (back : ∀ a, ofNat (toNat a) = a) :
    (integer bound toNat).ReadBy fun node => (decodeNat bound expected node).map ofNat where
  reads node a told := by
    obtain ⟨span, rfl⟩ := Node.integer?_eq_some_iff.mp told
    have inRange : 0 ≤ (toNat a : Int) ∧ (toNat a : Int) < bound := ⟨Int.natCast_nonneg _, Int.ofNat_lt.mpr (below a)⟩
    simp only [decodeNat, if_pos inRange, Except.map, Int.toNat_natCast, back]
  refuses node := by
    rintro ⟨n, hn, out⟩
    obtain ⟨span, rfl⟩ := Node.integer?_eq_some_iff.mp hn
    exact ⟨⟨.invalidInteger n expected, some span⟩, by simp only [decodeNat, if_neg out, Except.map]⟩

theorem readBy_u16 : (integer UInt16.size UInt16.toNat).ReadBy decodeU16 :=
  readBy_integer "u16" UInt16.toNat_lt fun _ => UInt16.ofNat_toNat

theorem readBy_u32 : (integer UInt32.size UInt32.toNat).ReadBy decodeU32 :=
  readBy_integer "u32" UInt32.toNat_lt fun _ => UInt32.ofNat_toNat

theorem readBy_u64 : (integer UInt64.size UInt64.toNat).ReadBy decodeU64 :=
  readBy_integer "u64" UInt64.toNat_lt fun _ => UInt64.ofNat_toNat

theorem ReadBy.list {item : Kind α} (h : item.ReadBy decode) : item.list.ReadBy (decodeList decode) where
  reads node as := by
    rintro ⟨items, hitems, told⟩
    obtain ⟨span, rfl⟩ := Node.items?_eq_some_iff.mp hitems
    simp only [decodeList]
    clear hitems
    induction told with
    | nil => rfl
    | cons first _ ih =>
      rw [List.mapM_cons, h.reads _ _ first, ih]
      rfl
  refuses node := by
    rintro ⟨items, hitems, i, hi, rejected⟩
    obtain ⟨span, rfl⟩ := Node.items?_eq_some_iff.mp hitems
    simp only [decodeList]
    clear hitems
    induction items with
    | nil => cases hi
    | cons first rest ih =>
      rw [List.mapM_cons]
      cases hfirst : decode first with
      | error fault => exact ⟨fault, rfl⟩
      | ok a =>
        rcases List.mem_cons.mp hi with rfl | hi
        · obtain ⟨fault, hfault⟩ := h.refuses _ rejected
          rw [hfault] at hfirst
          cases hfirst
        · obtain ⟨fault, hfault⟩ := ih hi
          exact ⟨fault, by rw [hfault]; rfl⟩

theorem readBy_word {all : List α} {spelling : α → String} {ofWord? : String → Option α} (known : List String)
    (every : ∀ a, a ∈ all) (iff : ∀ word a, ofWord? word = some a ↔ word = spelling a) :
    (word all spelling).ReadBy (decodeWord ofWord? known) where
  reads node a told := by
    obtain ⟨span, rfl⟩ := Node.text?_eq_some_iff.mp told
    simp only [decodeWord, (iff _ a).mpr rfl]
  refuses node := by
    rintro ⟨word, hword, unknown⟩
    obtain ⟨span, rfl⟩ := Node.text?_eq_some_iff.mp hword
    have nothing : ofWord? word = none := Option.eq_none_iff_forall_ne_some.mpr fun a h =>
      unknown (List.mem_map.mpr ⟨a, every a, ((iff word a).mp h).symm⟩)
    exact ⟨⟨.unknownVariant word known, some span⟩, by simp only [decodeWord, nothing]⟩

end Kind

/-! ## Reading sections -/

variable {σ : Type} {slots : List (Slot σ)} {fields : List (Field σ)} {entries : Entries} {v : σ}

/-- A field does what the schema says of it and leaves all other fields alone. -/
structure Serves (slots : List (Slot σ)) (slot : Slot σ) (f : Field σ) : Prop where
  name : f.name = slot.name
  sets : ∀ node b s, slot.kind.Tells node b → ∃ next, f.set node s = .ok next ∧ slot.get next = b ∧
    ∀ other ∈ slots, other.name ≠ slot.name → other.get next = other.get s
  refuses : ∀ node s, slot.kind.Rejects node → ∃ fault, f.set node s = .error fault

/-- The fields of a section are those of its schema, and there is no more to a section than what
    its fields are. -/
structure Schema [Inhabited σ] (slots : List (Slot σ)) (fields : List (Field σ)) : Prop where
  serves : List.Forall₂ (Serves slots) slots fields
  distinct : (slots.map (·.name)).Nodup
  absent : ∀ slot ∈ slots, slot.get default = slot.absent
  ext : ∀ s v : σ, (∀ slot ∈ slots, slot.get s = slot.get v) → s = v

theorem serves_field {α β : Type} [DecidableEq β] {name : String} {decode : Decode α} {put : α → σ → σ} {get : σ → β} {absent : β}
    {kind : Kind β} {wrap : α → β}
    (reads : ∀ node b, kind.Tells node b → ∃ a, b = wrap a ∧ decode node = .ok a)
    (refuses : ∀ node, kind.Rejects node → ∃ fault, decode node = .error fault)
    (same : ∀ a s, get (put a s) = wrap a)
    (others : ∀ a s, ∀ other ∈ slots, other.name ≠ name → other.get (put a s) = other.get s) :
    Serves slots { name, Held := β, get, absent, kind } (field name decode put) where
  name := rfl
  sets node b s told := by
    obtain ⟨a, rfl, read⟩ := reads node b told
    exact ⟨put a s, by simp only [field, read, Except.map], same a s, others a s⟩
  refuses node s rejected := by
    obtain ⟨fault, hfault⟩ := refuses node rejected
    exact ⟨fault, by simp only [field, hfault, Except.map]⟩

theorem serves_optional {α : Type} [DecidableEq α] {name : String} {decode : Decode α} {put : α → σ → σ} {get : σ → Option α}
    {kind : Kind α} (readBy : kind.ReadBy decode) (same : ∀ a s, get (put a s) = some a)
    (others : ∀ a s, ∀ other ∈ slots, other.name ≠ name → other.get (put a s) = other.get s) :
    Serves slots (.optional name get kind) (field name decode put) :=
  serves_field (fun node _ ⟨a, hb, told⟩ => ⟨a, hb, readBy.reads node a told⟩) readBy.refuses same others

theorem find?_of_serves {all : List (Slot σ)} (serves : List.Forall₂ (Serves all) slots fields)
    (distinct : (slots.map (·.name)).Nodup) {slot : Slot σ} (hslot : slot ∈ slots) :
    ∃ f, fields.find? (·.name == slot.name) = some f ∧ Serves all slot f := by
  induction serves with
  | nil => cases hslot
  | @cons first f slots fields serve _ ih =>
    obtain ⟨apart, distinct⟩ := List.nodup_cons.mp distinct
    rcases List.mem_cons.mp hslot with rfl | hslot
    · exact ⟨f, by rw [List.find?_cons_of_pos (by simp [serve.name])], serve⟩
    · have other : f.name ≠ slot.name := fun same =>
        apart (List.mem_map.mpr ⟨slot, hslot, same.symm.trans serve.name⟩)
      obtain ⟨g, found, serve⟩ := ih distinct hslot
      exact ⟨g, by rw [List.find?_cons_of_neg (by simpa using other), found], serve⟩

theorem find?_of_unknown {all : List (Slot σ)} (serves : List.Forall₂ (Serves all) slots fields) {name : String}
    (unknown : ∀ slot ∈ slots, slot.name ≠ name) : fields.find? (·.name == name) = none := by
  induction serves with
  | nil => rfl
  | cons serve _ ih =>
    rw [List.forall_mem_cons] at unknown
    rw [List.find?_cons_of_neg (by simpa [serve.name] using unknown.1), ih unknown.2]

namespace Schema

variable [Inhabited σ]

/-- One entry sets its field and no other. -/
theorem setEntry (schema : Schema slots fields) {slot : Slot σ} (hslot : slot ∈ slots) {e : Key × Node} (s : σ)
    (name : slot.name = e.1.text) (told : slot.kind.Tells e.2 (slot.get v)) :
    ∃ next, Toml.setEntry fields s e = .ok next ∧ slot.get next = slot.get v ∧
      ∀ other ∈ slots, other.name ≠ slot.name → other.get next = other.get s := by
  obtain ⟨f, found, serve⟩ := find?_of_serves schema.serves schema.distinct hslot
  obtain ⟨next, set, same, others⟩ := serve.sets e.2 _ s told
  refine ⟨next, ?_, same, others⟩
  rw [Toml.setEntry, ← name, found]
  simp only [set, Except.mapError]

/-- After some entries, the fields that they name are set and all others are as they were. -/
theorem setEntries (schema : Schema slots fields) (done : List String) (s : σ)
    (written : ∀ e ∈ entries, ∃ slot ∈ slots, slot.name = e.1.text ∧ slot.kind.Tells e.2 (slot.get v))
    (sofar : ∀ slot ∈ slots, slot.get s = if slot.name ∈ done then slot.get v else slot.absent) :
    ∃ next, Toml.setEntries fields s entries = .ok next ∧ ∀ slot ∈ slots,
      slot.get next = if slot.name ∈ done ++ entries.map (·.1.text) then slot.get v else slot.absent := by
  induction entries generalizing done s with
  | nil => exact ⟨s, rfl, by simpa using sofar⟩
  | cons e rest ih =>
    rw [List.forall_mem_cons] at written
    obtain ⟨⟨slot, hslot, name, told⟩, written⟩ := written
    obtain ⟨mid, set, same, others⟩ := schema.setEntry hslot s name told
    have sofar' : ∀ other ∈ slots,
        other.get mid = if other.name ∈ done ++ [e.1.text] then other.get v else other.absent := by
      intro other hother
      by_cases this : other.name = slot.name
      · obtain rfl := List.inj_on_of_nodup_map schema.distinct hother hslot this
        rw [same, if_pos (by simp [name])]
      · rw [others other hother this, sofar other hother]
        simp [← name, this]
    obtain ⟨next, sets, result⟩ := ih (done ++ [e.1.text]) mid written sofar'
    refine ⟨next, ?_, fun other hother => ?_⟩
    · rw [Toml.setEntries, List.foldlM_cons, set]
      exact sets
    · rw [result other hother, List.append_assoc]
      rfl

theorem reads (schema : Schema slots fields) (described : Describes slots entries v) :
    Toml.setEntries fields default entries = .ok v := by
  obtain ⟨next, sets, result⟩ := schema.setEntries [] default described.written
    (by simpa using schema.absent)
  have whole : next = v := by
    refine schema.ext next v fun slot hslot => ?_
    rw [result slot hslot]
    split
    · rfl
    · rename_i unsaid
      exact (described.omitted slot hslot (by simpa using unsaid)).symm
  rw [sets, whole]

theorem refuses (schema : Schema slots fields) (faulty : Faulty slots entries) (s : σ) :
    ∃ fault, Toml.setEntries fields s entries = .error fault := by
  obtain ⟨e, he, wrong⟩ := faulty
  have refused (s : σ) : ∃ fault, Toml.setEntry fields s e = .error fault := by
    rw [Toml.setEntry]
    rcases wrong with unknown | ⟨slot, hslot, name, rejected⟩
    · rw [find?_of_unknown schema.serves unknown]
      exact ⟨_, rfl⟩
    · obtain ⟨f, found, serve⟩ := find?_of_serves schema.serves schema.distinct hslot
      obtain ⟨fault, hfault⟩ := serve.refuses e.2 s rejected
      rw [← name, found]
      exact ⟨fault.at (e.2.span? <|> some e.1.span), by simp only [hfault, Except.mapError]⟩
  induction entries generalizing s with
  | nil => cases he
  | cons first rest ih =>
    rw [Toml.setEntries, List.foldlM_cons]
    cases hfirst : Toml.setEntry fields s first with
    | error fault => exact ⟨fault, rfl⟩
    | ok next =>
      rcases List.mem_cons.mp he with rfl | he
      · obtain ⟨fault, hfault⟩ := refused s
        rw [hfault] at hfirst
        cases hfirst
      · exact ih next he

theorem readBy (schema : Schema slots fields) (name : String) :
    (Kind.table slots).ReadBy (decodeSection name fields) where
  reads node v := by
    rintro ⟨entries, hentries, described⟩
    obtain ⟨origin, span, rfl⟩ := Node.entries?_eq_some_iff.mp hentries
    exact schema.reads described
  refuses node := by
    rintro ⟨entries, hentries, faulty⟩
    obtain ⟨origin, span, rfl⟩ := Node.entries?_eq_some_iff.mp hentries
    exact schema.refuses faulty default

end Schema

theorem serves_table {τ : Type} [Inhabited τ] [DecidableEq τ] {name label : String} {put : τ → σ → σ} {get : σ → τ}
    {inner : List (Slot τ)} {fields : List (Field τ)} (schema : Schema inner fields)
    (same : ∀ a s, get (put a s) = a)
    (others : ∀ a s, ∀ other ∈ slots, other.name ≠ name → other.get (put a s) = other.get s) :
    Serves slots (.table name get inner) (field name (decodeSection label fields) put) :=
  serves_field (fun node b told => ⟨b, rfl, (schema.readBy label).reads node b told⟩) (schema.readBy label).refuses
    same others

end Toml

/-! ## The schema of the settings file -/

open Toml

def word32 : Kind UInt32 := .integer UInt32.size UInt32.toNat

def TopologySection.slots : List (Slot TopologySection) :=
  [.optional "total_servers" (·.totalServers) word32, .optional "total_clients" (·.totalClients) word32,
    .optional "server_vms" (·.serverVms) word32, .optional "client_vms" (·.clientVms) word32,
    .optional "vm_id" (·.vmId) word32]

def BinariesSection.slots : List (Slot BinariesSection) :=
  [.optional "server" (·.server) .text, .optional "client" (·.client) .text]

def RetrievalSection.slots : List (Slot RetrievalSection) :=
  [.optional "rate" (·.rate) word32, .optional "opt" (·.opt) (.word Optimization.all Optimization.flag),
    .optional "type" (·.ret) (.word Retrieval.all Retrieval.flag), .optional "depth" (·.depth) word32,
    .optional "port" (·.port) (.integer UInt16.size UInt16.toNat)]

def ServerSection.slots : List (Slot ServerSection) :=
  [.optional "ip" (·.ip) .text, .optional "host_file" (·.hostFile) .path, .optional "out" (·.out) .path]

def ClientSection.slots : List (Slot ClientSection) :=
  [.optional "ip" (·.ip) .text, .optional "num" (·.num) word32.list, .optional "trial" (·.trial) word32,
    .optional "rounds" (·.rounds) word32, .optional "out" (·.out) .text, .optional "secret" (·.secret) .text]

def LaunchSection.slots : List (Slot LaunchSection) :=
  [.optional "strict" (·.strict) .boolean,
    .optional "settle_secs" (·.settleSecs) (.integer UInt64.size UInt64.toNat),
    .optional "worker_timeout_secs" (·.workerTimeoutSecs) (.integer UInt64.size UInt64.toNat)]

def FileSettings.slots : List (Slot FileSettings) :=
  [.table "topology" (·.topology) TopologySection.slots, .table "binaries" (·.binaries) BinariesSection.slots,
    .table "retrieval" (·.retrieval) RetrievalSection.slots, .table "server" (·.server) ServerSection.slots,
    .table "client" (·.client) ClientSection.slots, .table "launch" (·.launch) LaunchSection.slots]

theorem TopologySection.schema : Schema TopologySection.slots TopologySection.fields where
  serves := by
    refine .cons ?_ (.cons ?_ (.cons ?_ (.cons ?_ (.cons ?_ .nil)))) <;>
      exact serves_optional Kind.readBy_u32 (fun _ _ => rfl) (by simp [slots, Slot.optional])
  distinct := by decide
  absent := by simp [slots, Slot.optional, default, instInhabitedTopologySection.default]
  ext := by
    rintro ⟨⟩ ⟨⟩ h
    simpa [slots, Slot.optional] using h

theorem BinariesSection.schema : Schema BinariesSection.slots BinariesSection.fields where
  serves := by
    refine .cons ?_ (.cons ?_ .nil) <;>
      exact serves_optional (Kind.readBy_text _) (fun _ _ => rfl) (by simp [slots, Slot.optional])
  distinct := by decide
  absent := by simp [slots, Slot.optional, default, instInhabitedBinariesSection.default]
  ext := by
    rintro ⟨⟩ ⟨⟩ h
    simpa [slots, Slot.optional] using h

theorem RetrievalSection.schema : Schema RetrievalSection.slots RetrievalSection.fields where
  serves := by
    refine .cons (serves_optional Kind.readBy_u32 ?_ ?_)
      (.cons (serves_optional (Kind.readBy_word _ (by rintro ⟨⟩ <;> decide) fun _ _ => Optimization.ofFlag?_eq_some_iff) ?_ ?_)
      (.cons (serves_optional (Kind.readBy_word _ (by rintro ⟨⟩ <;> decide) fun _ _ => Retrieval.ofFlag?_eq_some_iff) ?_ ?_)
      (.cons (serves_optional Kind.readBy_u32 ?_ ?_)
      (.cons (serves_optional Kind.readBy_u16 ?_ ?_) .nil)))) <;> simp [slots, Slot.optional]
  distinct := by decide
  absent := by simp [slots, Slot.optional, default, instInhabitedRetrievalSection.default]
  ext := by
    rintro ⟨⟩ ⟨⟩ h
    simpa [slots, Slot.optional] using h

theorem ServerSection.schema : Schema ServerSection.slots ServerSection.fields where
  serves := by
    refine .cons (serves_optional (Kind.readBy_text _) ?_ ?_) (.cons (serves_optional Kind.readBy_path ?_ ?_)
      (.cons (serves_optional Kind.readBy_path ?_ ?_) .nil)) <;> simp [slots, Slot.optional]
  distinct := by decide
  absent := by simp [slots, Slot.optional, default, instInhabitedServerSection.default]
  ext := by
    rintro ⟨⟩ ⟨⟩ h
    simpa [slots, Slot.optional] using h

theorem ClientSection.schema : Schema ClientSection.slots ClientSection.fields where
  serves := by
    refine .cons (serves_optional (Kind.readBy_text _) ?_ ?_) (.cons (serves_optional Kind.readBy_u32.list ?_ ?_)
      (.cons (serves_optional Kind.readBy_u32 ?_ ?_) (.cons (serves_optional Kind.readBy_u32 ?_ ?_)
      (.cons (serves_optional (Kind.readBy_text _) ?_ ?_)
      (.cons (serves_optional (Kind.readBy_text _) ?_ ?_) .nil))))) <;> simp [slots, Slot.optional]
  distinct := by decide
  absent := by simp [slots, Slot.optional, default, instInhabitedClientSection.default]
  ext := by
    rintro ⟨⟩ ⟨⟩ h
    simpa [slots, Slot.optional] using h

theorem LaunchSection.schema : Schema LaunchSection.slots LaunchSection.fields where
  serves := by
    refine .cons (serves_optional Kind.readBy_boolean ?_ ?_) (.cons (serves_optional Kind.readBy_u64 ?_ ?_)
      (.cons (serves_optional Kind.readBy_u64 ?_ ?_) .nil)) <;> simp [slots, Slot.optional]
  distinct := by decide
  absent := by simp [slots, Slot.optional, default, instInhabitedLaunchSection.default]
  ext := by
    rintro ⟨⟩ ⟨⟩ h
    simpa [slots, Slot.optional] using h

theorem FileSettings.schema : Schema FileSettings.slots FileSettings.fields where
  serves := by
    refine .cons (serves_table TopologySection.schema ?_ ?_) (.cons (serves_table BinariesSection.schema ?_ ?_)
      (.cons (serves_table RetrievalSection.schema ?_ ?_) (.cons (serves_table ServerSection.schema ?_ ?_)
      (.cons (serves_table ClientSection.schema ?_ ?_)
      (.cons (serves_table LaunchSection.schema ?_ ?_) .nil))))) <;> simp [slots, Slot.table]
  distinct := by decide
  absent := by
    simp only [slots, Slot.table, List.forall_mem_cons]
    exact ⟨rfl, rfl, rfl, rfl, rfl, rfl, by simp⟩
  ext := by
    rintro ⟨⟩ ⟨⟩ h
    simpa [slots, Slot.table] using h

/-! ## The settings file -/

/-- A settings file gives back exactly the settings that are written in it, and is refused if it has
    a key that the schema does not have, at the top or in any section, or a value that its field
    cannot have. -/
theorem settings_file_gives_back_what_is_written (document : String) :
    (∀ entries v, Toml.read? document = some entries → Describes FileSettings.slots entries v →
      FileSettings.parse document = .ok v) ∧
    (∀ entries, Toml.read? document = some entries → Faulty FileSettings.slots entries →
      ∃ fault, FileSettings.parse document = .error (.misfit ⟨document, fault⟩)) ∧
    (Toml.read? document = none → FileSettings.parse document = .error .illFormed) := by
  refine ⟨fun entries v read described => ?_, fun entries read faulty => ?_, fun unread => ?_⟩
  · have fitted : FileSettings.ofEntries entries = .ok v := FileSettings.schema.reads described
    rw [FileSettings.parse, read]
    simp only [fitted, Except.mapError]
  · obtain ⟨fault, refused⟩ := FileSettings.schema.refuses faulty {}
    have unfit : FileSettings.ofEntries entries = .error fault := refused
    rw [FileSettings.parse, read]
    exact ⟨fault, by simp only [unfit, Except.mapError]⟩
  · rw [FileSettings.parse, unread]

/-- Sections and keys in an order of their own, the greatest numbers that there are and a section
    without keys; and, each in a document of its own, unknown keys, numbers out of range and a
    word that is no scheme. -/
theorem settings_file_gives_back_what_is_written_shuffled :
    let document := "[launch]\nsettle_secs = 9223372036854775807\n[server]\n[client]\nnum = [7, 4294967295]\n" ++
      "ip = \"::1\"\n[retrieval]\nport = 65535\ntype = \"t\"\nopt = \"h2\"\n"
    let v : FileSettings := {
      retrieval := { opt := some .hybrid2, ret := some .tree, port := some 65535 }
      client := { ip := some "::1", num := some [7, 4294967295] }
      launch := { settleSecs := some 9223372036854775807 } }
    let faulty := ["strict = true\n", "[topology]\nservers = 2\n", "[retrieval]\nport = 65536\n",
      "[launch]\nsettle_secs = -1\n", "[client]\nnum = [7, 4294967296]\n", "[retrieval]\ntype = \"z\"\n"]
    ((∃ entries ∈ Toml.read? document, Describes FileSettings.slots entries v) ∧ FileSettings.parse document = .ok v) ∧
      (∀ document ∈ faulty, (∃ entries ∈ Toml.read? document, Faulty FileSettings.slots entries) ∧
        ∃ fault, FileSettings.parse document = .error (.misfit ⟨document, fault⟩)) ∧
      Toml.read? "[launch" = none ∧ FileSettings.parse "[launch" = .error .illFormed := by
  intro document v faulty
  have written : ∃ entries ∈ Toml.read? document, Describes FileSettings.slots entries v := by decide +kernel
  have wrong : ∀ document ∈ faulty, ∃ entries ∈ Toml.read? document, Faulty FileSettings.slots entries := by
    decide +kernel
  have unread : Toml.read? "[launch" = none := rfl
  refine ⟨⟨written, ?_⟩, fun document hdocument => ⟨wrong document hdocument, ?_⟩, unread, ?_⟩
  · obtain ⟨entries, read, described⟩ := written
    exact (settings_file_gives_back_what_is_written document).1 entries v read described
  · obtain ⟨entries, read, misfit⟩ := wrong document hdocument
    exact (settings_file_gives_back_what_is_written document).2.1 entries read misfit
  · exact (settings_file_gives_back_what_is_written "[launch").2.2 unread

end Fleet
