/-
  Fleet.Scheme — the words an experiment is described in: how clients retrieve
  messages (`Retrieval`), which multi-retrieval optimization is on (`Optimization`),
  and which side a worker plays (`Role`).

  Every word has one spelling, on the command line, in a settings file and in a
  worker's argument list: `flag` writes it and `ofFlag?` reads it, and reading
  accepts exactly what is written (`Retrieval.ofFlag?_eq_some_iff` and its like).
-/

namespace Fleet

/-! ## Retrieval -/

inductive Retrieval where
  | explicit
  | bloom
  | tree
  deriving DecidableEq, Repr

instance : Inhabited Retrieval := ⟨.bloom⟩

namespace Retrieval

/-- Every retrieval type, in the order in which messages list them. -/
def all : List Retrieval := [.explicit, .bloom, .tree]

def flag : Retrieval → String
  | .explicit => "e"
  | .bloom => "b"
  | .tree => "t"

def ofFlag? (word : String) : Option Retrieval := all.find? (·.flag == word)

theorem ofFlag?_eq_some_iff {word : String} {r : Retrieval} : ofFlag? word = some r ↔ word = r.flag := by
  constructor
  · intro h
    have := List.find?_some h
    simp only [beq_iff_eq] at this
    exact this.symm
  · rintro rfl
    cases r <;> decide

end Retrieval

/-! ## Optimization -/

inductive Optimization where
  | aliasing
  | hybrid2
  | hybrid4
  deriving DecidableEq, Repr

namespace Optimization

def all : List Optimization := [.aliasing, .hybrid2, .hybrid4]

def flag : Optimization → String
  | .aliasing => "p"
  | .hybrid2 => "h2"
  | .hybrid4 => "h4"

def ofFlag? (word : String) : Option Optimization := all.find? (·.flag == word)

theorem ofFlag?_eq_some_iff {word : String} {o : Optimization} : ofFlag? word = some o ↔ word = o.flag := by
  constructor
  · intro h
    have := List.find?_some h
    simp only [beq_iff_eq] at this
    exact this.symm
  · rintro rfl
    cases o <;> decide

end Optimization

/-! ## Role -/

inductive Role where
  | server
  | client
  deriving DecidableEq, Repr

namespace Role

def all : List Role := [.server, .client]

def label : Role → String
  | .server => "server"
  | .client => "client"

def ofLabel? (word : String) : Option Role := all.find? (·.label == word)

end Role

/-! ## Lists of words in a message -/

/-- The words a reader would have accepted, as a message lists them: each between
    backquotes, two joined by "or", more after "one of". -/
def expectedWords : List String → String
  | [] => ""
  | [a] => "`" ++ a ++ "`"
  | [a, b] => "`" ++ a ++ "` or `" ++ b ++ "`"
  | ws => "one of " ++ ", ".intercalate (ws.map fun w => "`" ++ w ++ "`")

def unknownWord (word : String) (known : List String) : String :=
  "unknown variant `" ++ word ++ "`, expected " ++ expectedWords known

end Fleet
