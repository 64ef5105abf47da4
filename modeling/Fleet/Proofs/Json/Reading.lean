/-
  Fleet.Proofs.Json.Reading — structured text read back. `Json.read?` takes a text apart by the
  grammar that such texts have wherever they are read: blanks between the parts, texts in quotes
  with their escapes, numbers without a leading zero, items and fields with commas between them
  and none at the end. Fractions, exponents and truth values have no `Json` of their own, and a
  text with one is not read.

  `read?_pretty`: whatever value is written, in whatever depth, is read back as it was. So a
  written value is well formed, and nothing in it is taken for anything else, whatever the texts
  in it contain.
-/

import Fleet.Json
import Mathlib.Data.Nat.Digits.Defs

namespace Fleet.Json

/-! ## A reader -/

namespace Reader

def isBlank (c : Char) : Bool := c = ' ' || c = '\n' || c = '\r' || c = '\t'

def skip (cs : List Char) : List Char := cs.dropWhile isBlank

/-! ### Texts -/

def hexValue? (c : Char) : Option Nat :=
  if c.isDigit then some (c.toNat - '0'.toNat)
  else if 'a' ≤ c ∧ c ≤ 'f' then some (c.toNat - 'a'.toNat + 10)
  else if 'A' ≤ c ∧ c ≤ 'F' then some (c.toNat - 'A'.toNat + 10)
  else none

/-- The character with a number of four hexadecimal digits, unless it is half of a pair. -/
def numbered? (a b c d : Char) : Option Char := do
  let n := (((← hexValue? a) * 16 + (← hexValue? b)) * 16 + (← hexValue? c)) * 16 + (← hexValue? d)
  if n.isValidChar then some (Char.ofNat n) else none

def unescaped? (c : Char) : Option Char :=
  if c = '"' ∨ c = '\\' ∨ c = '/' then some c
  else if c = 'b' then some '\x08'
  else if c = 'f' then some '\x0c'
  else if c = 'n' then some '\n'
  else if c = 'r' then some '\r'
  else if c = 't' then some '\t'
  else none

/-- A text from behind its first quote on, and what is behind its last. -/
def text : List Char → Option (List Char × List Char)
  | [] => none
  | '"' :: rest => some ([], rest)
  | '\\' :: 'u' :: a :: b :: c :: d :: rest => do
    let char ← numbered? a b c d
    let (chars, rest) ← text rest
    return (char :: chars, rest)
  | '\\' :: c :: rest => do
    let char ← unescaped? c
    let (chars, rest) ← text rest
    return (char :: chars, rest)
  | c :: rest => if c.toNat < 32 then none else do
    let (chars, rest) ← text rest
    return (c :: chars, rest)

def name (cs : List Char) : Option (String × List Char) :=
  match skip cs with
  | '"' :: rest => do
    let (chars, rest) ← text rest
    match skip rest with
    | ':' :: rest => return (String.ofList chars, rest)
    | _ => none
  | _ => none

/-! ### Numbers -/

def digits (cs : List Char) : Option (Nat × List Char) :=
  let ds := cs.takeWhile Char.isDigit
  let rest := cs.dropWhile Char.isDigit
  if ds = [] ∨ ds.head? = some '0' ∧ ds ≠ ['0'] ∨ rest.head?.any fun c => c = '.' ∨ c = 'e' ∨ c = 'E' then none
  else some (Nat.ofDigitChars 10 ds 0, rest)

def number : List Char → Option (Int × List Char)
  | '-' :: rest => do
    let (n, rest) ← digits rest
    return (-n, rest)
  | cs => do
    let (n, rest) ← digits cs
    return (n, rest)

/-! ### Values -/

mutual

/-- A value, and what is behind it. No part of a text is nested deeper than it is long, so `fuel`
    is its length. -/
def value : (fuel : Nat) → List Char → Option (Json × List Char)
  | 0, _ => none
  | fuel + 1, cs =>
    match skip cs with
    | '"' :: rest => do
      let (chars, rest) ← text rest
      return (.text (String.ofList chars), rest)
    | '[' :: rest =>
      match skip rest with
      | ']' :: rest => some (.list [], rest)
      | _ => do
        let (item, rest) ← value fuel rest
        let (more, rest) ← items fuel rest
        return (.list (item :: more), rest)
    | '\x7b' :: rest =>
      match skip rest with
      | '\x7d' :: rest => some (.record [], rest)
      | _ => do
        let (key, rest) ← name rest
        let (item, rest) ← value fuel rest
        let (more, rest) ← fields fuel rest
        return (.record ((key, item) :: more), rest)
    | 'n' :: 'u' :: 'l' :: 'l' :: rest => some (.null, rest)
    | cs => do
      let (n, rest) ← number cs
      return (.number n, rest)

def items : (fuel : Nat) → List Char → Option (List Json × List Char)
  | 0, _ => none
  | fuel + 1, cs =>
    match skip cs with
    | ']' :: rest => some ([], rest)
    | ',' :: rest => do
      let (item, rest) ← value fuel rest
      let (more, rest) ← items fuel rest
      return (item :: more, rest)
    | _ => none

def fields : (fuel : Nat) → List Char → Option (List (String × Json) × List Char)
  | 0, _ => none
  | fuel + 1, cs =>
    match skip cs with
    | '\x7d' :: rest => some ([], rest)
    | ',' :: rest => do
      let (key, rest) ← name rest
      let (item, rest) ← value fuel rest
      let (more, rest) ← fields fuel rest
      return ((key, item) :: more, rest)
    | _ => none

end

end Reader

/-- The value that a text has, if it is the text of one and nothing else. -/
def read? (s : String) : Option Json := do
  let (j, rest) ← Reader.value s.toList.length s.toList
  if Reader.skip rest = [] then some j else none

/-! ## Reading what is written -/

namespace Reader

theorem skip_cons {c : Char} (h : isBlank c = false) (cs : List Char) : skip (c :: cs) = c :: cs := by
  rw [skip, List.dropWhile_cons_of_neg (by simp [h])]

theorem skip_blanks {bs : List Char} (blank : ∀ c ∈ bs, isBlank c = true) (cs : List Char) :
    skip (bs ++ cs) = skip cs := List.dropWhile_append_of_pos blank

theorem isBlank_of_mem_newline {level : Nat} : ∀ c ∈ (newline level).toList, isBlank c = true := by
  intro c hc
  simp only [newline, String.toList_append, List.mem_append, String.toList_ofList, List.mem_replicate] at hc
  rcases hc with hc | ⟨-, rfl⟩
  · obtain rfl : c = '\n' := by simpa using hc
    rfl
  · rfl

/-! ### Texts -/

theorem numbered_of_lt : ∀ n < 32, numbered? '0' '0' (hexDigit (n / 16)) (hexDigit (n % 16)) = some (Char.ofNat n) := by
  decide

/-- A character is written as itself, behind a backslash, or as its number behind `u`. -/
theorem escapeChar_cases (c : Char) :
    (escapeChar c = [c] ∧ c ≠ '"' ∧ c ≠ '\\' ∧ 32 ≤ c.toNat) ∨
    (∃ e, escapeChar c = ['\\', e] ∧ e ≠ 'u' ∧ unescaped? e = some c) ∨
    (escapeChar c = ['\\', 'u', '0', '0', hexDigit (c.toNat / 16), hexDigit (c.toNat % 16)] ∧ c.toNat < 32) := by
  unfold escapeChar
  by_cases short : c = '"' ∨ c = '\\' ∨ c = '\x08' ∨ c = '\x0c' ∨ c = '\n' ∨ c = '\r' ∨ c = '\t'
  · rcases short with rfl | rfl | rfl | rfl | rfl | rfl | rfl <;> exact .inr (.inl ⟨_, rfl, by decide, rfl⟩)
  · simp only [not_or] at short
    obtain ⟨h₁, h₂, h₃, h₄, h₅, h₆, h₇⟩ := short
    rw [if_neg h₁, if_neg h₂, if_neg h₃, if_neg h₄, if_neg h₅, if_neg h₆, if_neg h₇]
    by_cases control : c.toNat < 32
    · exact .inr (.inr ⟨if_pos control, control⟩)
    · exact .inl ⟨if_neg control, h₁, h₂, Nat.le_of_not_lt control⟩

theorem text_escapeChar (c : Char) (cs : List Char) :
    text (escapeChar c ++ cs) = (text cs).map fun (chars, rest) => (c :: chars, rest) := by
  rcases escapeChar_cases c with ⟨h, quote, backslash, plain⟩ | ⟨e, h, hu, he⟩ | ⟨h, control⟩ <;> rw [h]
  · rw [List.singleton_append, text, if_neg (Nat.not_lt_of_le plain)]
    · cases text cs <;> rfl
    · exact quote
    · exact fun _ _ _ _ _ h => (backslash h).elim
    · exact fun _ _ h => (backslash h).elim
  · rw [List.cons_append, List.singleton_append, text, he]
    · cases text cs <;> rfl
    · exact fun _ _ _ _ _ h => (hu h).elim
  · simp only [List.cons_append, List.nil_append, text, numbered_of_lt _ control, Char.ofNat_toNat]
    cases text cs <;> rfl

theorem text_quoted (chars rest : List Char) :
    text (chars.flatMap escapeChar ++ '"' :: rest) = some (chars, rest) := by
  induction chars with
  | nil => rfl
  | cons c more ih => rw [List.flatMap_cons, List.append_assoc, text_escapeChar, ih]; rfl

/-! ### Numbers -/

/-- What is behind a number does not go on with it. -/
def Ends (rest : List Char) : Prop := ∀ c ∈ rest.head?, c.isDigit = false ∧ ¬(c = '.' ∨ c = 'e' ∨ c = 'E')

theorem head_toDigits {n : Nat} (pos : 0 < n) : (Nat.toDigits 10 n).head? ≠ some '0' := by
  induction n using Nat.strongRecOn with
  | ind n ih =>
    rcases Nat.lt_or_ge n 10 with lt | ge
    · have digit : ∀ n < 10, 0 < n → some n.digitChar ≠ some '0' := by decide
      rw [Nat.toDigits_of_lt_base lt, List.head?_cons]
      exact digit n lt pos
    · obtain ⟨d, ds, hds⟩ := List.exists_cons_of_ne_nil (Nat.toDigits_ne_nil (n := n / 10) (b := 10))
      have first := ih (n / 10) (by omega) (by omega)
      rw [Nat.toDigits_of_base_le (by decide) ge]
      rw [hds] at first ⊢
      exact first

theorem digits_repr (n : Nat) {rest : List Char} (ends : Ends rest) :
    digits (n.repr.toList ++ rest) = some (n, rest) := by
  have all : ∀ c ∈ n.repr.toList, c.isDigit = true := by
    intro c hc
    rw [Nat.toList_repr] at hc
    exact Nat.isDigit_of_mem_toDigits (by decide) (by decide) hc
  have stops : rest.takeWhile Char.isDigit = [] ∧ rest.dropWhile Char.isDigit = rest := by
    cases rest with
    | nil => exact ⟨rfl, rfl⟩
    | cons c cs =>
      have hc := (ends c rfl).1
      exact ⟨List.takeWhile_cons_of_neg (by simp [hc]), List.dropWhile_cons_of_neg (by simp [hc])⟩
  have front : (n.repr.toList ++ rest).takeWhile Char.isDigit = n.repr.toList := by
    rw [List.takeWhile_append_of_pos all, stops.1, List.append_nil]
  have back : (n.repr.toList ++ rest).dropWhile Char.isDigit = rest := by
    rw [List.dropWhile_append_of_pos all, stops.2]
  have zero : ¬(n.repr.toList.head? = some '0' ∧ n.repr.toList ≠ ['0']) := by
    rintro ⟨first, more⟩
    rw [Nat.toList_repr] at first more
    rcases Nat.eq_zero_or_pos n with rfl | pos
    · exact more (Nat.toDigits_zero 10)
    · exact head_toDigits pos first
  have behind : ¬rest.head?.any fun c => c = '.' ∨ c = 'e' ∨ c = 'E' := by
    rw [Option.any_eq_true]
    rintro ⟨c, hc, more⟩
    exact (ends c hc).2 (of_decide_eq_true more)
  have nonempty : n.repr.toList ≠ [] := by
    rw [Nat.toList_repr]
    exact Nat.toDigits_ne_nil
  rw [digits, front, back, if_neg (not_or.mpr ⟨nonempty, not_or.mpr ⟨zero, behind⟩⟩), Nat.toList_repr,
    Nat.ofDigitChars_ten_toDigits]

theorem toList_negSucc (n : Nat) : (toString (Int.negSucc n)).toList = '-' :: (n + 1).repr.toList := by
  rw [show toString (Int.negSucc n) = "-" ++ (n + 1).repr from rfl, String.toList_append]
  rfl

theorem number_toString (n : Int) {rest : List Char} (ends : Ends rest) :
    number ((toString n).toList ++ rest) = some (n, rest) := by
  cases n with
  | ofNat n =>
    obtain ⟨d, ds, hds⟩ := List.exists_cons_of_ne_nil (Nat.toDigits_ne_nil (n := n) (b := 10))
    have hd : d ≠ '-' := by
      rintro rfl
      have := Nat.isDigit_of_mem_toDigits (b := 10) (n := n) (c := '-') (by decide) (by decide) (by simp [hds])
      cases this
    have read := digits_repr n ends
    show number (n.repr.toList ++ rest) = _
    rw [Nat.toList_repr, hds, List.cons_append] at read ⊢
    rw [number, read]
    · rfl
    · simpa using hd
  | negSucc n =>
    rw [toList_negSucc, List.cons_append, number, digits_repr (n + 1) ends]
    rfl

/-! ### Values -/

theorem number_head (n : Int) : ∃ c cs, (toString n).toList = c :: cs ∧ (c.isDigit = true ∨ c = '-') := by
  cases n with
  | ofNat n =>
    obtain ⟨d, ds, hds⟩ := List.exists_cons_of_ne_nil (Nat.toDigits_ne_nil (n := n) (b := 10))
    refine ⟨d, ds, ?_, .inl (Nat.isDigit_of_mem_toDigits (b := 10) (n := n) (by decide) (by decide) (by simp [hds]))⟩
    show n.repr.toList = _
    rw [Nat.toList_repr, hds]
  | negSucc n => exact ⟨'-', (n + 1).repr.toList, toList_negSucc n, .inr rfl⟩

theorem ne_of_number {c d : Char} (h : c.isDigit = true ∨ c = '-') (hd : d.isDigit = false) (minus : d ≠ '-') :
    c ≠ d := by
  rintro rfl
  rcases h with h | h
  · rw [hd] at h
    cases h
  · exact minus h

theorem isBlank_of_number {c : Char} (h : c.isDigit = true ∨ c = '-') : isBlank c = false := by
  have other := fun {d : Char} => ne_of_number (d := d) h
  simp [isBlank, other (d := ' ') rfl (by decide), other (d := '\n') rfl (by decide),
    other (d := '\r') rfl (by decide), other (d := '\t') rfl (by decide)]

theorem value_of_number {c : Char} (h : c.isDigit = true ∨ c = '-') (fuel : Nat) (cs : List Char) :
    value (fuel + 1) (c :: cs) = (number (c :: cs)).map fun (n, rest) => (.number n, rest) := by
  rw [value, skip_cons (isBlank_of_number h)]
  split
  case h_5 => cases number (c :: cs) <;> rfl
  all_goals
    rename_i hcs
    exact absurd (List.cons.inj hcs).1 (ne_of_number h rfl (by decide))

theorem value_blanks {bs : List Char} (blank : ∀ c ∈ bs, isBlank c = true) (fuel : Nat) (cs : List Char) :
    value fuel (bs ++ cs) = value fuel cs := by
  cases fuel with
  | zero => rfl
  | succ fuel => rw [value, value, skip_blanks blank]

theorem value_space (fuel : Nat) (cs : List Char) : value fuel (' ' :: cs) = value fuel cs := by
  have blank : ∀ c ∈ [' '], isBlank c = true := List.forall_mem_singleton.mpr rfl
  exact value_blanks blank fuel cs

theorem write_head (level : Nat) (j : Json) :
    ∃ c cs, (write level j).toList = c :: cs ∧ isBlank c = false ∧ c ≠ ']' := by
  cases j with
  | number n =>
    obtain ⟨c, cs, hcs, h⟩ := number_head n
    exact ⟨c, cs, by rw [write, hcs], isBlank_of_number h, ne_of_number h rfl (by decide)⟩
  | text t => exact ⟨'"', _, by rw [write, quoted, String.toList_ofList], rfl, by decide⟩
  | null => exact ⟨'n', _, by rw [write]; rfl, rfl, by decide⟩
  | list items =>
    cases items with
    | nil => exact ⟨'[', _, by rw [write]; rfl, rfl, by decide⟩
    | cons => exact ⟨'[', _, by simp only [write, String.toList_append]; rfl, rfl, by decide⟩
  | record fields =>
    cases fields with
    | nil => exact ⟨'\x7b', _, by rw [write]; rfl, rfl, by decide⟩
    | cons => exact ⟨'\x7b', _, by simp only [write, String.toList_append]; rfl, rfl, by decide⟩

theorem name_quoted (key : String) {bs : List Char} (blank : ∀ c ∈ bs, isBlank c = true) (cs : List Char) :
    name (bs ++ ((quoted key).toList ++ ':' :: cs)) = some (key, cs) := by
  rw [name, skip_blanks blank, quoted, String.toList_ofList, List.cons_append, skip_cons rfl, List.append_assoc,
    List.singleton_append]
  simp only [text_quoted]
  show some (String.ofList key.toList, cs) = some (key, cs)
  rw [String.ofList_toList]

theorem ends_items (level outer : Nat) (is : List Json) (cs : List Char) :
    Ends ((writeItems level is).toList ++ ((newline outer).toList ++ cs)) := by
  intro c hc
  cases is with
  | nil =>
    simp [writeItems, newline] at hc
    subst hc
    decide
  | cons item more =>
    simp [writeItems] at hc
    subst hc
    decide

theorem ends_fields (level outer : Nat) (fs : List (String × Json)) (cs : List Char) :
    Ends ((writeFields level fs).toList ++ ((newline outer).toList ++ cs)) := by
  intro c hc
  cases fs with
  | nil =>
    simp [writeFields, newline] at hc
    subst hc
    decide
  | cons f more =>
    simp [writeFields] at hc
    subst hc
    decide

/-- A value is read back from what it is written as, at any level. -/
def ReadBack (j : Json) : Prop := ∀ (level fuel : Nat) (rest : List Char),
  (write level j).toList.length ≤ fuel → Ends rest → value fuel ((write level j).toList ++ rest) = some (j, rest)

theorem items_write {is : List Json} (each : ∀ j ∈ is, ReadBack j) (level outer fuel : Nat) (rest : List Char)
    (lt : (writeItems level is).toList.length < fuel) :
    items fuel ((writeItems level is).toList ++ ((newline outer).toList ++ ']' :: rest)) = some (is, rest) := by
  induction is generalizing fuel with
  | nil =>
    obtain ⟨fuel, rfl⟩ : ∃ f, fuel = f + 1 := ⟨fuel - 1, by omega⟩
    rw [writeItems, String.toList_empty, List.nil_append, items, skip_blanks isBlank_of_mem_newline, skip_cons rfl]
    rfl
  | cons item more ih =>
    obtain ⟨fuel, rfl⟩ : ∃ f, fuel = f + 1 := ⟨fuel - 1, by omega⟩
    have written : (writeItems level (item :: more)).toList =
        ',' :: ((newline level).toList ++ ((write level item).toList ++ (writeItems level more).toList)) := by
      simp [writeItems]
    rw [written] at lt ⊢
    simp only [List.length_cons, List.length_append] at lt
    have hitem := each item List.mem_cons_self level fuel _ (by omega) (ends_items level outer more (']' :: rest))
    have hmore := ih (fun j hj => each j (List.mem_cons_of_mem _ hj)) fuel (by omega)
    rw [items, List.cons_append, skip_cons rfl]
    simp only [List.append_assoc, value_blanks isBlank_of_mem_newline, hitem, hmore, Option.bind_some, bind, pure]

theorem fields_write {fs : List (String × Json)} (each : ∀ f ∈ fs, ReadBack f.2) (level outer fuel : Nat)
    (rest : List Char) (lt : (writeFields level fs).toList.length < fuel) :
    fields fuel ((writeFields level fs).toList ++ ((newline outer).toList ++ '\x7d' :: rest)) = some (fs, rest) := by
  induction fs generalizing fuel with
  | nil =>
    obtain ⟨fuel, rfl⟩ : ∃ f, fuel = f + 1 := ⟨fuel - 1, by omega⟩
    rw [writeFields, String.toList_empty, List.nil_append, fields, skip_blanks isBlank_of_mem_newline, skip_cons rfl]
    rfl
  | cons f more ih =>
    obtain ⟨key, item⟩ := f
    obtain ⟨fuel, rfl⟩ : ∃ f, fuel = f + 1 := ⟨fuel - 1, by omega⟩
    have written : (writeFields level ((key, item) :: more)).toList = ',' :: ((newline level).toList ++
        ((quoted key).toList ++ ':' :: ' ' :: ((write level item).toList ++ (writeFields level more).toList))) := by
      simp [writeFields]
    have read : ReadBack item := each _ List.mem_cons_self
    rw [written] at lt ⊢
    simp only [List.length_cons, List.length_append] at lt
    have hitem := read level fuel _ (by omega) (ends_fields level outer more ('\x7d' :: rest))
    have hmore := ih (fun f hf => each f (List.mem_cons_of_mem _ hf)) fuel (by omega)
    rw [fields, List.cons_append, skip_cons rfl]
    simp only [List.append_assoc, List.cons_append, name_quoted key isBlank_of_mem_newline, value_space, hitem, hmore,
      Option.bind_some, bind, pure]

theorem list_write {is : List Json} (each : ∀ j ∈ is, ReadBack j) : ReadBack (.list is) := by
  intro level fuel rest le _
  cases is with
  | nil =>
    obtain ⟨fuel, rfl⟩ : ∃ f, fuel = f + 1 := ⟨fuel - 1, by simp [write] at le; omega⟩
    rw [write]
    rfl
  | cons item more =>
    have written : (write level (.list (item :: more))).toList = '[' :: ((newline (level + 1)).toList ++
        ((write (level + 1) item).toList ++ ((writeItems (level + 1) more).toList ++
          ((newline level).toList ++ [']'])))) := by
      simp [write]
    rw [written] at le ⊢
    simp only [List.length_cons, List.length_append] at le
    obtain ⟨fuel, rfl⟩ : ∃ f, fuel = f + 1 := ⟨fuel - 1, by omega⟩
    have hitem := each item List.mem_cons_self (level + 1) fuel _ (by omega)
      (ends_items (level + 1) level more (']' :: rest))
    have hmore := items_write (fun j hj => each j (List.mem_cons_of_mem _ hj)) (level + 1) level fuel rest (by omega)
    obtain ⟨c, cs, hcs, solid, close⟩ := write_head (level + 1) item
    rw [List.cons_append, value, skip_cons rfl]
    simp only [List.append_assoc, List.singleton_append, skip_blanks isBlank_of_mem_newline,
      value_blanks isBlank_of_mem_newline, hitem, hmore, Option.bind_some, bind, pure]
    rw [hcs, List.cons_append, skip_cons solid]
    split
    · rename_i hclose
      exact absurd (List.cons.inj hclose).1 close
    · rfl

theorem record_write {fs : List (String × Json)} (each : ∀ f ∈ fs, ReadBack f.2) : ReadBack (.record fs) := by
  intro level fuel rest le _
  cases fs with
  | nil =>
    obtain ⟨fuel, rfl⟩ : ∃ f, fuel = f + 1 := ⟨fuel - 1, by simp [write] at le; omega⟩
    rw [write]
    rfl
  | cons f more =>
    obtain ⟨key, item⟩ := f
    have written : (write level (.record ((key, item) :: more))).toList = '\x7b' :: ((newline (level + 1)).toList ++
        ((quoted key).toList ++ ':' :: ' ' :: ((write (level + 1) item).toList ++
          ((writeFields (level + 1) more).toList ++ ((newline level).toList ++ ['\x7d']))))) := by
      simp [write]
    have read : ReadBack item := each _ List.mem_cons_self
    rw [written] at le ⊢
    simp only [List.length_cons, List.length_append] at le
    obtain ⟨fuel, rfl⟩ : ∃ f, fuel = f + 1 := ⟨fuel - 1, by omega⟩
    have hitem := read (level + 1) fuel _ (by omega) (ends_fields (level + 1) level more ('\x7d' :: rest))
    have hmore := fields_write (fun f hf => each f (List.mem_cons_of_mem _ hf)) (level + 1) level fuel rest (by omega)
    rw [List.cons_append, value, skip_cons rfl]
    simp only [List.append_assoc, List.cons_append, List.nil_append, skip_blanks isBlank_of_mem_newline,
      name_quoted key isBlank_of_mem_newline, value_space, hitem, hmore, Option.bind_some, bind, pure]
    rw [quoted, String.toList_ofList, List.cons_append, skip_cons rfl]
    rfl

theorem value_write : ∀ j : Json, ReadBack j
  | .number n => by
    intro level fuel rest le ends
    obtain ⟨c, cs, hcs, h⟩ := number_head n
    have read := number_toString n ends
    rw [write, hcs] at le ⊢
    rw [hcs] at read
    obtain ⟨fuel, rfl⟩ : ∃ f, fuel = f + 1 := ⟨fuel - 1, by simp at le; omega⟩
    rw [List.cons_append] at read ⊢
    rw [value_of_number h, read]
    rfl
  | .text t => by
    intro level fuel rest le _
    rw [write, quoted, String.toList_ofList] at le ⊢
    obtain ⟨fuel, rfl⟩ : ∃ f, fuel = f + 1 := ⟨fuel - 1, by simp at le; omega⟩
    rw [List.cons_append, value, skip_cons rfl, List.append_assoc, List.singleton_append]
    simp only [text_quoted, Option.bind_some, bind, pure, String.ofList_toList]
  | .null => by
    intro level fuel rest le _
    obtain ⟨fuel, rfl⟩ : ∃ f, fuel = f + 1 := ⟨fuel - 1, by simp [write] at le; omega⟩
    rw [write]
    rfl
  | .list is => list_write fun j _ => value_write j
  | .record fs => record_write fun f hf => by
    have := List.sizeOf_lt_of_mem hf
    exact value_write f.2
decreasing_by
  · decreasing_tactic
  · obtain ⟨key, item⟩ := f
    simp only [Prod.mk.sizeOf_spec, record.sizeOf_spec] at *
    omega

end Reader

/-- A value that is written as a text of its own is read back from that text. -/
theorem read?_pretty (j : Json) : read? (j.pretty ++ "\n") = some j := by
  have ends : Reader.Ends "\n".toList := by
    intro c hc
    cases hc
    decide
  have read := Reader.value_write j 0 (j.pretty ++ "\n").toList.length "\n".toList (by simp [pretty]) ends
  rw [← pretty, ← String.toList_append] at read
  rw [read?, read]
  rfl

/-- No comma at the end, no second value, no number with a zero in front. -/
example : read? "[1,]" = none ∧ read? "1 2" = none ∧ read? "01" = none ∧
    read? "\x7b\"a\" : [ -12 , null ]\x7d" = some (.record [("a", .list [.number (-12), .null])]) :=
  ⟨rfl, rfl, rfl, rfl⟩

end Fleet.Json
