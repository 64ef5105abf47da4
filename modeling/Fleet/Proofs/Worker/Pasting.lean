/-
  Fleet.Proofs.Worker.Pasting — a printed command run by a shell.

  A printed command falls apart into the words it was printed from
  (`Fleet.Proofs.Worker.Line`). Nothing in them is to be filled in, so whatever the state of
  the shell they come to the texts they were written for (`fields_words`).

  What is run is another question. A shell reads the first word of a command by its own
  grammar: a keyword opens a compound command, and a name with a value behind an equals sign
  sets a variable. Both only where the word has no quotes, and quotes are written by the
  characters of a text, wherever it stands: letters and equals signs have none. So the
  program of a command, unlike its arguments, can be taken for something else (`IsTaken`).

  `pasted_line_starts_program`: every command whose program is not taken is printed as one
  plain command that starts the program, with its arguments and its output
  (`Script.Starts`), and every other is printed as a line that is no plain command at all,
  or one that sets a variable. `taken_programs_are_not_started` has one of each.
-/

import Fleet.Proofs.Shell.Reading
import Fleet.Proofs.Worker.Line
import Fleet.Shell.Expansion

namespace Fleet.Shell

/-! ## Words that stand for themselves -/

def Piece.isText : Piece → Bool
  | .char .. | .quotes => true
  | _ => false

def Piece.fragment : Piece → Fragment
  | .char c quoted => .char c quoted
  | _ => .present

theorem fillPiece_text (capture : Capture) (p : Process) {piece : Piece} (h : piece.isText = true) :
    p.fillPiece capture piece = (p, [piece.fragment]) := by
  cases piece with
  | char | quotes => rfl
  | _ => cases h

theorem foldl_collect {σ α β : Type} {f : σ × List β → α → σ × List β} {g : α → β} {p : σ} {xs : List α}
    (h : ∀ x ∈ xs, ∀ done, f (p, done) x = (p, done ++ [g x])) (done : List β) :
    xs.foldl f (p, done) = (p, done ++ xs.map g) := by
  induction xs generalizing done with
  | nil => rw [List.map_nil, List.append_nil]; rfl
  | cons x rest ih =>
    obtain ⟨hx, hrest⟩ := List.forall_mem_cons.mp h
    rw [List.foldl_cons, hx, ih hrest, List.append_assoc]
    rfl

/-- A word of text comes to the same fragments in every state of the shell, and leaves it so. -/
theorem fill_text (capture : Capture) (p : Process) {w : Word} (h : ∀ piece ∈ w, piece.isText = true) :
    p.fill capture w = (p, w.map Piece.fragment) := by
  rw [Process.fill, if_neg]
  · refine foldl_collect (fun piece hpiece done => ?_) []
    dsimp only
    rw [fillPiece_text capture p (h piece hpiece)]
  · rintro rfl
    cases h (.parameter "@" none true) (List.mem_cons_of_mem _ List.mem_cons_self)

/-! ## Quoted texts as fields -/

section Quoted

open Lexer

variable (capture : Capture) (p : Process)

theorem isText_bodyPieces (text : List Char) : ∀ piece ∈ bodyPieces text, piece.isText = true := by
  induction text with
  | nil => exact nofun
  | cons c rest ih =>
    rw [bodyPieces]
    split
    · exact List.forall_mem_cons.mpr ⟨rfl, List.forall_mem_cons.mpr ⟨rfl, ih⟩⟩
    · exact List.forall_mem_cons.mpr ⟨rfl, ih⟩

theorem isText_wordOf (text : List Char) : ∀ piece ∈ wordOf text, piece.isText = true := by
  rw [wordOf]
  split
  · exact List.forall_mem_map.mpr fun _ _ => rfl
  · exact List.forall_mem_cons.mpr ⟨rfl, isText_bodyPieces text⟩

theorem fieldsFrom_harmless (begun : List Char) {text : List Char} (h : ∀ c ∈ text, isHarmless c = true) :
    fieldsFrom (some begun) ((text.map (Piece.char · false)).map Piece.fragment) =
      [String.ofList (begun ++ text)] := by
  induction text generalizing begun with
  | nil => rw [List.append_nil]; rfl
  | cons c rest ih =>
    obtain ⟨hc, hrest⟩ := List.forall_mem_cons.mp h
    have ne (d : Char) (hd : isHarmless d = false) : c ≠ d := ne_of_harmless hc hd
    have goesOn : (!false && (isBlank c || c == '\n')) = false := by
      simp [isBlank, ne ' ' rfl, ne '\t' rfl, ne '\n' rfl]
    show (if _ then _ else _) = _
    rw [goesOn, if_neg Bool.false_ne_true, Option.getD_some]
    exact (ih (begun ++ [c]) hrest).trans (by rw [List.append_assoc]; rfl)

theorem fieldsFrom_bodyPieces (begun text : List Char) :
    fieldsFrom (some begun) ((bodyPieces text).map Piece.fragment) = [String.ofList (begun ++ text)] := by
  induction text generalizing begun with
  | nil => rw [List.append_nil]; rfl
  | cons c rest ih =>
    have step : fieldsFrom (some (begun ++ [c])) ((bodyPieces rest).map Piece.fragment) =
        [String.ofList (begun ++ c :: rest)] := by
      rw [ih, List.append_assoc]
      rfl
    rw [bodyPieces]
    split
    · rename_i hc
      subst hc
      exact step
    · exact step

theorem fieldsFrom_wordOf (text : List Char) :
    fieldsFrom none ((wordOf text).map Piece.fragment) = [String.ofList text] := by
  rw [wordOf]
  split
  · rename_i bare
    obtain ⟨nonempty, harmless⟩ := bare
    obtain ⟨c, rest, rfl⟩ := List.exists_cons_of_ne_nil nonempty
    have all := List.all_eq_true.mp harmless
    have begun : fieldsFrom none (((c :: rest).map (Piece.char · false)).map Piece.fragment) =
        fieldsFrom (some []) (((c :: rest).map (Piece.char · false)).map Piece.fragment) := by
      have ne (d : Char) (hd : isHarmless d = false) : c ≠ d := ne_of_harmless (all c List.mem_cons_self) hd
      simp [fieldsFrom, Piece.fragment, isBlank, ne ' ' rfl, ne '\t' rfl, ne '\n' rfl]
    rw [begun, fieldsFrom_harmless [] all]
    rfl
  · exact fieldsFrom_bodyPieces [] text

/-- Quoted texts are the fields that they come to, in every state of the shell. -/
theorem fields_words (texts : List String) :
    p.fields capture (texts.map fun text => wordOf text.toList) = (p, texts) := by
  induction texts with
  | nil => rfl
  | cons text rest ih =>
    rw [List.map_cons, Process.fields, fill_text capture p (isText_wordOf _)]
    dsimp only
    rw [ih, fieldsFrom_wordOf, String.ofList_toList]
    rfl

theorem wholeOf_text {w : Word} (h : ∀ piece ∈ w, piece.isText = true) {chars : List Char}
    (literal : w.literal? = some chars) : (wholeOf (w.map Piece.fragment)).map (·.1) = chars := by
  induction w generalizing chars with
  | nil => cases literal; rfl
  | cons piece rest ih =>
    obtain ⟨hpiece, hrest⟩ := List.forall_mem_cons.mp h
    cases piece with
    | char c quoted =>
      rw [Word.literal?_char, Option.map_eq_some_iff] at literal
      obtain ⟨more, hmore, rfl⟩ := literal
      exact congrArg (c :: ·) (ih hrest hmore)
    | quotes =>
      rw [Word.literal?_quotes] at literal
      exact ih hrest literal
    | _ => cases hpiece

theorem text_wordOf (text : String) : p.text capture (wordOf text.toList) = (p, text) := by
  rw [Process.text, fill_text capture p (isText_wordOf _)]
  dsimp only
  rw [wholeOf_text (isText_wordOf _) (literal?_wordOf _), String.ofList_toList]

end Quoted

/-! ## Where a command begins -/

def IsBare (text : String) : Prop := text.toList ≠ [] ∧ ∀ c ∈ text.toList, isHarmless c = true

/-- A text that the grammar of the shell takes for itself where a command begins: one
    without quotes that is a keyword, or a name with a value behind an equals sign. -/
def IsTaken (text : String) : Prop :=
  IsBare text ∧ (text ∈ keywords ∨ ∃ name value, IsName name ∧ text = name ++ "=" ++ value)

theorem toList_setting (name value : String) : (name ++ "=" ++ value).toList = name.toList ++ '=' :: value.toList := by
  rw [String.toList_append, String.toList_append, List.append_assoc]
  rfl

section Beginning

open Lexer

variable (text : String)

theorem wordOf_cases : (IsBare text ∧ wordOf text.toList = text.toList.map (.char · false)) ∨
    (¬IsBare text ∧ ∃ w, wordOf text.toList = .quotes :: w) := by
  have same : (text.toList ≠ [] ∧ text.toList.all isHarmless = true) ↔ IsBare text :=
    and_congr_right' List.all_eq_true
  rcases Classical.em (IsBare text) with bare | quoted
  · exact Or.inl ⟨bare, if_pos (same.mpr bare)⟩
  · exact Or.inr ⟨quoted, _, if_neg (mt same.mp quoted)⟩

theorem bare?_wordOf_iff {bare : String} :
    (Token.word (wordOf text.toList)).bare? = some bare ↔ IsBare text ∧ text = bare := by
  rcases wordOf_cases text with ⟨own, hw⟩ | ⟨quoted, w, hw⟩
  · rw [Token.bare?, hw, bare?_map_char, Option.map_some, String.ofList_toList, Option.some.injEq, and_iff_right own]
  · rw [Token.bare?, hw]
    exact ⟨nofun, fun h => absurd h.1 quoted⟩

theorem isKeyword_wordOf :
    (Token.word (wordOf text.toList)).isKeyword = true ↔ IsBare text ∧ text ∈ keywords := by
  rw [Script.isKeyword_iff]
  simp only [bare?_wordOf_iff]
  constructor
  · rintro ⟨_, keyword, own, rfl⟩
    exact ⟨own, keyword⟩
  · rintro ⟨own, keyword⟩
    exact ⟨text, keyword, own, rfl⟩

theorem assignment?_wordOf_iff {name : String} {value : Word} :
    assignment? (wordOf text.toList) = some (name, value) ↔ IsBare text ∧
      ∃ chars, IsName name ∧ text.toList = name.toList ++ '=' :: chars ∧ value = chars.map (.char · false) := by
  rcases wordOf_cases text with ⟨bare, hw⟩ | ⟨quoted, w, hw⟩
  · rw [hw, assignment?_bare_iff, and_iff_right bare]
  · rw [hw, assignment?_quotes]
    simp only [reduceCtorEq, false_iff]
    exact fun h => quoted h.1

end Beginning

end Fleet.Shell

namespace Fleet

open Shell

/-! ## Printed commands -/

def Output.redirects : Output → List Redirect
  | .inherit => []
  | .append path => [⟨1, .append, Lexer.wordOf path.toList⟩]

/-- A script starts a command: it is one plain command with nothing set before it, its words
    come to the program and its arguments in every state of the shell, and its output is
    appended to the log, if there is one. -/
def Shell.Script.Starts (s : Script) (c : Command) : Prop :=
  ∃ words redirects, s = .simple [] words redirects ∧ ∀ (capture : Capture) (p : Process),
    p.fields capture words = (p, c.program :: c.args) ∧
      redirects.map (fun r => (r.descriptor, r.kind, p.text capture r.target)) =
        match c.output with
        | .inherit => []
        | .append path => [(1, .append, p, path)]

namespace Command

variable (c : Command)

def words : List Word := (c.program :: c.args).map fun text => Lexer.wordOf text.toList

theorem wordsAndRedirects_line {n : Nat} (enough : c.lineTokens.length ≤ n) :
    Script.wordsAndRedirects n c.lineTokens = ((c.words, c.output.redirects), []) := by
  have tokens : c.lineTokens = c.words.map .word ++ match c.output with
      | .inherit => []
      | .append path => [.operator ">>", .word (Lexer.wordOf path.toList)] := by
    rw [lineTokens, words, List.map_map]
    rfl
  rw [tokens] at enough ⊢
  rw [List.length_append, List.length_map] at enough
  obtain ⟨m, rfl⟩ := Nat.exists_eq_add_of_le (Nat.le_trans (Nat.le_add_right _ _) enough)
  rw [Script.wordsAndRedirects_words]
  cases h : c.output with
  | inherit => simp only [Script.wordsAndRedirects_nil, List.append_nil, Output.redirects]
  | append path =>
    rw [h] at enough
    obtain ⟨m, rfl⟩ : ∃ k, m = k + 1 := ⟨m - 1, by simp only [List.length_cons] at enough; omega⟩
    simp only [Script.wordsAndRedirects_append, List.append_nil, Output.redirects]

/-- A printed command whose program is no bare keyword is read as one plain command. -/
theorem parse_line (free : ¬(IsBare c.program ∧ c.program ∈ keywords)) :
    Script.parse c.line = some (.ofWords c.words c.output.redirects) := by
  rw [← isKeyword_wordOf, Bool.not_eq_true] at free
  exact Script.parse_word c.tokens_line free fun n enough => c.wordsAndRedirects_line enough

theorem not_simple_of_parse_line {s : Script} (bare : IsBare c.program) (keyword : c.program ∈ keywords)
    (h : Script.parse c.line = some s) : s.isSimple = false := by
  refine Script.not_simple_of_parse c.tokens_line ((isKeyword_wordOf c.program).mpr ⟨bare, keyword⟩) ?_ h
  -- A brace is quoted.
  intro group
  obtain ⟨-, brace⟩ := (bare?_wordOf_iff c.program).mp group
  have harmless := bare.2
  rw [brace] at harmless
  exact absurd (harmless '\x7b' (by decide)) (by decide)

theorem parse_setting_line {name value : String} (bare : IsBare c.program) (hname : IsName name)
    (spelled : c.program = name ++ "=" ++ value) : ∃ more words redirects, Script.parse c.line =
      some (.simple ((name, value.toList.map (.char · false)) :: more) words redirects) := by
  have chars : c.program.toList = name.toList ++ '=' :: value.toList := by rw [spelled, toList_setting]
  have sets := (assignment?_wordOf_iff c.program).mpr ⟨bare, _, hname, chars, rfl⟩
  have free : ¬(IsBare c.program ∧ c.program ∈ keywords) := by
    rintro ⟨-, keyword⟩
    -- Keywords are asked for first, but no setting is one.
    have unequal : ∀ text ∈ keywords, '=' ∉ text.toList := by decide
    refine unequal _ keyword ?_
    rw [chars]
    exact List.mem_append_right _ List.mem_cons_self
  obtain ⟨more, left, eq⟩ := ofWords_of_some sets _ c.output.redirects
  exact ⟨more, left, _, (c.parse_line free).trans (congrArg some eq)⟩

/-- A shell that is given a printed command starts the command's program with its arguments
    and sends its output where it belongs, if the shell's grammar does not take the program
    for something else; else it starts no program by a command of its own. -/
theorem pasted_line_starts_program :
    (¬IsTaken c.program → ∃ s, Script.parse c.line = some s ∧ s.Starts c) ∧
      (IsTaken c.program → ∀ words redirects, Script.parse c.line ≠ some (.simple [] words redirects)) := by
  constructor
  · intro own
    have free : ¬(IsBare c.program ∧ c.program ∈ keywords) := fun h => own ⟨h.1, Or.inl h.2⟩
    have unset : assignment? (Lexer.wordOf c.program.toList) = none := by
      refine Option.eq_none_iff_forall_ne_some.mpr ?_
      rintro ⟨name, value⟩ sets
      obtain ⟨bare, chars, hname, spelled, -⟩ := (assignment?_wordOf_iff c.program).mp sets
      refine own ⟨bare, Or.inr ⟨name, String.ofList chars, hname, String.toList_inj.mp ?_⟩⟩
      rw [spelled, toList_setting, String.toList_ofList]
    refine ⟨_, c.parse_line free, c.words, c.output.redirects, ofWords_of_none unset _ _, fun capture p => ?_⟩
    refine ⟨fields_words capture p _, ?_⟩
    cases c.output with
    | inherit => rfl
    | append path =>
      rw [Output.redirects, List.map_singleton, text_wordOf]
  · rintro ⟨bare, keyword | ⟨name, value, hname, spelled⟩⟩ words redirects h
    · cases c.not_simple_of_parse_line bare keyword h
    · obtain ⟨more, words, redirects, set⟩ := c.parse_setting_line bare hname spelled
      rw [set] at h
      cases h

/-- A program with an equals sign in its name, behind a slash, and arguments that would mean
    something in front of it; and one of these as a program. -/
theorem pasted_line_starts_program_in_place :
    let c : Command := ⟨.server, 3, "./MODE=fast", ["if", "A=b", "it's"], .append "my logs/fi"⟩
    let d : Command := ⟨.server, 3, "if", ["A=b", "it's"], .inherit⟩
    (¬IsTaken c.program ∧ ∃ s, Script.parse c.line = some s ∧ s.Starts c) ∧
      IsTaken d.program ∧ ∀ words redirects, Script.parse d.line ≠ some (.simple [] words redirects) := by
  intro c d
  have own : ¬IsTaken c.program := by
    rintro ⟨-, keyword | ⟨name, value, ⟨first, rest, eq, start, -⟩, spelled⟩⟩
    · exact absurd keyword (by decide)
    · have begins : c.program.toList.head? = some first := by
        rw [spelled, toList_setting, eq]
        rfl
      have dot : c.program.toList.head? = some '.' := by decide
      rw [dot] at begins
      cases begins
      cases start
  have taken : IsTaken d.program := ⟨⟨by decide, List.all_eq_true.mp (by decide)⟩, Or.inl (by decide)⟩
  exact ⟨⟨own, c.pasted_line_starts_program.1 own⟩, taken, d.pasted_line_starts_program.2 taken⟩

/-- A program whose name is a variable's with a value, and one whose name is a keyword. The
    first line sets the variable and then runs `-n`, the second is a compound command that
    does nothing. -/
theorem taken_programs_are_not_started :
    let setting : Command := ⟨.client, 0, "MODE=fast", ["-n", "0"], .inherit⟩
    let keyword : Command := ⟨.client, 0, "case", ["x", "in", "esac"], .inherit⟩
    setting.line = "MODE=fast -n 0" ∧ keyword.line = "case x in esac" ∧
      (¬∃ s, Script.parse setting.line = some s ∧ s.Starts setting) ∧
      ¬∃ s, Script.parse keyword.line = some s ∧ s.Starts keyword := by
  intro setting keyword
  refine ⟨by decide +kernel, by decide +kernel, ?_, ?_⟩
  · rintro ⟨s, read, words, redirects, rfl, -⟩
    have name : IsName "MODE" := ⟨'M', ['O', 'D', 'E'], rfl, rfl, List.all_eq_true.mp rfl⟩
    have spelled : setting.program = "MODE" ++ "=" ++ "fast" := by decide
    have bare : IsBare setting.program := ⟨by decide, List.all_eq_true.mp (by decide)⟩
    obtain ⟨more, words, redirects, set⟩ := setting.parse_setting_line bare name spelled
    rw [set] at read
    cases read
  · rintro ⟨s, read, words, redirects, rfl, -⟩
    have bare : IsBare keyword.program := ⟨by decide, List.all_eq_true.mp (by decide)⟩
    cases keyword.not_simple_of_parse_line bare (by decide) read

end Command

end Fleet
