/-
  Fleet.Proofs.Worker.Line — a printed command read back by a shell.

  A shell takes a line apart (`Shell.tokens`): blanks outside quotes end a word, what stands
  between single quotes stands for itself up to the next one, a backslash outside quotes
  takes the meaning of one character, and `>>` outside quotes is an operator. Then it removes
  the quotes (`Word.literal?`); `Shell.lexemes?` is both.

  A word is read where the last one ended, so the texts of a line are read one by one:
  `read_quoteChars` is what reading one quoted text comes to, whatever was read before.
  `line_splits`: a printed command falls apart into its program, its arguments and, if it
  appends its output, `>>` and the path.
-/

import Fleet.Shell.Token
import Fleet.Worker.Command
import Mathlib.Data.List.Basic

namespace Fleet.Shell

/-! ## Lexemes -/

/-- What a line of shell falls apart into once its quotes are removed. -/
inductive Lexeme where
  | word (text : String)
  | operator (text : String)
  deriving DecidableEq, Repr

def Token.lexeme? : Token → Option Lexeme
  | .word w => w.literal?.map fun cs => .word (String.ofList cs)
  | .operator text => some (.operator text)
  | .descriptor _ | .newline => none

def lexemes? (line : String) : Option (List Lexeme) := (tokens line.toList).bind (List.mapM Token.lexeme?)

/-! ## Words without quotes -/

namespace Word

theorem literal?_quotes (w : Word) : literal? (.quotes :: w) = literal? w := by
  simp [literal?]

theorem literal?_char (c : Char) (quoted : Bool) (w : Word) :
    literal? (.char c quoted :: w) = (literal? w).map (c :: ·) := by
  simp only [literal?, List.filter_cons, reduceCtorEq, ne_eq, not_false_eq_true, decide_true, if_true, List.mapM_cons,
    Option.map_eq_bind]
  rfl

theorem literal?_map_char (quoted : Bool) (text : List Char) :
    literal? (text.map (.char · quoted)) = some text := by
  induction text with
  | nil => rfl
  | cons c rest ih =>
    rw [List.map_cons, literal?_char, ih]
    rfl

end Word

/-! ## Reading -/

namespace Lexer

def read (s : Lexer) (text : List Char) : Lexer := text.foldl step s

theorem read_nil (s : Lexer) : s.read [] = s := rfl

theorem read_cons (s : Lexer) (c : Char) (text : List Char) : s.read (c :: text) = (s.step c).read text := rfl

theorem read_append (s : Lexer) (a b : List Char) : s.read (a ++ b) = (s.read a).read b := List.foldl_append

variable (ts : List Token) (begun : Option Word) (w : Word)

theorem step_single_quote : step ⟨ts, begun, .plain⟩ '\'' = ⟨ts, some (begun.getD [] ++ [.quotes]), .single⟩ := rfl

theorem step_single (c : Char) : step ⟨ts, some w, .single⟩ c =
    if c = '\'' then ⟨ts, some w, .plain⟩ else ⟨ts, some (w ++ [.char c true]), .single⟩ := rfl

theorem read_escaped_quote : read ⟨ts, some w, .plain⟩ ['\\', '\''] = ⟨ts, some (w ++ [.char '\'' true]), .plain⟩ := rfl

theorem step_blank : step ⟨ts, some w, .plain⟩ ' ' = ⟨ts ++ [.word w], none, .plain⟩ := rfl

theorem read_append_operator : read ⟨ts, some w, .plain⟩ " >> ".toList =
    ⟨ts ++ [.word w] ++ [.operator ">>"], none, .plain⟩ := rfl

theorem ne_of_harmless {c d : Char} (hc : isHarmless c = true) (hd : isHarmless d = false) : c ≠ d := by
  rintro rfl
  rw [hc] at hd
  cases hd

theorem step_harmless {c : Char} (h : isHarmless c = true) :
    step ⟨ts, begun, .plain⟩ c = ⟨ts, some (begun.getD [] ++ [.char c false]), .plain⟩ := by
  have ne (d : Char) (hd : isHarmless d = false) : c ≠ d := ne_of_harmless h hd
  have blank : isBlank c = false := by simp [isBlank, ne ' ' rfl, ne '\t' rfl]
  have start : isOperatorStart c = false := by
    simp [isOperatorStart, ne '&' rfl, ne '|' rfl, ne ';' rfl, ne '<' rfl, ne '>' rfl, ne '(' rfl, ne ')' rfl]
  show stepPlain ⟨ts, begun, .plain⟩ c = _
  simp only [stepPlain, blank, start, ne '\n' rfl, ne '\'' rfl, ne '"' rfl, ne '\\' rfl, ne '$' rfl, ne '\x60' rfl,
    ne '#' rfl, Bool.false_eq_true, false_and, if_false]
  rfl

/-! ## Quoted texts -/

theorem read_harmless {text : List Char} (h : ∀ c ∈ text, isHarmless c = true) :
    read ⟨ts, some w, .plain⟩ text = ⟨ts, some (w ++ text.map (.char · false)), .plain⟩ := by
  induction text generalizing w with
  | nil => rw [read_nil, List.map_nil, List.append_nil]
  | cons c rest ih =>
    obtain ⟨hc, hrest⟩ := List.forall_mem_cons.mp h
    rw [read_cons, step_harmless ts _ hc, Option.getD_some, ih _ hrest, List.map_cons, List.append_assoc]
    rfl

def bodyPieces : List Char → Word
  | [] => []
  | c :: rest => if c = '\'' then .char '\'' true :: .quotes :: bodyPieces rest else .char c true :: bodyPieces rest

theorem literal?_bodyPieces (text : List Char) : (bodyPieces text).literal? = some text := by
  induction text with
  | nil => rfl
  | cons c rest ih =>
    by_cases hc : c = '\''
    · rw [bodyPieces, if_pos hc, Word.literal?_char, Word.literal?_quotes, ih, hc]
      rfl
    · rw [bodyPieces, if_neg hc, Word.literal?_char, ih]
      rfl

/-- A single quote inside closes the quotes, stands behind a backslash, and opens them again. -/
theorem read_quotedBody (text : List Char) : read ⟨ts, some w, .single⟩ (quotedBody text ++ ['\'']) =
    ⟨ts, some (w ++ bodyPieces text), .plain⟩ := by
  induction text generalizing w with
  | nil =>
    rw [bodyPieces, List.append_nil]
    rfl
  | cons c rest ih =>
    by_cases hc : c = '\''
    · rw [quotedBody, if_pos hc, bodyPieces, if_pos hc, List.append_assoc]
      show ((read ⟨ts, some w, .plain⟩ ['\\', '\'']).step '\'').read (quotedBody rest ++ ['\'']) = _
      rw [read_escaped_quote, step_single_quote, Option.getD_some, ih, List.append_assoc, List.append_assoc]
      rfl
    · rw [quotedBody, if_neg hc, bodyPieces, if_neg hc, List.cons_append, read_cons, step_single, if_neg hc, ih,
        List.append_assoc]
      rfl

def wordOf (text : List Char) : Word :=
  if text ≠ [] ∧ text.all isHarmless then text.map (.char · false) else .quotes :: bodyPieces text

theorem literal?_wordOf (text : List Char) : (wordOf text).literal? = some text := by
  unfold wordOf
  split
  · exact Word.literal?_map_char false text
  · rw [Word.literal?_quotes, literal?_bodyPieces]

/-- A quoted text is one word, and the word is there even if the text is empty. -/
theorem read_quoteChars (text : List Char) :
    read ⟨ts, none, .plain⟩ (quoteChars text) = ⟨ts, some (wordOf text), .plain⟩ := by
  by_cases plain : text ≠ [] ∧ text.all isHarmless
  · rw [quoteChars, wordOf, if_pos plain, if_pos plain]
    obtain ⟨nonempty, harmless⟩ := plain
    obtain ⟨c, rest, rfl⟩ := List.exists_cons_of_ne_nil nonempty
    obtain ⟨hc, hrest⟩ := List.forall_mem_cons.mp (List.all_eq_true.mp harmless)
    rw [read_cons, step_harmless ts none hc, read_harmless ts _ hrest]
    rfl
  · rw [quoteChars, wordOf, if_neg plain, if_neg plain, read_cons, step_single_quote, read_quotedBody]
    rfl

theorem read_words (texts : List String) : ∃ ts' w',
    read ⟨ts, some w, .plain⟩ (texts.flatMap fun text => ' ' :: quoteChars text.toList) = ⟨ts', some w', .plain⟩ ∧
      ts' ++ [.word w'] = ts ++ [.word w] ++ texts.map fun text => .word (wordOf text.toList) := by
  induction texts generalizing ts w with
  | nil => exact ⟨ts, w, rfl, (List.append_nil _).symm⟩
  | cons text rest ih =>
    obtain ⟨ts', w', hread, hts⟩ := ih (ts ++ [.word w]) (wordOf text.toList)
    refine ⟨ts', w', ?_, ?_⟩
    · rw [List.flatMap_cons, List.cons_append, read_cons, step_blank, read_append, read_quoteChars, hread]
    · rw [hts, List.map_cons, List.append_assoc (ts ++ [_])]
      rfl

end Lexer

@[simp] theorem toList_quote (text : String) : (quote text).toList = quoteChars text.toList := String.toList_ofList

theorem lexeme?_wordOf (text : String) : (Token.word (Lexer.wordOf text.toList)).lexeme? = some (.word text) := by
  rw [Token.lexeme?, Lexer.literal?_wordOf, Option.map_some, String.ofList_toList]

theorem mapM_lexeme?_words (texts : List String) :
    (texts.map fun text => Token.word (Lexer.wordOf text.toList)).mapM Token.lexeme? = some (texts.map .word) := by
  induction texts with
  | nil => rfl
  | cons text rest ih =>
    rw [List.map_cons, List.mapM_cons, lexeme?_wordOf, ih]
    rfl

end Fleet.Shell

namespace Fleet

open Shell

/-! ## Lines -/

theorem intercalate_blank (first : List Char) (rest : List (List Char)) :
    [' '].intercalate (first :: rest) = first ++ rest.flatMap (' ' :: ·) := by
  induction rest generalizing first with
  | nil => simp
  | cons second rest ih => rw [List.intercalate_cons_cons, ih, List.flatMap_cons, List.append_assoc]; rfl

def Output.lexemes : Output → List Lexeme
  | .inherit => []
  | .append path => [.operator ">>", .word path]

namespace Command

variable (c : Command)

def lexemes : List Lexeme := (c.program :: c.args).map .word ++ c.output.lexemes

def lineTokens : List Token :=
  ((c.program :: c.args).map fun text => .word (Lexer.wordOf text.toList)) ++
    match c.output with
    | .inherit => []
    | .append path => [.operator ">>", .word (Lexer.wordOf path.toList)]

theorem tokens_line : tokens c.line.toList = some c.lineTokens := by
  have texts : (" ".intercalate ((c.program :: c.args).map quote)).toList =
      quoteChars c.program.toList ++ c.args.flatMap fun text => ' ' :: quoteChars text.toList := by
    rw [String.toList_intercalate, List.map_cons, List.map_cons]
    show [' '].intercalate _ = _
    simp [intercalate_blank, List.flatMap_map]
  obtain ⟨ts, w, hread, hts⟩ := Lexer.read_words [] (Lexer.wordOf c.program.toList) c.args
  have words : Lexer.read {} (" ".intercalate ((c.program :: c.args).map quote)).toList = ⟨ts, some w, .plain⟩ := by
    rw [texts, Lexer.read_append, ← hread]
    exact congrArg (Lexer.read · _) (Lexer.read_quoteChars [] c.program.toList)
  show (Lexer.read {} c.line.toList).finish = _
  rw [line, String.toList_append, Lexer.read_append, words, lineTokens]
  cases c.output with
  | inherit =>
    show some (ts ++ [.word w]) = _
    rw [hts, List.append_nil]
    rfl
  | append path =>
    show (Lexer.read _ (" >> " ++ quote path).toList).finish = _
    rw [String.toList_append, Lexer.read_append, Lexer.read_append_operator, toList_quote, Lexer.read_quoteChars]
    show some (ts ++ [.word w] ++ [.operator ">>"] ++ [.word _]) = _
    rw [hts, List.append_assoc]
    rfl

theorem lexemes?_line : lexemes? c.line = some c.lexemes := by
  have output : (match c.output with
      | .inherit => []
      | .append path => [Token.operator ">>", .word (Lexer.wordOf path.toList)]).mapM Token.lexeme? =
        some c.output.lexemes := by
    cases c.output with
    | inherit => rfl
    | append path =>
      rw [List.mapM_cons, List.mapM_cons, lexeme?_wordOf]
      rfl
  rw [lexemes?, tokens_line, Option.bind_some, lineTokens, List.mapM_append, mapM_lexeme?_words, output]
  rfl

/-- Words before an output tell where the output begins. -/
theorem words_append_inj {words words' : List String} {o o' : Output}
    (h : words.map Lexeme.word ++ o.lexemes = words'.map .word ++ o'.lexemes) : words = words' ∧ o = o' := by
  induction words generalizing words' with
  | nil =>
    cases words' with
    | nil => cases o <;> cases o' <;> simp_all [Output.lexemes]
    | cons => cases o <;> simp [Output.lexemes] at h
  | cons text rest ih =>
    cases words' with
    | nil => cases o' <;> simp [Output.lexemes] at h
    | cons text' rest' =>
      simp only [List.map_cons, List.cons_append, List.cons.injEq, Lexeme.word.injEq] at h
      obtain ⟨rfl, h⟩ := h
      obtain ⟨rfl, rfl⟩ := ih h
      exact ⟨rfl, rfl⟩

/-- A shell takes a printed command apart into the program, the arguments and, if the output
    is appended to a log, the operator for that and the path, whatever the texts are. So two
    commands are printed alike only if they run the same program with the same arguments
    and send the output to the same place. -/
theorem line_splits : lexemes? c.line = some ((c.program :: c.args).map .word ++
      match c.output with
      | .inherit => []
      | .append path => [.operator ">>", .word path]) ∧
    ∀ c' : Command, c'.line = c.line ↔ c'.program = c.program ∧ c'.args = c.args ∧ c'.output = c.output := by
  refine ⟨?_, fun c' => ⟨fun same => ?_, ?_⟩⟩
  · rw [lexemes?_line, lexemes]
    cases c.output <;> rfl
  · have h := c'.lexemes?_line
    rw [same, c.lexemes?_line] at h
    obtain ⟨words, output⟩ := words_append_inj (Option.some.inj h)
    obtain ⟨program, args⟩ := List.cons.inj words
    exact ⟨program.symm, args.symm, output.symm⟩
  · rintro ⟨program, args, output⟩
    rw [line, line, program, args, output]

/-- An argument that is spelled like the operator, an empty one and one with a quote inside. -/
example : (Command.mk .client 0 "run" [">>", "", "it's"] (.append "a b")).line =
    "run '>>' '' 'it'\\''s' >> 'a b'" := by
  decide +kernel

end Command

end Fleet
