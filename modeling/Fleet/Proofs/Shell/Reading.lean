/-
  Fleet.Proofs.Shell.Reading — what a shell makes of a line by the word it begins with.

  The reader of a script goes down from a list of commands to one command (`list`,
  `chained`, `pipeline`, `command`), and on the way it asks of the first word only whether
  it is a keyword. There are two answers, each with a lemma for every level.

  No keyword: the words are taken as they stand, and if nothing else is on the line it is
  one plain command (`parse_word`). Its first words set variables where they are names with
  values (`Script.ofWords`); for a word without quotes that is `assignment?_bare_iff`, and
  a word that begins with a quote never is one (`assignment?_quotes`).

  A keyword: whatever the line is, it is built from other commands (`not_simple_of_parse`).
  The one exception is an opening brace, behind which a plain command may be all there is.
-/

import Fleet.Shell.Script
import Mathlib.Data.List.TakeWhile

namespace Fleet.Shell.Script

/-! ## Plain commands -/

theorem wordsAndRedirects_words (words : List Word) (m : Nat) (tail : List Token) :
    wordsAndRedirects (words.length + m) (words.map .word ++ tail) =
      ((words ++ (wordsAndRedirects m tail).1.1, (wordsAndRedirects m tail).1.2), (wordsAndRedirects m tail).2) := by
  induction words with
  | nil => simp
  | cons w rest ih =>
    rw [List.length_cons, Nat.add_right_comm, List.map_cons, List.cons_append, List.cons_append]
    show ((w :: (wordsAndRedirects (rest.length + m) (rest.map .word ++ tail)).1.1, _), _) = _
    rw [ih]

theorem wordsAndRedirects_nil (m : Nat) : wordsAndRedirects m [] = (([], []), []) := by
  cases m <;> rfl

theorem wordsAndRedirects_append (m : Nat) (target : Word) :
    wordsAndRedirects (m + 1) [.operator ">>", .word target] = (([], [⟨1, .append, target⟩]), []) := by
  simp only [wordsAndRedirects, redirect?, redirectKind?, Option.map_some, wordsAndRedirects_nil]

theorem isKeyword_iff {t : Token} : t.isKeyword = true ↔ ∃ text ∈ keywords, t.bare? = some text := by
  rw [Token.isKeyword, Option.any_eq_true]
  simp only [List.contains_iff_mem]
  exact exists_congr fun text => And.comm

theorem command_word (n : Nat) {w : Word} (free : (Token.word w).isKeyword = false) (rest : List Token) :
    command (n + 1) (.word w :: rest) =
      match wordsAndRedirects n (.word w :: rest) with
      | (([], []), _) => none
      | ((words, rs), rest) => some (ofWords words rs, rest) := by
  have opens (text : String) (h : text ∈ keywords) : (Token.word w).bare? ≠ some text := by
    intro bare
    rw [isKeyword_iff.mpr ⟨text, h, bare⟩] at free
    cases free
  unfold command
  dsimp only
  rw [if_neg nofun]
  -- One case for each word that opens a compound command; the last is that it is none of them.
  split
  case h_7 => rw [free]; rfl
  all_goals
    rename_i bare
    exact absurd bare (opens _ (by decide))

theorem expect_word {keyword : String} {w : Word} (h : (Token.word w).bare? ≠ some keyword) (rest : List Token) :
    expect keyword (.word w :: rest) = none := if_neg h

theorem pipeline_word (n : Nat) {w : Word} (free : (Token.word w).isKeyword = false) {rest : List Token} {s : Script}
    (read : command n (.word w :: rest) = some (s, [])) : pipeline (n + 1) (.word w :: rest) = some (s, []) := by
  have bare : (Token.word w).bare? ≠ some "!" := by
    intro bare
    rw [isKeyword_iff.mpr ⟨"!", by decide, bare⟩] at free
    cases free
  rw [pipeline, expect_word bare]
  simp only [read]
  rfl

theorem chained_of_pipeline (n : Nat) {tokens : List Token} {s : Script} (read : pipeline n tokens = some (s, [])) :
    chained (n + 1) tokens = some (s, []) := by
  rw [chained, read]
  cases n <;> rfl

theorem list_word (n : Nat) {w : Word} (free : (Token.word w).isKeyword = false) {rest : List Token} {s : Script}
    (read : chained n (.word w :: rest) = some (s, [])) : list (n + 1) (.word w :: rest) = some (s, []) := by
  rw [list]
  simp only [skipNewlines, free, read]
  simp

/-! ## Keywords -/

/-- One plain command, and nothing that is built from others. -/
def isSimple : Script → Bool
  | .simple .. => true
  | _ => false

theorem not_simple_of_choice {n : Nat} {tokens rest : List Token} {s : Script} (h : choice n tokens = some (s, rest)) :
    s.isSimple = false := by
  cases n with
  | zero => simp [choice] at h
  | succ n =>
    simp only [choice, Option.bind_eq_bind, Option.bind_eq_some_iff] at h
    obtain ⟨⟨condition, rest₁⟩, -, rest₂, -, ⟨yes, rest₃⟩, -, h⟩ := h
    split at h
    · obtain ⟨_, -, h⟩ := Option.map_eq_some_iff.mp h
      cases h
      rfl
    · obtain ⟨_, -, h⟩ := Option.bind_eq_some_iff.mp h
      obtain ⟨_, -, h⟩ := Option.bind_eq_some_iff.mp h
      cases h
      rfl
    · obtain ⟨_, -, h⟩ := Option.bind_eq_some_iff.mp h
      cases h
      rfl

theorem not_simple_of_looping {n : Nat} {wanted : Bool} {tokens rest : List Token} {s : Script}
    (h : looping n wanted tokens = some (s, rest)) : s.isSimple = false := by
  cases n with
  | zero => simp [looping] at h
  | succ n =>
    simp only [looping, Option.bind_eq_bind, Option.bind_eq_some_iff] at h
    obtain ⟨_, -, _, -, _, -, _, -, h⟩ := h
    cases h
    rfl

theorem not_simple_of_forEach {n : Nat} {tokens rest : List Token} {s : Script}
    (h : forEach n tokens = some (s, rest)) : s.isSimple = false := by
  cases n with
  | zero => simp [forEach] at h
  | succ n =>
    cases tokens with
    | nil => simp [forEach] at h
    | cons t tokens =>
      simp only [forEach, Option.bind_eq_bind, Option.bind_eq_some_iff] at h
      obtain ⟨_, -, _, -, _, -, _, -, h⟩ := h
      cases h
      rfl

theorem not_simple_of_cases {n : Nat} {subject : Word} {tokens rest : List Token} {s : Script}
    (h : cases n subject tokens = some (s, rest)) : s.isSimple = false := by
  cases n with
  | zero => simp [cases] at h
  | succ n =>
    simp only [cases] at h
    split at h
    · cases h
      rfl
    · simp only [Option.bind_eq_bind, Option.bind_eq_some_iff] at h
      obtain ⟨_, -, _, -, _, -, h⟩ := h
      cases h
      rfl

theorem not_simple_of_redirected {n : Nat} {body s : Script} {tokens rest : List Token} (hb : body.isSimple = false)
    (h : (match redirects n tokens with
      | ([], rest) => some (body, rest)
      | (rs, rest) => some (.redirected body rs, rest)) = some (s, rest)) : s.isSimple = false := by
  split at h
  · cases h
    exact hb
  · cases h
    rfl

theorem not_simple_of_chainedAfter {n : Nat} {first s : Script} {tokens rest : List Token} (hf : first.isSimple = false)
    (h : chainedAfter n first tokens = some (s, rest)) : s.isSimple = false := by
  induction n generalizing first tokens with
  | zero =>
    cases h
    exact hf
  | succ n ih =>
    rw [chainedAfter.eq_def] at h
    split at h
    case h_1 same | h_2 same =>
      cases same
      obtain ⟨_, -, h⟩ := Option.bind_eq_some_iff.mp h
      exact ih rfl h
    case h_3 =>
      cases h
      exact hf

section FirstWord

variable {n : Nat} {t : Token} {tokens rest : List Token} {s : Script}

theorem not_simple_of_command (keyword : t.isKeyword = true) (group : t.bare? ≠ some "\x7b")
    (h : command n (t :: tokens) = some (s, rest)) : s.isSimple = false := by
  cases n with
  | zero => simp [command] at h
  | succ n =>
    unfold command at h
    dsimp only at h
    split at h
    · rename_i paren
      rw [paren] at keyword
      cases keyword
    · -- In the order of the reader: a group, `if`, `while`, `until`, `for`, `case`, any other word.
      split at h
      · rename_i bare
        exact absurd bare group
      · obtain ⟨_, found, h⟩ := Option.bind_eq_some_iff.mp h
        exact not_simple_of_redirected (not_simple_of_choice found) h
      · obtain ⟨_, found, h⟩ := Option.bind_eq_some_iff.mp h
        exact not_simple_of_redirected (not_simple_of_looping found) h
      · obtain ⟨_, found, h⟩ := Option.bind_eq_some_iff.mp h
        exact not_simple_of_redirected (not_simple_of_looping found) h
      · obtain ⟨_, found, h⟩ := Option.bind_eq_some_iff.mp h
        exact not_simple_of_redirected (not_simple_of_forEach found) h
      · split at h
        · obtain ⟨_, -, h⟩ := Option.bind_eq_some_iff.mp h
          obtain ⟨_, found, h⟩ := Option.bind_eq_some_iff.mp h
          exact not_simple_of_redirected (not_simple_of_cases found) h
        · cases h
      · cases h

theorem not_simple_of_pipeline (keyword : t.isKeyword = true) (group : t.bare? ≠ some "\x7b")
    (h : pipeline n (t :: tokens) = some (s, rest)) : s.isSimple = false := by
  cases n with
  | zero => simp [pipeline] at h
  | succ n =>
    rw [pipeline] at h
    split at h
    · obtain ⟨_, -, h⟩ := Option.map_eq_some_iff.mp h
      cases h
      rfl
    · obtain ⟨⟨first, _⟩, read, h⟩ := Option.bind_eq_some_iff.mp h
      dsimp only at h
      split at h
      · obtain ⟨_, -, h⟩ := Option.map_eq_some_iff.mp h
        cases h
        rfl
      · cases h
        exact not_simple_of_command keyword group read

theorem not_simple_of_chained (keyword : t.isKeyword = true) (group : t.bare? ≠ some "\x7b")
    (h : chained n (t :: tokens) = some (s, rest)) : s.isSimple = false := by
  cases n with
  | zero => simp [chained] at h
  | succ n =>
    obtain ⟨_, read, h⟩ := Option.bind_eq_some_iff.mp h
    exact not_simple_of_chainedAfter (not_simple_of_pipeline keyword group read) h

theorem not_simple_of_list (keyword : t.isKeyword = true) (group : t.bare? ≠ some "\x7b")
    (h : list n (t :: tokens) = some (s, rest)) : s.isSimple = false := by
  cases n with
  | zero => simp [list] at h
  | succ n =>
    have begins : skipNewlines (t :: tokens) = t :: tokens := by
      cases t with
      | newline => cases keyword
      | _ => rfl
    rw [list, begins] at h
    dsimp only at h
    split at h
    · -- A keyword that only goes on with a command, such as `then`: the list is empty.
      cases h
      rfl
    · obtain ⟨⟨first, _⟩, read, h⟩ := Option.bind_eq_some_iff.mp h
      dsimp only at h
      split at h
      case h_1 | h_2 | h_3 =>
        obtain ⟨_, -, h⟩ := Option.bind_eq_some_iff.mp h
        cases h
        rfl
      case h_4 =>
        cases h
        exact not_simple_of_chained keyword group read

end FirstWord

/-! ## Whole lines -/

/-- A line that begins with a word that is no keyword and is read as words and redirections
    up to its end is one plain command. -/
theorem parse_word {text : String} {w : Word} {rest : List Token} {words : List Word} {rs : List Redirect}
    (line : tokens text.toList = some (.word w :: rest)) (free : (Token.word w).isKeyword = false)
    (read : ∀ n > rest.length, wordsAndRedirects n (.word w :: rest) = ((w :: words, rs), [])) :
    parse text = some (ofWords (w :: words) rs) := by
  have whole : list (4 * (rest.length + 1) + 8) (.word w :: rest) = some (ofWords (w :: words) rs, []) := by
    refine list_word _ free (chained_of_pipeline _ (pipeline_word _ free ?_))
    rw [command_word _ free, read _ (by omega)]
  rw [parse, line]
  show (list (4 * (rest.length + 1) + 8) (.word w :: rest)).bind _ = _
  rw [whole]
  rfl

theorem not_simple_of_parse {text : String} {t : Token} {rest : List Token} {s : Script}
    (line : tokens text.toList = some (t :: rest)) (keyword : t.isKeyword = true) (group : t.bare? ≠ some "\x7b")
    (h : parse text = some s) : s.isSimple = false := by
  rw [parse, line] at h
  change (list _ (t :: rest)).bind _ = some s at h
  obtain ⟨_, read, h⟩ := Option.bind_eq_some_iff.mp h
  split at h
  · cases h
    exact not_simple_of_list keyword group read
  · cases h

end Fleet.Shell.Script

namespace Fleet.Shell

/-! ## Assignments -/

def IsName (name : String) : Prop :=
  ∃ first rest, name.toList = first :: rest ∧ isNameStart first = true ∧ ∀ c ∈ rest, isNameChar c = true

theorem bare?_map_char (text : List Char) : Word.bare? (text.map (.char · false)) = some text := by
  induction text with
  | nil => rfl
  | cons c rest ih =>
    rw [Word.bare?] at ih ⊢
    rw [List.map_cons, List.mapM_cons, ih]
    rfl

theorem ofWords_of_none {w : Word} (h : assignment? w = none) (words : List Word) (rs : List Redirect) :
    Script.ofWords (w :: words) rs = .simple [] (w :: words) rs := by
  simp [Script.ofWords, h]

theorem ofWords_of_some {w : Word} {a : String × Word} (h : assignment? w = some a) (words : List Word)
    (rs : List Redirect) : ∃ more left, Script.ofWords (w :: words) rs = .simple (a :: more) left rs := by
  simp [Script.ofWords, h]

theorem assignment?_quotes (w : Word) : assignment? (.quotes :: w) = none := rfl

theorem isNameChar_of_start {c : Char} (h : isNameStart c = true) : isNameChar c = true := by
  simp only [isNameStart, isNameChar, decide_eq_true_eq, Char.isAlphanum, Bool.or_eq_true] at h ⊢
  exact h.imp_left Or.inl

theorem IsName.chars {name : String} (h : IsName name) : ∀ c ∈ name.toList, isNameChar c = true := by
  obtain ⟨first, rest, eq, start, tail⟩ := h
  rw [eq]
  exact List.forall_mem_cons.mpr ⟨isNameChar_of_start start, tail⟩

theorem assignment?_bare (text : List Char) : assignment? (text.map (.char · false)) =
    match text.takeWhile isNameChar, text.dropWhile isNameChar with
    | first :: rest, '=' :: value =>
      if isNameStart first then some (String.ofList (first :: rest), value.map (.char · false)) else none
    | _, _ => none := by
  rw [assignment?]
  simp only [List.takeWhile_map, List.dropWhile_map, Function.comp_def]
  cases text.takeWhile isNameChar with
  | nil => rfl
  | cons first rest =>
    cases text.dropWhile isNameChar with
    | nil => rfl
    | cons c value =>
      by_cases hc : c = '='
      · subst hc
        show (if isNameStart first then (Word.bare? ((first :: rest).map _)).map _ else none) = _
        rw [bare?_map_char]
        rfl
      · simp [hc]

/-- A word without quotes sets a variable exactly if it is a name, an equals sign, and the
    value. -/
theorem assignment?_bare_iff {text : List Char} {name : String} {value : Word} :
    assignment? (text.map (.char · false)) = some (name, value) ↔
      ∃ chars, IsName name ∧ text = name.toList ++ '=' :: chars ∧ value = chars.map (.char · false) := by
  rw [assignment?_bare]
  constructor
  · intro h
    split at h
    · rename_i first rest chars taken dropped
      split at h
      · rename_i start
        cases h
        refine ⟨chars, ⟨first, rest, String.toList_ofList, start, ?_⟩, ?_, rfl⟩
        · intro c hc
          have mem : c ∈ text.takeWhile isNameChar := by
            rw [taken]
            exact List.mem_cons_of_mem _ hc
          exact List.mem_takeWhile_imp mem
        · rw [String.toList_ofList, ← taken, ← dropped, List.takeWhile_append_dropWhile]
      · cases h
    · cases h
  · rintro ⟨chars, hname, rfl, rfl⟩
    have stops : isNameChar '=' = false := rfl
    rw [List.takeWhile_append_of_pos hname.chars, List.dropWhile_append_of_pos hname.chars,
      List.takeWhile_cons_of_neg (by simp [stops]), List.dropWhile_cons_of_neg (by simp [stops]), List.append_nil]
    obtain ⟨first, rest, eq, start, -⟩ := hname
    rw [eq]
    show (if isNameStart first then _ else _) = _
    rw [if_pos start, ← eq, String.ofList_toList]

end Fleet.Shell
