import StackScript.Program
import StackScript.Proofs.Rendering

/-!
Columns and places. The columns of the words of a line tile it but for blanks and a comment at its
end, each word's text is what its columns say, and a program has an operation and a place for every
word. Whether a quote ends a literal is said by counting backslashes, not by the scanner.
-/
namespace StackScript
namespace Lexeme

/-- Whether the character at a place is consumed by a backslash before it, which must not be
consumed itself. -/
def escapedAt (cs : List Char) : Nat → Bool
  | 0 => false
  | at' + 1 => cs[at']? == some '\\' && !escapedAt cs at'

def Frees (quote : Char) (cs : List Char) (close : Nat) : Prop :=
  cs[close]? = some quote ∧ escapedAt cs close = false

/-- What is meant by the inside of a literal. A backslash at its very end stands for itself. -/
def unescaped : List Char → List Char
  | [] => []
  | '\\' :: 'n' :: cs => '\n' :: unescaped cs
  | '\\' :: 't' :: cs => '\t' :: unescaped cs
  | '\\' :: c :: cs => c :: unescaped cs
  | c :: cs => c :: unescaped cs

def IsQuote (c : Char) : Prop :=
  c = '"' ∨ c = '\''

structure ReadsWord (chars : List Char) (lexeme : Lexeme) : Prop where
  text : lexeme.text.toList =
    (chars.drop lexeme.columns.start).take (lexeme.columns.stop - lexeme.columns.start)
  stops : ∀ c, chars[lexeme.columns.stop]? = some c →
    Text.isBlank c = true ∨ IsQuote c ∨ c = '/' ∧ chars[lexeme.columns.stop + 1]? = some '/'

/-- A literal begins with a quote and goes on to the first such quote that is free, or to the end of
the line. -/
inductive ReadsLiteral (chars : List Char) (lexeme : Lexeme) : Prop where
  | closed (quote : Char) (close : Nat) (quotes : IsQuote quote)
      (opens : chars[lexeme.columns.start]? = some quote)
      (free : Frees quote (chars.drop (lexeme.columns.start + 1)) close)
      (first : ∀ earlier < close, ¬Frees quote (chars.drop (lexeme.columns.start + 1)) earlier)
      (stop : lexeme.columns.stop = lexeme.columns.start + 1 + (close + 1))
      (text : lexeme.text.toList =
        quote :: unescaped ((chars.drop (lexeme.columns.start + 1)).take close) ++ [quote])
  | unclosed (quote : Char) (quotes : IsQuote quote)
      (opens : chars[lexeme.columns.start]? = some quote)
      (never : ∀ close, ¬Frees quote (chars.drop (lexeme.columns.start + 1)) close)
      (stop : lexeme.columns.stop = chars.length)
      (text : lexeme.text.toList =
        quote :: unescaped (chars.drop (lexeme.columns.start + 1)) ++ [quote])

structure Reads (chars : List Char) (lexeme : Lexeme) : Prop where
  word : literal? lexeme.text = none → ReadsWord chars lexeme
  literal : literal? lexeme.text ≠ none → ReadsLiteral chars lexeme

theorem unescaped_single {c : Char} {cs : List Char} (single : c = '\\' → cs = []) :
    unescaped (c :: cs) = c :: unescaped cs := by
  by_cases backslash : c = '\\'
  · rw [single backslash, backslash]
    rfl
  · rw [unescaped] <;> intros <;> contradiction

theorem unescaped_pair (c : Char) (cs : List Char) :
    unescaped ('\\' :: c :: cs) = unescape c :: unescaped cs := by
  by_cases feed : c = 'n'
  · subst feed
    rfl
  · by_cases tab : c = 't'
    · subst tab
      rfl
    · rw [unescape, if_neg feed, if_neg tab, unescaped] <;> assumption

theorem escapedAt_plain {c : Char} (plain : c ≠ '\\') (cs : List Char) (at' : Nat) :
    escapedAt (c :: cs) (at' + 1) = escapedAt cs at' := by
  induction at' with
  | zero => simp [escapedAt, plain]
  | succ at' ih => rw [escapedAt, ih, List.getElem?_cons_succ, escapedAt]

theorem escapedAt_pair (c : Char) (cs : List Char) (at' : Nat) :
    escapedAt ('\\' :: c :: cs) (at' + 2) = escapedAt cs at' := by
  induction at' with
  | zero => simp [escapedAt]
  | succ at' ih => rw [escapedAt, ih, List.getElem?_cons_succ, List.getElem?_cons_succ, escapedAt]

def FirstFree (quote : Char) (cs : List Char) : Option Nat → Prop
  | some close => Frees quote cs close ∧ ∀ earlier < close, ¬Frees quote cs earlier
  | none => ∀ close, ¬Frees quote cs close

theorem FirstFree.behind {quote : Char} {cs rest : List Char} {size : Nat} {first : Option Nat}
    (later : ∀ close, Frees quote cs (close + size) ↔ Frees quote rest close)
    (front : ∀ close < size, ¬Frees quote cs close) (found : FirstFree quote rest first) :
    FirstFree quote cs (first.map (· + size)) := by
  have moved : ∀ close, Frees quote cs close → ∃ old, close = old + size ∧ Frees quote rest old := by
    intro close free
    by_cases early : close < size
    · exact absurd free (front close early)
    · refine ⟨close - size, by omega, (later _).mp ?_⟩
      rwa [Nat.sub_add_cancel (Nat.le_of_not_lt early)]
  cases first with
  | none =>
    intro close free
    obtain ⟨old, -, there⟩ := moved close free
    exact found old there
  | some first =>
    refine ⟨(later first).mpr found.1, ?_⟩
    intro earlier less free
    obtain ⟨old, rfl, there⟩ := moved earlier free
    exact found.2 old (Nat.lt_of_add_lt_add_right less) there

theorem splitLiteral_finds {quote : Char} (quotes : isQuote quote = true) (cs : List Char) :
    ∃ first, FirstFree quote cs first ∧
      (splitLiteral quote cs).2.1 = first.elim cs.length (· + 1) ∧
      (splitLiteral quote cs).1 = unescaped (cs.take (first.getD cs.length)) := by
  have other : quote ≠ '\\' := by rcases quote_cases quotes with rfl | rfl <;> decide
  fun_induction splitLiteral quote cs with
  | case1 =>
    refine ⟨none, ?_, rfl, rfl⟩
    intro close free
    cases free.1
  | case2 c cs inside size rest split ih =>
    rw [split] at ih
    obtain ⟨first, found, width, meant⟩ := ih
    refine ⟨first.map (· + 2), found.behind ?_ ?_, ?_, ?_⟩
    · intro close
      rw [Frees, escapedAt_pair]
      rfl
    · intro close less free
      cases close with
      | zero => exact other (Option.some.inj free.1).symm
      | succ close =>
        have second : close = 0 := by omega
        rw [second] at free
        cases free.2
    · cases first <;> simpa using width
    · cases first <;> simpa [unescaped_pair] using meant
  | case3 cs =>
    refine ⟨some 0, ⟨⟨rfl, rfl⟩, ?_⟩, rfl, rfl⟩
    intro earlier less
    omega
  | case4 c cs single ordinary inside size rest split ih =>
    -- a backslash here can only be the last character
    have last : c = '\\' → cs = [] := by
      intro backslash
      cases cs with
      | nil => rfl
      | cons d cs => exact absurd rfl (single d cs backslash)
    rw [split] at ih
    obtain ⟨first, found, width, meant⟩ := ih
    refine ⟨first.map (· + 1), found.behind ?_ ?_, ?_, ?_⟩
    · intro close
      by_cases plain : c = '\\'
      · rw [last plain]
        simp [Frees]
      · rw [Frees, escapedAt_plain plain, List.getElem?_cons_succ, Frees]
    · intro close less free
      rw [Nat.lt_one_iff.mp less] at free
      exact ordinary (Option.some.inj free.1)
    · cases first <;> simpa using width
    · have taken : (c :: cs).take ((first.map (· + 1)).getD (c :: cs).length) =
          c :: cs.take (first.getD cs.length) := by
        cases first <;> rfl
      rw [taken, unescaped_single, ← meant]
      intro backslash
      rw [last backslash, List.take_nil]

inductive Tiled (chars : List Char) : Nat → List Lexeme → Prop where
  | ends {column : Nat} (past : chars.drop column = []) : Tiled chars column []
  | comment {column : Nat} (rest : List Char) (comment : chars.drop column = '/' :: '/' :: rest) :
      Tiled chars column []
  | blank {column : Nat} {lexemes : List Lexeme} {c : Char} (here : chars[column]? = some c)
      (blank : Text.isBlank c = true) (later : Tiled chars (column + 1) lexemes) :
      Tiled chars column lexemes
  | lexeme {lexemes : List Lexeme} (lexeme : Lexeme)
      (nonempty : lexeme.columns.start < lexeme.columns.stop)
      (inside : lexeme.columns.stop ≤ chars.length) (reads : Reads chars lexeme)
      (later : Tiled chars lexeme.columns.stop lexemes) :
      Tiled chars lexeme.columns.start (lexeme :: lexemes)

theorem first_of_drop {chars cs : List Char} {column : Nat} {c : Char}
    (same : chars.drop column = c :: cs) :
    chars[column]? = some c ∧ chars.drop (column + 1) = cs ∧ column + 1 + cs.length = chars.length := by
  have length : chars.length - column = cs.length + 1 := by
    rw [← List.length_drop, same, List.length_cons]
  refine ⟨?_, ?_, by omega⟩
  · rw [← List.head?_drop, same]
    rfl
  · rw [← List.tail_drop, same]
    rfl

theorem splitLiteral_rest (quote : Char) (cs : List Char) :
    (splitLiteral quote cs).2.2 = cs.drop (splitLiteral quote cs).2.1 := by
  fun_induction splitLiteral quote cs with
  | case1 => rfl
  | case2 c cs inside size rest split ih => simpa [split] using ih
  | case3 cs => rfl
  | case4 c cs single ordinary inside size rest split ih => simpa [split] using ih

theorem splitWord_ends (cs : List Char) : endsWord (splitWord cs).2 = true := by
  fun_induction splitWord cs with
  | case1 => rfl
  | case2 c cs ends => exact ends
  | case3 c cs goesOn word rest split ih => simpa [split] using ih

theorem stops_of_endsWord {cs : List Char} (ends : endsWord cs = true) {c : Char}
    (first : cs[0]? = some c) :
    Text.isBlank c = true ∨ IsQuote c ∨ c = '/' ∧ cs[1]? = some '/' := by
  cases cs with
  | nil => cases first
  | cons d cs =>
    cases first
    simp only [endsWord, Bool.or_eq_true] at ends
    rcases ends with (blank | quotes) | comment
    · exact .inl blank
    · exact .inr (.inl (quote_cases quotes))
    · obtain ⟨rest, same⟩ := (atComment_iff _).mp comment
      cases same
      exact .inr (.inr ⟨rfl, rfl⟩)

theorem reads_literal {chars rest : List Char} {column : Nat} {quote : Char}
    (quotes : isQuote quote = true) (same : chars.drop column = quote :: rest) :
    Reads chars ⟨⟨column, column + 1 + (splitLiteral quote rest).2.1⟩,
      String.ofList (quote :: (splitLiteral quote rest).1 ++ [quote])⟩ := by
  obtain ⟨opens, behind, length⟩ := first_of_drop same
  obtain ⟨first, found, width, meant⟩ := splitLiteral_finds quotes rest
  constructor
  · intro unquoted
    rw [literal_text quotes] at unquoted
    cases unquoted
  · intro quoted
    cases first with
    | some close =>
      refine .closed quote close (quote_cases quotes) opens ?_ ?_ ?_ ?_
      · exact behind ▸ found.1
      · exact behind ▸ found.2
      · exact congrArg (column + 1 + ·) width
      · rw [String.toList_ofList, meant, behind]
        rfl
    | none =>
      refine .unclosed quote (quote_cases quotes) opens ?_ ?_ ?_
      · exact behind ▸ found
      · exact (congrArg (column + 1 + ·) width).trans length
      · rw [String.toList_ofList, meant, behind, Option.getD_none, List.take_length]

theorem reads_word {chars rest : List Char} {column : Nat} {c : Char}
    (goesOn : endsWord (c :: rest) = false) (same : chars.drop column = c :: rest) :
    Reads chars ⟨⟨column, column + (splitWord (c :: rest)).1.length⟩,
      String.ofList (splitWord (c :: rest)).1⟩ := by
  have proper := splitWord_isWord goesOn
  have join := splitWord_join (c :: rest)
  have ends := splitWord_ends (c :: rest)
  generalize (splitWord (c :: rest)).1 = word, (splitWord (c :: rest)).2 = after at *
  have stop : chars.drop (column + word.length) = after := by
    rw [← List.drop_drop, same, ← join, List.drop_left]
  constructor
  · intro unquoted
    refine ⟨?_, ?_⟩
    · rw [String.toList_ofList, same, ← join, Nat.add_sub_cancel_left, List.take_left]
    · intro d here
      have first : after[0]? = some d := by
        rw [← stop, List.getElem?_drop]
        exact here
      have second : after[1]? = chars[column + word.length + 1]? := by
        rw [← stop, List.getElem?_drop]
      rw [← second]
      exact stops_of_endsWord ends first
  · intro quoted
    refine absurd ?_ quoted
    obtain ⟨d, word, rfl⟩ := List.exists_cons_of_ne_nil proper.nonempty
    have unquoted := proper.unquoted d (List.mem_cons_self ..)
    unfold literal?
    rw [String.toList_ofList]
    cases word with
    | nil => rfl
    | cons e word => simp only [unquoted, Bool.false_and, Bool.false_eq_true, ↓reduceIte]

theorem scanFrom_tiled {chars cs : List Char} {column : Nat} (same : chars.drop column = cs) :
    Tiled chars column (scanFrom column cs) := by
  fun_induction scanFrom column cs with
  | case1 column => exact .ends same
  | case2 column c rest blank ih =>
    obtain ⟨here, behind, -⟩ := first_of_drop same
    exact .blank here blank (ih behind)
  | case3 column c rest unblank comment =>
    obtain ⟨text, slashes⟩ := (atComment_iff _).mp comment
    exact .comment text (same.trans slashes)
  | case4 column c rest unblank plain quotes inside size after split ih =>
    obtain ⟨-, behind, length⟩ := first_of_drop same
    have fits := length_splitLiteral c rest
    have stop := splitLiteral_rest c rest
    have reads := reads_literal quotes same
    rw [split] at fits stop reads
    refine .lexeme _ ?_ ?_ reads (ih ?_)
    · change column < column + 1 + size
      omega
    · change column + 1 + size ≤ chars.length
      change size + after.length = rest.length at fits
      omega
    · rw [← List.drop_drop, behind]
      exact stop.symm
  | case5 column c rest unblank plain unquoted word after split ih =>
    simp only [Bool.not_eq_true] at unblank plain unquoted
    have goesOn := word_goes_on unblank unquoted plain
    obtain ⟨-, behind, length⟩ := first_of_drop same
    have fits := length_splitWord rest
    have join := splitWord_join rest
    have reads := reads_word goesOn same
    rw [splitWord, if_neg (by rw [goesOn]; decide), split] at reads
    rw [split] at fits join
    change word.length + after.length = rest.length at fits
    change word ++ after = rest at join
    have width : column + (c :: word).length = column + 1 + word.length := by
      rw [List.length_cons]
      omega
    rw [width] at reads
    refine .lexeme _ ?_ ?_ reads (ih ?_)
    · change column < column + 1 + word.length
      omega
    · change column + 1 + word.length ≤ chars.length
      omega
    · rw [← List.drop_drop, behind, ← join, List.drop_left]

def lastStop (column : Nat) (lexemes : List Lexeme) : Nat :=
  (lexemes.getLast?.map fun lexeme => lexeme.columns.stop).getD column

theorem lastStop_cons (column : Nat) (lexeme : Lexeme) (lexemes : List Lexeme) :
    lastStop column (lexeme :: lexemes) = lastStop lexeme.columns.stop lexemes := by
  cases lexemes with
  | nil => rfl
  | cons other lexemes => simp [lastStop, List.getLast?_cons]

def Covers (lexemes : List Lexeme) (place : Nat) : Prop :=
  ∃ lexeme ∈ lexemes, lexeme.columns.start ≤ place ∧ place < lexeme.columns.stop

namespace Tiled

variable {chars : List Char} {column : Nat} {lexemes : List Lexeme}

theorem inside (tiled : Tiled chars column lexemes) : ∀ lexeme ∈ lexemes,
    column ≤ lexeme.columns.start ∧ lexeme.columns.start < lexeme.columns.stop ∧
      lexeme.columns.stop ≤ chars.length ∧ Reads chars lexeme := by
  induction tiled with
  | ends | comment => simp
  | blank here blank later ih =>
    intro lexeme member
    obtain ⟨low, rest⟩ := ih lexeme member
    exact ⟨by omega, rest⟩
  | lexeme first nonempty inside reads later ih =>
    intro lexeme member
    rcases List.mem_cons.mp member with rfl | after
    · exact ⟨Nat.le_refl _, nonempty, inside, reads⟩
    · obtain ⟨low, rest⟩ := ih lexeme after
      exact ⟨by omega, rest⟩

theorem ordered (tiled : Tiled chars column lexemes) :
    lexemes.Pairwise fun earlier later => earlier.columns.stop ≤ later.columns.start := by
  induction tiled with
  | ends | comment => exact List.Pairwise.nil
  | blank here blank later ih => exact ih
  | lexeme first nonempty inside reads later ih =>
    apply List.Pairwise.cons
    · intro lexeme after
      exact (later.inside lexeme after).1
    · exact ih

theorem gaps (tiled : Tiled chars column lexemes) : ∀ place c, column ≤ place →
    place < lastStop column lexemes → ¬Covers lexemes place → chars[place]? = some c →
    Text.isBlank c = true := by
  induction tiled with
  | ends | comment =>
    intro place c low high
    exact absurd high (Nat.not_lt_of_le low)
  | @blank column lexemes d here blank later ih =>
    intro place c low high uncovered there
    by_cases first : place = column
    · subst first
      cases here.symm.trans there
      exact blank
    · cases lexemes with
      | nil => exact absurd high (Nat.not_lt_of_le low)
      | cons lexeme lexemes =>
        rw [lastStop_cons] at high ih
        exact ih place c (by omega) high uncovered there
  | lexeme first nonempty inside reads later ih =>
    intro place c low high uncovered there
    rw [lastStop_cons] at high
    refine ih place c ?_ high ?_ there
    · refine Nat.le_of_not_lt fun within => uncovered ⟨first, List.mem_cons_self .., low, within⟩
    · rintro ⟨lexeme, member, covers⟩
      exact uncovered ⟨lexeme, List.mem_cons_of_mem _ member, covers⟩

theorem behind (tiled : Tiled chars column lexemes) : ∃ gap rest,
    chars.drop (lastStop column lexemes) = gap ++ rest ∧ (∀ c ∈ gap, Text.isBlank c = true) ∧
      (rest = [] ∨ ∃ comment, rest = '/' :: '/' :: comment) := by
  induction tiled with
  | ends past => exact ⟨[], [], past, by simp, .inl rfl⟩
  | comment rest comment => exact ⟨[], _, comment, by simp, .inr ⟨rest, rfl⟩⟩
  | @blank column lexemes d here blank later ih =>
    cases lexemes with
    | nil =>
      obtain ⟨gap, rest, split, blanks, ends⟩ := ih
      obtain ⟨bound, same⟩ := List.getElem?_eq_some_iff.mp here
      refine ⟨d :: gap, rest, ?_, ?_, ends⟩
      · rw [lastStop, List.getLast?_nil, Option.map_none, Option.getD_none,
          List.drop_eq_getElem_cons bound, same]
        exact congrArg (d :: ·) split
      · intro c member
        rcases List.mem_cons.mp member with rfl | later
        · exact blank
        · exact blanks c later
    | cons lexeme lexemes =>
      rw [lastStop_cons] at ih ⊢
      exact ih
  | lexeme first nonempty inside reads later ih =>
    rw [lastStop_cons]
    exact ih

end Tiled
end Lexeme

def Lexeme.rows (lines : List String) : List (Nat × Lexeme) :=
  (lines.zipIdx 1).flatMap fun (line, row) => (Lexeme.scan line).map fun word => (row, word)

theorem Token.scanFrom_rows (source : String) (row : Nat) (lines : List String) :
    Token.scanFrom source row lines =
      ((lines.zipIdx row).flatMap fun (line, row) =>
        (Lexeme.scan line).map fun word => (row, word)).map fun (row, word) =>
          ⟨⟨source, row, word.columns⟩, word.text⟩ := by
  induction lines generalizing row with
  | nil => rfl
  | cons line lines ih =>
    rw [Token.scanFrom, ih, List.zipIdx_cons, List.flatMap_cons, List.map_append, List.map_map]
    rfl

theorem Token.scan_rows (source : String) (lines : List String) :
    Token.scan source lines =
      (Lexeme.rows lines).map fun (row, word) => ⟨⟨source, row, word.columns⟩, word.text⟩ :=
  Token.scanFrom_rows source 1 lines

namespace Program

theorem length_assemble (previous : Option Op) (tokens : List Token) :
    (assemble previous tokens).length = tokens.length := by
  induction tokens generalizing previous with
  | nil => rfl
  | cons token tokens ih => exact congrArg (· + 1) (ih _)

/-- The operation before an address of assembled code, which at the beginning is `previous`. -/
def preceding (previous : Option Op) (code : List Instruction) : Nat → Option Op
  | 0 => previous
  | address + 1 => code[address]?.map Instruction.op

theorem getElem_assemble (previous : Option Op) (tokens : List Token) (address : Nat) :
    (assemble previous tokens)[address]? = tokens[address]?.map fun token =>
      ⟨(Op.ofWord token.text).after (preceding previous (assemble previous tokens) address),
        token.place.row, token.place.columns⟩ := by
  induction tokens generalizing previous address with
  | nil => rfl
  | cons token tokens ih =>
    cases address with
    | zero => rfl
    | succ address =>
      rw [assemble, List.getElem?_cons_succ, List.getElem?_cons_succ, ih]
      cases address <;> rfl

theorem preceding_eq (program : Program) (address : Nat) :
    preceding none program.code.toList address =
      if address = 0 then none else program.op? (address - 1) := by
  cases address with
  | zero => rfl
  | succ address => simp [preceding, op?]

/-- Every address of a program is one word of its lines: its place is the word's, and its operation
is the one that the word stands for behind the operation before it. -/
theorem ofLines_words (source : String) (lines : List String) :
    (ofLines source lines).size = (Lexeme.rows lines).length ∧
      ∀ address row word, (Lexeme.rows lines)[address]? = some (row, word) →
        (ofLines source lines).location? address = some ⟨source, row, word.columns⟩ ∧
        (ofLines source lines).op? address = some ((Op.ofWord word.text).after
          (if address = 0 then none else (ofLines source lines).op? (address - 1))) := by
  have code : (ofLines source lines).code.toList = assemble none (Token.scan source lines) := rfl
  constructor
  · rw [size, ← Array.length_toList, code, length_assemble, Token.scan_rows, List.length_map]
  · intro address row word there
    have token : (Token.scan source lines)[address]? =
        some ⟨⟨source, row, word.columns⟩, word.text⟩ := by
      rw [Token.scan_rows, List.getElem?_map, there]
      rfl
    have instruction := getElem_assemble none (Token.scan source lines) address
    rw [token, ← code, preceding_eq, Array.getElem?_toList] at instruction
    constructor
    · rw [location?, instruction]
      rfl
    · rw [op?, instruction]
      rfl

end Program

/-- The columns of the words of a line are not empty, lie in the line one after the other, and leave
out nothing but blanks and a comment at the end; each word is read from its columns alone. A program
keeps the words of its lines in reading order, each with one operation and the place it stands at. -/
theorem words_tile_their_lines :
    (∀ line : String,
      let lexemes := Lexeme.scan line
      (∀ lexeme ∈ lexemes, lexeme.columns.start < lexeme.columns.stop ∧
        lexeme.columns.stop ≤ line.toList.length ∧ lexeme.Reads line.toList) ∧
      (lexemes.Pairwise fun earlier later => earlier.columns.stop ≤ later.columns.start) ∧
      (∀ place c, place < Lexeme.lastStop 0 lexemes → ¬Lexeme.Covers lexemes place →
        line.toList[place]? = some c → Text.isBlank c = true) ∧
      ∃ gap rest, line.toList.drop (Lexeme.lastStop 0 lexemes) = gap ++ rest ∧
        (∀ c ∈ gap, Text.isBlank c = true) ∧
        (rest = [] ∨ ∃ comment, rest = '/' :: '/' :: comment)) ∧
      ∀ source lines,
        (Program.ofLines source lines).size = (Lexeme.rows lines).length ∧
          ∀ address row word, (Lexeme.rows lines)[address]? = some (row, word) →
            (Program.ofLines source lines).location? address = some ⟨source, row, word.columns⟩ ∧
            (Program.ofLines source lines).op? address = some ((Op.ofWord word.text).after
              (if address = 0 then none else (Program.ofLines source lines).op? (address - 1))) := by
  constructor
  · intro line
    have tiled : Lexeme.Tiled line.toList 0 (Lexeme.scan line) :=
      Lexeme.scanFrom_tiled (List.drop_zero ..)
    refine ⟨?_, tiled.ordered, ?_, tiled.behind⟩
    · intro lexeme member
      exact (tiled.inside lexeme member).2
    · intro place c high uncovered there
      exact tiled.gaps place c (Nat.zero_le _) high uncovered there
  · intro source lines
    exact Program.ofLines_words source lines

/-- The backslash at the end of the line is a part of the literal before it. -/
theorem words_tile_their_lines_unclosed :
    let line := "a 'b\\"
    Lexeme.scan line = [⟨⟨0, 1⟩, "a"⟩, ⟨⟨2, 5⟩, "'b\\'"⟩] ∧
      (∀ lexeme ∈ Lexeme.scan line, lexeme.columns.stop ≤ 5 ∧ lexeme.Reads line.toList) ∧
      (Program.ofLines "t" ["", line]).location? 1 = some ⟨"t", 2, ⟨2, 5⟩⟩ := by
  intro line
  have scanned : Lexeme.scan line = [⟨⟨0, 1⟩, "a"⟩, ⟨⟨2, 5⟩, "'b\\'"⟩] := by decide +kernel
  have length : line.toList.length = 5 := by decide +kernel
  obtain ⟨inside, -⟩ := words_tile_their_lines.1 line
  rw [length] at inside
  refine ⟨scanned, ?_, ?_⟩
  · intro lexeme member
    exact (inside lexeme member).2
  · have second : (Lexeme.rows ["", line])[1]? = some (2, ⟨⟨2, 5⟩, "'b\\'"⟩) := by decide +kernel
    exact ((words_tile_their_lines.2 "t" ["", line]).2 1 2 _ second).1

end StackScript
