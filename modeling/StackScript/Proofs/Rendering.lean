import StackScript.Op

/-!
Lines written from words and literals, and read again. Whatever is written with a blank between
neighbours is read as it was; and reading yields nothing but words and literals, on every line.
-/
namespace StackScript
namespace Lexeme

structure IsWord (text : List Char) : Prop where
  nonempty : text ≠ []
  unblank : ∀ c ∈ text, Text.isBlank c = false
  unquoted : ∀ c ∈ text, isQuote c = false
  plain : ¬['/', '/'] <:+: text

inductive Piece where
  | word (text : String) (proper : IsWord text.toList)
  | literal (quote : Char) (quotes : isQuote quote = true) (inside : String)

def escape (quote c : Char) : List Char :=
  if c = '\\' ∨ c = quote then ['\\', c]
  else if c = '\n' then ['\\', 'n']
  else if c = '\t' then ['\\', 't']
  else [c]

namespace Piece

def written : Piece → List Char
  | word text _ => text.toList
  | literal quote _ inside => quote :: inside.toList.flatMap (escape quote) ++ [quote]

def text : Piece → String
  | word text _ => text
  | literal quote _ inside => String.ofList (quote :: inside.toList ++ [quote])

end Piece

/-- Lines that hold the pieces in order: what follows a piece begins with a blank, if there is
anything, and behind the last one there may be a comment. -/
inductive Writes : List Piece → List Char → Prop where
  | ends {gap : List Char} (blank : ∀ c ∈ gap, Text.isBlank c = true) : Writes [] gap
  | comment {gap : List Char} (blank : ∀ c ∈ gap, Text.isBlank c = true) (rest : List Char) :
      Writes [] (gap ++ '/' :: '/' :: rest)
  | piece {gap rest : List Char} {pieces : List Piece}
      (blank : ∀ c ∈ gap, Text.isBlank c = true) (piece : Piece)
      (apart : ∀ c ∈ rest.head?, Text.isBlank c = true) (later : Writes pieces rest) :
      Writes (piece :: pieces) (gap ++ (piece.written ++ rest))

theorem quote_cases {quote : Char} (quotes : isQuote quote = true) : quote = '"' ∨ quote = '\'' := by
  simpa [isQuote] using quotes

theorem quote_unblank {quote : Char} (quotes : isQuote quote = true) :
    Text.isBlank quote = false := by
  rcases quote_cases quotes with rfl | rfl <;> decide

theorem slash_unblank : Text.isBlank '/' = false := by decide

theorem quote_no_comment {quote : Char} (quotes : isQuote quote = true) (rest : List Char) :
    atComment (quote :: rest) = false := by
  rcases quote_cases quotes with rfl | rfl <;> rfl

theorem atComment_iff (cs : List Char) : atComment cs = true ↔ ∃ rest, cs = '/' :: '/' :: rest := by
  constructor
  · intro comment
    unfold atComment at comment
    split at comment
    · exact ⟨_, rfl⟩
    · cases comment
  · rintro ⟨rest, rfl⟩
    rfl

theorem word_goes_on {c : Char} {cs : List Char} (unblank : Text.isBlank c = false)
    (unquoted : isQuote c = false) (plain : atComment (c :: cs) = false) :
    endsWord (c :: cs) = false := by
  simp only [endsWord, unblank, unquoted, plain, Bool.or_self]

/-- No slash stands before another within a word, and no blank is one. -/
theorem no_comment_of_plain {c : Char} {cs rest : List Char} (plain : ¬['/', '/'] <:+: c :: cs)
    (apart : ∀ d ∈ rest.head?, Text.isBlank d = true) : atComment (c :: (cs ++ rest)) = false := by
  cases comment : atComment (c :: (cs ++ rest)) with
  | false => rfl
  | true =>
    obtain ⟨after, same⟩ := (atComment_iff _).mp comment
    cases cs with
    | nil =>
      obtain ⟨rfl, rfl⟩ := List.cons.inj same
      have blank := apart '/' rfl
      rw [slash_unblank] at blank
      cases blank
    | cons d cs =>
      obtain ⟨rfl, second⟩ := List.cons.inj same
      obtain ⟨rfl, -⟩ := List.cons.inj second
      exact absurd ⟨[], cs, rfl⟩ plain

theorem splitWord_append (word rest : List Char) (unblank : ∀ c ∈ word, Text.isBlank c = false)
    (unquoted : ∀ c ∈ word, isQuote c = false) (plain : ¬['/', '/'] <:+: word)
    (apart : ∀ c ∈ rest.head?, Text.isBlank c = true) :
    splitWord (word ++ rest) = (word, rest) := by
  induction word with
  | nil =>
    cases rest with
    | nil => rfl
    | cons c rest =>
      have ends : endsWord (c :: rest) = true := by simp [endsWord, apart c rfl]
      simp only [List.nil_append, splitWord, ends, ↓reduceIte]
  | cons c word ih =>
    have shorter : ¬['/', '/'] <:+: word := by
      intro inside
      exact plain (inside.trans (List.suffix_cons c word).isInfix)
    have goesOn : endsWord (c :: (word ++ rest)) = false :=
      word_goes_on (unblank c (List.mem_cons_self ..)) (unquoted c (List.mem_cons_self ..))
        (no_comment_of_plain plain apart)
    have later := ih (fun d member => unblank d (List.mem_cons_of_mem c member))
      (fun d member => unquoted d (List.mem_cons_of_mem c member)) shorter
    simp only [List.cons_append, splitWord, goesOn, later, Bool.false_eq_true, ↓reduceIte]

theorem splitLiteral_escape {quote : Char} (quotes : isQuote quote = true) (c : Char)
    (cs : List Char) : splitLiteral quote (escape quote c ++ cs) =
      (c :: (splitLiteral quote cs).1, (splitLiteral quote cs).2.1 + (escape quote c).length,
        (splitLiteral quote cs).2.2) := by
  have same : unescape quote = quote := by rcases quote_cases quotes with rfl | rfl <;> rfl
  unfold escape
  split
  · rename_i special
    have kept : unescape c = c := by
      rcases special with rfl | rfl
      · rfl
      · exact same
    simp only [List.cons_append, List.nil_append, splitLiteral, kept]
    rfl
  · rename_i special
    have ordinary : c ≠ quote := fun equal => special (.inr equal)
    split
    · rename_i newline
      subst newline
      rfl
    · split
      · rename_i tab
        subst tab
        rfl
      · rw [List.singleton_append, splitLiteral]
        · rw [if_neg ordinary]
          rfl
        · intro d rest backslash
          exact absurd (.inl backslash) special

theorem splitLiteral_written {quote : Char} (quotes : isQuote quote = true)
    (inside rest : List Char) :
    splitLiteral quote (inside.flatMap (escape quote) ++ quote :: rest) =
      (inside, (inside.flatMap (escape quote)).length + 1, rest) := by
  induction inside with
  | nil =>
    rcases quote_cases quotes with rfl | rfl <;> rfl
  | cons c inside ih =>
    rw [List.flatMap_cons, List.append_assoc, splitLiteral_escape quotes, ih, List.length_append]
    simp only [Prod.mk.injEq, true_and, and_true]
    omega

theorem scanFrom_gap {gap : List Char} (blank : ∀ c ∈ gap, Text.isBlank c = true) (column : Nat)
    (cs : List Char) : scanFrom column (gap ++ cs) = scanFrom (column + gap.length) cs := by
  induction gap generalizing column with
  | nil => rfl
  | cons c gap ih =>
    have first : Text.isBlank c = true := blank c (List.mem_cons_self ..)
    have later := ih (fun d member => blank d (List.mem_cons_of_mem c member)) (column + 1)
    rw [List.cons_append, scanFrom, if_pos first, later, List.length_cons, Nat.add_assoc,
      Nat.add_comm 1]

theorem scanFrom_comment (column : Nat) (rest : List Char) :
    scanFrom column ('/' :: '/' :: rest) = [] := by
  rw [scanFrom, if_neg (by decide), if_pos ((atComment_iff _).mpr ⟨rest, rfl⟩)]

theorem scanFrom_literal {quote : Char} (quotes : isQuote quote = true) (column : Nat)
    (rest : List Char) : scanFrom column (quote :: rest) =
      ⟨⟨column, column + 1 + (splitLiteral quote rest).2.1⟩,
        String.ofList (quote :: (splitLiteral quote rest).1 ++ [quote])⟩ ::
      scanFrom (column + 1 + (splitLiteral quote rest).2.1) (splitLiteral quote rest).2.2 := by
  rw [scanFrom, if_neg (by rw [quote_unblank quotes]; decide),
    if_neg (by rw [quote_no_comment quotes]; decide), if_pos quotes]

theorem scanFrom_word {c : Char} {rest : List Char} (goesOn : endsWord (c :: rest) = false)
    (column : Nat) : scanFrom column (c :: rest) =
      ⟨⟨column, column + (splitWord (c :: rest)).1.length⟩,
        String.ofList (splitWord (c :: rest)).1⟩ ::
      scanFrom (column + (splitWord (c :: rest)).1.length) (splitWord (c :: rest)).2 := by
  simp only [endsWord, Bool.or_eq_false_iff] at goesOn
  obtain ⟨⟨unblank, unquoted⟩, plain⟩ := goesOn
  have split : splitWord (c :: rest) = (c :: (splitWord rest).1, (splitWord rest).2) := by
    rw [splitWord, if_neg (by rw [word_goes_on unblank unquoted plain]; decide)]
  rw [scanFrom, if_neg (by rw [unblank]; decide), if_neg (by rw [plain]; decide),
    if_neg (by rw [unquoted]; decide), split, List.length_cons]
  simp only [Nat.add_assoc, Nat.add_comm 1]

theorem scanFrom_piece (piece : Piece) (column : Nat) {rest : List Char}
    (apart : ∀ c ∈ rest.head?, Text.isBlank c = true) :
    scanFrom column (piece.written ++ rest) =
      ⟨⟨column, column + piece.written.length⟩, piece.text⟩ ::
        scanFrom (column + piece.written.length) rest := by
  cases piece with
  | word text proper =>
    obtain ⟨c, cs, same⟩ := List.exists_cons_of_ne_nil proper.nonempty
    have split := splitWord_append text.toList rest proper.unblank proper.unquoted proper.plain apart
    have first : c ∈ text.toList := same ▸ List.mem_cons_self ..
    have goesOn : endsWord (c :: (cs ++ rest)) = false :=
      word_goes_on (proper.unblank c first) (proper.unquoted c first)
        (no_comment_of_plain (same ▸ proper.plain) apart)
    simp only [Piece.written, Piece.text]
    rw [same, List.cons_append] at split ⊢
    rw [scanFrom_word goesOn, split, ← same, String.ofList_toList]
  | literal quote quotes inside =>
    have width : ∀ size : Nat, column + 1 + (size + 1) = column + (size + 1 + 1) := by
      intro size
      omega
    simp only [Piece.written, Piece.text, List.cons_append, List.append_assoc, List.nil_append]
    rw [scanFrom_literal quotes, splitLiteral_written quotes]
    simp only [List.length_cons, List.length_append, List.length_nil, List.cons_append, width]

theorem scan_writes {pieces : List Piece} {line : List Char} (writes : Writes pieces line)
    (column : Nat) : (scanFrom column line).map Lexeme.text = pieces.map Piece.text := by
  induction writes generalizing column with
  | ends blank =>
    rename_i gap
    have skipped := scanFrom_gap blank column []
    rw [List.append_nil] at skipped
    rw [skipped, scanFrom]
    rfl
  | comment blank rest =>
    rw [scanFrom_gap blank, scanFrom_comment]
    rfl
  | piece blank piece apart later ih =>
    rw [scanFrom_gap blank, scanFrom_piece piece _ apart, List.map_cons, ih, List.map_cons]

theorem splitWord_join (cs : List Char) : (splitWord cs).1 ++ (splitWord cs).2 = cs := by
  fun_induction splitWord cs with
  | case1 => rfl
  | case2 c cs ends => rfl
  | case3 c cs goesOn word rest split ih =>
    rw [split] at ih
    exact congrArg (c :: ·) ih

/-- What is read as a word can be written as one. -/
theorem splitWord_proper (cs : List Char) :
    (∀ c ∈ (splitWord cs).1, Text.isBlank c = false ∧ isQuote c = false) ∧
      ¬['/', '/'] <:+: (splitWord cs).1 := by
  fun_induction splitWord cs with
  | case1 => simp
  | case2 c cs ends => simp
  | case3 c cs goesOn word rest split ih =>
    have join := splitWord_join cs
    rw [split] at ih join
    obtain ⟨proper, plain⟩ := ih
    simp only [endsWord, Bool.or_eq_true, not_or, Bool.not_eq_true] at goesOn
    obtain ⟨⟨unblank, unquoted⟩, noComment⟩ := goesOn
    constructor
    · intro d member
      rcases List.mem_cons.mp member with rfl | later
      · exact ⟨unblank, unquoted⟩
      · exact proper d later
    · intro inside
      rcases List.infix_cons_iff.mp inside with ⟨more, starts⟩ | later
      · -- two slashes in the word would be two slashes in the line, which end a word
        obtain ⟨rfl, same⟩ := List.cons.inj starts
        rw [← join, ← same] at noComment
        cases noComment
      · exact plain later

theorem splitWord_isWord {c : Char} {rest : List Char} (goesOn : endsWord (c :: rest) = false) :
    IsWord (splitWord (c :: rest)).1 := by
  obtain ⟨proper, plain⟩ := splitWord_proper (c :: rest)
  refine ⟨?_, fun d member => (proper d member).1, fun d member => (proper d member).2, plain⟩
  simp [splitWord, goesOn]

theorem scanFrom_pieces (column : Nat) (cs : List Char) :
    ∀ lexeme ∈ scanFrom column cs, ∃ piece : Piece, lexeme.text = piece.text := by
  fun_induction scanFrom column cs with
  | case1 column => simp
  | case2 column c rest blank ih => exact ih
  | case3 column c rest unblank comment => simp
  | case4 column c rest unblank plain quotes inside size after split ih =>
    intro lexeme member
    rcases List.mem_cons.mp member with rfl | later
    · exact ⟨.literal c quotes (String.ofList inside), by rw [Piece.text, String.toList_ofList]⟩
    · exact ih lexeme later
  | case5 column c rest unblank plain unquoted word after split ih =>
    intro lexeme member
    rcases List.mem_cons.mp member with rfl | later
    · simp only [Bool.not_eq_true] at unblank plain unquoted
      have goesOn := word_goes_on unblank unquoted plain
      have proper := splitWord_isWord goesOn
      rw [splitWord, if_neg (by rw [goesOn]; decide), split] at proper
      exact ⟨.word (String.ofList (c :: word)) (by rwa [String.toList_ofList]), rfl⟩
    · exact ih lexeme later

theorem literal_text {quote : Char} (quotes : isQuote quote = true) (inside : List Char) :
    literal? (String.ofList (quote :: inside ++ [quote])) = some (String.ofList inside) := by
  obtain ⟨second, rest, more⟩ := List.exists_cons_of_ne_nil (List.append_ne_nil_of_right_ne_nil inside
    (List.cons_ne_nil quote []))
  unfold literal?
  rw [String.toList_ofList, List.cons_append, more]
  simp only [quotes, ← more, List.getLast?_concat, List.dropLast_concat, BEq.rfl, Bool.and_self,
    ↓reduceIte]

theorem keyword_unquoted (op : Op) (keyword : op ∈ Op.keywords) :
    (op.text.toList.head?.map isQuote).getD false = false := by
  revert op
  decide +kernel

theorem ofKeyword_literal {quote : Char} (quotes : isQuote quote = true) (inside : List Char) :
    Op.ofKeyword? (String.ofList (quote :: inside ++ [quote])) = none := by
  rw [Op.ofKeyword?, List.find?_eq_none]
  intro op keyword same
  have starts : op.text.toList.head? = some quote := by
    rw [eq_of_beq same, String.toList_ofList]
    rfl
  have unquoted := keyword_unquoted op keyword
  rw [starts] at unquoted
  cases quotes.symm.trans unquoted

theorem trim_literal {quote : Char} (quotes : isQuote quote = true) (inside : List Char) :
    Text.trim (quote :: inside ++ [quote]) = quote :: inside ++ [quote] := by
  have unblank := quote_unblank quotes
  simp [Text.trim, unblank]

theorem ofChars_quote {quote : Char} (quotes : isQuote quote = true) (rest : List Char) :
    Numeral.ofChars? (quote :: rest) = none := by
  rcases quote_cases quotes with rfl | rfl <;> rfl

theorem ofWord_literal {quote : Char} (quotes : isQuote quote = true) (inside : List Char) :
    Op.ofWord (String.ofList (quote :: inside ++ [quote])) =
      .push (.string (String.ofList inside)) := by
  have number : readNumber? (String.ofList (quote :: inside ++ [quote])) = none := by
    rw [readNumber?, String.toList_ofList, trim_literal quotes, List.cons_append,
      ofChars_quote quotes]
    rfl
  rw [Op.ofWord, ofKeyword_literal quotes, number, literal_text quotes]

theorem ofWord_number {text : String} {value : Float} (reads : readNumber? text = some value) :
    Op.ofWord text = .push (.number value) := by
  have keyword : Op.ofKeyword? text = none := by
    rw [Op.ofKeyword?, List.find?_eq_none]
    intro op keyword same
    have unread : ∀ op ∈ Op.keywords, readNumber? op.text = none := by decide +kernel
    have none := unread op keyword
    rw [eq_of_beq same, reads] at none
    cases none
  rw [Op.ofWord, keyword, reads]

/-- A line in which words and literals are written is read as just these, the operation of a literal
pushes its text, and there is nothing else to read in any line. -/
theorem scan_undoes_writing :
    (∀ pieces line, Writes pieces line →
      (scan (String.ofList line)).map Lexeme.text = pieces.map Piece.text) ∧
      (∀ quote quotes inside,
        Op.ofWord (Piece.literal quote quotes inside).text = .push (.string inside)) ∧
      ∀ line, ∀ lexeme ∈ scan line, ∃ piece : Piece, lexeme.text = piece.text := by
  refine ⟨?_, ?_, ?_⟩
  · intro pieces line writes
    rw [scan, String.toList_ofList]
    exact scan_writes writes 0
  · intro quote quotes inside
    rw [Piece.text, ofWord_literal quotes, String.ofList_toList]
  · intro line
    exact scanFrom_pieces 0 line.toList

theorem isWord_slash : IsWord "a/b".toList where
  nonempty := by decide
  unblank := by simp; decide
  unquoted := by simp; decide
  plain := by decide

/-- A word with a slash in it and a literal with quotes and a line feed, before a comment. -/
theorem scan_undoes_writing_comment :
    let pieces : List Piece := [.word "a/b" isWord_slash, .literal '"' rfl "say \"hi\"\n"]
    let line := "a/b\t\"say \\\"hi\\\"\\n\" // greets".toList
    Writes pieces line ∧
      (scan (String.ofList line)).map Lexeme.text = ["a/b", "\"say \"hi\"\n\""] := by
  intro pieces line
  have last := @Writes.comment [' '] (by simp; decide) " greets".toList
  have later := @Writes.piece ['\t'] _ _ (by simp; decide) (.literal '"' rfl "say \"hi\"\n")
    (by simp; decide) last
  have first := @Writes.piece [] _ _ nofun (.word "a/b" isWord_slash) (by simp; decide) later
  have writes : Writes pieces line := Eq.mp (congrArg (Writes pieces) (by decide +kernel)) first
  exact ⟨writes, scan_undoes_writing.1 pieces line writes⟩

end Lexeme
end StackScript
