import StackScript.Proofs.Columns
import StackScript.Proofs.Segments

/-!
Texts in which words and literals are written one after the other, with blanks and line breaks
between them, and the program that is read from such a text. Where a token stands is told by counting
the characters before it, not by the scanner.
-/
namespace StackScript
namespace Lexeme

/-- What can be written for a token. Inside its quotes a literal may hold anything but a line break and
a quote that would end it. -/
inductive Spells : List Char → String → Prop where
  | word {text : String} (proper : IsWord text.toList) : Spells text.toList text
  | literal {quote : Char} {raw : List Char} (quotes : isQuote quote = true)
      (closed : FirstFree quote (raw ++ [quote]) (some raw.length)) (oneLine : '\n' ∉ raw) :
      Spells (quote :: raw ++ [quote]) (String.ofList (quote :: unescaped raw ++ [quote]))

theorem escapedAt_append (cs rest : List Char) {at' : Nat} (within : at' ≤ cs.length) :
    escapedAt (cs ++ rest) at' = escapedAt cs at' := by
  induction at' with
  | zero => rfl
  | succ at' ih =>
    rw [escapedAt, escapedAt, ih (Nat.le_of_succ_le within), List.getElem?_append_left within]

theorem frees_append {quote : Char} (cs rest : List Char) {close : Nat} (within : close < cs.length) :
    Frees quote (cs ++ rest) close ↔ Frees quote cs close := by
  unfold Frees
  rw [escapedAt_append cs rest (Nat.le_of_lt within), List.getElem?_append_left within]

theorem splitLiteral_closed {quote : Char} {raw : List Char} (quotes : isQuote quote = true)
    (closed : FirstFree quote (raw ++ [quote]) (some raw.length)) (rest : List Char) :
    splitLiteral quote (raw ++ quote :: rest) = (unescaped raw, raw.length + 1, rest) := by
  have whole : raw ++ quote :: rest = raw ++ [quote] ++ rest := by simp
  have length : (raw ++ [quote]).length = raw.length + 1 := List.length_append
  have inside : ∀ close ≤ raw.length, Frees quote (raw ++ quote :: rest) close ↔
      Frees quote (raw ++ [quote]) close := by
    intro close within
    rw [whole]
    exact frees_append _ rest (by omega)
  obtain ⟨first, found, width, meant⟩ := splitLiteral_finds quotes (raw ++ quote :: rest)
  have last : first = some raw.length := by
    have free := (inside raw.length (Nat.le_refl _)).mpr closed.1
    cases first with
    | none => exact absurd free (found raw.length)
    | some first =>
      rcases Nat.lt_trichotomy first raw.length with less | same | more
      · exact absurd ((inside first (Nat.le_of_lt less)).mp found.1) (closed.2 first less)
      · rw [same]
      · exact absurd free (found.2 raw.length more)
  have after := splitLiteral_rest quote (raw ++ quote :: rest)
  rw [last] at width meant
  rw [width, Option.elim_some, whole, ← length, List.drop_left] at after
  rw [Option.getD_some, List.take_left] at meant
  exact Prod.ext meant (Prod.ext width (whole ▸ after))

/-- A carriage return at the end of a line is not the end of a token. -/
theorem Spells.keeps_return {written : List Char} {text : String} (spells : Spells written text)
    (line : List Char) : Text.dropReturn (written.reverse ++ line) = written.reverse ++ line := by
  obtain ⟨c, front, rfl, unblank⟩ : ∃ c front, written = front ++ [c] ∧ Text.isBlank c = false := by
    cases spells with
    | word proper =>
      have last := List.getLast_mem proper.nonempty
      exact ⟨_, _, (List.dropLast_concat_getLast proper.nonempty).symm, proper.unblank _ last⟩
    | literal quotes => exact ⟨_, _, rfl, quote_unblank quotes⟩
  rw [List.reverse_concat, List.cons_append]
  unfold Text.dropReturn
  split
  · rename_i same
    obtain ⟨rfl, -⟩ := List.cons.inj same
    cases unblank
  · rfl

theorem Spells.oneLine {written : List Char} {text : String} (spells : Spells written text) :
    ∀ c ∈ written, c ≠ '\n' := by
  rintro c member rfl
  cases spells with
  | word proper => exact absurd (proper.unblank _ member) (by decide)
  | @literal quote raw quotes closed oneLine =>
    have other : '\n' ≠ quote := by
      rcases quote_cases quotes with rfl | rfl <;> decide
    simp [oneLine, other] at member

theorem scanFrom_spells {written rest : List Char} {text : String} (spells : Spells written text)
    (apart : ∀ c ∈ rest.head?, Text.isBlank c = true) (column : Nat) :
    scanFrom column (written ++ rest) =
      ⟨⟨column, column + written.length⟩, text⟩ :: scanFrom (column + written.length) rest := by
  cases spells with
  | word proper => exact scanFrom_piece (.word text proper) column apart
  | @literal quote raw quotes closed oneLine =>
    have split := splitLiteral_closed quotes closed rest
    have width : column + (quote :: raw ++ [quote]).length = column + 1 + (raw.length + 1) := by
      simp only [List.length_append, List.length_cons, List.length_nil]
      omega
    rw [width, List.cons_append, List.cons_append, List.append_assoc, List.singleton_append,
      scanFrom_literal quotes, split]

end Lexeme

/-- Text in which just these tokens are written, from a row and a column on. Each is followed by a
blank or by a line break, if by anything. -/
inductive Token.Writes (source : String) : Nat → Nat → List Token → List Char → Prop where
  | ends (row column : Nat) : Writes source row column [] []
  | newline {row column : Nat} {tokens : List Token} {cs : List Char}
      (later : Writes source (row + 1) 0 tokens cs) :
      Writes source row column tokens ('\n' :: cs)
  | blank {row column : Nat} {tokens : List Token} {c : Char} {cs : List Char}
      (blank : Text.isBlank c = true) (inline : c ≠ '\n')
      (later : Writes source row (column + 1) tokens cs) : Writes source row column tokens (c :: cs)
  | token {row column : Nat} {tokens : List Token} {written rest : List Char} {text : String}
      (spells : Lexeme.Spells written text) (apart : ∀ c ∈ rest.head?, Text.isBlank c = true)
      (later : Writes source row (column + written.length) tokens rest) :
      Writes source row column
        (⟨⟨source, row, ⟨column, column + written.length⟩⟩, text⟩ :: tokens) (written ++ rest)

namespace Text

theorem linesFrom_append (line written rest : List Char) (oneLine : ∀ c ∈ written, c ≠ '\n') :
    linesFrom line (written ++ rest) = linesFrom (written.reverse ++ line) rest := by
  induction written generalizing line with
  | nil => rfl
  | cons c written ih =>
    obtain ⟨first, others⟩ := List.forall_mem_cons.mp oneLine
    rw [List.cons_append, linesFrom, if_neg first, ih (c :: line) others, List.reverse_cons,
      List.append_assoc, List.singleton_append]

end Text

namespace Lexeme

/-- The words of the line so far, which is given back to front, whatever part of `cs` it goes on with. -/
structure Begins (line : List Char) (words : List Lexeme) (cs : List Char) : Prop where
  scans : ∀ more, more <+: cs →
    scanFrom 0 (line.reverse ++ more) = words ++ scanFrom line.length more
  ends : scanFrom 0 (Text.dropReturn line).reverse = words

namespace Begins

variable {line cs : List Char} {words : List Lexeme}

theorem fresh (cs : List Char) : Begins [] [] cs :=
  ⟨fun _ _ => rfl, by simp [Text.dropReturn, scanFrom]⟩

theorem whole (begins : Begins line words cs) : scanFrom 0 line.reverse = words := by
  have whole := begins.scans [] List.nil_prefix
  simpa [scanFrom] using whole

theorem blank {c : Char} (begins : Begins line words (c :: cs)) (blank : Text.isBlank c = true) :
    Begins (c :: line) words cs := by
  have scans : ∀ more, more <+: cs →
      scanFrom 0 ((c :: line).reverse ++ more) = words ++ scanFrom (c :: line).length more := by
    intro more starts
    have through := begins.scans (c :: more) (List.cons_prefix_cons.mpr ⟨rfl, starts⟩)
    rw [scanFrom, if_pos blank] at through
    rw [List.reverse_cons, List.append_assoc, List.singleton_append, through, List.length_cons]
  refine ⟨scans, ?_⟩
  by_cases returns : c = '\r'
  · subst returns
    exact begins.whole
  · have same : Text.dropReturn (c :: line) = c :: line := by
      unfold Text.dropReturn
      split
      · exact absurd (List.cons.inj ‹_›).1 returns
      · rfl
    have whole := scans [] List.nil_prefix
    rw [same]
    simpa [scanFrom] using whole

theorem token {written rest : List Char} {text : String} (begins : Begins line words (written ++ rest))
    (spells : Spells written text) (apart : ∀ c ∈ rest.head?, Text.isBlank c = true) :
    Begins (written.reverse ++ line)
      (words ++ [⟨⟨line.length, line.length + written.length⟩, text⟩]) rest := by
  have scans : ∀ more, more <+: rest → scanFrom 0 ((written.reverse ++ line).reverse ++ more) =
      words ++ [⟨⟨line.length, line.length + written.length⟩, text⟩] ++
        scanFrom (written.reverse ++ line).length more := by
    intro more starts
    have through := begins.scans (written ++ more) (List.prefix_append_right_inj written |>.mpr starts)
    have before : ∀ c ∈ more.head?, Text.isBlank c = true := by
      intro c first
      obtain ⟨after, rfl⟩ := starts
      apply apart
      rw [List.head?_append, Option.mem_def.mp first]
      rfl
    rw [scanFrom_spells spells before] at through
    rw [List.reverse_append, List.reverse_reverse, List.append_assoc, through, List.length_append,
      List.length_reverse, Nat.add_comm written.length, List.append_assoc, List.singleton_append]
  refine ⟨scans, ?_⟩
  have whole := scans [] List.nil_prefix
  rw [spells.keeps_return]
  simpa [scanFrom] using whole

end Begins
end Lexeme

namespace Token

theorem scanFrom_writes {source : String} {row column : Nat} {tokens : List Token} {cs : List Char}
    (writes : Writes source row column tokens cs) {line : List Char} {words : List Lexeme}
    (begins : Lexeme.Begins line words cs) (length : line.length = column) :
    Token.scanFrom source row (Text.linesFrom line cs) =
      words.map (fun word => ⟨⟨source, row, word.columns⟩, word.text⟩) ++ tokens := by
  induction writes generalizing line words with
  | ends row column =>
    have whole := begins.whole
    cases line with
    | nil =>
      rw [List.reverse_nil, Lexeme.scanFrom] at whole
      rw [← whole]
      rfl
    | cons c line =>
      rw [Text.linesFrom, if_neg (by simp), Token.scanFrom, Token.scanFrom, Lexeme.scan,
        String.toList_ofList, whole]
  | newline later ih =>
    rw [Text.linesFrom, if_pos rfl, Token.scanFrom, Lexeme.scan, String.toList_ofList, begins.ends,
      ih (.fresh _) rfl, List.map_nil, List.nil_append]
  | blank blank inline later ih =>
    rw [Text.linesFrom, if_neg inline]
    refine ih (begins.blank blank) ?_
    rw [List.length_cons, length]
  | token spells apart later ih =>
    rw [Text.linesFrom_append _ _ _ spells.oneLine, ih (begins.token spells apart)]
    · rw [List.map_append, List.append_assoc, length]
      rfl
    · rw [List.length_append, List.length_reverse, length, Nat.add_comm]

theorem scan_writes {source : String} {tokens : List Token} {text : String}
    (writes : Writes source 1 0 tokens text.toList) : scan source (Text.lines text) = tokens :=
  scanFrom_writes writes (.fresh _) rfl

theorem Writes.source_eq {source : String} {row column : Nat} {tokens : List Token} {cs : List Char}
    (writes : Writes source row column tokens cs) : ∀ token ∈ tokens, token.place.source = source := by
  induction writes with
  | ends => exact nofun
  | newline later ih => exact ih
  | blank blank inline later ih => exact ih
  | token spells apart later ih =>
    intro token member
    rcases List.mem_cons.mp member with rfl | behind
    · rfl
    · exact ih token behind

end Token

theorem Program.ofText_writes {source : String} {tokens : List Token} {text : String}
    (writes : Token.Writes source 1 0 tokens text.toList) :
    (ofText source text).size = tokens.length ∧
      (ofText source text).ops (ofText source text).span =
        Op.sequence none (tokens.map Token.text) ∧
      ∀ address, (ofText source text).location? address = tokens[address]?.map Token.place := by
  have code : (ofText source text).code.toList = assemble none tokens := by
    rw [ofText, ofLines, Token.scan_writes writes]
  refine ⟨?_, ?_, ?_⟩
  · rw [size, ← Array.length_toList, code, length_assemble]
  · rw [ofText, ofLines_ops, ← Token.scanFrom_texts source 1, ← Token.scan, Token.scan_writes writes]
  · intro address
    rw [location?, ← Array.getElem?_toList, code, getElem_assemble]
    cases there : tokens[address]? with
    | none => rfl
    | some token =>
      have same := writes.source_eq token (List.mem_of_getElem? there)
      have from' : (ofText source text).source = token.place.source := same.symm
      simp only [Option.map_some, from']

end StackScript
