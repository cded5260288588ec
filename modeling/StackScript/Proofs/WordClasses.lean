import StackScript.Proofs.NumberGrammar
import StackScript.Proofs.Rendering

/-!
What a word of program text stands for: a literal, a keyword, a number or a name. A relation says which
without an order of questions, and the reader agrees with it on every word. The inside of a literal may
be taken out by bytes: no character is cut.
-/
namespace StackScript

namespace Text

/-- The part of a text from one byte up to another. There is none unless both bytes begin characters or
end the text, in this order. -/
def bytes? (text : String) (first last : Nat) : Option String := do
  let first ← text.pos? ⟨first⟩
  let last ← text.pos? ⟨last⟩
  let part ← text.slice? first last
  return part.copy

theorem pos_valid {text : String} {place : String.Pos.Raw} (valid : place.IsValid text) :
    text.pos? place = some ⟨place, valid⟩ := by
  have inside : place.isValidForSlice text.toSlice = true := by simpa using valid
  rw [String.pos?, String.Slice.pos?, dif_pos inside]
  rfl

theorem bytes_append (front inside back : String) :
    bytes? (front ++ inside ++ back) front.utf8ByteSize (front.utf8ByteSize + inside.utf8ByteSize) =
      some inside := by
  have first : (⟨front.utf8ByteSize⟩ : String.Pos.Raw).IsValid (front ++ inside ++ back) :=
    String.Pos.Raw.isValid_iff_exists_append.mpr ⟨front, inside ++ back, String.append_assoc, rfl⟩
  have last : (⟨front.utf8ByteSize + inside.utf8ByteSize⟩ : String.Pos.Raw).IsValid
      (front ++ inside ++ back) :=
    String.Pos.Raw.isValid_iff_exists_append.mpr
      ⟨front ++ inside, back, rfl, by simp [String.Pos.Raw.ext_iff]⟩
  have order : (⟨_, first⟩ : (front ++ inside ++ back).Pos) ≤ ⟨_, last⟩ := Nat.le_add_right _ _
  have part : (front ++ inside ++ back).extract ⟨_, first⟩ ⟨_, last⟩ = inside := by
    rw [← String.toByteArray_inj, String.toByteArray_extract]
    simp only [String.toByteArray_append, ByteArray.append_assoc, ← String.size_toByteArray]
    have moved := ByteArray.extract_append_size_add (a := front.toByteArray)
      (b := inside.toByteArray ++ back.toByteArray) (i := 0) (j := inside.toByteArray.size)
    rw [Nat.add_zero] at moved
    rw [moved, ByteArray.extract_append_eq_left rfl]
  simp only [bytes?, pos_valid first, pos_valid last, String.slice?, dif_pos order,
    ← String.extract_eq_copy_slice, part, Option.bind_eq_bind, Option.bind_some, Option.pure_def]

end Text

def IsQuoted (word inside : String) : Prop :=
  ∃ quote, isQuote quote = true ∧ word.toList = quote :: inside.toList ++ [quote]

theorem literal_eq_some_iff (word inside : String) :
    literal? word = some inside ↔ IsQuoted word inside := by
  constructor
  · intro found
    unfold literal? at found
    split at found
    · rename_i first second rest chars
      split at found
      · rename_i quoted
        obtain ⟨quotes, last⟩ := Bool.and_eq_true_iff.mp quoted
        cases found
        refine ⟨first, quotes, ?_⟩
        rw [chars, String.toList_ofList, List.cons_append,
          List.dropLast_append_getLast? first (eq_of_beq last)]
      · cases found
    · cases found
  · rintro ⟨quote, quotes, chars⟩
    rw [← String.ofList_toList (s := word), chars, Lexeme.literal_text quotes, String.ofList_toList]

theorem literal_eq_none_iff (word : String) :
    literal? word = none ↔ ∀ inside, ¬IsQuoted word inside := by
  simp only [Option.eq_none_iff_forall_ne_some, ne_eq, literal_eq_some_iff]

theorem Token.isQuoted_iff (token : Token) :
    token.isQuoted = true ↔ ∃ inside, IsQuoted token.text inside := by
  simp only [Token.isQuoted, Option.isSome_iff_exists, literal_eq_some_iff]

/-- The quotes take one byte each, whatever stands between them. -/
theorem bytes_quoted {word inside : String} (quoted : IsQuoted word inside) :
    Text.bytes? word 1 (word.utf8ByteSize - 1) = some inside := by
  obtain ⟨quote, quotes, chars⟩ := quoted
  have join : word = String.singleton quote ++ inside ++ String.singleton quote := by
    rw [← String.toList_inj, chars]
    simp
  have one : (String.singleton quote).utf8ByteSize = 1 := by
    rcases Lexeme.quote_cases quotes with rfl | rfl <;> rfl
  have taken := Text.bytes_append (String.singleton quote) inside (String.singleton quote)
  have size : word.utf8ByteSize - 1 = 1 + inside.utf8ByteSize := by
    rw [join, String.utf8ByteSize_append, String.utf8ByteSize_append, one]
    omega
  rwa [one, ← join, ← size] at taken

namespace Op

def table : List (String × Op) :=
  [("+", .apply .sum), ("-", .apply .difference), ("*", .apply .product), ("/", .apply .quotient),
    ("%", .apply .remainder), (".", .dump), ("write", .write), ("dup", .dup), ("pop", .pop),
    (":", .roll), ("if", .branch), ("else", .otherwise), ("end", .close), ("while", .loop),
    ("func", .define), ("=", .apply .equal), (">", .apply .greater), ("<", .apply .less),
    ("not", .not), ("input", .input), ("attach", .attach), ("var", .declare), ("@", .assign)]

theorem ofKeyword_eq_some_iff (word : String) (op : Op) :
    ofKeyword? word = some op ↔ (word, op) ∈ table := by
  have listed : ∀ op ∈ keywords, (op.text, op) ∈ table := by decide +kernel
  have found : ∀ entry ∈ table, ofKeyword? entry.1 = some entry.2 := by decide +kernel
  constructor
  · intro keyword
    have same := List.find?_some keyword
    have entry := listed op (List.mem_of_find?_eq_some keyword)
    rwa [eq_of_beq same] at entry
  · exact found (word, op)

theorem ofKeyword_eq_none_iff (word : String) :
    ofKeyword? word = none ↔ ∀ op, (word, op) ∉ table := by
  simp only [Option.eq_none_iff_forall_ne_some, ne_eq, ofKeyword_eq_some_iff]

inductive StandsFor (word : String) : Op → Prop where
  | literal {inside : String} (quoted : IsQuoted word inside) : StandsFor word (.push (.string inside))
  | keyword {op : Op} (unquoted : ∀ inside, ¬IsQuoted word inside) (listed : (word, op) ∈ table) :
      StandsFor word op
  | number {n : Float} (unquoted : ∀ inside, ¬IsQuoted word inside)
      (unlisted : ∀ op, (word, op) ∉ table) (form : Numeral.IsNumber (Text.trim word.toList))
      (reads : readNumber? word = some n) : StandsFor word (.push (.number n))
  | name (unquoted : ∀ inside, ¬IsQuoted word inside) (unlisted : ∀ op, (word, op) ∉ table)
      (other : ¬Numeral.IsNumber (Text.trim word.toList)) : StandsFor word (.word word)

def ofBytes? (word : String) : Option Op :=
  match ofKeyword? word with
  | some op => some op
  | none =>
    match readNumber? word with
    | some n => some (.push (.number n))
    | none =>
      if (literal? word).isSome then
        (Text.bytes? word 1 (word.utf8ByteSize - 1)).map fun inside => .push (.string inside)
      else some (.word word)

variable {word : String}

theorem ofWord_of_quoted {inside : String} (quoted : IsQuoted word inside) :
    ofWord word = .push (.string inside) := by
  obtain ⟨quote, quotes, chars⟩ := quoted
  rw [← String.ofList_toList (s := word), chars, Lexeme.ofWord_literal quotes, String.ofList_toList]

theorem ofWord_stands (word : String) : StandsFor word (ofWord word) := by
  cases quoted : literal? word with
  | some inside =>
    have quoted := (literal_eq_some_iff word inside).mp quoted
    rw [ofWord_of_quoted quoted]
    exact .literal quoted
  | none =>
    have unquoted := (literal_eq_none_iff word).mp quoted
    unfold ofWord
    cases keyword : ofKeyword? word with
    | some op => exact .keyword unquoted ((ofKeyword_eq_some_iff word op).mp keyword)
    | none =>
      have unlisted := (ofKeyword_eq_none_iff word).mp keyword
      cases reads : readNumber? word with
      | some n =>
        have form := (readNumber_isSome_iff word).mp (Option.isSome_of_eq_some reads)
        exact .number unquoted unlisted form reads
      | none =>
        rw [quoted]
        exact .name unquoted unlisted ((readNumber_eq_none_iff word).mp reads)

theorem StandsFor.eq {op : Op} (stands : StandsFor word op) : ofWord word = op := by
  cases stands with
  | literal quoted => exact ofWord_of_quoted quoted
  | keyword unquoted listed =>
    rw [ofWord, (ofKeyword_eq_some_iff word op).mpr listed]
  | number unquoted unlisted form reads =>
    rw [ofWord, (ofKeyword_eq_none_iff word).mpr unlisted, reads]
  | name unquoted unlisted other =>
    rw [ofWord, (ofKeyword_eq_none_iff word).mpr unlisted, (readNumber_eq_none_iff word).mpr other,
      (literal_eq_none_iff word).mpr unquoted]

theorem ofBytes_eq (word : String) : ofBytes? word = some (ofWord word) := by
  unfold ofBytes? ofWord
  cases ofKeyword? word with
  | some op => rfl
  | none =>
    cases readNumber? word with
    | some n => rfl
    | none =>
      cases quoted : literal? word with
      | some inside =>
        have taken := bytes_quoted ((literal_eq_some_iff word inside).mp quoted)
        simp only [Option.isSome_some, ↓reduceIte, taken, Option.map_some]
      | none => rfl

end Op

/-- A text is read as a number just if it is one by the grammar, with blanks around it; the words for
infinity and for no number are not read, as nothing without a digit is. Every word, of whatever text,
stands for one operation: a literal for its inside, even where this could be a keyword or a number; else
a keyword for its operation, else a number for itself, else a name. Taking the inside of a literal out
by bytes never fails. -/
theorem words_fall_into_classes :
    (∀ text : String,
      ((readNumber? text).isSome ↔ ∃ front number back, (∀ c ∈ front, Text.isBlank c = true) ∧
        (∀ c ∈ back, Text.isBlank c = true) ∧ Numeral.IsNumber number ∧
        text.toList = front ++ (number ++ back)) ∧
      ((readNumber? text).isSome ↔ (∃ c ∈ Text.trim text.toList, c.isDigit = true) ∧
        (Numeral.IsNumber (Text.trim text.toList) ∨ Numeral.IsSpecial (Text.trim text.toList))) ∧
      (Numeral.IsSpecial (Text.trim text.toList) → readNumber? text = none)) ∧
    ∀ token : Token,
      (token.isQuoted = true ↔ ∃ inside, IsQuoted token.text inside) ∧
      (∀ op, Op.ofWord token.text = op ↔ Op.StandsFor token.text op) ∧
      Op.ofBytes? token.text = some (Op.ofWord token.text) := by
  refine ⟨fun text => ?_, fun token => ?_⟩
  · exact ⟨readNumber_written_iff text, readNumber_digit_iff text, readNumber_special⟩
  · refine ⟨token.isQuoted_iff, fun op => ⟨?_, Op.StandsFor.eq⟩, Op.ofBytes_eq token.text⟩
    rintro rfl
    exact Op.ofWord_stands token.text

/-- A number with everything in it, a word for infinity, and literals whose insides are a keyword and a
number behind a character of three bytes. -/
theorem words_fall_into_classes_quoted :
    Numeral.IsSpecial (Text.trim " -INF".toList) ∧ readNumber? " -INF" = none ∧
      (readNumber? "-.5E+03").isSome = true ∧
      Op.StandsFor "'dup'" (.push (.string "dup")) ∧ Op.StandsFor "dup" .dup ∧
      Op.StandsFor "infinity" (.word "infinity") ∧
      Op.ofBytes? "\"€5\"" = some (.push (.string "€5")) := by
  have special : Numeral.IsSpecial (Text.trim " -INF".toList) :=
    ⟨['-'], "INF".toList, .inr (.inr rfl), by decide +kernel, by decide +kernel⟩
  obtain ⟨texts, tokens⟩ := words_fall_into_classes
  have stands (text : String) := (tokens ⟨⟨"test", 1, ⟨0, 1⟩⟩, text⟩).2.1
  have five : Numeral.IsDigits ([] ++ ['5']) := ⟨nofun, List.all_eq_true.mp rfl⟩
  have thousand : Numeral.IsDigits ['0', '3'] := ⟨nofun, List.all_eq_true.mp rfl⟩
  have number : Numeral.IsNumber "-.5E+03".toList :=
    .parts (.inr (.inr rfl)) (.pointed five) (.marked (.inr rfl) (.inr (.inl rfl)) thousand)
  have taken := (tokens ⟨⟨"test", 1, ⟨0, 1⟩⟩, "\"€5\""⟩).2.2
  refine ⟨special, (texts _).2.2 special, ?_, (stands _ _).mp (by decide +kernel),
    (stands _ _).mp (by decide +kernel), (stands _ _).mp (by decide +kernel), ?_⟩
  · exact (texts _).1.mpr ⟨[], _, [], nofun, nofun, number, by simp⟩
  · rw [taken]
    decide +kernel

end StackScript
