import StackScript.Proofs.NumeralText
import StackScript.Proofs.Rendering
import StackScript.Proofs.Segments

/-!
Listings. What an operation is listed as is a word or a literal that stands for the same operation, so
that a listing, which is one line, is read as the program it lists.
-/
namespace StackScript

def Text.isLegible (c : Char) : Bool :=
  [[c], ['\\', '"'], ['\\', '\\'], ['\\', 'n'], ['\\', 't']].contains (escape c)

/-- A listing keeps every operation but numbers that are not finite and texts with other escapes. -/
def Op.isLegible : Op → Bool
  | .push (.number n) => n.isFinite
  | .push (.string s) => s.toList.all Text.isLegible
  | _ => true

namespace Lexeme

theorem escape_legible {c : Char} (legible : Text.isLegible c = true) :
    escape '"' c = Text.escape c := by
  by_cases quote : c = '"'
  · simp [escape, Text.escape, quote]
  by_cases backslash : c = '\\'
  · simp [escape, Text.escape, backslash]
  by_cases newline : c = '\n'
  · simp [escape, Text.escape, newline]
  by_cases tab : c = '\t'
  · simp [escape, Text.escape, tab]
  have shown : Text.escape c = [c] := by
    simp only [Text.isLegible, Text.escape, quote, backslash, newline, tab, ↓reduceIte] at legible ⊢
    split_ifs at legible ⊢ with enter null visible
    · simp [enter] at legible
    · simp [null] at legible
    · rfl
    · simp at legible
  rw [shown, escape, if_neg (by simp [quote, backslash]), if_neg newline, if_neg tab]

theorem quoted_written {s : String} (legible : s.toList.all Text.isLegible = true) :
    (Text.quoted s).toList = (Piece.literal '"' rfl s).written := by
  have same : s.toList.flatMap (escape '"') = s.toList.flatMap Text.escape := by
    refine List.flatMap_congr fun c member => ?_
    exact escape_legible (List.all_eq_true.mp legible c member)
  rw [Text.quoted, String.toList_ofList, ← same]
  rfl

theorem listed_plain : Numeral.listed.plus = [] ∨ Numeral.listed.plus = ['+'] := .inl rfl

theorem isWord_write {n : Float} (finite : n.isFinite = true) :
    IsWord (Numeral.write Numeral.listed n).toList := by
  have reads := readNumber_write listed_plain finite
  rw [Binary64.isFinite_iff] at finite
  have plain (c : Char) (member : c ∈ (Numeral.write Numeral.listed n).toList) :=
    Numeral.numeric_plain (Numeral.write_numeric listed_plain finite c member)
  refine ⟨?_, fun c member => (plain c member).1, ?_, ?_⟩
  · intro empty
    rw [readNumber?, empty] at reads
    cases reads
  · intro c member
    obtain ⟨-, double, single, -⟩ := plain c member
    simp [isQuote, double, single]
  · intro slashes
    exact (plain '/' (slashes.subset (List.mem_cons_self ..))).2.2.2 rfl

theorem literal_word {text : String} (proper : IsWord text.toList) : literal? text = none := by
  unfold literal?
  split
  · rename_i first second rest same
    have unquoted := proper.unquoted first (same ▸ List.mem_cons_self ..)
    simp [unquoted]
  · rfl

theorem ofWord_quoted {quote : Char} (quotes : isQuote quote = true) (inside : String) :
    Op.ofWord (Piece.literal quote quotes inside).text = .push (.string inside) := by
  rw [Piece.text, ofWord_literal quotes, String.ofList_toList]

end Lexeme

namespace Op

open Lexeme

theorem after_text (name : String) (previous : Option Op) : ((word name).after previous).text = name := by
  cases previous with
  | none => rfl
  | some op => cases op <;> rfl

theorem keyword_after {op : Op} (keyword : op ∈ keywords) (previous : Option Op) :
    op.after previous = op := by
  cases op with
  | word name => simp [keywords] at keyword
  | _ => rfl

/-- What an operation is listed as can be written in a line, and means the same as the word it was
read from. -/
theorem listed_piece (read : Piece) (previous : Option Op)
    (legible : ((ofWord read.text).after previous).isLegible = true) :
    ∃ piece : Piece, ((ofWord read.text).after previous).text.toList = piece.written ∧
      ofWord piece.text = ofWord read.text := by
  cases keyword : ofKeyword? read.text with
  | some op =>
    have member : op ∈ keywords := List.mem_of_find?_eq_some keyword
    have found : keywords.find? (fun op => op.text == read.text) = some op := keyword
    have same : op.text = read.text := by simpa using List.find?_some found
    have meant : ofWord read.text = op := by rw [ofWord, keyword]
    refine ⟨read, ?_, rfl⟩
    rw [meant, keyword_after member, same]
    cases read with
    | word text proper => rfl
    | literal quote quotes inside => cases (ofKeyword_literal quotes inside.toList).symm.trans keyword
  | none =>
    cases number : readNumber? read.text with
    | some n =>
      have meant := ofWord_number number
      rw [meant] at legible ⊢
      exact ⟨.word _ (isWord_write legible), rfl, ofWord_number (readNumber_write listed_plain legible)⟩
    | none =>
      cases read with
      | word text proper =>
        have meant : ofWord text = .word text := by
          rw [Piece.text] at keyword number
          rw [ofWord, keyword, number, literal_word proper]
        refine ⟨.word text proper, ?_, rfl⟩
        rw [Piece.text, meant, after_text]
        rfl
      | literal quote quotes inside =>
        have meant := ofWord_quoted quotes inside
        rw [meant] at legible ⊢
        exact ⟨.literal '"' rfl inside, quoted_written legible, ofWord_quoted rfl inside⟩

theorem listed_pieces (reads : List Piece) (previous : Option Op)
    (legible : ∀ op ∈ sequence previous (reads.map Piece.text), op.isLegible = true) :
    ∃ pieces : List Piece,
      (sequence previous (reads.map Piece.text)).map (·.text.toList) = pieces.map Piece.written ∧
        sequence previous (pieces.map Piece.text) = sequence previous (reads.map Piece.text) := by
  induction reads generalizing previous with
  | nil => exact ⟨[], rfl, rfl⟩
  | cons read reads ih =>
    obtain ⟨first, others⟩ := List.forall_mem_cons.mp legible
    obtain ⟨piece, written, same⟩ := listed_piece read previous first
    obtain ⟨pieces, later, rest⟩ := ih _ others
    refine ⟨piece :: pieces, ?_, ?_⟩
    · simp only [List.map_cons, sequence, written, later]
    · simp only [List.map_cons, sequence, same, rest]

end Op

namespace Lexeme

theorem writes_blank {pieces : List Piece} {line : List Char} (writes : Writes pieces line) :
    Writes pieces (' ' :: line) := by
  have more {gap : List Char} (blank : ∀ c ∈ gap, Text.isBlank c = true) :
      ∀ c ∈ ' ' :: gap, Text.isBlank c = true := List.forall_mem_cons.mpr ⟨by decide, blank⟩
  cases writes with
  | ends blank => exact .ends (more blank)
  | comment blank rest => exact .comment (more blank) rest
  | piece blank piece apart later => exact .piece (more blank) piece apart later

theorem joined_writes (pieces : List Piece) :
    Writes pieces ([' '].intercalate (pieces.map Piece.written)) := by
  induction pieces with
  | nil => exact .ends nofun
  | cons piece pieces ih =>
    cases pieces with
    | nil =>
      have last := @Writes.piece [] [] [] nofun piece nofun (.ends nofun)
      simpa using last
    | cons next pieces =>
      have apart : ∀ c ∈ (' ' :: [' '].intercalate ((next :: pieces).map Piece.written)).head?,
          Text.isBlank c = true := by simp; decide
      have first := @Writes.piece [] _ _ nofun piece apart (writes_blank ih)
      rw [List.map_cons, List.map_cons, List.intercalate_cons_cons, List.append_assoc]
      exact first

end Lexeme

namespace Program

theorem words_pieces (lines : List String) :
    ∃ reads : List Lexeme.Piece, reads.map Lexeme.Piece.text = words lines := by
  have each : words lines ∈ { texts | ∀ text ∈ texts, text ∈ Set.range Lexeme.Piece.text } := by
    intro text member
    obtain ⟨line, -, inside⟩ := List.mem_flatMap.mp member
    obtain ⟨lexeme, scanned, rfl⟩ := List.mem_map.mp inside
    obtain ⟨piece, same⟩ := Lexeme.scanFrom_pieces 0 line.toList lexeme scanned
    exact ⟨piece, same.symm⟩
  rwa [← Set.range_list_map] at each

theorem listing_toList (program : Program) : program.listing.toList =
    [' '].intercalate ((program.ops program.span).map fun op => op.text.toList) := by
  rw [listing, String.toList_intercalate, texts, ops_span, List.map_map, List.map_map]
  rfl

/-- A listing is read as the program that it lists, if its numbers are finite and its texts have no
escapes but those that are read back. -/
theorem listing_reads_back (source other : String) (lines : List String)
    (legible : ∀ op ∈ (ofLines source lines).ops (ofLines source lines).span, op.isLegible = true) :
    let program := ofLines source lines
    let again := ofLines other [program.listing]
    again.ops again.span = program.ops program.span := by
  intro program again
  obtain ⟨reads, same⟩ := words_pieces lines
  rw [ofLines_ops, ← same] at legible
  obtain ⟨pieces, written, meant⟩ := Op.listed_pieces reads none legible
  have line : program.listing.toList = [' '].intercalate (pieces.map Lexeme.Piece.written) := by
    rw [listing_toList, ofLines_ops, ← same, written]
  have scanned : words [program.listing] = pieces.map Lexeme.Piece.text := by
    have joined := Lexeme.scan_writes (Lexeme.joined_writes pieces) 0
    rw [← line] at joined
    rw [words, List.flatMap_singleton]
    exact joined
  rw [ofLines_ops, ofLines_ops, scanned, meant, same]

/-- A function with a quote and a line feed in a literal, and a number that is listed with a power of
ten. -/
theorem listing_reads_back_function :
    let program := ofLines "t" ["func f '\"\\n' write", "end -0.00000025 f"]
    let again := ofLines "listing" [program.listing]
    program.listing = "func f \"\\\"\\n\" write end -2.5e-7 f" ∧
      (∀ op ∈ program.ops program.span, op.isLegible = true) ∧
      again.ops again.span = program.ops program.span := by
  intro program again
  have legible : ∀ op ∈ program.ops program.span, op.isLegible = true := by decide +kernel
  exact ⟨by decide +kernel, legible, listing_reads_back "t" "listing" _ legible⟩

end Program
end StackScript
