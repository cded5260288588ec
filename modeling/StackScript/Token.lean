import StackScript.Location
import StackScript.Text.Blank

/-!
Words of program text. A line is read from left to right: blanks separate words, two slashes end
the line, and a quote opens a literal that runs to the next quote of its kind.
-/
namespace StackScript

def isQuote (c : Char) : Bool :=
  c == '"' || c == '\''

/-- One word of a line. A literal keeps a quote at each end, around its unescaped text. -/
structure Lexeme where
  columns : Span
  text : String
  deriving DecidableEq, Repr

structure Token where
  place : Location
  text : String
  deriving DecidableEq, Repr

def literal? (text : String) : Option String :=
  match text.toList with
  | first :: second :: rest =>
    if isQuote first && (second :: rest).getLast? == some first then
      some (String.ofList (second :: rest).dropLast)
    else none
  | _ => none

def Token.isQuoted (token : Token) : Bool :=
  (literal? token.text).isSome

namespace Lexeme

def atComment : List Char → Bool
  | '/' :: '/' :: _ => true
  | _ => false

def endsWord (cs : List Char) : Bool :=
  match cs with
  | [] => true
  | c :: _ => Text.isBlank c || isQuote c || atComment cs

def splitWord : List Char → List Char × List Char
  | [] => ([], [])
  | c :: cs =>
    if endsWord (c :: cs) then ([], c :: cs)
    else
      let (word, rest) := splitWord cs
      (c :: word, rest)

def unescape (c : Char) : Char :=
  if c = 'n' then '\n' else if c = 't' then '\t' else c

/-- The unescaped inside of a literal, how many characters it takes together with its closing quote,
and what follows. The end of the line closes a literal, and a backslash there stands for itself. -/
def splitLiteral (quote : Char) : List Char → List Char × Nat × List Char
  | [] => ([], 0, [])
  | '\\' :: c :: cs =>
    let (inside, size, rest) := splitLiteral quote cs
    (unescape c :: inside, size + 2, rest)
  | c :: cs =>
    if c = quote then ([], 1, cs)
    else
      let (inside, size, rest) := splitLiteral quote cs
      (c :: inside, size + 1, rest)

theorem length_splitWord (cs : List Char) :
    (splitWord cs).1.length + (splitWord cs).2.length = cs.length := by
  fun_induction splitWord cs with
  | case1 => rfl
  | case2 => simp
  | case3 c cs _ word rest eq ih => simp [eq] at ih ⊢; omega

theorem length_splitLiteral (quote : Char) (cs : List Char) :
    (splitLiteral quote cs).2.1 + (splitLiteral quote cs).2.2.length = cs.length := by
  fun_induction splitLiteral quote cs with
  | case1 => rfl
  | case2 c cs inside size rest eq ih => simp [eq] at ih ⊢; omega
  | case3 => simp; omega
  | case4 c cs _ _ inside size rest eq ih => simp [eq] at ih ⊢; omega

def scanFrom (column : Nat) (cs : List Char) : List Lexeme :=
  match cs with
  | [] => []
  | c :: rest =>
    if Text.isBlank c then scanFrom (column + 1) rest
    else if atComment (c :: rest) then []
    else if isQuote c then
      match found : splitLiteral c rest with
      | (inside, size, after) =>
        ⟨⟨column, column + 1 + size⟩, String.ofList (c :: inside ++ [c])⟩ ::
          scanFrom (column + 1 + size) after
    else
      match found : splitWord rest with
      | (word, after) =>
        ⟨⟨column, column + 1 + word.length⟩, String.ofList (c :: word)⟩ ::
          scanFrom (column + 1 + word.length) after
termination_by cs.length
decreasing_by
  · simp
  · have size_eq := length_splitLiteral c rest
    simp only [found] at size_eq
    simp only [List.length_cons]
    omega
  · have size_eq := length_splitWord rest
    simp only [found] at size_eq
    simp only [List.length_cons]
    omega

def scan (line : String) : List Lexeme :=
  scanFrom 0 line.toList

end Lexeme

def Token.scanFrom (source : String) (row : Nat) : List String → List Token
  | [] => []
  | line :: lines =>
    (Lexeme.scan line).map (fun word => ⟨⟨source, row, word.columns⟩, word.text⟩) ++
      Token.scanFrom source (row + 1) lines

def Token.scan (source : String) (lines : List String) : List Token :=
  Token.scanFrom source 1 lines

end StackScript
