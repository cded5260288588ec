/-!
The lines of a text. A line feed ends a line, together with one carriage return just before it;
any other carriage return belongs to its line, and nothing follows a final line feed.
-/
namespace StackScript.Text

def dropReturn : List Char → List Char
  | '\r' :: line => line
  | line => line

/-- The lines of `cs`, the first of which goes on from `line`, given back to front. -/
def linesFrom (line : List Char) : List Char → List String
  | [] => if line.isEmpty then [] else [String.ofList line.reverse]
  | c :: cs =>
    if c = '\n' then String.ofList (dropReturn line).reverse :: linesFrom [] cs
    else linesFrom (c :: line) cs

def lines (text : String) : List String :=
  linesFrom [] text.toList

end StackScript.Text
