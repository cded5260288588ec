import StackScript.Folder

/-!
Consoles that read lines from a stream of bytes, and a terminal described by the input still to come
and the text shown.
-/
namespace StackScript

/-- The text of a line that was read with its ending, if it has one. No bytes mean that the input is
over. Line feeds and carriage returns at the end do not belong to the text. -/
def inputLine (bytes : List UInt8) : Except Fault String :=
  if bytes.isEmpty then .error { kind := .inputPastEnd }
  else
    match String.fromUTF8? ⟨bytes.toArray⟩ with
    | some text =>
      .ok (String.ofList
        (text.toList.reverse.dropWhile fun c => c == '\n' || c == '\r').reverse)
    | none => .error (.ofSystem false Trouble.notText.text)

structure Terminal where
  input : List UInt8
  shown : String := ""

namespace Terminal

def splitLine : List UInt8 → List UInt8 × List UInt8
  | [] => ([], [])
  | byte :: bytes =>
    if byte = 10 then ([byte], bytes)
    else
      let (line, rest) := splitLine bytes
      (byte :: line, rest)

def write (text : String) : StateM Terminal (Except Fault Unit) :=
  modifyGet fun terminal => (.ok (), { terminal with shown := terminal.shown ++ text })

def readLine (prompt : String) : StateM Terminal (Except Fault String) :=
  modifyGet fun terminal =>
    let (line, input) := splitLine terminal.input
    (inputLine line, { input, shown := terminal.shown ++ prompt })

/-- Input that comes from a file has no way to interrupt. -/
def console : Console (StateM Terminal) where
  write := write
  readLine := readLine
  interrupted := return false

end Terminal

end StackScript
