import StackScript.CommandLine
import StackScript.Terminal

/-!
The program itself, on real files and the real terminal.
-/
namespace StackScript.Main

def details? : IO.Error → Option (UInt32 × String)
  | .noFileOrDirectory _ code details => some (code, details)
  | .alreadyExists _ code details => some (code, details)
  | .otherError code details => some (code, details)
  | .resourceBusy code details => some (code, details)
  | .resourceVanished code details => some (code, details)
  | .unsupportedOperation code details => some (code, details)
  | .hardwareFault code details => some (code, details)
  | .unsatisfiedConstraints code details => some (code, details)
  | .illegalOperation code details => some (code, details)
  | .protocolError code details => some (code, details)
  | .timeExpired code details => some (code, details)
  | .interrupted _ code details => some (code, details)
  | .invalidArgument _ code details => some (code, details)
  | .permissionDenied _ code details => some (code, details)
  | .resourceExhausted _ code details => some (code, details)
  | .inappropriateType _ code details => some (code, details)
  | .noSuchThing _ code details => some (code, details)
  | .unexpectedEof => none
  | .userError _ => none

/-- Some calls give the number with a minus sign and the words in small letters. -/
def trouble (error : IO.Error) : Trouble :=
  match details? error with
  | none => .other (toString error)
  | some (code, details) =>
    let number := if code < 0x80000000 then code else 0 - code
    if number = 2 then .missing
    else if number = 20 then .notFolder
    else if number = 21 then .isFolder
    else if number = 36 then .nameTooLong
    else .other (details.capitalize ++ " (os error " ++ toString number ++ ")")

def source : Source IO := fun path => do
  if path.toList.contains '\x00' then return .error (Trouble.nulInPath.fault path)
  try
    let bytes ← IO.FS.readBinFile path
    return (fileLines bytes).mapError fun trouble => trouble.fault path
  catch error => return .error ((trouble error).fault path)

def write (text : String) : IO (Except Fault Unit) := do
  try
    let out ← IO.getStdout
    out.putStr text
    out.flush
    return .ok ()
  catch error =>
    let trouble := trouble error
    return .error (.ofSystem (trouble = .missing) trouble.text)

/-- Takes bytes up to the first line feed and with it. -/
partial def takeLine (input : IO.FS.Stream) (line : List UInt8) : IO (List UInt8) := do
  let bytes ← input.read 1
  match bytes.toList with
  | [] => return line.reverse
  | byte :: _ => if byte = 10 then return (byte :: line).reverse else takeLine input (byte :: line)

def readLine (prompt : String) : IO (Except Fault String) := do
  match ← write prompt with
  | .error fault => return .error fault
  | .ok () =>
    try
      return inputLine (← takeLine (← IO.getStdin) [])
    catch error =>
      let trouble := trouble error
      return .error (.ofSystem (trouble = .missing) trouble.text)

def console : Console IO where
  write := write
  readLine := readLine
  interrupted := return false

/-- Runs to the end, which need not come, a thousand slices at a time. -/
partial def drive (m : Machine) : IO (Except Fault Unit) := do
  match ← Host.run console source Host.slice 1000 m with
  | (m, none) => drive m
  | (_, some result) => return result

def runFile (path : String) : IO UInt32 := do
  let result ← match ← Host.load source path with
    | .ok m => drive m
    | .error fault => pure (.error fault)
  let (status, report) := CommandLine.verdict result
  (← IO.getStderr).putStr report
  return status

end StackScript.Main

def main (arguments : List String) : IO UInt32 := do
  match StackScript.CommandLine.Invocation.ofArguments none arguments with
  | .run path => StackScript.Main.runFile path
  | .version =>
    (← IO.getStdout).putStr StackScript.CommandLine.versionText
    return 0
  | .help =>
    (← IO.getStdout).putStr StackScript.CommandLine.helpText
    return 0
  | .misuse =>
    (← IO.getStderr).putStr StackScript.CommandLine.misuseText
    return 2
