import StackScript.Host

/-!
The command line: what its arguments ask for, and what a run reports in the end.
-/
namespace StackScript.CommandLine

inductive Invocation where
  | run (path : String)
  | version
  | help
  | misuse
  deriving DecidableEq, Repr

namespace Invocation

def ofPaths (path? : Option String) (arguments : List String) : Invocation :=
  match path?.toList ++ arguments with
  | [path] => .run path
  | _ => .misuse

/-- Reads options up to the first that decides; two dashes end them. -/
def ofArguments (path? : Option String) : List String → Invocation
  | [] => ofPaths path? []
  | argument :: arguments =>
    match argument.toList with
    | ['-', '-'] => ofPaths path? arguments
    | '-' :: '-' :: name =>
      if name = "version".toList then .version
      else if name = "help".toList then .help
      else .misuse
    | '-' :: letter :: _ =>
      if letter = 'V' then .version else if letter = 'h' then .help else .misuse
    | _ =>
      match path? with
      | none => ofArguments (some argument) arguments
      | some _ => .misuse

end Invocation

def versionText : String := "funny 0.3.0\n"

def helpText : String :=
  "Run a funny program\n\nUsage: funny <FILE>\n\nArguments:\n" ++
    "  <FILE>  Path to the program source file\n\n" ++
    "Options:\n  -h, --help     Print help\n  -V, --version  Print version\n"

def misuseText : String := "Usage: funny <FILE>\n"

def verdict : Except Fault Unit → UInt32 × String
  | .ok () => (0, "")
  | .error fault => (1, "\x1b[1m" ++ fault.message ++ "\x1b[0m\n")

end StackScript.CommandLine
