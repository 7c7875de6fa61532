import MiniPascal.CommandLine.Run

/-!
# The command line tool

Reads the file that is asked for, runs, and writes the report.
-/

namespace MiniPascal.CommandLine

def wording : Wording where
  help :=
    "pascal-check 0.0.1\n\nUSAGE:\n    pascal-check [FLAGS] [OPTIONS] <FILE>\n\n" ++
    "FLAGS:\n        --dump-ast    print every routine body before and after optimization\n" ++
    "    -h, --help        Prints help information\n" ++
    "    -V, --version     Prints version information\n\n" ++
    "OPTIONS:\n" ++
    "    -O, --optimization <optimization>    none, moderate or custom:ConstantFolding,...\n" ++
    "        --stop-after <stop_after>        semantics or optimization\n\n" ++
    "ARGS:\n    <FILE>    JSON file holding the symbol table and the routine bodies\n"
  misuse :=
    "error: The arguments do not fit the usage\n\n" ++
    "USAGE:\n    pascal-check [FLAGS] [OPTIONS] <FILE>\n\nFor more information try --help\n"
  malformed := "not a program document"

/-- An error of the file system with its number, where it has one. -/
def errorReason : IO.Error → String
  | .noFileOrDirectory _ code _ => "No such file or directory (os error " ++ toString code ++ ")"
  | .permissionDenied _ code _ => "Permission denied (os error " ++ toString code ++ ")"
  | .inappropriateType _ code details => details ++ " (os error " ++ toString code ++ ")"
  | e => toString e

/-- What there is under a file name. -/
def readContent (file : String) : IO FileContent := do
  match ← (IO.FS.Handle.mk file .read).toBaseIO with
  | .error e => return .closed (errorReason e)
  | .ok handle =>
    match ← handle.readBinToEnd.toBaseIO with
    | .error e => return .unreadable (errorReason e)
    | .ok bytes => return .ofBytes bytes

/-- Colors are used unless the terminal has none or they are not wanted. -/
def currentTerminal : IO Terminal := do
  let plain := (← IO.getEnv "NO_COLOR").isSome
  match ← IO.getEnv "TERM" with
  | none => return .plain
  | some name => return if plain || name = "dumb" then .plain else .ansi

end MiniPascal.CommandLine

open MiniPascal MiniPascal.CommandLine in
def main (arguments : List String) : IO UInt32 := do
  let terminal ← currentTerminal
  let ending ← match parse arguments with
    | .ok (.compile task) => do
      let content ← readContent task.file
      pure (run arguments (fun _ => content) terminal)
    | _ => pure (run arguments (fun _ => .closed "") terminal)
  let report := ending.report wording
  (← IO.getStdout).putStr report.output
  (← IO.getStderr).putStr report.errors
  return UInt32.ofNat report.status
