import MiniPascal.CommandLine.Arguments
import MiniPascal.Diagnostics.Failure
import MiniPascal.Json.Bytes
import MiniPascal.Text.Quoted

/-!
# Runs of the command line tool

A run reads its arguments, then the file they name, and compiles the program in it. What it
writes and the status it ends with follow from how it ended.
-/

namespace MiniPascal.CommandLine

/-- What there is under a file name. -/
inductive FileContent where
  | text (s : String)
  /-- it cannot be opened, for the given reason -/
  | closed (reason : String)
  /-- it is open, but cannot be read -/
  | unreadable (reason : String)

def FileContent.ofBytes (bytes : ByteArray) : FileContent :=
  .text (Json.textOfBytes bytes)

inductive Ending where
  | help
  | version
  | refused (error : ArgumentError)
  | cannotOpen (file reason : String)
  | cannotRead (file reason : String)
  | cannotDecode (file : String) (error : LoadError)
  | compiled (compilation : Compilation)

/-- Reads, checks and compiles the program in a file. -/
def compileFile (task : Task) (content : FileContent) (terminal : Terminal) : Ending :=
  match content with
  | .closed reason => .cannotOpen task.file reason
  | .unreadable reason => .cannotRead task.file reason
  | .text s =>
    match Program.load s with
    | .error e => .cannotDecode task.file e
    | .ok program => .compiled (program.compile task.settings terminal)

/-- A whole run. `files` tells what there is under each name. -/
def run (arguments : List String) (files : String → FileContent) (terminal : Terminal) : Ending :=
  match parse arguments with
  | .error e => .refused e
  | .ok .help => .help
  | .ok .version => .version
  | .ok (.compile task) => compileFile task (files task.file) terminal

/-! ## Reports -/

/-- The texts of a run that are about the tool or about documents in general. -/
structure Wording where
  /-- what the arguments may be -/
  help : String
  /-- what is said about arguments that are refused as a whole -/
  misuse : String
  /-- what is said about a text that is no document of a program -/
  malformed : String

/-- The status of a run, and what it writes. -/
structure Report where
  status : Nat
  output : String
  errors : String
deriving DecidableEq

def versionText : String := "pascal-check 0.0.1\n"

/-- A run that fails without having compiled anything. -/
def Report.failed (f : Failure) : Report := ⟨1, "", f.text⟩

def loadErrorText (w : Wording) : LoadError → String
  | .malformed => w.malformed
  | .invalid e => e.message

def fileFailure (action file reason : String) : Failure :=
  (Failure.root reason).within ("cannot " ++ action ++ " " ++ Quoted.text file)

namespace Ending

/-- The status of a run that aborts. -/
def abortStatus : Nat := 101

/-- What a run writes, and its status. Compiling has written its messages by the time it finds
that there were errors, so nothing is added to them. -/
def report (w : Wording) : Ending → Report
  | help => ⟨0, w.help, ""⟩
  | version => ⟨0, versionText, ""⟩
  | refused .misuse => ⟨1, "", w.misuse⟩
  | refused (.badValue option message) =>
    .failed (.root ("Invalid value for '" ++ option ++ "': " ++ message))
  | cannotOpen file reason => .failed (fileFailure "open input file" file reason)
  | cannotRead file reason => .failed (fileFailure "decode program in" file reason)
  | cannotDecode file e => .failed (fileFailure "decode program in" file (loadErrorText w e))
  | compiled c =>
    match c.result with
    | .ok () => ⟨0, c.run.dumpText, c.run.errorText⟩
    | .error (.typeErrors _) => ⟨1, c.run.dumpText, c.run.errorText⟩
    | .error (.symbols .noSuchSymbol) =>
      ⟨abortStatus, c.run.dumpText, c.run.errorText ++ SymbolError.noSuchSymbol.message ++ "\n"⟩
    | .error (.symbols e) =>
      ⟨1, c.run.dumpText, c.run.errorText ++ (Failure.root e.message).text⟩

end Ending

end MiniPascal.CommandLine
