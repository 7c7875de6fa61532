/-!
# Logs

Beside the messages for the user there is a log that tells what was done. Its lines have a
level and a text.
-/

namespace MiniPascal

inductive LogLevel where
  | debug
  | info
deriving DecidableEq

structure LogEntry where
  level : LogLevel
  text : String
deriving DecidableEq

namespace LogEntry

def debug (text : String) : LogEntry := ⟨.debug, text⟩

def info (text : String) : LogEntry := ⟨.info, text⟩

/-- The level in capitals and the text. -/
def line (e : LogEntry) : String :=
  (match e.level with
  | .debug => "DEBUG "
  | .info => "INFO ") ++ e.text

end LogEntry

end MiniPascal
