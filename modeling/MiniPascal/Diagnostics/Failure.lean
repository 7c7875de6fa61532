/-!
# Failures

A failure that ends a run is a message with the causes behind it, the nearest one first.
-/

namespace MiniPascal

structure Failure where
  message : String
  /-- what lies behind the message, the nearest cause first -/
  causes : List String
deriving DecidableEq

namespace Failure

def root (message : String) : Failure := ⟨message, []⟩

/-- Says what was being done when it failed. The failure itself becomes the cause. -/
def within (f : Failure) (context : String) : Failure :=
  ⟨context, f.message :: f.causes⟩

/-- A failure as the user sees it, one line for the message and one for each cause. -/
def text (f : Failure) : String :=
  "error: " ++ f.message ++ "\n" ++
    String.join (f.causes.map fun cause => "caused by: " ++ cause ++ "\n")

end Failure

end MiniPascal
