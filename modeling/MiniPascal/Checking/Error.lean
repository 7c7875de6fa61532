/-!
# Type errors

What can be wrong with a body, and how it is said. Types are named as in messages.
-/

namespace MiniPascal

inductive TypeError where
  | indexNotInteger (array found : String)
  /-- an operator that wants integers has something else; it is given in capitals -/
  | integerOperandsExpected (op : String)
  | negatedNotInteger
  | assignmentMismatch (target value : String)
  | whileConditionNotInteger
  | ifConditionNotInteger
  | elsifConditionNotInteger
  | resultRequired
  | procedureReturnsValue
  | badResultType
  | missingReturn
  | argumentCount
  | argumentType
deriving DecidableEq

namespace TypeError

def message : TypeError → String
  | indexNotInteger array found =>
    "array index must be of type integer, found " ++ found ++ " (array " ++ array ++ ")"
  | integerOperandsExpected op =>
    "invalid condition in " ++ op ++ "-statement, all variables must be int"
  | negatedNotInteger => "negated expr must be of type integer"
  | assignmentMismatch target value =>
    "lhs and rhs must be of same type in assignment. lhs: " ++ target ++ " rhs: " ++ value
  | whileConditionNotInteger => "while predicate must be of integer type."
  | ifConditionNotInteger => "if predicate must be of integer type."
  | elsifConditionNotInteger => "Condition is not of type integer."
  | resultRequired => "Must return a value from a function."
  | procedureReturnsValue => "Procedures may not return a value."
  | badResultType => "Bad return type from function."
  | missingReturn => "A function must return a value."
  | argumentCount => "Invalid number of parameters"
  | argumentType => "Type discrepancy between formal and actual parameters."

end TypeError

end MiniPascal
