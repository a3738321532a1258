namespace VbaWorkbench.Pattern

/-- What is wrong with a pattern. -/
inductive Flaw where
  | unmatchedParenthesis
  | missing (closer : Char)
  | nothingToRepeat
  | countTooLarge
  | countsOutOfOrder
  | invalidGroup
  | trailingBackslash
  | rangeOutOfOrder
  | programTooLarge
deriving DecidableEq, Repr

def Flaw.message : Flaw → String
  | unmatchedParenthesis => "unmatched `)`"
  | missing closer => "missing `" ++ closer.toString ++ "`"
  | nothingToRepeat => "nothing to repeat"
  | countTooLarge => "repetition count too large"
  | countsOutOfOrder => "numbers out of order in \x7b\x7d quantifier"
  | invalidGroup => "invalid group"
  | trailingBackslash => "trailing backslash"
  | rangeOutOfOrder => "range out of order in class"
  | programTooLarge => "repetition expands beyond the pattern size limit"

/-- A flaw at its byte offset in the pattern. -/
structure Malformed where
  offset : Nat
  flaw : Flaw
deriving DecidableEq, Repr

/-- Why a pattern gives no answer. -/
inductive Error where
  | malformed (cause : Malformed)
  /-- Evaluation was stopped after this many steps. -/
  | timeout (steps : Nat)
deriving DecidableEq, Repr

def Error.message : Error → String
  | malformed cause =>
    "pattern syntax error at offset " ++ toString cause.offset ++ ": " ++ cause.flaw.message
  | timeout steps =>
    "pattern evaluation exceeded the step limit after " ++ toString steps ++ " steps"

end VbaWorkbench.Pattern
