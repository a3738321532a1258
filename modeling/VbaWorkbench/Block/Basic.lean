import VbaWorkbench.Text.Basic

namespace VbaWorkbench

/-- The statements that enclose others. -/
inductive BlockKind where
  | ifThen
  | forLoop
  | doLoop
  | whileLoop
  | selectCase
  | withObject
  | sub
  | function
  | property
  | type
  | enum
deriving DecidableEq, Repr

namespace BlockKind

def all : List BlockKind :=
  [ifThen, forLoop, doLoop, whileLoop, selectCase, withObject, sub, function, property, type, enum]

/-- The words that open the block. -/
def opening : BlockKind → String
  | ifThen => "If"
  | forLoop => "For"
  | doLoop => "Do"
  | whileLoop => "While"
  | selectCase => "Select Case"
  | withObject => "With"
  | sub => "Sub"
  | function => "Function"
  | property => "Property"
  | type => "Type"
  | enum => "Enum"

/-- The words that close the block. -/
def closing : BlockKind → String
  | ifThen => "End If"
  | forLoop => "Next"
  | doLoop => "Loop"
  | whileLoop => "Wend"
  | selectCase => "End Select"
  | withObject => "End With"
  | sub => "End Sub"
  | function => "End Function"
  | property => "End Property"
  | type => "End Type"
  | enum => "End Enum"

end BlockKind

/-- What a statement does to the blocks around it. -/
inductive Role where
  | opener (kind : BlockKind)
  /-- One statement can close several blocks of a kind, as `Next i, j` does. -/
  | closer (kind : BlockKind) (count : Nat)
  | clause (kind : BlockKind)
  /-- The rest of the line belongs to the `If`. -/
  | singleLineIf
  | plain
deriving DecidableEq, Repr

/-- A statement as the block structure sees it. -/
structure Statement where
  role : Role
  /-- The leading keywords as they are written. -/
  construct : Text
  offset : Nat
deriving DecidableEq, Repr

/-- What is wrong with a block. -/
inductive Fault where
  | unmatchedCloser
  | mismatchedCloser (expected : BlockKind)
  | orphanedClause (block : BlockKind)
  | unclosedOpener (block : BlockKind)
deriving DecidableEq, Repr

/-- A statement at which the block structure fails. -/
structure Imbalance where
  construct : Text
  offset : Nat
  fault : Fault
deriving DecidableEq, Repr

def Fault.message : Fault → String
  | .unmatchedCloser => "closer without a matching opener"
  | .mismatchedCloser block => "closer found where `" ++ block.closing ++ "` was expected"
  | .orphanedClause block => "clause outside an `" ++ block.opening ++ "` block"
  | .unclosedOpener block => "block is never closed by `" ++ block.closing ++ "`"

def Imbalance.message (e : Imbalance) : String :=
  e.fault.message ++ ": `" ++ String.ofList e.construct ++ "` at offset " ++ toString e.offset

end VbaWorkbench
