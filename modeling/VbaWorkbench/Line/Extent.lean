import VbaWorkbench.Line.Basic

namespace VbaWorkbench

/-- The token positions `first, …, stop - 1`. -/
structure TokenRange where
  first : Nat
  stop : Nat
deriving DecidableEq, Repr

/-- Where a line and its parts stand in the token stream. -/
structure Extent where
  tokens : TokenRange
  newline : Option Nat
  statements : List TokenRange
  segments : List TokenRange
  significant : List Nat
deriving DecidableEq, Repr

namespace Extent

/-- The ranges of parts that are one token apart. -/
def ranges (first : Nat) : List (List Token) → List TokenRange
  | [] => []
  | part :: parts =>
    ⟨first, first + part.length⟩ :: ranges (first + part.length + 1) parts

def ofLine (first : Nat) (line : Line) : Extent where
  tokens := ⟨first, first + line.tokens.length⟩
  newline := line.newline.map fun _ => first + line.tokens.length
  statements := ranges first line.statements
  segments := ranges first line.segments
  significant := ((line.tokens.zipIdx first).filter (·.1.isSignificant)).map (·.2)

/-- One token, the newline or the end marker, stands between a line and the next. -/
def ofLines (first : Nat) : List Line → List Extent
  | [] => []
  | line :: lines => ofLine first line :: ofLines (first + line.tokens.length + 1) lines

end Extent
end VbaWorkbench
