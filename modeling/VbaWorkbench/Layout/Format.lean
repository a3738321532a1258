import VbaWorkbench.Block.Statement
import VbaWorkbench.Block.Tracker
import VbaWorkbench.Layout.Pieces
import VbaWorkbench.Token.Scan

namespace VbaWorkbench

namespace Layout

/-- Takes the statements of a line into account, up to a single-line `If`. The depth is that of the
first statement with code. -/
def follow (tracker : Tracker) (depth : Option Nat) :
    List (List Token) → Except Imbalance (Tracker × Option Nat)
  | [] => .ok (tracker, depth)
  | words :: rest =>
    if words.isEmpty then follow tracker depth rest
    else
      let statement := Statement.ofTokens words (rest.any (!·.isEmpty))
      match tracker.apply statement with
      | (_, .error e) => .error e
      | (tracker, .ok d) =>
        let depth := depth.or (some d)
        if statement.role = .singleLineIf then .ok (tracker, depth)
        else follow tracker depth rest

/-- Labels, line numbers and directives stand at the left margin. -/
def atMargin (statements : List (List Token)) : Bool :=
  match statements with
  | (lead :: words) :: rest =>
    lead.isPunctuation '#' || lead.kind == .numericLiteral ||
      (lead.kind == .identifier && words.isEmpty && !rest.isEmpty)
  | _ => false

/-- The depth of a line and the open blocks after it. -/
def lineDepth (tracker : Tracker) (line : Line) : Except Imbalance (Tracker × Nat) :=
  let statements := line.statements.map significant
  (follow tracker none statements).map fun (tracker, depth) =>
    (tracker, if atMargin statements then 0 else depth.getD tracker.depth)

/-- A line with its newline, if it has one. -/
def ended (newline : Text) (line : Line) (text : Text) : Text :=
  if line.newline.isSome then text ++ newline else text

/-- The text of the lines from here on. `blanks` is the length of the run of blank lines just
before. -/
def formatLines (options : LayoutOptions) (plan : RenamePlan) (newline : Text)
    (tracker : Tracker) (blanks : Nat) : List Line → Except Imbalance Text
  | [] => tracker.finish.map fun _ => []
  | line :: lines =>
    if line.isBlank then
      let blanks := if line.newline.isSome then blanks + 1 else blanks
      let text := if blanks ≤ options.maxBlankLines then ended newline line [] else []
      (formatLines options plan newline tracker blanks lines).map (text ++ ·)
    else
      match lineDepth tracker line with
      | .error e => .error e
      | .ok (tracker, depth) =>
        let text := emit options newline depth (pieces options plan line)
        (formatLines options plan newline tracker 0 lines).map (ended newline line text ++ ·)

/-- The source's first newline; sources without one get a line feed. -/
def newlineOf (tokens : List Token) : Text :=
  ((tokens.find? (·.kind == .newline)).map (·.text)).getD ['\n']

end Layout

/-- Lays out a source anew. A source whose blocks do not balance has no layout. -/
def format (options : LayoutOptions) (source : Text) : Except Imbalance Text :=
  let tokens := tokenize source
  let lines := Line.ofTokens tokens
  Layout.formatLines options (RenamePlan.ofLines options.nameStyle lines)
    (Layout.newlineOf tokens) .empty 0 lines

end VbaWorkbench
