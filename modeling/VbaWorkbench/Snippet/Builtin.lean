import VbaWorkbench.Snippet.Registry

namespace VbaWorkbench.Snippet.Builtin

def braced (s : String) : String :=
  "\x7b\x7b" ++ s ++ "\x7d\x7d"

/-- The tag that opens a conditional on a flag. -/
def when (flag : String) : String :=
  braced ("#if " ++ flag)

/-- The tag that closes it. -/
def endWhen : String :=
  braced "/if"

/-- The lines of a body, each with its line feed. -/
def lines (ls : List String) : Text :=
  ls.flatMap fun l => l.toList ++ ['\n']

def placeholder (name : String) (kind : PlaceholderKind) (default : Option Value) : Placeholder :=
  ⟨name.toList, kind, default, [], none, none⟩

def text (s : String) : Option Value :=
  some (.text s.toList)

def choice (name : String) (choices : List String) (default : String) : Placeholder :=
  { placeholder name .enumChoice (text default) with choices := choices.map String.toList }

def loopOverRange : Template where
  id := "loop-over-range".toList
  version := "1.1".toList
  description := "Counted loop over every element of an array".toList
  placeholders := [
    placeholder "startVar" .identifier (text "i"),
    placeholder "collectionName" .identifier none,
    { placeholder "step" .integer (some (.integer 1)) with min := some 1, max := some 1000 },
    placeholder "declareCounter" .boolean (some (.boolean true))]
  body :=
    let counter := braced "startVar"
    let collection := braced "collectionName"
    lines [
      when "declareCounter",
      "Dim " ++ counter ++ " As Long",
      endWhen,
      "For " ++ counter ++ " = LBound(" ++ collection ++ ") To UBound(" ++ collection ++ ") Step " ++
        braced "step",
      "    Debug.Print " ++ collection ++ "(" ++ counter ++ ")",
      "Next " ++ counter]

def forEachCell : Template where
  id := "for-each-cell".toList
  version := "1.0".toList
  description := "Visit each non-empty cell of a worksheet range".toList
  placeholders := [
    placeholder "cellVar" .identifier (text "cell"),
    placeholder "sheetName" .string (text "Sheet1"),
    placeholder "address" .string (text "A1:A10")]
  body :=
    let cell := braced "cellVar"
    lines [
      "Dim " ++ cell ++ " As Range",
      "For Each " ++ cell ++ " In ThisWorkbook.Worksheets(\"" ++ braced "sheetName" ++
        "\").Range(\"" ++ braced "address" ++ "\").Cells",
      "    If Not IsEmpty(" ++ cell ++ ".Value) Then",
      "        Debug.Print " ++ cell ++ ".Address, " ++ cell ++ ".Value",
      "    End If",
      "Next " ++ cell]

def subWithErrorHandler : Template where
  id := "sub-with-error-handler".toList
  version := "2.0".toList
  description := "Sub procedure with an optional error-handling block".toList
  placeholders := [
    placeholder "procName" .identifier none,
    choice "scope" ["Public", "Private"] "Public",
    placeholder "includeErrorHandling" .boolean (some (.boolean true))]
  body := lines [
    braced "scope" ++ " Sub " ++ braced "procName" ++ "()",
    when "includeErrorHandling",
    "    On Error GoTo ErrHandler",
    endWhen,
    "",
    "    ' Procedure body",
    "",
    when "includeErrorHandling",
    "ExitProc:",
    "    Exit Sub",
    "",
    "ErrHandler:",
    "    MsgBox \"Error \" & Err.Number & \": \" & Err.Description, vbExclamation, \"" ++
      braced "procName" ++ "\"",
    "    Resume ExitProc",
    endWhen,
    "End Sub"]

def functionSkeleton : Template where
  id := "function-skeleton".toList
  version := "1.0".toList
  description := "Function with a typed return value".toList
  placeholders := [
    placeholder "funcName" .identifier none,
    choice "returnType" ["Variant", "String", "Long", "Double", "Boolean", "Date"] "Variant",
    choice "scope" ["Public", "Private"] "Public"]
  body := lines [
    braced "scope" ++ " Function " ++ braced "funcName" ++ "() As " ++ braced "returnType",
    "    ' Assign the result before leaving",
    "    " ++ braced "funcName" ++ " = Empty",
    "End Function"]

def lastRow : Template where
  id := "last-row".toList
  version := "1.0".toList
  description := "Last used row of a worksheet column".toList
  placeholders := [
    placeholder "resultVar" .identifier (text "lastRow"),
    placeholder "sheetName" .string (text "Sheet1"),
    placeholder "column" .string (text "A")]
  body := lines [
    "Dim " ++ braced "resultVar" ++ " As Long",
    "With ThisWorkbook.Worksheets(\"" ++ braced "sheetName" ++ "\")",
    "    " ++ braced "resultVar" ++ " = .Cells(.Rows.Count, \"" ++ braced "column" ++
      "\").End(xlUp).Row",
    "End With"]

def templates : List Template :=
  [loopOverRange, forEachCell, subWithErrorHandler, functionSkeleton, lastRow]

/-- The registry of the templates above. -/
def registry : Except RegistryError Registry :=
  Registry.ofTemplates templates

end VbaWorkbench.Snippet.Builtin
