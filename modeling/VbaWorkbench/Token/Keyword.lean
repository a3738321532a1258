import VbaWorkbench.Text.Basic

namespace VbaWorkbench.Keyword

/-- The reserved words in the spelling that the editor gives them. -/
def spellings : List String := [
  "AddressOf", "Alias", "And", "Any", "As", "Boolean", "ByRef", "Byte", "ByVal", "Call",
  "Case", "Close", "Const", "Currency", "Date", "Decimal", "Declare", "DefBool", "DefByte",
  "DefCur", "DefDate", "DefDbl", "DefInt", "DefLng", "DefLngLng", "DefLngPtr", "DefObj",
  "DefSng", "DefStr", "DefVar", "Dim", "Do", "Double", "Each", "Else", "ElseIf", "Empty",
  "End", "Enum", "Eqv", "Erase", "Error", "Event", "Exit", "Explicit", "False", "For",
  "Friend", "Function", "Get", "Global", "GoSub", "GoTo", "If", "Imp", "Implements", "In",
  "Input", "Integer", "Is", "Let", "Lib", "Like", "Lock", "Long", "LongLong", "LongPtr",
  "Loop", "LSet", "Me", "Mod", "New", "Next", "Not", "Nothing", "Null", "Object", "On",
  "Open", "Option", "Optional", "Or", "ParamArray", "Preserve", "Print", "Private",
  "Property", "PtrSafe", "Public", "Put", "RaiseEvent", "ReDim", "Rem", "Resume", "Return",
  "RSet", "Select", "Set", "Single", "Static", "Step", "Stop", "String", "Sub", "Then", "To",
  "True", "Type", "TypeOf", "Until", "Variant", "Wend", "While", "With", "WithEvents",
  "Write", "Xor"]

/-- The editor's spelling of a reserved word written in any ASCII case. -/
def canonical? (word : Text) : Option Text :=
  (spellings.map String.toList).find? (Text.sameAscii word)

def isKeyword (word : Text) : Bool :=
  (canonical? word).isSome

end VbaWorkbench.Keyword
