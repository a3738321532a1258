import VbaWorkbench.Line.Basic
import VbaWorkbench.Text.Lowercase
import VbaWorkbench.Token.Suffix

namespace VbaWorkbench.TypeTag

/-- The tags of the types that have one of their own. -/
def table : List (String × String) := [
  ("string", "str"), ("long", "lng"), ("integer", "int"), ("boolean", "bln"), ("double", "dbl"),
  ("single", "sng"), ("date", "dt"), ("variant", "var"), ("object", "obj"), ("currency", "cur"),
  ("byte", "byt"), ("decimal", "dec"), ("longlong", "llng"), ("longptr", "lptr"),
  ("range", "rng"), ("worksheet", "ws"), ("workbook", "wb"), ("collection", "col"),
  ("dictionary", "dict"), ("recordset", "rs")]

/-- Any other type is a class. -/
def ofType (name : Text) : Text :=
  match table.find? (·.1.toList == name) with
  | some (_, tag) => tag.toList
  | none => "obj".toList

def ofSuffix (suffix : Char) : Text :=
  match suffix with
  | '$' => "str".toList
  | '%' => "int".toList
  | '&' => "lng".toList
  | '!' => "sng".toList
  | '#' => "dbl".toList
  | '@' => "cur".toList
  | _ => "var".toList

/-- The last name of a dotted path such as `Excel.Range`, in lower case. -/
def typeName? : List Token → Option Text
  | [] => none
  | t :: rest =>
    if t.kind = .identifier ∨ t.kind = .keyword then
      let name := Text.lowercase (TypeSuffix.strip t.text)
      match rest with
      | dot :: path => if dot.isPunctuation '.' then (typeName? path).or (some name) else some name
      | [] => some name
    else none

/-- What follows the first `As` outside brackets. -/
def typeClause? (depth : Nat) : List Token → Option (List Token)
  | [] => none
  | t :: rest =>
    if t.isPunctuation '(' then typeClause? (depth + 1) rest
    else if t.isPunctuation ')' then typeClause? (depth - 1) rest
    else if depth = 0 ∧ t.isKeyword "as" then some rest
    else typeClause? depth rest

/-- The tag of a declared name, from `As [New] Type` or else from the name's type suffix. -/
def ofDeclarator? (declarator : List Token) : Option Text :=
  match typeClause? 0 declarator with
  | some (t :: rest) => (typeName? (if t.isKeyword "new" then rest else t :: rest)).map ofType
  | some [] => none
  | none => (declarator.head?.bind fun t => TypeSuffix.of? t.text).map ofSuffix

end VbaWorkbench.TypeTag
