import VbaWorkbench.Yaml.Token

namespace VbaWorkbench.Yaml

/-- A document's content. What a scalar means is left to the one who reads it. -/
inductive Value where
  | scalar (text : Text) (style : Style) (tag : Option TagName)
  | sequence (items : List Value)
  | mapping (entries : List (Value × Value))
  /-- A node with the number that its aliases have. -/
  | named (number : Nat) (v : Value)
  | alias (number : Nat)
deriving Repr

namespace Value

/-- Where nothing is written. -/
def absent : Value := scalar [] .plain none

end Value

/-- The full name of a tag of the language itself. -/
def coreTag (name : String) : TagName :=
  TagName.ofAscii ("tag:yaml.org,2002:".toList ++ name.toList)

def isNullText (t : Text) : Bool :=
  ["null", "Null", "NULL", "~"].any (·.toList == t)

def boolean? (t : Text) : Option Bool :=
  if ["true", "True", "TRUE"].any (·.toList == t) then some true
  else if ["false", "False", "FALSE"].any (·.toList == t) then some false
  else none

end VbaWorkbench.Yaml
