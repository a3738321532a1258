import VbaWorkbench.Yaml.Property

namespace VbaWorkbench.Yaml

/-- How a scalar is written. -/
inductive Style where
  | plain
  | quoted
  /-- With its line breaks, below an upright bar. -/
  | literal
  | folded
deriving DecidableEq, Repr

/-- The signs of a document, and the beginnings and ends of its blocks. -/
inductive Token where
  | directive (d : Directive)
  | documentStart
  | documentEnd
  | sequenceStart
  | mappingStart
  | blockEnd
  | openBracket
  | closeBracket
  | openBrace
  | closeBrace
  | comma
  | dash
  /-- A key begins here. -/
  | key
  | colon
  | anchor (name : Text)
  | alias (name : Text)
  | tag (t : Tag)
  | scalar (text : Text) (style : Style)
deriving DecidableEq, Repr

end VbaWorkbench.Yaml
