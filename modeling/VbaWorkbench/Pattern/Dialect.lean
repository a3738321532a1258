namespace VbaWorkbench.Pattern

/-- Constructs that other dialects have. They are reported and left out. -/
inductive ForeignConstruct where
  | lookbehind
  | namedGroup
  | namedBackreference
  | unicodeProperty
  | possessiveQuantifier
  | atomicGroup
  | inlineModifier
  | absoluteAnchor
deriving DecidableEq, Repr

namespace ForeignConstruct

/-- Every foreign construct, in the order of the dialect's description. -/
def all : List ForeignConstruct :=
  [lookbehind, namedGroup, namedBackreference, unicodeProperty, possessiveQuantifier, atomicGroup,
    inlineModifier, absoluteAnchor]

def name : ForeignConstruct → String
  | lookbehind => "lookbehind"
  | namedGroup => "named group"
  | namedBackreference => "named backreference"
  | unicodeProperty => "unicode property escape"
  | possessiveQuantifier => "possessive quantifier"
  | atomicGroup => "atomic group"
  | inlineModifier => "inline modifier"
  | absoluteAnchor => "absolute anchor"

/-- What the author of the pattern is told. -/
def advice : ForeignConstruct → String
  | lookbehind => "VBA RegExp has no lookbehind; the assertion was ignored"
  | namedGroup => "VBA RegExp has no named groups; the group was ignored"
  | namedBackreference => "VBA RegExp has no named backreferences; use \\1..\\9"
  | unicodeProperty => "VBA RegExp has no Unicode property escapes; use an explicit class"
  | possessiveQuantifier => "VBA RegExp has no possessive quantifiers; the extra `+` was ignored"
  | atomicGroup => "VBA RegExp has no atomic groups; the group was ignored"
  | inlineModifier =>
    "VBA RegExp has no inline modifiers; use the IgnoreCase/MultiLine properties"
  | absoluteAnchor => "VBA RegExp has no absolute anchors; use ^ and $ without MultiLine"

end ForeignConstruct

/-- A foreign construct at its byte offset in the pattern. -/
structure Warning where
  construct : ForeignConstruct
  offset : Nat
deriving DecidableEq, Repr

/-- The constructs of the dialect. -/
def supportedConstructs : List String :=
  ["literal", "any character", "line anchors", "greedy and lazy quantifiers", "character class",
    "capturing group", "non-capturing group", "lookahead", "alternation", "backreference",
    "word boundary", "class escape", "control escape", "octal escape"]

end VbaWorkbench.Pattern
