import VbaWorkbench.Name.Plan

namespace VbaWorkbench

/-- How keywords are spelled. -/
inductive KeywordStyle where
  | preserve
  | upper
  | lower
  | title
deriving DecidableEq, Repr

/-- What becomes of a continued line. -/
inductive ContinuationStyle where
  | preserve
  | collapseWhenShort
deriving DecidableEq, Repr

structure LayoutOptions where
  /-- The text for one level of depth. -/
  indentUnit : Text
  nameStyle : NameStyle
  keywordStyle : KeywordStyle
  continuationStyle : ContinuationStyle
  /-- The widest line that collapsing may make, indentation included. -/
  maxLineWidth : Nat
  /-- The longest run of blank lines that is kept. -/
  maxBlankLines : Nat
deriving DecidableEq, Repr

namespace LayoutOptions

def default : LayoutOptions :=
  ⟨"  ".toList, .preserve, .preserve, .preserve, 100, 2⟩

def withTabs : LayoutOptions :=
  { default with indentUnit := ['\t'] }

end LayoutOptions
end VbaWorkbench
