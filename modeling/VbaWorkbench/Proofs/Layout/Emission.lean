import VbaWorkbench.Layout.Format
import VbaWorkbench.Proofs.Layout.BareLine
import VbaWorkbench.Proofs.Token.LetterCase
import VbaWorkbench.Proofs.Token.Moving

namespace VbaWorkbench.Layout

/-- The lexemes between the continuations of a line. -/
def cut (ls : List Lexeme) : List (List Lexeme) :=
  ls.splitOnP (·.kind == .lineContinuation)

def isBlankLexeme (l : Lexeme) : Bool :=
  l.kind == .whitespace

def coreLexemes (ls : List Lexeme) : List Lexeme :=
  ((ls.dropWhile isBlankLexeme).reverse.dropWhile isBlankLexeme).reverse

/-- The pieces of a line that have something in them. -/
def cores (ls : List Lexeme) : List (List Lexeme) :=
  ((cut ls).map coreLexemes).filter (!·.isEmpty)

def trimmed (p : List Lexeme) : List Lexeme :=
  p.map Lexeme.trim

/-- A gap inside a line, if it is any. -/
def blankLexemes (t : Text) : List Lexeme :=
  if t = [] then [] else [⟨.whitespace, t⟩]

/-- The indentation of a piece. -/
def indentLexemes (indent : Text) (p : List Lexeme) : List Lexeme :=
  if Lexeme.sourceText p = ['_'] then [] else blankLexemes indent

/-- What stands between two pieces that are joined. -/
def joint (_ : List Lexeme) : List Lexeme :=
  [⟨.whitespace, [' ']⟩]

/-- What stands between two pieces on lines of their own, the second of which is `p`. -/
def continuation (hanging newline : Text) (p : List Lexeme) : List Lexeme :=
  [⟨.whitespace, [' ']⟩, ⟨.lineContinuation, '_' :: newline⟩] ++ indentLexemes hanging p

/-- Pieces with gaps before all but the first. -/
def spaced (gap : List Lexeme → List Lexeme) (p : List Lexeme) (ps : List (List Lexeme)) :
    List Lexeme :=
  p ++ ps.flatMap fun q => gap q ++ q

@[simp] theorem spaced_nil (gap : List Lexeme → List Lexeme) (p : List Lexeme) :
    spaced gap p [] = p :=
  List.append_nil p

theorem spaced_cons (gap : List Lexeme → List Lexeme) (p q : List Lexeme)
    (ps : List (List Lexeme)) : spaced gap p (q :: ps) = p ++ (gap q ++ spaced gap q ps) := by
  simp [spaced]

/-- A line at a depth as lexemes. -/
def laid (options : LayoutOptions) (newline : Text) (depth : Nat) : List (List Lexeme) → List Lexeme
  | [] => []
  | p :: ps =>
    let indent := Text.repeated options.indentUnit depth
    if ps ≠ [] ∧ (collapsed? options indent ((p :: ps).map Lexeme.sourceText)).isSome = true then
      blankLexemes indent ++ spaced joint p ps
    else
      indentLexemes indent p ++ spaced (continuation (indent ++ options.indentUnit) newline) p ps

theorem sourceText_blankLexemes (t : Text) : Lexeme.sourceText (blankLexemes t) = t := by
  unfold blankLexemes
  split
  · rename_i h
    rw [h]
    rfl
  · exact List.append_nil t

theorem sourceText_indented (indent : Text) (p : List Lexeme) :
    Lexeme.sourceText (indentLexemes indent p ++ p) = indented indent (Lexeme.sourceText p) := by
  rw [Lexeme.sourceText_append, indentLexemes, indented]
  split
  · rfl
  · rw [sourceText_blankLexemes]

theorem sourceText_joined (p : List Lexeme) (ps : List (List Lexeme)) :
    Lexeme.sourceText (spaced joint p ps) =
      Text.joined [' '] ((p :: ps).map Lexeme.sourceText) := by
  induction ps generalizing p with
  | nil => simp [spaced, Text.joined]
  | cons q ps ih =>
    rw [spaced_cons, Lexeme.sourceText_append, Lexeme.sourceText_append, ih, ← List.append_assoc]
    rfl

theorem sourceText_continued (hanging newline : Text) (p : List Lexeme) (ps : List (List Lexeme)) :
    Lexeme.sourceText (spaced (continuation hanging newline) p ps) =
      Lexeme.sourceText p ++ continued hanging newline (ps.map Lexeme.sourceText) := by
  rw [spaced, Lexeme.sourceText_append]
  congr 1
  induction ps with
  | nil => rfl
  | cons q ps ih =>
    rw [List.flatMap_cons, Lexeme.sourceText_append, ih, continuation, List.append_assoc,
      Lexeme.sourceText_append, sourceText_indented]
    simp [continued]

theorem collapsed?_eq {options : LayoutOptions} {indent text : Text} {pieces : List Text}
    (h : collapsed? options indent pieces = some text) :
    text = indent ++ Text.joined [' '] pieces := by
  simp only [collapsed?] at h
  split at h
  · exact (Option.some.inj h).symm
  · cases h

theorem collapsed?_last {options : LayoutOptions} {indent : Text} {pieces : List Text}
    (h : (collapsed? options indent pieces).isSome = true) : pieces.getLast? ≠ some ['_'] := by
  simp only [collapsed?] at h
  split at h
  · rename_i hc
    exact hc.2.1
  · cases h

/-- The lexemes of a line spell it. -/
theorem sourceText_laid (options : LayoutOptions) (newline : Text) (depth : Nat)
    (ps : List (List Lexeme)) :
    Lexeme.sourceText (laid options newline depth ps) =
      emit options newline depth (ps.map Lexeme.sourceText) := by
  match ps with
  | [] => rfl
  | [p] =>
    rw [laid, if_neg (fun h => h.1 rfl), spaced_nil, sourceText_indented]
    rfl
  | p :: q :: ps =>
    simp only [laid, ne_eq, reduceCtorEq, not_false_eq_true, true_and]
    cases hc : collapsed? options (Text.repeated options.indentUnit depth)
        ((p :: q :: ps).map Lexeme.sourceText) with
    | some text =>
      rw [if_pos (by simp), Lexeme.sourceText_append, sourceText_blankLexemes, sourceText_joined,
        ← collapsed?_eq hc]
      simp only [List.map_cons] at hc
      simp only [List.map_cons, emit, hc, Option.getD_some]
    | none =>
      rw [if_neg (by simp), Lexeme.sourceText_append, sourceText_continued, ← List.append_assoc,
        ← Lexeme.sourceText_append, sourceText_indented]
      simp only [List.map_cons] at hc
      simp only [List.map_cons, emit, hc, Option.getD_none]

end VbaWorkbench.Layout
