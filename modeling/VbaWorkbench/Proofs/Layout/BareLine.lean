import VbaWorkbench.Line.Basic
import VbaWorkbench.Proofs.Token.Coverage

namespace VbaWorkbench

/-- A line without the offsets of its tokens. -/
structure BareLine where
  lexemes : List Lexeme
  newline : Option Lexeme
deriving DecidableEq, Repr

def Line.bare (line : Line) : BareLine :=
  ⟨line.tokens.map (·.toLexeme), line.newline.map (·.toLexeme)⟩

namespace BareLine

/-- The lexemes of the line and its newline. -/
def all (line : BareLine) : List Lexeme :=
  line.lexemes ++ line.newline.toList

/-- The lexemes of lines that stand one after the other. -/
def flatten (lines : List BareLine) : List Lexeme :=
  lines.flatMap all

@[simp] theorem flatten_nil : flatten [] = [] :=
  rfl

@[simp] theorem flatten_cons (line : BareLine) (lines : List BareLine) :
    flatten (line :: lines) = line.all ++ flatten lines :=
  List.flatMap_cons

theorem flatten_ended (ls : List Lexeme) (nl : Lexeme) (lines : List BareLine) :
    flatten (⟨ls, some nl⟩ :: lines) = ls ++ nl :: flatten lines := by
  simp [all]

theorem flatten_end (ls : List Lexeme) : flatten [⟨ls, none⟩] = ls := by
  simp [all]

/-- Each line but the last ends with its only newline. -/
inductive Ruled : List BareLine → Prop
  | last (ls : List Lexeme) : (∀ l ∈ ls, l.kind ≠ .newline) → Ruled [⟨ls, none⟩]
  | line (ls : List Lexeme) (nl : Lexeme) (lines : List BareLine) :
      (∀ l ∈ ls, l.kind ≠ .newline) → nl.kind = .newline → Ruled lines →
      Ruled (⟨ls, some nl⟩ :: lines)

theorem Ruled.first {line : BareLine} {lines : List BareLine} (h : Ruled (line :: lines)) :
    (line.newline = none ∧ lines = []) ∨ (∃ nl, line.newline = some nl) ∧ Ruled lines := by
  cases h with
  | last ls hls => exact .inl ⟨rfl, rfl⟩
  | line ls nl lines hls hnl hrest => exact .inr ⟨⟨nl, rfl⟩, hrest⟩

end BareLine

namespace Line

theorem bare_push (t : Token) (lines : List Line) :
    (push t lines).map bare =
      match lines.map bare with
      | [] => [⟨[t.toLexeme], none⟩]
      | line :: lines => ⟨t.toLexeme :: line.lexemes, line.newline⟩ :: lines := by
  cases lines <;> rfl

/-- The lines of a source are its lexemes, cut after each newline. -/
theorem bare_ofTokens (start : Nat) (ls : List Lexeme) (h : ∀ l ∈ ls, l.kind ≠ .endOfInput) :
    let lines := (ofTokens (Token.place start (ls ++ [⟨.endOfInput, []⟩]))).map bare
    BareLine.Ruled lines ∧ BareLine.flatten lines = ls := by
  induction ls generalizing start with
  | nil => exact ⟨.last [] (by simp), rfl⟩
  | cons l ls ih =>
    obtain ⟨hruled, hflat⟩ := ih (start + Text.byteLength l.text) fun m hm => h m (by simp [hm])
    have hl := h l (by simp)
    by_cases hk : l.kind = .newline
    · have hlines : ofTokens (Token.place start (l :: ls ++ [⟨.endOfInput, []⟩])) =
          ⟨[], some ⟨l, start⟩⟩ :: ofTokens
            (Token.place (start + Text.byteLength l.text) (ls ++ [⟨.endOfInput, []⟩])) := by
        rw [List.cons_append, Token.place, ofTokens]
        simp only [hk]
      rw [hlines]
      exact ⟨.line [] l _ (by simp) hk hruled, congrArg (l :: ·) hflat⟩
    · have hlines : ofTokens (Token.place start (l :: ls ++ [⟨.endOfInput, []⟩])) =
          push ⟨l, start⟩ (ofTokens
            (Token.place (start + Text.byteLength l.text) (ls ++ [⟨.endOfInput, []⟩]))) := by
        rw [List.cons_append, Token.place, ofTokens]
        split
        · contradiction
        · contradiction
        · rfl
      simp only [hlines, bare_push]
      generalize (ofTokens (Token.place (start + Text.byteLength l.text)
        (ls ++ [⟨.endOfInput, []⟩]))).map bare = lines at hruled hflat
      have hcons : ∀ ms : List Lexeme, (∀ m ∈ ms, m.kind ≠ .newline) →
          ∀ m ∈ l :: ms, m.kind ≠ .newline := by
        intro ms hms m hm
        rcases List.mem_cons.mp hm with rfl | hm
        · exact hk
        · exact hms m hm
      cases hruled with
      | last ms hms =>
        exact ⟨.last (l :: ms) (hcons ms hms), congrArg (l :: ·) hflat⟩
      | line ms nl lines hms hnl hrest =>
        exact ⟨.line (l :: ms) nl lines (hcons ms hms) hnl hrest, congrArg (l :: ·) hflat⟩

end Line

namespace BareLine

theorem append_newline_inj {ls ls' more more' : List Lexeme} {nl nl' : Lexeme}
    (h : ∀ l ∈ ls, l.kind ≠ .newline) (h' : ∀ l ∈ ls', l.kind ≠ .newline)
    (hnl : nl.kind = .newline) (hnl' : nl'.kind = .newline)
    (he : ls ++ nl :: more = ls' ++ nl' :: more') : ls = ls' ∧ nl = nl' ∧ more = more' := by
  induction ls generalizing ls' with
  | nil =>
    cases ls' with
    | nil => exact ⟨rfl, List.cons.inj he⟩
    | cons m ls' =>
      obtain ⟨rfl, -⟩ := List.cons.inj he
      exact absurd hnl (h' nl (by simp))
  | cons l ls ih =>
    cases ls' with
    | nil =>
      obtain ⟨rfl, -⟩ := List.cons.inj he
      exact absurd hnl' (h l (by simp))
    | cons m ls' =>
      rw [List.cons_append, List.cons_append, List.cons.injEq] at he
      have hrest := ih (fun n hn => h n (by simp [hn])) (fun n hn => h' n (by simp [hn])) he.2
      exact ⟨by rw [he.1, hrest.1], hrest.2⟩

/-- Lines are determined by their lexemes. -/
theorem Ruled.eq_of_flatten {lines lines' : List BareLine} (h : Ruled lines) (h' : Ruled lines')
    (he : flatten lines = flatten lines') : lines = lines' := by
  induction h generalizing lines' with
  | last ls hls =>
    cases h' with
    | last ls' _ =>
      have hls' : ls = ls' := by simpa [all] using he
      rw [hls']
    | line ls' nl' lines' _ hnl' _ =>
      have hmem : nl' ∈ ls := by
        rw [show ls = flatten [⟨ls, none⟩] by simp [all], he]
        simp [all]
      exact absurd hnl' (hls nl' hmem)
  | line ls nl lines hls hnl _ ih =>
    cases h' with
    | last ls' hls' =>
      have hmem : nl ∈ ls' := by
        rw [show ls' = flatten [⟨ls', none⟩] by simp [all], ← he]
        simp [all]
      exact absurd hnl (hls' nl hmem)
    | line ls' nl' lines' hls' hnl' hrest' =>
      have hsplit : ls ++ nl :: flatten lines = ls' ++ nl' :: flatten lines' := by
        simpa [all, List.append_assoc] using he
      obtain ⟨rfl, rfl, hrest⟩ := append_newline_inj hls hls' hnl hnl' hsplit
      rw [ih hrest' hrest]

end BareLine

/-- The lines of a source are all that is read of it. -/
theorem ruled_ofTokens (source : Text) :
    BareLine.Ruled ((Line.ofTokens (tokenize source)).map Line.bare) ∧
      BareLine.flatten ((Line.ofTokens (tokenize source)).map Line.bare) =
        scanFrom .initial source :=
  Line.bare_ofTokens 0 _ fun l hl => ((scanFrom_reads .initial source).2.2 l hl).2

/-- What is read where nothing follows is the list of lines. -/
theorem tokenize_lines {source : Text} {lines : List BareLine} (hruled : BareLine.Ruled lines)
    (h : scanFrom .initial source = BareLine.flatten lines) :
    (Line.ofTokens (tokenize source)).map Line.bare = lines := by
  obtain ⟨hr, hf⟩ := ruled_ofTokens source
  exact hr.eq_of_flatten hruled (hf.trans h)

end VbaWorkbench
