import VbaWorkbench.Block.Statement
import VbaWorkbench.Block.Tracker
import VbaWorkbench.Proofs.Token.LetterCase

namespace VbaWorkbench

/-- What a lexeme is to the block structure: the case of keywords does not matter. -/
def Lexeme.key (l : Lexeme) : Lexeme :=
  if l.kind = .keyword then l.lower else l

namespace Token

/-- What a token is to the block structure, wherever it stands. -/
def key (t : Token) : Token :=
  ⟨t.toLexeme.key, 0⟩

@[simp] theorem kind_key (t : Token) : t.key.kind = t.kind := by
  unfold key Lexeme.key
  split <;> rfl

theorem text_key_of_ne {t : Token} (h : t.kind ≠ .keyword) : t.key.text = t.text := by
  unfold key Lexeme.key
  rw [if_neg h]

@[simp] theorem isKeyword_key (word : String) (t : Token) :
    t.key.isKeyword word = t.isKeyword word := by
  unfold isKeyword
  rw [kind_key]
  by_cases h : t.kind = .keyword
  · have htext : t.key.text = Text.lowerAscii t.text := by
      unfold key Lexeme.key
      rw [if_pos h]
      rfl
    rw [htext, Text.sameAscii_lowerAscii]
  · rw [beq_eq_false_iff_ne.mpr h, Bool.false_and, Bool.false_and]

@[simp] theorem isPunctuation_key (c : Char) (t : Token) :
    t.key.isPunctuation c = t.isPunctuation c := by
  unfold isPunctuation
  rw [kind_key]
  by_cases h : t.kind = .punctuation
  · rw [text_key_of_ne (by simp [h])]
  · rw [beq_eq_false_iff_ne.mpr h, Bool.false_and, Bool.false_and]

/-- A change of tokens that leaves alone what tells the role of their statement, and changes offsets
by `g`. -/
structure Keeps (g : Nat → Nat) (f : Token → Token) : Prop where
  kind : ∀ t, (f t).kind = t.kind
  isKeyword : ∀ word t, (f t).isKeyword word = t.isKeyword word
  isPunctuation : ∀ c, c.isAlpha = false → ∀ t, (f t).isPunctuation c = t.isPunctuation c
  start : ∀ t, (f t).start = g t.start
  zero : g 0 = 0

theorem key_keeps : Keeps (fun _ => 0) key :=
  ⟨kind_key, isKeyword_key, fun c _ => isPunctuation_key c, fun _ => rfl, rfl⟩

namespace Keeps

variable {g : Nat → Nat} {f : Token → Token} (hf : Keeps g f)
include hf

theorem isModifier (t : Token) : (f t).isModifier = t.isModifier := by
  simp [Token.isModifier, hf.isKeyword]

theorem isSignificant (t : Token) : (f t).isSignificant = t.isSignificant := by
  rw [Token.isSignificant, hf.kind, Token.isSignificant]

theorem significant_map (tokens : List Token) :
    significant (tokens.map f) = (significant tokens).map f := by
  have hsame : Token.isSignificant ∘ f = Token.isSignificant := funext hf.isSignificant
  rw [significant, List.filter_map, hsame, significant]

theorem withoutLineNumber_map (tokens : List Token) :
    withoutLineNumber (tokens.map f) = (withoutLineNumber tokens).map f := by
  cases tokens with
  | nil => rfl
  | cons t tokens =>
    simp only [List.map_cons, withoutLineNumber, hf.kind]
    split <;> rfl

end Keeps
end Token

namespace Statement

section Maps

variable {g : Nat → Nat} {f : Token → Token} (hf : Token.Keeps g f)
include hf

theorem named?_map (table : List (String × BlockKind)) (t : Token) :
    named? table (f t) = named? table t := by
  simp only [named?, hf.isKeyword]

theorem declares?_map (lead : Token) (rest : List Token) :
    declares? (f lead) (rest.map f) = declares? lead rest := by
  cases rest <;> simp [declares?, hf.isKeyword, hf.kind]

variable {β : Type} {view view' : Statement → β}

/-- A view of statements that does not tell one after the change of its tokens from the one before.
It is enough to know the forms that a statement has. -/
structure View (f : Token → Token) (view' view : Statement → β) : Prop where
  empty : view' ⟨.plain, [], 0⟩ = view ⟨.plain, [], 0⟩
  bare : ∀ role t, view' ⟨role, [], (f t).start⟩ = view ⟨role, [], t.start⟩
  one : ∀ role t, view' ⟨role, (f t).text, (f t).start⟩ = view ⟨role, t.text, t.start⟩
  two : ∀ role t u, view' ⟨role, twoWords (f t) (f u), (f t).start⟩ =
    view ⟨role, twoWords t u, t.start⟩

variable (hview : View f view' view)
include hview

theorem ofIf_map (first : Token) (rest : List Token) (codeFollows : Bool) :
    view' (ofIf (f first) (rest.map f) codeFollows) = view (ofIf first rest codeFollows) := by
  have hthen : (fun t : Token => t.isKeyword "then") ∘ f = (·.isKeyword "then") :=
    funext (hf.isKeyword "then")
  unfold ofIf
  rw [List.findIdx?_map, hthen, List.length_map]
  cases rest.findIdx? (·.isKeyword "then") with
  | none => exact hview.bare _ first
  | some i =>
    simp only
    split
    · exact hview.one _ first
    · exact hview.bare _ first

theorem ofKeyword_map (first : Token) (rest : List Token) (codeFollows : Bool) :
    view' (ofKeyword (f first) (rest.map f) codeFollows) =
      view (ofKeyword first rest codeFollows) := by
  have hcommas : ((rest.map f).filter (·.isPunctuation ',')).length =
      (rest.filter (·.isPunctuation ',')).length := by
    have hcomma : (fun t : Token => t.isPunctuation ',') ∘ f = (·.isPunctuation ',') :=
      funext (hf.isPunctuation ',' rfl)
    rw [List.filter_map, List.length_map, hcomma]
  unfold ofKeyword
  simp only [hf.isKeyword, hcommas, named?_map hf]
  split
  · exact ofIf_map hf hview first rest codeFollows
  split
  · exact hview.one _ first
  split
  · exact hview.one _ first
  split
  · cases rest with
    | nil => exact hview.bare _ first
    | cons t rest =>
      simp only [List.map_cons, List.head?_cons, Option.filter_some, hf.isKeyword]
      cases t.isKeyword "case" with
      | false => exact hview.bare _ first
      | true => exact hview.two _ first t
  split
  · exact hview.one _ first
  split
  · exact hview.one _ first
  split
  · exact hview.one _ first
  split
  · cases rest with
    | nil => exact hview.bare _ first
    | cons t rest =>
      simp only [List.map_cons, named?_map hf]
      cases named? endTargets t with
      | none => exact hview.bare _ first
      | some kind => exact hview.two _ first t
  · cases named? loops first with
    | none => exact hview.bare _ first
    | some kind => exact hview.one _ first

theorem ofTokens_map (tokens : List Token) (codeFollows : Bool) :
    view' (ofTokens (tokens.map f) codeFollows) = view (ofTokens tokens codeFollows) := by
  have hmodifier : Token.isModifier ∘ f = Token.isModifier := funext hf.isModifier
  unfold ofTokens
  rw [hf.significant_map, hf.withoutLineNumber_map]
  cases withoutLineNumber (significant tokens) with
  | nil => exact hview.empty
  | cons first rest =>
    have hdrop : (f first :: rest.map f).dropWhile Token.isModifier =
        ((first :: rest).dropWhile Token.isModifier).map f := by
      rw [← List.map_cons, List.dropWhile_map, hmodifier]
    simp only [List.map_cons, hdrop]
    cases (first :: rest).dropWhile Token.isModifier with
    | nil => exact hview.bare _ first
    | cons lead following =>
      simp only [List.map_cons, declares?_map hf, hf.isModifier, hf.kind]
      cases declares? lead following with
      | some kind => exact hview.one _ lead
      | none =>
        simp only
        split
        · exact hview.bare _ first
        · exact ofKeyword_map hf hview first rest codeFollows

omit hview

/-- The role of a statement depends on what its words are kept to be. -/
theorem role_map (tokens : List Token) (codeFollows : Bool) :
    (ofTokens (tokens.map f) codeFollows).role = (ofTokens tokens codeFollows).role := by
  have hview : View f (fun s => s.role) fun s => s.role :=
    ⟨rfl, fun _ _ => rfl, fun _ _ => rfl, fun _ _ _ => rfl⟩
  exact ofTokens_map hf hview tokens codeFollows

/-- A statement stands where its first word after the modifiers stands. -/
theorem offset_map (tokens : List Token) (codeFollows : Bool) :
    (ofTokens (tokens.map f) codeFollows).offset = g (ofTokens tokens codeFollows).offset := by
  have hview : View f (fun s => s.offset) fun s => g s.offset :=
    ⟨hf.zero.symm, fun _ => hf.start, fun _ => hf.start, fun _ t _ => hf.start t⟩
  exact ofTokens_map hf hview tokens codeFollows

/-- The words that name a statement are among its texts. -/
theorem construct_map (htext : ∀ t, (f t).text = t.text) (tokens : List Token)
    (codeFollows : Bool) :
    (ofTokens (tokens.map f) codeFollows).construct = (ofTokens tokens codeFollows).construct := by
  have hview : View f (fun s => s.construct) fun s => s.construct :=
    ⟨rfl, fun _ _ => rfl, fun _ => htext, fun _ t u => by simp only [twoWords, htext]⟩
  exact ofTokens_map hf hview tokens codeFollows

end Maps

end Statement

/-- The error that the statement is at fault. -/
def Statement.failure (s : Statement) (fault : Fault) : Imbalance :=
  ⟨s.construct, s.offset, fault⟩

namespace Imbalance

/-- Where a statement fails when offsets are changed by `g`, and what is wrong with it. -/
def site (g : Nat → Nat) (e : Imbalance) : Nat × Fault :=
  (g e.offset, e.fault)

/-- Which statement fails, wherever it stands, and what is wrong with it. -/
def told (e : Imbalance) : Text × Fault :=
  (e.construct, e.fault)

/-- What is seen of an error after a change of tokens is what was seen of it before. -/
structure Same {β : Type} (g : Nat → Nat) (f : Token → Token) (seen' seen : Imbalance → β) :
    Prop where
  statement : ∀ words codeFollows fault,
    seen' ((Statement.ofTokens (words.map f) codeFollows).failure fault) =
      seen ((Statement.ofTokens words codeFollows).failure fault)
  unclosed : ∀ construct offset fault,
    seen' ⟨construct, g offset, fault⟩ = seen ⟨construct, offset, fault⟩

theorem site_same {g : Nat → Nat} {f : Token → Token} (hf : Token.Keeps g f) :
    Same g f (site id) (site g) where
  statement words codeFollows fault :=
    congrArg (Prod.mk · fault) (Statement.offset_map hf words codeFollows)
  unclosed _ _ _ := rfl

theorem told_same {g : Nat → Nat} {f : Token → Token} (hf : Token.Keeps g f)
    (htext : ∀ t, (f t).text = t.text) : Same g f told told where
  statement words codeFollows fault :=
    congrArg (Prod.mk · fault) (Statement.construct_map hf htext words codeFollows)
  unclosed _ _ _ := rfl

end Imbalance

/-- A frame after its offset is changed. -/
def Frame.move (g : Nat → Nat) (frame : Frame) : Frame :=
  { frame with offset := g frame.offset }

theorem Frame.kind_move (g : Nat → Nat) (frame : Frame) : (frame.move g).kind = frame.kind := rfl

/-- A frame wherever its statement stands. -/
def Frame.key (frame : Frame) : Frame :=
  { frame with offset := 0 }

namespace Tracker

/-- The open blocks after their offsets are changed. -/
def move (g : Nat → Nat) (t : Tracker) : Tracker :=
  ⟨t.stack.map (Frame.move g)⟩

@[simp] theorem depth_move (g : Nat → Nat) (t : Tracker) : (t.move g).depth = t.depth := by
  unfold depth move
  cases t.stack <;> rfl

section Moves

variable {β : Type} {g : Nat → Nat} {s s' : Statement} {seen seen' : Imbalance → β}
  (hseen : ∀ fault, seen' (s'.failure fault) = seen (s.failure fault))

include hseen in
theorem close_move (kind : BlockKind) (count depth : Nat) (stack : List Frame) :
    (close kind s' count depth (stack.map (Frame.move g))).1 =
        (close kind s count depth stack).1.map (Frame.move g) ∧
      (close kind s' count depth (stack.map (Frame.move g))).2.mapError seen' =
        (close kind s count depth stack).2.mapError seen := by
  induction count generalizing depth stack with
  | zero => exact ⟨rfl, rfl⟩
  | succ count ih =>
    cases stack with
    | nil => exact ⟨rfl, congrArg Except.error (hseen _)⟩
    | cons frame stack =>
      rw [List.map_cons, close, close, Frame.kind_move]
      by_cases hkind : frame.kind = kind
      · rw [if_pos hkind, if_pos hkind]
        exact ih (frame.level - 1) stack
      · rw [if_neg hkind, if_neg hkind]
        exact ⟨rfl, congrArg Except.error (hseen (.mismatchedCloser frame.kind))⟩

include hseen in
theorem enterClause_move (kind : BlockKind) (stack : List Frame) :
    (enterClause kind s' (stack.map (Frame.move g))).1 =
        (enterClause kind s stack).1.map (Frame.move g) ∧
      (enterClause kind s' (stack.map (Frame.move g))).2.mapError seen' =
        (enterClause kind s stack).2.mapError seen := by
  cases stack with
  | nil => exact ⟨rfl, congrArg Except.error (hseen _)⟩
  | cons frame stack =>
    rw [List.map_cons, enterClause, enterClause, Frame.kind_move]
    by_cases hkind : frame.kind = kind
    · rw [if_neg (not_not_intro hkind), if_neg (not_not_intro hkind)]
      by_cases hcase : kind = .selectCase
      · rw [if_pos hcase, if_pos hcase]
        exact ⟨rfl, rfl⟩
      · rw [if_neg hcase, if_neg hcase]
        exact ⟨rfl, rfl⟩
    · rw [if_pos hkind, if_pos hkind]
      exact ⟨rfl, congrArg Except.error (hseen (.orphanedClause kind))⟩

include hseen in
/-- A statement of the same role does the same elsewhere, and fails in the same way. -/
theorem apply_move (hrole : s'.role = s.role) (hoffset : s'.offset = g s.offset) (t : Tracker) :
    ((t.move g).apply s').1 = (t.apply s).1.move g ∧
      ((t.move g).apply s').2.mapError seen' = (t.apply s).2.mapError seen := by
  unfold apply
  rw [hrole, depth_move]
  cases s.role with
  | plain | singleLineIf => exact ⟨rfl, rfl⟩
  | opener kind => exact ⟨by simp [move, Frame.move, hoffset], rfl⟩
  | closer kind count =>
    obtain ⟨hstack, hresult⟩ := close_move hseen kind count t.depth t.stack
    exact ⟨congrArg mk hstack, hresult⟩
  | clause kind =>
    obtain ⟨hstack, hresult⟩ := enterClause_move hseen kind t.stack
    exact ⟨congrArg mk hstack, hresult⟩

theorem finish_move {f : Token → Token} (hsame : Imbalance.Same g f seen' seen) (t : Tracker) :
    (t.move g).finish.mapError seen' = t.finish.mapError seen := by
  obtain ⟨stack⟩ := t
  cases stack with
  | nil => rfl
  | cons frame stack => exact congrArg Except.error (hsame.unclosed _ _ _)

end Moves

/-- The open blocks wherever their statements stand. -/
def key (t : Tracker) : List Frame :=
  t.stack.map Frame.key

theorem move_of_key_eq {t t' : Tracker} (h : t'.key = t.key) :
    t'.move (fun _ => 0) = t.move fun _ => 0 :=
  congrArg mk h

theorem finish_of_key_eq {t t' : Tracker} (hkey : t'.key = t.key) (h : t.finish = .ok ()) :
    t'.finish = .ok () := by
  obtain ⟨stack⟩ := t
  cases stack with
  | cons frame stack => cases h
  | nil =>
    rw [finish, List.map_eq_nil_iff.mp hkey]

end Tracker
end VbaWorkbench
