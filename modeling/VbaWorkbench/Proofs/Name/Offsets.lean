import VbaWorkbench.Name.Plan
import VbaWorkbench.Proofs.Layout.Depth

namespace VbaWorkbench

section Maps

variable {g : Nat → Nat} {f : Token → Token} (hf : Token.Keeps g f)
  (htext : ∀ t, (f t).text = t.text)

namespace TypeTag

include hf htext in
theorem typeName?_map (tokens : List Token) : typeName? (tokens.map f) = typeName? tokens := by
  fun_induction typeName? tokens with
  | case1 => rfl
  | case2 t hname _ dot path hdot ih =>
    simp only [List.map_cons, typeName?, hf.kind, htext, hf.isPunctuation '.' rfl, if_pos hname,
      if_pos hdot, ih]
    rfl
  | case3 t hname _ dot path hdot =>
    simp only [List.map_cons, typeName?, hf.kind, htext, hf.isPunctuation '.' rfl, if_pos hname,
      if_neg hdot]
    rfl
  | case4 t hname =>
    simp only [List.map_cons, List.map_nil, typeName?, hf.kind, htext, if_pos hname]
    rfl
  | case5 t rest hname =>
    simp only [List.map_cons, typeName?, hf.kind, if_neg hname]

include hf in
theorem typeClause?_map (depth : Nat) (tokens : List Token) :
    typeClause? depth (tokens.map f) = (typeClause? depth tokens).map (List.map f) := by
  induction tokens generalizing depth with
  | nil => rfl
  | cons t tokens ih =>
    simp only [List.map_cons, typeClause?, hf.isPunctuation '(' rfl, hf.isPunctuation ')' rfl,
      hf.isKeyword, ih]
    split
    · rfl
    split
    · rfl
    split <;> rfl

include hf htext in
theorem ofDeclarator?_map (tokens : List Token) :
    ofDeclarator? (tokens.map f) = ofDeclarator? tokens := by
  rw [ofDeclarator?, typeClause?_map hf, ofDeclarator?]
  cases typeClause? 0 tokens with
  | none =>
    cases tokens with
    | nil => rfl
    | cons t tokens => simp [htext]
  | some clause =>
    cases clause with
    | nil => rfl
    | cons t rest =>
      simp only [Option.map_some, List.map_cons, hf.isKeyword]
      split
      · rw [typeName?_map hf htext]
      · rw [← List.map_cons, typeName?_map hf htext]

end TypeTag

namespace Mention

include hf htext

theorem ofToken?_map (role : NameRole) (tag : Option Text) (t : Token) :
    ofToken? role tag (f t) = ofToken? role tag t := by
  rw [ofToken?, hf.kind, htext, ofToken?]

theorem head?_bind_map (role : NameRole) (tag : Option Text) (tokens : List Token) :
    (tokens.map f).head?.bind (ofToken? role tag) = tokens.head?.bind (ofToken? role tag) := by
  cases tokens with
  | nil => rfl
  | cons t tokens => exact ofToken?_map hf htext role tag t

theorem ofDeclarator?_map (tokens : List Token) :
    ofDeclarator? (tokens.map f) = ofDeclarator? tokens := by
  rw [ofDeclarator?, TypeTag.ofDeclarator?_map hf htext, head?_bind_map hf htext, ofDeclarator?]

omit htext in
theorem commaParts_map (depth : Nat) (tokens : List Token) :
    commaParts depth (tokens.map f) = (commaParts depth tokens).map (List.map f) := by
  induction tokens generalizing depth with
  | nil => rfl
  | cons t tokens ih =>
    have hpush : ∀ parts : List (List Token), (parts.map (List.map f)).modifyHead (f t :: ·) =
        (parts.modifyHead (t :: ·)).map (List.map f) := by
      intro parts
      cases parts <;> rfl
    simp only [List.map_cons, commaParts, hf.isPunctuation '(' rfl, hf.isPunctuation ')' rfl,
      hf.isPunctuation ',' rfl, ih, hpush]
    split
    · rfl
    split
    · rfl
    split <;> rfl

omit htext in
theorem enclosed?_map (depth : Nat) (tokens : List Token) :
    enclosed? depth (tokens.map f) = (enclosed? depth tokens).map (List.map f) := by
  induction tokens generalizing depth with
  | nil => rfl
  | cons t tokens ih =>
    have hpush : ∀ inside : Option (List Token), (inside.map (List.map f)).map (f t :: ·) =
        (inside.map (t :: ·)).map (List.map f) := by
      intro inside
      cases inside <;> rfl
    simp only [List.map_cons, enclosed?, hf.isPunctuation '(' rfl, hf.isPunctuation ')' rfl, ih,
      hpush]
    split
    · rfl
    split
    · cases depth <;> rfl
    · rfl

theorem ofDeclarators_map (words : List Token) :
    ofDeclarators (words.map f) = ofDeclarators words := by
  rw [ofDeclarators, commaParts_map hf, List.filterMap_map, ofDeclarators]
  congr 1
  funext part
  rw [Function.comp_apply]
  cases part with
  | nil => rfl
  | cons t rest =>
    simp only [List.map_cons, hf.isKeyword]
    split
    · exact ofDeclarator?_map hf htext rest
    · exact ofDeclarator?_map hf htext (t :: rest)

theorem ofProcedure_map (words : List Token) : ofProcedure (words.map f) = ofProcedure words := by
  have hopening : (fun t : Token => !t.isPunctuation '(') ∘ f = fun t => !t.isPunctuation '(' :=
    funext fun t => congrArg (!·) (hf.isPunctuation '(' rfl t)
  have hmodifier : isParameterModifier ∘ f = isParameterModifier :=
    funext fun t => by simp [isParameterModifier, hf.isKeyword]
  have hpart : (fun part : List Token => ofDeclarator? (part.dropWhile isParameterModifier)) ∘
      List.map f = fun part => ofDeclarator? (part.dropWhile isParameterModifier) := by
    funext part
    rw [Function.comp_apply, List.dropWhile_map, hmodifier, ofDeclarator?_map hf htext]
  rw [ofProcedure, head?_bind_map hf htext, List.dropWhile_map, hopening, ← List.map_tail,
    enclosed?_map hf, ofProcedure]
  cases words.head?.bind (ofToken? .procedure none) with
  | none => rfl
  | some procedure =>
    cases enclosed? 0 (words.dropWhile fun t => !t.isPunctuation '(').tail with
    | none => rfl
    | some inside =>
      simp only [Option.map_some, commaParts_map hf, List.filterMap_map, hpart]

theorem ofMember_map (body : Body) (words : List Token) :
    ofMember body (words.map f) = ofMember body words := by
  cases words with
  | nil => rfl
  | cons t rest =>
    have htag := TypeTag.ofDeclarator?_map hf htext (t :: rest)
    rw [List.map_cons] at htag ⊢
    simp only [ofMember, htag, hf.isKeyword, ofToken?_map hf htext]

omit hf htext in
theorem head?_any_map {p : Token → Bool} (hp : ∀ t, p (f t) = p t) (tokens : List Token) :
    (tokens.map f).head?.any p = tokens.head?.any p := by
  cases tokens with
  | nil => rfl
  | cons t tokens => exact hp t

theorem ofDeclaration_map (words : List Token) :
    ofDeclaration (words.map f) = ofDeclaration words := by
  have hmodifier : Token.isModifier ∘ f = Token.isModifier := funext hf.isModifier
  rw [ofDeclaration, List.dropWhile_map, hmodifier, head?_any_map hf.isModifier, ofDeclaration]
  cases words.dropWhile Token.isModifier with
  | nil => rfl
  | cons lead rest =>
    have hall := ofDeclarators_map hf htext (lead :: rest)
    have hpreserve := head?_any_map (hf.isKeyword "preserve") rest
    have haccessor := head?_any_map (f := f)
      (p := fun t => ["get", "let", "set"].any (t.isKeyword ·))
      (fun t => by simp [hf.isKeyword]) rest
    have hredim : ofDeclarators
        (if rest.head?.any (·.isKeyword "preserve") then rest.tail.map f else rest.map f) =
        ofDeclarators
          (if rest.head?.any (·.isKeyword "preserve") then rest.tail else rest) := by
      rw [← apply_ite (List.map f), ofDeclarators_map hf htext]
    rw [List.map_cons] at hall ⊢
    simp only [hf.isKeyword, hf.kind, hall, hpreserve, haccessor, hredim,
      ofDeclarators_map hf htext, ← List.map_tail, ofProcedure_map hf htext,
      head?_bind_map hf htext]

/-- A statement declares the same names wherever it stands. -/
theorem ofStatement_map (body : Option Body) (words : List Token) :
    ofStatement body (words.map f) = ofStatement body words := by
  cases words with
  | nil => rfl
  | cons t rest =>
    cases body with
    | none => exact ofDeclaration_map hf htext (t :: rest)
    | some body => exact ofMember_map hf htext body (t :: rest)

theorem ofStatements_map (body : Option Body) (statements : List (List Token)) :
    ofStatements body (statements.map (List.map f)) = ofStatements body statements := by
  induction statements generalizing body with
  | nil => rfl
  | cons statement statements ih =>
    rw [List.map_cons, ofStatements, hf.significant_map, hf.withoutLineNumber_map,
      ofStatement_map hf htext, ofStatements]
    simp only [ih]

end Mention

end Maps

end VbaWorkbench
