import VbaWorkbench.Text.Bytes

namespace VbaWorkbench.Pattern

/-- A match as it is reported, with byte offsets. -/
structure MatchRecord where
  fullText : Text
  start : Nat
  stop : Nat
  /-- The text of each group, from the first group on. -/
  groups : List (Option Text)
deriving DecidableEq, Repr

namespace MatchRecord

/-- The text of a group; a group that has not taken part has none. -/
def groupText (r : MatchRecord) (n : Nat) : Text :=
  match r.groups[n - 1]? with
  | some (some t) => t
  | _ => []

/-- The group that one or two digits name, and how many digits those are. Two are taken if there is
such a group. -/
def groupReference? (r : MatchRecord) (t : Text) : Option (Nat × Nat) :=
  let digits := (t.take 2).takeWhile Char.isDigit
  let named (n : Nat) : Bool := 1 ≤ n && n ≤ r.groups.length
  match digits.map fun d => d.toNat - '0'.toNat with
  | [tens, ones] =>
    if named (tens * 10 + ones) then some (tens * 10 + ones, 2)
    else if named tens then some (tens, 1)
    else none
  | [n] => if named n then some (n, 1) else none
  | _ => none

/-- What a replacement text says for a match in `subject`. A dollar that begins no reference stands
for itself. -/
def expand (r : MatchRecord) (subject : Text) : Text → Text
  | [] => []
  | '$' :: '$' :: rest => '$' :: expand r subject rest
  | '$' :: '&' :: rest => r.fullText ++ expand r subject rest
  | '$' :: '\x60' :: rest => Text.takeBytes r.start subject ++ expand r subject rest
  | '$' :: '\'' :: rest => Text.dropBytes r.stop subject ++ expand r subject rest
  | '$' :: rest =>
    match r.groupReference? rest with
    | some (n, digits) => r.groupText n ++ expand r subject (rest.drop digits)
    | none => '$' :: expand r subject rest
  | c :: rest => c :: expand r subject rest
termination_by t => t.length
decreasing_by all_goals simp only [List.length_cons, List.length_drop]; omega

end MatchRecord
end VbaWorkbench.Pattern
