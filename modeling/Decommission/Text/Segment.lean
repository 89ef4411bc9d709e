/-! Cutting text at separator characters. -/
namespace Decommission.Text

/-- The text before and after the first `sep`; `none` when there is none. -/
def cutFirst (sep : Char) : List Char → Option (List Char × List Char)
  | [] => none
  | c :: rest =>
    if c = sep then some ([], rest)
    else (cutFirst sep rest).map fun p => (c :: p.1, p.2)

theorem cutFirst_eq_none_iff {sep : Char} {cs : List Char} :
    cutFirst sep cs = none ↔ sep ∉ cs := by
  induction cs with
  | nil => simp [cutFirst]
  | cons c rest ih =>
    by_cases h : c = sep
    · simp [cutFirst, h]
    · simp [cutFirst, h, ih, Ne.symm h]

theorem cutFirst_eq_some_iff {sep : Char} {cs before after : List Char} :
    cutFirst sep cs = some (before, after) ↔ sep ∉ before ∧ cs = before ++ sep :: after := by
  induction cs generalizing before with
  | nil => simp [cutFirst]
  | cons c rest ih =>
    by_cases h : c = sep
    · cases before with
      | nil => simp [cutFirst, h]
      | cons b before => simp [cutFirst, h]; grind
    · cases before with
      | nil => simp [cutFirst, h]
      | cons b before => simp [cutFirst, h]; grind

/-- The text up to the first character that satisfies `stop`. -/
def upTo (stop : Char → Bool) (cs : List Char) : List Char := cs.takeWhile fun c => !stop c

/-- The text after the last `sep`, the whole text when there is none. -/
def lastSegment (sep : Char) (cs : List Char) : List Char :=
  (cs.reverse.takeWhile fun c => c != sep).reverse

/-- The text after the first `mark`, the whole text when there is none. -/
def afterMark (mark : List Char) (cs : List Char) : List Char :=
  (go cs).getD cs
where
  go : List Char → Option (List Char)
    | [] => none
    | c :: rest => if mark.isPrefixOf (c :: rest) then some ((c :: rest).drop mark.length) else go rest

/-- Whether `part` stands somewhere in the text. -/
def hasPart (part : List Char) : List Char → Bool
  | [] => part.isEmpty
  | c :: rest => part.isPrefixOf (c :: rest) || hasPart part rest

/-- The text without the `c`s at its end. -/
def dropEnd (c : Char) (cs : List Char) : List Char := (cs.reverse.dropWhile fun x => x == c).reverse

end Decommission.Text
