import Decommission.Json.Token
import Mathlib.Data.List.Chain
import Mathlib.Data.List.Forall2
import Mathlib.Data.List.TakeDrop
import Mathlib.Tactic.SplitIfs

/-!
How the tokens of a document may be spelled, with white space between them. Every such text is read
as its tokens.
-/
namespace Decommission.Json

/-- One digit at least. -/
def IsDigits (cs : List Char) : Prop := cs ≠ [] ∧ ∀ c ∈ cs, c.isDigit = true

/-- A whole number: no zero stands before other digits. -/
inductive IsWhole : List Char → Prop where
  | zero : IsWhole ['0']
  | digits {c : Char} {cs : List Char} (hc : c ≠ '0') (h : IsDigits (c :: cs)) : IsWhole (c :: cs)

inductive IsFraction : List Char → Prop where
  | absent : IsFraction []
  | digits {cs : List Char} (h : IsDigits cs) : IsFraction ('.' :: cs)

inductive IsExponent : List Char → Prop where
  | absent : IsExponent []
  | digits {e : Char} {sign cs : List Char} (he : e = 'e' ∨ e = 'E')
    (hsign : sign = [] ∨ sign = ['+'] ∨ sign = ['-']) (h : IsDigits cs) :
    IsExponent (e :: (sign ++ cs))

inductive IsNumeral : List Char → Prop where
  | parts {sign whole fraction exponent : List Char} (hsign : sign = [] ∨ sign = ['-'])
    (hwhole : IsWhole whole) (hfraction : IsFraction fraction) (hexponent : IsExponent exponent) :
    IsNumeral (sign ++ (whole ++ (fraction ++ exponent)))

/-- A piece of a string stands for itself, is escaped by a letter, or is given by its number. -/
inductive Piece.IsSpelled : Piece → List Char → Prop where
  | plain {c : Char} (hshown : 0x20 ≤ c.toNat) (hquote : c ≠ '"') (hbackslash : c ≠ '\\') :
    IsSpelled (.char c) [c]
  | escaped {e c : Char} (h : unescape? e = some c) : IsSpelled (.char c) ['\\', e]
  | unit {a b c d : Char} {n : Nat} (h : hexValues? a b c d = some n) :
    IsSpelled (.unit n) ['\\', 'u', a, b, c, d]

inductive Token.IsSpelled : Token → List Char → Prop where
  | openArray : IsSpelled .openArray ['[']
  | closeArray : IsSpelled .closeArray [']']
  | openObject : IsSpelled .openObject ['{']
  | closeObject : IsSpelled .closeObject ['}']
  | comma : IsSpelled .comma [',']
  | colon : IsSpelled .colon [':']
  | null : IsSpelled .null ['n', 'u', 'l', 'l']
  | boolTrue : IsSpelled (.bool true) ['t', 'r', 'u', 'e']
  | boolFalse : IsSpelled (.bool false) ['f', 'a', 'l', 's', 'e']
  | number {cs : List Char} (h : IsNumeral cs) : IsSpelled (.number (String.ofList cs)) cs
  | text {pieces : List Piece} {parts : List (List Char)}
    (h : List.Forall₂ Piece.IsSpelled pieces parts) :
    IsSpelled (.text ((decodePieces pieces).map String.ofList)) ('"' :: (parts.flatten ++ ['"']))

/-- The text spells the tokens one after the other, with any white space around them. -/
inductive Spaced : List Token → List Char → Prop where
  | nil : Spaced [] []
  | space {tokens : List Token} {c : Char} {cs : List Char} (hc : isSpace c = true)
    (h : Spaced tokens cs) : Spaced tokens (c :: cs)
  | token {t : Token} {tokens : List Token} {cs rest : List Char} (ht : t.IsSpelled cs)
    (h : Spaced tokens rest) : Spaced (t :: tokens) (cs ++ rest)

def Token.isNumber : Token → Bool
  | .number _ => true
  | _ => false

/-- A numeral comes to an end before this text. -/
def EndsNumeral (rest : List Char) : Prop :=
  ∀ c, rest.head? = some c → c.isDigit = false ∧ c ≠ '.' ∧ c ≠ 'e' ∧ c ≠ 'E'

section Numbers

variable {cs rest : List Char}

theorem readDigits_append (h : IsDigits cs) (hrest : ∀ c, rest.head? = some c → c.isDigit = false) :
    readDigits (cs ++ rest) = some (cs, rest) := by
  have hspan : (cs ++ rest).span Char.isDigit = (cs, rest) := by
    rw [List.span_eq_takeWhile_dropWhile, List.takeWhile_append_of_pos h.2,
      List.dropWhile_append_of_pos h.2]
    cases rest with
    | nil => simp
    | cons c rest =>
      have hc : c.isDigit = false := hrest c rfl
      simp [hc]
  rw [readDigits, hspan]
  cases cs with
  | nil => exact absurd rfl h.1
  | cons c cs => rfl

theorem readWhole_append (h : IsWhole cs) (hrest : ∀ c, rest.head? = some c → c.isDigit = false) :
    readWhole (cs ++ rest) = some (cs, rest) := by
  cases h with
  | zero => rfl
  | @digits c cs hc h =>
    rw [List.cons_append, readWhole]
    · exact readDigits_append h hrest
    · exact fun _ heq => hc (List.cons.inj heq).1

theorem readFraction_append (h : IsFraction cs)
    (hrest : ∀ c, rest.head? = some c → c.isDigit = false ∧ c ≠ '.') :
    readFraction (cs ++ rest) = some (cs, rest) := by
  cases h with
  | absent =>
    rw [List.nil_append, readFraction]
    rintro tail rfl
    exact (hrest '.' rfl).2 rfl
  | @digits cs h =>
    rw [List.cons_append, readFraction, readDigits_append h fun c hc => (hrest c hc).1]
    rfl

theorem readExponent_append (h : IsExponent cs) (hrest : EndsNumeral rest) :
    readExponent (cs ++ rest) = some (cs, rest) := by
  cases h with
  | absent =>
    cases rest with
    | nil => rfl
    | cons c rest =>
      obtain ⟨-, -, he, hE⟩ := hrest c rfl
      have hc : ¬(c = 'e' ∨ c = 'E') := by simp [he, hE]
      unfold readExponent
      exact if_neg hc
  | @digits e sign cs he hsign h =>
    have hdigits : readDigits (cs ++ rest) = some (cs, rest) :=
      readDigits_append h fun c hc => (hrest c hc).1
    rcases hsign with rfl | rfl | rfl
    · obtain ⟨d, ds, rfl⟩ := List.exists_cons_of_ne_nil h.1
      have hd : d.isDigit = true := h.2 d List.mem_cons_self
      -- the digits begin with no sign
      have hplus : d ≠ '+' := by
        rintro rfl
        exact absurd hd (by decide)
      have hminus : d ≠ '-' := by
        rintro rfl
        exact absurd hd (by decide)
      simp only [List.nil_append, List.cons_append] at hdigits ⊢
      rw [readExponent, if_pos he, hdigits]
      · rfl
      · exact fun _ heq => hplus (List.cons.inj heq).1
      · exact fun _ heq => hminus (List.cons.inj heq).1
    · simp [readExponent, he, hdigits]
    · simp [readExponent, he, hdigits]

theorem IsWhole.head (h : IsWhole cs) : ∃ c tail, cs = c :: tail ∧ c.isDigit = true := by
  cases h with
  | zero => exact ⟨'0', [], rfl, rfl⟩
  | @digits c cs _ h => exact ⟨c, cs, rfl, h.2 c List.mem_cons_self⟩

theorem readUnsigned_append {whole fraction exponent : List Char} (hwhole : IsWhole whole)
    (hfraction : IsFraction fraction) (hexponent : IsExponent exponent) (hrest : EndsNumeral rest) :
    readUnsigned (whole ++ (fraction ++ (exponent ++ rest))) =
      some (whole ++ fraction ++ exponent, rest) := by
  -- no digit and no point comes up where an exponent, or what follows it, begins
  have hafterFraction : ∀ c, (exponent ++ rest).head? = some c → c.isDigit = false ∧ c ≠ '.' := by
    intro c hc
    cases hexponent with
    | absent =>
      obtain ⟨hdigit, hpoint, -⟩ := hrest c hc
      exact ⟨hdigit, hpoint⟩
    | digits he =>
      obtain rfl := Option.some.inj hc
      rcases he with rfl | rfl <;> exact ⟨rfl, by decide⟩
  have hafterWhole : ∀ c, (fraction ++ (exponent ++ rest)).head? = some c → c.isDigit = false := by
    intro c hc
    cases hfraction with
    | absent => exact (hafterFraction c hc).1
    | digits =>
      obtain rfl := Option.some.inj hc
      rfl
  simp only [readUnsigned, readWhole_append hwhole hafterWhole,
    readFraction_append hfraction hafterFraction, readExponent_append hexponent hrest,
    Option.bind_eq_bind, Option.bind_some]

theorem readNumber_append (h : IsNumeral cs) (hrest : EndsNumeral rest) :
    readNumber (cs ++ rest) = some (.number (String.ofList cs), rest) := by
  obtain ⟨hsign, hwhole, hfraction, hexponent⟩ := h
  have hunsigned := readUnsigned_append hwhole hfraction hexponent hrest
  obtain ⟨c, tail, rfl, hc⟩ := hwhole.head
  rcases hsign with rfl | rfl
  -- without a sign the first character is a digit, and so is not taken for a sign
  · have hminus : c ≠ '-' := by
      rintro rfl
      exact absurd hc (by decide)
    simp only [List.nil_append, List.append_assoc, List.cons_append] at hunsigned ⊢
    rw [readNumber, hunsigned]
    · rfl
    · exact fun _ heq => hminus (List.cons.inj heq).1
  · simp only [List.append_assoc, List.cons_append, List.nil_append] at hunsigned ⊢
    rw [readNumber, hunsigned]
    rfl

/-- A numeral begins with a minus sign or a digit. -/
theorem IsNumeral.head (h : IsNumeral cs) :
    ∃ c tail, cs = c :: tail ∧ (c = '-' ∨ c.isDigit = true) := by
  obtain ⟨rfl | rfl, hwhole, -, -⟩ := h
  · obtain ⟨c, tail, rfl, hc⟩ := hwhole.head
    exact ⟨c, _, rfl, .inr hc⟩
  · exact ⟨'-', _, rfl, .inl rfl⟩

end Numbers

section Strings

variable {pieces : List Piece} {parts : List (List Char)} {rest : List Char}

theorem readPieces_append (h : List.Forall₂ Piece.IsSpelled pieces parts) :
    readPieces (parts.flatten ++ '"' :: rest) = some (pieces, rest) := by
  induction h with
  | nil => rfl
  | @cons piece part pieces parts hpiece _ ih =>
    rw [List.flatten_cons, List.append_assoc]
    cases hpiece with
    -- a plain character is neither the end of the string nor the beginning of an escape
    | @plain c hshown hquote hbackslash =>
      rw [List.cons_append, List.nil_append, readPieces, if_neg (by omega), ih]
      · exact hquote
      · intro a b c d tail heq
        exact absurd heq hbackslash
      · intro e tail heq
        exact absurd heq hbackslash
    -- the letter `u` is not one of those that stand for a character
    | @escaped e c h =>
      have hu : e ≠ 'u' := by
        rintro rfl
        cases h
      rw [List.cons_append, List.cons_append, List.nil_append, readPieces, h, ih]
      intro a b c d tail heq
      exact absurd heq hu
    | unit h =>
      simp only [List.cons_append, List.nil_append]
      rw [readPieces, h, ih]

theorem readText_append (h : List.Forall₂ Piece.IsSpelled pieces parts) :
    readText (parts.flatten ++ '"' :: rest) =
      some (.text ((decodePieces pieces).map String.ofList), rest) := by
  rw [readText, readPieces_append h]
  rfl

end Strings

section Tokens

variable {t : Token} {tokens : List Token} {c : Char} {cs rest : List Char}

/-- What begins like a numeral is read as one. -/
theorem read_number (hc : c = '-' ∨ c.isDigit = true) :
    Token.read (c :: cs) = readNumber (c :: cs) := by
  have hother (x : Char) (hx : x.isDigit = false ∧ x ≠ '-') : c ≠ x := by
    rintro rfl
    rcases hc with hc | hc
    · exact hx.2 hc
    · rw [hx.1] at hc
      cases hc
  rw [Token.read]
  all_goals exact fun _ heq => hother _ (by decide) (List.cons.inj heq).1

theorem read_append (ht : t.IsSpelled cs) (hrest : t.isNumber = true → EndsNumeral rest) :
    Token.read (cs ++ rest) = some (t, rest) := by
  cases ht with
  | number h =>
    obtain ⟨c, tail, rfl, hc⟩ := h.head
    rw [List.cons_append, read_number hc, ← List.cons_append, readNumber_append h (hrest rfl)]
  | text h =>
    rw [List.cons_append, List.append_assoc]
    exact readText_append h
  | _ => rfl

/-- A token begins with a character that is no white space, and goes on no numeral unless it is one.
-/
theorem Token.IsSpelled.head (ht : t.IsSpelled cs) :
    ∃ c tail, cs = c :: tail ∧ isSpace c = false ∧
      (t.isNumber = false → c.isDigit = false ∧ c ≠ '.' ∧ c ≠ 'e' ∧ c ≠ 'E') := by
  cases ht with
  | number h =>
    obtain ⟨c, tail, rfl, hc⟩ := h.head
    refine ⟨c, tail, rfl, ?_, nofun⟩
    rw [Bool.eq_false_iff]
    intro hspace
    simp only [isSpace, Bool.or_eq_true, beq_iff_eq, or_assoc] at hspace
    rcases hspace with rfl | rfl | rfl | rfl <;> exact absurd hc (by decide)
  | text h => exact ⟨'"', _, rfl, rfl, fun _ => by decide⟩
  | _ => exact ⟨_, _, rfl, rfl, fun _ => by decide⟩

theorem Spaced.endsNumeral (h : Spaced tokens cs)
    (hhead : ∀ t, tokens.head? = some t → t.isNumber = false) : EndsNumeral cs := by
  cases h with
  | nil =>
    intro c hc
    cases hc
  | @space tokens c cs hc h =>
    intro c' hc'
    obtain rfl := Option.some.inj hc'
    simp only [isSpace, Bool.or_eq_true, beq_iff_eq, or_assoc] at hc
    rcases hc with rfl | rfl | rfl | rfl <;> decide
  | @token t tokens cs rest ht h =>
    obtain ⟨c, tail, rfl, -, hc⟩ := ht.head
    intro c' hc'
    obtain rfl := Option.some.inj hc'
    exact hc (hhead t rfl)

/-- Two numerals do not follow each other, so that each comes to an end where the next token begins.
-/
def Apart (tokens : List Token) : Prop :=
  tokens.IsChain fun t u => t.isNumber = true → u.isNumber = false

theorem readTokensWith_of_spaced {fuel : Nat} (h : Spaced tokens cs) (hapart : Apart tokens)
    (hfuel : cs.length ≤ fuel) : readTokensWith fuel cs = some tokens := by
  -- white space and tokens both take up characters, which is what the fuel is counted in
  induction h generalizing fuel with
  | nil => rw [readTokensWith]
  | @space tokens c cs hc h ih =>
    cases fuel with
    | zero => cases hfuel
    | succ fuel =>
      rw [readTokensWith, if_pos hc]
      exact ih hapart (Nat.le_of_succ_le_succ hfuel)
  | @token t tokens cs rest ht h ih =>
    have hread : Token.read (cs ++ rest) = some (t, rest) :=
      read_append ht fun hnumber => h.endsNumeral fun u hu => hapart.rel_head? hu hnumber
    obtain ⟨c, tail, rfl, hc, -⟩ := ht.head
    cases fuel with
    | zero => cases hfuel
    | succ fuel =>
      have hlength : rest.length ≤ fuel := by
        rw [List.length_append, List.length_cons] at hfuel
        omega
      rw [List.cons_append] at hread ⊢
      rw [readTokensWith, if_neg (by simp [hc]), hread]
      simp only [ih hapart.tail hlength, Option.map_some]

theorem readTokens_of_spaced (h : Spaced tokens cs) (hapart : Apart tokens) :
    readTokens cs = some tokens :=
  readTokensWith_of_spaced h hapart (Nat.le_refl _)

end Tokens

end Decommission.Json
