import Decommission.Json.Reader
import Decommission.Json.Writer
import Decommission.Proofs.Json.Tokens

/-!
The texts that write a value: its tokens, spelled in any way and with any white space between them.
The reader takes each of them for the value, and the writer's text is one of them.
-/
namespace Decommission.Json

mutual

/-- The tokens of a value. -/
def tokens : Json → List Token
  | .null => [.null]
  | .bool b => [.bool b]
  | .number n => [.number n]
  | .text s => [.text s]
  | .array items => .openArray :: (itemTokens items ++ [.closeArray])
  | .object members => .openObject :: (memberTokens members ++ [.closeObject])

/-- The tokens of the items of an array, with commas between them. -/
def itemTokens : List Json → List Token
  | [] => []
  | [v] => tokens v
  | v :: w :: rest => tokens v ++ .comma :: itemTokens (w :: rest)

/-- The tokens of the members of an object, with commas between them. -/
def memberTokens : List (Option String × Json) → List Token
  | [] => []
  | [(k, v)] => .text k :: .colon :: tokens v
  | (k, v) :: m :: rest => .text k :: .colon :: (tokens v ++ .comma :: memberTokens (m :: rest))

end

/-- The text writes the value, with any spelling of its tokens and any white space between them. -/
def IsWrittenAs (v : Json) (text : String) : Prop := Spaced v.tokens text.toList

mutual

/-- The tokens of a value lead to that value, wherever it stands. -/
theorem run_tokens (v : Json) (stack : List Waiting) (fresh : Bool) (rest : List Token) :
    (Reading.value stack fresh).run (v.tokens ++ rest) = (Reading.after stack v).run rest := by
  -- the brackets of an array or object put it on the stack and take it off again
  match v with
  | .null | .bool b | .number n | .text s => rfl
  | .array [] => rfl
  | .array (v :: items) =>
    rw [tokens, List.cons_append, List.append_assoc]
    exact run_itemTokens (v :: items) (List.cons_ne_nil _ _) [] stack true rest
  | .object [] => rfl
  | .object (m :: members) =>
    rw [tokens, List.cons_append, List.append_assoc]
    exact run_memberTokens (m :: members) (List.cons_ne_nil _ _) [] stack true rest

theorem run_itemTokens (items : List Json) (hitems : items ≠ []) (before : List Json)
    (stack : List Waiting) (fresh : Bool) (rest : List Token) :
    (Reading.value (.array before :: stack) fresh).run (itemTokens items ++ .closeArray :: rest) =
      (Reading.after stack (.array (before.reverse ++ items))).run rest := by
  match items with
  | [] => exact absurd rfl hitems
  | [v] =>
    rw [itemTokens, run_tokens v, Reading.run, Reading.step, Option.bind_some, List.reverse_cons]
  | v :: w :: items =>
    have hnext := run_itemTokens (w :: items) (List.cons_ne_nil _ _) (v :: before) stack false rest
    rw [itemTokens, List.append_assoc, run_tokens v, List.cons_append, Reading.run, Reading.step,
      Option.bind_some, hnext, List.reverse_cons, List.append_assoc, List.singleton_append]

theorem run_memberTokens (members : List (Option String × Json)) (hmembers : members ≠ [])
    (before : List (Option String × Json)) (stack : List Waiting) (fresh : Bool)
    (rest : List Token) :
    (Reading.key stack before fresh).run (memberTokens members ++ .closeObject :: rest) =
      (Reading.after stack (.object (before.reverse ++ members))).run rest := by
  match members with
  | [] => exact absurd rfl hmembers
  | [(k, v)] =>
    rw [memberTokens]
    simp only [List.cons_append, Reading.run, Reading.step, Option.bind_some, run_tokens v,
      List.reverse_cons]
  | (k, v) :: m :: members =>
    have hnext := run_memberTokens (m :: members) (List.cons_ne_nil _ _) ((k, v) :: before) stack
      false rest
    rw [memberTokens]
    simp only [List.cons_append, List.append_assoc, Reading.run, Reading.step, Option.bind_some,
      run_tokens v, hnext, List.reverse_cons, List.nil_append]

end

theorem ofTokens?_tokens (v : Json) : ofTokens? v.tokens = some v := by
  have hrun : (Reading.value [] false).run v.tokens = some (.after [] v) := by
    rw [← List.append_nil v.tokens, run_tokens]
    rfl
  rw [ofTokens?, hrun]

theorem Apart.cons {t : Token} {rest : List Token} (ht : t.isNumber = false) (h : Apart rest) :
    Apart (t :: rest) := by
  refine List.IsChain.cons h fun u _ hnumber => ?_
  rw [ht] at hnumber
  cases hnumber

mutual

theorem apart_tokens (v : Json) {rest : List Token} (hrest : Apart rest)
    (hhead : ∀ t, rest.head? = some t → t.isNumber = false) : Apart (v.tokens ++ rest) := by
  match v with
  | .null | .bool b | .text s => exact Apart.cons rfl hrest
  | .number n => exact List.IsChain.cons hrest fun t ht _ => hhead t ht
  | .array items =>
    rw [tokens, List.cons_append, List.append_assoc]
    exact Apart.cons rfl (apart_itemTokens items (Apart.cons rfl hrest) (by simp [Token.isNumber]))
  | .object members =>
    rw [tokens, List.cons_append, List.append_assoc]
    exact Apart.cons rfl
      (apart_memberTokens members (Apart.cons rfl hrest) (by simp [Token.isNumber]))

theorem apart_itemTokens (items : List Json) {rest : List Token} (hrest : Apart rest)
    (hhead : ∀ t, rest.head? = some t → t.isNumber = false) :
    Apart (itemTokens items ++ rest) := by
  match items with
  | [] => exact hrest
  | [v] => exact apart_tokens v hrest hhead
  | v :: w :: items =>
    have hnext : Apart (itemTokens (w :: items) ++ rest) :=
      apart_itemTokens (w :: items) hrest hhead
    rw [itemTokens, List.append_assoc]
    exact apart_tokens v (Apart.cons rfl hnext) (by simp [Token.isNumber])

theorem apart_memberTokens (members : List (Option String × Json)) {rest : List Token}
    (hrest : Apart rest) (hhead : ∀ t, rest.head? = some t → t.isNumber = false) :
    Apart (memberTokens members ++ rest) := by
  match members with
  | [] => exact hrest
  | [(k, v)] =>
    rw [memberTokens]
    exact Apart.cons rfl (Apart.cons rfl (apart_tokens v hrest hhead))
  | (k, v) :: m :: members =>
    have hnext : Apart (memberTokens (m :: members) ++ rest) :=
      apart_memberTokens (m :: members) hrest hhead
    rw [memberTokens, List.cons_append, List.cons_append, List.append_assoc]
    refine Apart.cons rfl (Apart.cons rfl (apart_tokens v (Apart.cons rfl hnext) ?_))
    simp [Token.isNumber]

end

/-- A text is read as the value that it writes. -/
theorem read?_of_isWrittenAs {v : Json} {text : String} (h : v.IsWrittenAs text) :
    read? text = some v := by
  have hapart : Apart v.tokens := by
    rw [← List.append_nil v.tokens]
    exact apart_tokens v .nil (by simp)
  rw [read?, readTokens_of_spaced h hapart, Option.bind_some, ofTokens?_tokens]

section Writing

/-- A character is written as a piece that stands for it, wherever it comes in a string. -/
theorem isSpelled_escapeChar (c : Char) :
    ∃ piece, Piece.IsSpelled piece (escapeChar c) ∧
      ∀ pieces, decodePieces (piece :: pieces) = (decodePieces pieces).map (c :: ·) := by
  have hletter {e : Char} (h : unescape? e = some c) :
      ∃ piece, Piece.IsSpelled piece ['\\', e] ∧
        ∀ pieces, decodePieces (piece :: pieces) = (decodePieces pieces).map (c :: ·) :=
    ⟨.char c, .escaped h, fun _ => rfl⟩
  unfold escapeChar
  split_ifs with hquote hbackslash hb hf hn hr ht hcontrol
  · exact hletter (by rw [hquote]; rfl)
  · exact hletter (by rw [hbackslash]; rfl)
  · exact hletter (by rw [hb]; rfl)
  · exact hletter (by rw [hf]; rfl)
  · exact hletter (by rw [hn]; rfl)
  · exact hletter (by rw [hr]; rfl)
  · exact hletter (by rw [ht]; rfl)
  -- other control characters are given by their numbers, and none of these is a surrogate
  · have hunits : ∀ n : Fin 32,
        hexValues? '0' '0' (lowerHex (n / 16)) (lowerHex (n % 16)) = some n.val := by decide
    refine ⟨.unit c.toNat, .unit (hunits ⟨c.toNat, hcontrol⟩), fun pieces => ?_⟩
    have hlow : isLowSurrogate c.toNat = false := by simp [isLowSurrogate]; omega
    have hhigh : isHighSurrogate c.toNat = false := by simp [isHighSurrogate]; omega
    rw [decodePieces.eq_def]
    simp only [hlow, hhigh, Bool.false_eq_true, if_false, Char.ofNat_toNat]
  · exact ⟨.char c, .plain (by omega) hquote hbackslash, fun _ => rfl⟩

theorem isSpelled_flatMap_escapeChar (cs : List Char) :
    ∃ pieces, List.Forall₂ Piece.IsSpelled pieces (cs.map escapeChar) ∧
      decodePieces pieces = some cs := by
  induction cs with
  | nil => exact ⟨[], .nil, rfl⟩
  | cons c cs ih =>
    obtain ⟨pieces, hpieces, hdecode⟩ := ih
    obtain ⟨piece, hpiece, hfirst⟩ := isSpelled_escapeChar c
    refine ⟨piece :: pieces, .cons hpiece hpieces, ?_⟩
    rw [hfirst, hdecode, Option.map_some]

theorem isSpelled_textChars (s : Option String) : Token.IsSpelled (.text s) (textChars s) := by
  match s with
  | some s =>
    obtain ⟨pieces, hpieces, hdecode⟩ := isSpelled_flatMap_escapeChar s.toList
    have htext : (decodePieces pieces).map String.ofList = some s := by
      rw [hdecode, Option.map_some, String.ofList_toList]
    have hspelled := Token.IsSpelled.text hpieces
    rw [htext, ← List.flatMap_def] at hspelled
    exact hspelled
  -- a string that is no text is written as a surrogate without its second half
  | none =>
    have hunit : hexValues? 'd' '8' '0' '0' = some 0xD800 := by decide
    exact .text (.cons (.unit hunit) .nil)

mutual

/-- The text of a value is one that writes it, where its numerals are numerals. -/
theorem spaced_render (v : Json) (hnumbers : ∀ n, .number n ∈ v.tokens → IsNumeral n.toList)
    {ts : List Token} {rest : List Char} (h : Spaced ts rest) :
    Spaced (v.tokens ++ ts) (render v ++ rest) := by
  match v with
  | .null => exact .token .null h
  | .bool true => exact .token .boolTrue h
  | .bool false => exact .token .boolFalse h
  | .number n =>
    have hspelled := Token.IsSpelled.number (hnumbers n (List.mem_singleton.mpr rfl))
    rw [String.ofList_toList] at hspelled
    exact .token hspelled h
  | .text s => exact .token (isSpelled_textChars s) h
  | .array items =>
    simp only [tokens, render, List.cons_append, List.append_assoc, List.nil_append]
    refine .token .openArray (spaced_renderItems items (fun n hn => ?_) (.token .closeArray h))
    apply hnumbers
    simp [tokens, hn]
  | .object members =>
    simp only [tokens, render, List.cons_append, List.append_assoc, List.nil_append]
    refine .token .openObject (spaced_renderMembers members (fun n hn => ?_)
      (.token .closeObject h))
    apply hnumbers
    simp [tokens, hn]

theorem spaced_renderItems (items : List Json)
    (hnumbers : ∀ n, .number n ∈ itemTokens items → IsNumeral n.toList)
    {ts : List Token} {rest : List Char} (h : Spaced ts rest) :
    Spaced (itemTokens items ++ ts) (renderItems items ++ rest) := by
  match items with
  | [] => exact h
  | [v] => exact spaced_render v hnumbers h
  | v :: w :: items =>
    have hnext : Spaced (itemTokens (w :: items) ++ ts) (renderItems (w :: items) ++ rest) := by
      refine spaced_renderItems (w :: items) (fun n hn => ?_) h
      apply hnumbers
      simp [itemTokens, hn]
    simp only [itemTokens, renderItems, List.cons_append, List.append_assoc]
    refine spaced_render v (fun n hn => ?_) (.token .comma hnext)
    apply hnumbers
    simp [itemTokens, hn]

theorem spaced_renderMembers (members : List (Option String × Json))
    (hnumbers : ∀ n, .number n ∈ memberTokens members → IsNumeral n.toList)
    {ts : List Token} {rest : List Char} (h : Spaced ts rest) :
    Spaced (memberTokens members ++ ts) (renderMembers members ++ rest) := by
  match members with
  | [] => exact h
  | [(k, v)] =>
    simp only [memberTokens, renderMembers, List.cons_append, List.append_assoc]
    refine .token (isSpelled_textChars k) (.token .colon (spaced_render v (fun n hn => ?_) h))
    apply hnumbers
    simp [memberTokens, hn]
  | (k, v) :: m :: members =>
    have hnext : Spaced (memberTokens (m :: members) ++ ts)
        (renderMembers (m :: members) ++ rest) := by
      refine spaced_renderMembers (m :: members) (fun n hn => ?_) h
      apply hnumbers
      simp [memberTokens, hn]
    simp only [memberTokens, renderMembers, List.cons_append, List.append_assoc]
    refine .token (isSpelled_textChars k) (.token .colon ?_)
    refine spaced_render v (fun n hn => ?_) (.token .comma hnext)
    apply hnumbers
    simp [memberTokens, hn]

end

theorem isWrittenAs_write {v : Json} (hnumbers : ∀ n, .number n ∈ v.tokens → IsNumeral n.toList) :
    v.IsWrittenAs v.write := by
  have h := spaced_render v hnumbers .nil
  rw [List.append_nil, List.append_nil] at h
  rw [IsWrittenAs, write, String.toList_ofList]
  exact h

/-- No numeral comes up in the value. -/
def Numberless (v : Json) : Prop := ∀ n, Token.number n ∉ v.tokens

theorem mem_itemTokens {t : Token} {items : List Json} (ht : t ∈ itemTokens items) :
    t = .comma ∨ ∃ v ∈ items, t ∈ v.tokens := by
  induction items with
  | nil => cases ht
  | cons v items ih =>
    cases items with
    | nil => exact .inr ⟨v, List.mem_singleton.mpr rfl, ht⟩
    | cons w items =>
      rw [itemTokens, List.mem_append, List.mem_cons] at ht
      rcases ht with ht | ht | ht
      · exact .inr ⟨v, List.mem_cons_self, ht⟩
      · exact .inl ht
      · refine (ih ht).imp_right ?_
        rintro ⟨u, hu, htu⟩
        exact ⟨u, List.mem_cons_of_mem _ hu, htu⟩

theorem mem_memberTokens {t : Token} {members : List (Option String × Json)}
    (ht : t ∈ memberTokens members) :
    t = .comma ∨ t = .colon ∨ (∃ k, t = .text k) ∨ ∃ m ∈ members, t ∈ m.2.tokens := by
  induction members with
  | nil => cases ht
  | cons m members ih =>
    obtain ⟨k, v⟩ := m
    cases members with
    | nil =>
      rw [memberTokens, List.mem_cons, List.mem_cons] at ht
      rcases ht with ht | ht | ht
      · exact .inr (.inr (.inl ⟨k, ht⟩))
      · exact .inr (.inl ht)
      · exact .inr (.inr (.inr ⟨(k, v), List.mem_cons_self, ht⟩))
    | cons m members =>
      rw [memberTokens, List.mem_cons, List.mem_cons, List.mem_append, List.mem_cons] at ht
      rcases ht with ht | ht | ht | ht | ht
      · exact .inr (.inr (.inl ⟨k, ht⟩))
      · exact .inr (.inl ht)
      · exact .inr (.inr (.inr ⟨(k, v), List.mem_cons_self, ht⟩))
      · exact .inl ht
      · refine (ih ht).imp_right (.imp_right (.imp_right ?_))
        rintro ⟨u, hu, htu⟩
        exact ⟨u, List.mem_cons_of_mem _ hu, htu⟩

theorem numberless_ofText (s : String) : (ofText s).Numberless := by
  simp [Numberless, ofText, tokens]

theorem numberless_ofOption {α : Type} {f : α → Json} (hf : ∀ a, (f a).Numberless) (a : Option α) :
    (ofOption f a).Numberless := by
  cases a with
  | none => simp [Numberless, ofOption, tokens]
  | some a => exact hf a

theorem numberless_array {items : List Json} (h : ∀ v ∈ items, v.Numberless) :
    (array items).Numberless := by
  intro n hn
  rw [tokens, List.mem_cons, List.mem_append, List.mem_singleton] at hn
  rcases hn with hn | hn | hn
  · cases hn
  · rcases mem_itemTokens hn with hn | ⟨v, hv, hn⟩
    · cases hn
    · exact h v hv n hn
  · cases hn

theorem numberless_ofFields {fields : List (String × Json)} (h : ∀ p ∈ fields, p.2.Numberless) :
    (ofFields fields).Numberless := by
  intro n hn
  rw [ofFields, tokens, List.mem_cons, List.mem_append, List.mem_singleton] at hn
  rcases hn with hn | hn | hn
  · cases hn
  · rcases mem_memberTokens hn with hn | hn | ⟨k, hn⟩ | ⟨m, hm, hn⟩
    · cases hn
    · cases hn
    · cases hn
    · obtain ⟨p, hp, rfl⟩ := List.mem_map.mp hm
      exact h p hp n hn
  · cases hn

theorem Numberless.isWrittenAs_write {v : Json} (h : v.Numberless) : v.IsWrittenAs v.write :=
  Json.isWrittenAs_write fun n hn => absurd hn (h n)

end Writing

end Decommission.Json
