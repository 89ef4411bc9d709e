import Decommission.Http.Message
import Decommission.Proofs.Encoding.Form
import Decommission.Proofs.Program.History
import Mathlib.Data.List.TakeWhile

/-! The requests that are sent, and what is read back from their addresses. -/
namespace Decommission.Http

/-- The request that was sent, if one was. -/
def request? : Event (Timed Transport) → Option Request
  | ⟨.act (.send request _), _⟩ => some request
  | ⟨.actWithin _ (.send request _), _⟩ => some request
  | _ => none

/-- All values of the header, in their order. -/
def Request.values (r : Request) (name : String) : List String :=
  (r.headers.filter fun p => sameName p.1 name).map Prod.snd

def endsAuthority (c : Char) : Bool := c == '/' || c == '?' || c == '#'

def endsPath (c : Char) : Bool := c == '?' || c == '#'

/-- No character of a text that can be computed with is such a one. -/
theorem forall_of_all {p : Char → Bool} {s : String}
    (h : (s.toList.all fun c => !p c) = true) : ∀ c ∈ s.toList, p c = false := by
  intro c hc
  have hcheck : (!p c) = true := List.all_eq_true.mp h c hc
  simpa using hcheck

/-- What comes after the scheme and the authority of an address. -/
def targetOf (url : String) : List Char :=
  (Text.afterMark "://".toList url.toList).dropWhile fun c => !endsAuthority c

/-- The path of an address. -/
def pathOf (url : String) : String := String.ofList (Text.upTo endsPath (targetOf url))

/-- The query of an address, without the question mark and the fragment. -/
def queryOf (url : String) : List Char :=
  ((Text.cutFirst '?' (Text.upTo (· == '#') (targetOf url))).map Prod.snd).getD []

section

variable {authority name : String} {pairs : List (String × String)}

/-- The address of something by its name, with pairs in the query. -/
theorem toList_withQuery (hauthority : ∀ c ∈ authority.toList, endsAuthority c = false)
    (hname : ∀ c ∈ name.toList, endsPath c = false) :
    (withQuery ("https://" ++ authority ++ ("/" ++ name)) pairs).toList =
      "https://".toList ++ (authority.toList ++ '/' :: (name.toList ++
        '?' :: (Form.encode pairs).toList)) := by
  have hmark : '?' ∉ ("https://" ++ authority ++ ("/" ++ name)).toList := by
    simp only [String.toList_append, List.mem_append, not_or]
    refine ⟨⟨by decide, ?_⟩, by decide, ?_⟩
    · intro h
      exact absurd (hauthority _ h) (by decide)
    · intro h
      exact absurd (hname _ h) (by decide)
  rw [withQuery, if_neg hmark]
  simp only [String.toList_append, List.append_assoc]
  rfl

theorem targetOf_withQuery (hauthority : ∀ c ∈ authority.toList, endsAuthority c = false)
    (hname : ∀ c ∈ name.toList, endsPath c = false) :
    targetOf (withQuery ("https://" ++ authority ++ ("/" ++ name)) pairs) =
      '/' :: (name.toList ++ '?' :: (Form.encode pairs).toList) := by
  have hscheme (rest : List Char) :
      Text.afterMark "://".toList ("https://".toList ++ rest) = rest := rfl
  have hskip : ∀ c ∈ authority.toList, (!endsAuthority c) = true := by
    intro c hc
    rw [hauthority c hc, Bool.not_false]
  rw [targetOf, toList_withQuery hauthority hname, hscheme, List.dropWhile_append_of_pos hskip]
  rfl

theorem pathOf_withQuery (hauthority : ∀ c ∈ authority.toList, endsAuthority c = false)
    (hname : ∀ c ∈ name.toList, endsPath c = false) :
    pathOf (withQuery ("https://" ++ authority ++ ("/" ++ name)) pairs) = "/" ++ name := by
  have hkeep : ∀ c ∈ '/' :: name.toList, (!endsPath c) = true := by
    intro c hc
    rcases List.mem_cons.mp hc with rfl | hc
    · rfl
    · rw [hname c hc, Bool.not_false]
  apply String.toList_injective
  rw [pathOf, String.toList_ofList, targetOf_withQuery hauthority hname, ← List.cons_append,
    Text.upTo, List.takeWhile_append_of_pos hkeep, String.toList_append]
  simp [endsPath]

theorem queryOf_withQuery (hauthority : ∀ c ∈ authority.toList, endsAuthority c = false)
    (hname : ∀ c ∈ name.toList, endsPath c = false) :
    queryOf (withQuery ("https://" ++ authority ++ ("/" ++ name)) pairs) =
      (Form.encode pairs).toList := by
  have hmark : '?' ∉ '/' :: name.toList := by
    rw [List.mem_cons, not_or]
    refine ⟨by decide, fun h => absurd (hname _ h) (by decide)⟩
  -- no part of what comes after the authority begins a fragment
  have hkeep : ∀ c ∈ ('/' :: name.toList) ++ '?' :: (Form.encode pairs).toList,
      (!(c == '#')) = true := by
    intro c hc
    have hfragment : '#' ∉ ('/' :: name.toList) ++ '?' :: (Form.encode pairs).toList := by
      simp only [List.mem_append, List.mem_cons, not_or]
      refine ⟨⟨by decide, fun h => absurd (hname _ h) (by decide)⟩, by decide, ?_⟩
      exact Form.not_mem_encode (by decide) (by decide) (by decide) (by decide) (by decide)
    have hne : c ≠ '#' := fun h => hfragment (h ▸ hc)
    simpa using hne
  rw [queryOf, targetOf_withQuery hauthority hname, ← List.cons_append, Text.upTo,
    List.takeWhile_eq_self_iff.mpr hkeep, Text.cutFirst_append hmark]
  rfl

end

end Decommission.Http
