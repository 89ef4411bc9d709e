import Decommission.Blob.Client
import Decommission.Proofs.Program.History
import Decommission.Proofs.Program.Retrying
import Mathlib.Data.List.Infix

/-!
What a store tells of the images in it: it is told by the first page of a listing, where nothing
else is looked at but whether a blob is named there.
-/
namespace Decommission

namespace Text

theorem hasPart_iff_infix {part cs : List Char} : hasPart part cs = true ↔ part <:+: cs := by
  induction cs with
  | nil => rw [hasPart, List.isEmpty_iff, List.infix_nil]
  | cons c cs ih =>
    rw [hasPart, Bool.or_eq_true, List.isPrefixOf_iff_prefix, ih, List.infix_cons_iff]

end Text

namespace Blob

open Program
open Http (Transport Request Reply Method)

/-- The listing names a blob. -/
def NamesBlob (listing : String) : Prop := "<Blob>".toList <:+: listing.toList

theorem listsBlob_iff {listing : String} : Client.listsBlob listing = true ↔ NamesBlob listing :=
  Text.hasPart_iff_infix

/-- The listing goes on from a marker that it tells. -/
def GoesOn (listing : String) : Prop :=
  ∃ before marker after, marker ≠ [] ∧ '<' ∉ marker ∧
    listing.toList = before ++ "<NextMarker>".toList ++ marker ++ "</NextMarker>".toList ++ after

/-- What is concluded from the listing of images. -/
def imagesOf : Except Failure Reply → Except Failure Bool
  | .error f => .error f
  | .ok reply =>
    if reply.status = 404 then .ok false
    else match reply.body with
      | .ok listing => .ok (Client.listsBlob listing)
      | .error fault =>
        .error ((Failure.of (.transport fault)).inContext "Failed to read blob listing")

namespace Client

variable {c : Client} {method : Method} {path : String} {query : List (String × String)}
  {h : List (Event (Timed Transport))}

/-- The last attempt: the date of the request, and what comes of it. -/
def asked (c : Client) (method : Method) (path : String) (query : List (String × String))
    (date : Calendar.Instant) (answer : Except TransportFault Reply) :
    List (Event (Timed Transport)) :=
  [⟨.act .date, date⟩,
    ⟨.act (.send (c.request method path query date.httpDate) c.requestTimeout), answer⟩]

/-- What is known of a request that has ended with this. -/
def Answered (c : Client) (method : Method) (path : String) (query : List (String × String))
    (ended : Option (Except Failure Reply)) (h : List (Event (Timed Transport))) : Prop :=
  if c.closed then h = [] ∧ ended = some (.error (.of (.blobClosed c.credential.account)))
  else ∃ before date answer, h = before ++ c.asked method path query date answer ∧
    ended = some (c.judge method path answer)

theorem meets_send_answered :
    (c.send method path query).Meets (Event.recording (Timed Transport)) (fun _ _ => True)
      (c.Answered method path query) [] := by
  cases hclosed : c.closed with
  | true =>
    -- a closed store is not asked again
    refine RetryPolicy.meets_runFrom (fun h => h = []) ?_ rfl
    rintro _ rfl
    rw [sendOnce, if_pos hclosed]
    refine ⟨?_, ?_⟩
    · rw [Answered, if_pos hclosed]
      exact ⟨rfl, rfl⟩
    · intro e he hretry
      obtain rfl := Except.error.inj (Option.some.inj he)
      cases hretry
  -- each attempt has a date and an answer of its own, so nothing has to be known before it
  | false =>
    refine RetryPolicy.meets_runFrom (fun _ => True) ?_ trivial
    intro before _
    rw [sendOnce, if_neg (by simp [hclosed])]
    refine ⟨trivial, ?_⟩
    rintro date _ rfl
    refine ⟨trivial, ?_⟩
    rintro answer _ rfl
    refine ⟨?_, fun _ _ _ _ => ⟨trivial, fun _ _ => trivial⟩⟩
    rw [Answered, if_neg (by simp [hclosed])]
    exact ⟨before, date, answer, List.append_assoc _ _ _, rfl⟩

theorem customImageExists_eq :
    c.customImageExists =
      (c.send .get ("/" ++ Defaults.imageContainer) imageQuery).bind fun answer =>
        .done (imagesOf answer) := by
  refine congrArg (Program.bind _) (funext fun answer => ?_)
  cases answer <;> rfl

/-- The request for the first page of a listing of images, and what comes of it. -/
def askedForImages (c : Client) (date : Calendar.Instant) (answer : Except TransportFault Reply) :
    List (Event (Timed Transport)) :=
  c.asked .get ("/" ++ Defaults.imageContainer) imageQuery date answer

/-- What is told of images is concluded from the last answer of an open store. -/
theorem last_of_customImageExists {result : Except Failure Bool}
    (hr : Reaches (Event.recording (Timed Transport)) c.customImageExists [] (.done result) h) :
    (h = [] ∧ ∃ f, result = .error f) ∨
      ∃ before date answer, h = before ++ c.askedForImages date answer ∧
        result = imagesOf (c.judge .get ("/" ++ Defaults.imageContainer) answer) := by
  rw [customImageExists_eq] at hr
  have hmeets : ((c.send .get ("/" ++ Defaults.imageContainer) imageQuery).bind fun answer =>
      Program.done (imagesOf answer)).Meets (Event.recording (Timed Transport)) (fun _ _ => True)
      (fun ended h => ∃ answer, ended = some (imagesOf answer) ∧
        c.Answered .get ("/" ++ Defaults.imageContainer) imageQuery (some answer) h) [] := by
    refine meets_bind.mpr (meets_send_answered.imp ?_)
    rintro (_ | answer) h hanswered
    · rw [Answered] at hanswered
      split_ifs at hanswered
      · cases hanswered.2
      · obtain ⟨_, _, _, _, hended⟩ := hanswered
        cases hended
    · exact ⟨answer, rfl, hanswered⟩
  obtain ⟨answer, hresult, hanswered⟩ := hmeets.reaches hr
  obtain rfl := Option.some.inj hresult
  rw [Answered] at hanswered
  split_ifs at hanswered
  · obtain ⟨rfl, hended⟩ := hanswered
    obtain rfl := Option.some.inj hended
    exact .inl ⟨rfl, _, rfl⟩
  · obtain ⟨before, date, answer, rfl, hended⟩ := hanswered
    obtain rfl := Option.some.inj hended
    exact .inr ⟨before, date, answer, rfl, rfl⟩

theorem judge_of_success {r : Reply} (h : r.isSuccess = true) :
    c.judge method path (.ok r) = .ok r := by
  rw [judge, h, Bool.true_or, if_pos rfl]

/-- What is told of images by the answer to the last request. -/
theorem imagesOf_judge_eq_ok_iff {answer : Except TransportFault Reply} {b : Bool} :
    imagesOf (c.judge method path answer) = .ok b ↔
      ∃ r, answer = .ok r ∧ ((r.status = 404 ∧ b = false) ∨
        (r.isSuccess = true ∧ ∃ listing, r.body = .ok listing ∧ b = listsBlob listing)) := by
  cases answer with
  | error fault => simp [judge, imagesOf]
  | ok r =>
    -- a `404` is no success, but is taken for an answer all the same
    by_cases hmissing : r.status = 404
    · have hfailed : r.isSuccess = false := by
        rw [Reply.isSuccess, hmissing]
        rfl
      cases b <;> simp [judge, imagesOf, hmissing, hfailed]
    cases hsuccess : r.isSuccess with
    | false => simp [judge, imagesOf, hmissing, hsuccess]
    | true =>
      rw [judge_of_success hsuccess, imagesOf, if_neg hmissing]
      cases hbody : r.body with
      | error fault => simp [hmissing, hbody]
      | ok listing => simpa [hmissing, hsuccess, hbody] using eq_comm

theorem answer_eq_of_askedForImages {before before' : List (Event (Timed Transport))}
    {date date' : Calendar.Instant} {answer answer' : Except TransportFault Reply}
    (hh : before ++ c.askedForImages date answer = before' ++ c.askedForImages date' answer') :
    answer = answer' := by
  have hlength (date : Calendar.Instant) (answer : Except TransportFault Reply) :
      (c.askedForImages date answer).length = 2 := rfl
  have hasked := (List.append_inj' hh ((hlength _ _).trans (hlength _ _).symm)).2
  obtain ⟨hdate, hlast⟩ := List.cons.inj hasked
  obtain rfl : date = date' := by
    cases hdate
    rfl
  obtain ⟨-, hanswer⟩ := Event.mk.inj (List.cons.inj hlast).1
  exact eq_of_heq hanswer

theorem customImageExists_eq_ok_iff {result : Except Failure Bool} {b : Bool}
    (hr : Reaches (Event.recording (Timed Transport)) c.customImageExists [] (.done result) h) :
    result = .ok b ↔ ∃ before date r, h = before ++ c.askedForImages date (.ok r) ∧
      ((r.status = 404 ∧ b = false) ∨
        (r.isSuccess = true ∧ ∃ listing, r.body = .ok listing ∧ b = listsBlob listing)) := by
  rcases last_of_customImageExists hr with ⟨rfl, f, rfl⟩ | ⟨before, date, answer, rfl, rfl⟩
  · simp [askedForImages, asked]
  · rw [imagesOf_judge_eq_ok_iff]
    constructor
    · rintro ⟨r, rfl, hlast⟩
      exact ⟨before, date, r, rfl, hlast⟩
    · rintro ⟨before', date', r, hh, hlast⟩
      exact ⟨r, answer_eq_of_askedForImages hh, hlast⟩

/-- There is told to be no image just if the last reply is a `404`, or a listing that could be read
and names no blob; there is told to be one just if that listing names a blob. In particular nothing
is told where no listing could be read. -/
theorem customImageExists_verdict {result : Except Failure Bool}
    (hr : Reaches (Event.recording (Timed Transport)) c.customImageExists [] (.done result) h) :
    (result = .ok false ↔ ∃ before date r, h = before ++ c.askedForImages date (.ok r) ∧
      (r.status = 404 ∨
        (r.isSuccess = true ∧ ∃ listing, r.body = .ok listing ∧ ¬NamesBlob listing))) ∧
    (result = .ok true ↔ ∃ before date r, h = before ++ c.askedForImages date (.ok r) ∧
      r.isSuccess = true ∧ ∃ listing, r.body = .ok listing ∧ NamesBlob listing) := by
  have hfalse (listing : String) : false = listsBlob listing ↔ ¬NamesBlob listing := by
    rw [← listsBlob_iff, Bool.not_eq_true, eq_comm]
  have htrue (listing : String) : true = listsBlob listing ↔ NamesBlob listing := by
    rw [← listsBlob_iff, eq_comm]
  rw [customImageExists_eq_ok_iff hr, customImageExists_eq_ok_iff hr]
  simp only [hfalse, htrue, and_true, reduceCtorEq, and_false, false_or, and_self]

/-- A store to which each request is sent once. -/
def hasty : Client where
  credential := ⟨"a", []⟩
  base := "https://a.blob.core.windows.net"
  requestTimeout := Duration.seconds 60
  retry := .never

theorem reaches_hasty (date : Calendar.Instant) (answer : Except TransportFault Reply) :
    Reaches (Event.recording (Timed Transport)) hasty.customImageExists []
      (.done (imagesOf (hasty.judge .get ("/" ++ Defaults.imageContainer) answer)))
      (hasty.askedForImages date answer) := by
  rw [customImageExists_eq]
  exact .ask (a := date) rfl (.ask (a := answer) rfl .refl)

/-- A listing without blobs that ends with this page. -/
def blankPage : Reply :=
  ⟨200, [], .ok "<EnumerationResults><Blobs /><NextMarker /></EnumerationResults>"⟩

/-- A store whose listing is blank has no images. -/
theorem customImageExists_verdict_blank :
    Reaches (Event.recording (Timed Transport)) hasty.customImageExists [] (.done (.ok false))
      (hasty.askedForImages ⟨0, 0⟩ (.ok blankPage)) := by
  have hr := reaches_hasty ⟨0, 0⟩ (.ok blankPage)
  have hblank : ¬NamesBlob "<EnumerationResults><Blobs /><NextMarker /></EnumerationResults>" := by
    rw [← listsBlob_iff]
    decide +kernel
  have hresult := (customImageExists_verdict hr).1.mpr
    ⟨[], ⟨0, 0⟩, blankPage, rfl, .inr ⟨rfl, _, rfl, hblank⟩⟩
  rw [hresult] at hr
  exact hr

/-- A page without blobs of a listing that goes on. -/
def openListing : String :=
  "<EnumerationResults><Blobs /><NextMarker>2</NextMarker></EnumerationResults>"

theorem goesOn_openListing : GoesOn openListing := by
  refine ⟨"<EnumerationResults><Blobs />".toList, ['2'], "</EnumerationResults>".toList, ?_⟩
  decide +kernel

/-- There is told to be no image where the listing goes on after a page without blobs. -/
theorem open_listing_told_empty :
    ¬∀ (c : Client) (h : List (Event (Timed Transport))),
      Reaches (Event.recording (Timed Transport)) c.customImageExists [] (.done (.ok false)) h →
        ∃ before date r, h = before ++ c.askedForImages date (.ok r) ∧ (r.status = 404 ∨
          ∃ listing, r.body = .ok listing ∧ ¬NamesBlob listing ∧ ¬GoesOn listing) := by
  intro hclaim
  have hr := reaches_hasty ⟨0, 0⟩ (.ok ⟨200, [], .ok openListing⟩)
  have hresult : imagesOf (hasty.judge .get ("/" ++ Defaults.imageContainer)
      (.ok ⟨200, [], .ok openListing⟩)) = .ok false := by
    have hblank : false = listsBlob openListing := by decide +kernel
    exact imagesOf_judge_eq_ok_iff.mpr ⟨_, rfl, .inr ⟨rfl, _, rfl, hblank⟩⟩
  rw [hresult] at hr
  obtain ⟨before, date, r, hh, hlast⟩ := hclaim hasty _ hr
  have hanswer := answer_eq_of_askedForImages ((List.nil_append _).trans hh)
  obtain rfl := Except.ok.inj hanswer
  rcases hlast with hstatus | ⟨listing, hlisting, -, hends⟩
  · exact absurd hstatus (by decide)
  · obtain rfl := Except.ok.inj hlisting
    exact hends goesOn_openListing

end Client

end Blob

end Decommission
