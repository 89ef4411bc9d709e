import Decommission.Proofs.ControlPlane.Sending
import Decommission.Proofs.Failure.Contexts

/-!
What a call makes of a reply `404`: that what it is about is absent, unless the body of the reply names
an error code that means something else.
-/
namespace Decommission.ControlPlane

open Program
open Http (Transport Request Reply Method)

/-- The error code that the body of a reply names. -/
def errorCode? (r : Reply) : Option String :=
  (r.document?.bind ServiceError.envelopeOfJson?).bind Prod.fst

/-- The page of a listing that a reply brings. -/
def page? (r : Reply) : Option ListingPage :=
  if r.isSuccess then r.document?.bind ListingPage.ofJson? else none

/-- The names on the page that an event brought. -/
def namesIn (e : Event (Timed Transport)) : List String :=
  (((reply? e).bind page?).map ListingPage.names).getD []

/-- The names on all pages so far. -/
def gathered (h : History) : List String := h.flatMap namesIn

/-- What a call gives that finds its resource absent. A listing keeps the names on the pages before.
-/
def absent : (call : Call) → History → Result call
  | .getMachine .., _ => none
  | .getNetworkCard .., _ => none
  | .getStorageKeys .., _ => none
  | .list .., h => gathered h
  | .delete .., _ => .alreadyAbsent
  | .deleteGroup .., _ => .alreadyAbsent
  | .operationStatus .., _ => .succeeded

/-- What a call gives whose request is declined: the failure, but for an operation that it tells of.
-/
def declined : (call : Call) → Failure → Except Failure (Result call)
  | .operationStatus _, f => stateOf (.error f)
  | _, f => .error f

/-- What a call gives whose last request fails. -/
def given (call : Call) (h : History) (f : Failure) : Except Failure (Result call) :=
  if f.isNotFound then .ok (absent call h) else declined call f

/-- The last reply leaves open what the call gives, if it is a `404` at all. -/
def LeavesOpen (h : History) : Prop :=
  ∀ r, lastReply? h = some r → r.status = 404 → r.refusal.isRetryable = true

/-- A call that ends with a reply `404` gives what the failure tells that this reply is. -/
def Settles (call : Call) (result : Option (Except Failure (Result call))) (h : History) : Prop :=
  ∀ r, lastReply? h = some r → r.status = 404 →
    ∃ method url, result = some (given call h (refused method url r))

section

variable {r : Reply} {f : Failure} {α : Type} {h : History}

theorem gathered_append {h' : History} : gathered (h ++ h') = gathered h ++ gathered h' :=
  List.flatMap_append

theorem gathered_paused {length : Duration} : gathered (h ++ [paused length]) = gathered h :=
  gathered_append.trans (List.append_nil _)

theorem classify_isNotFound_iff {code message : Option String} :
    (ServiceError.classify 404 code message).isNotFound = true ↔
      ∀ c, code = some c → c ∈ ServiceError.notFoundCodes := by
  cases code with
  | none => simp [ServiceError.classify, ServiceError.isNotFound]
  | some c =>
    simp only [Option.some.injEq, forall_eq', ServiceError.classify]
    by_cases hc : c ∈ ServiceError.notFoundCodes
    · simp [hc, ServiceError.isNotFound]
    · simp only [hc, iff_false, Bool.not_eq_true]
      split_ifs <;> simp_all [ServiceError.isNotFound]

/-- Only a code asks to send a request again that was answered `404`. -/
theorem codes_of_isRetryable {code message : Option String}
    (hretry : (ServiceError.classify 404 code message).isRetryable = true) :
    ∃ c, code = some c ∧
      (c ∈ ServiceError.throttlingCodes ∨ c ∈ ServiceError.conflictCodes) := by
  cases code with
  | none => simp [ServiceError.classify, ServiceError.isRetryable] at hretry
  | some c =>
    refine ⟨c, rfl, ?_⟩
    by_contra hc
    rw [not_or] at hc
    revert hretry
    simp only [ServiceError.classify]
    -- of the kinds that are tried again, a `404` can only be one by its code
    split_ifs <;> simp_all [ServiceError.isRetryable]

/-- The error that a reply is depends on its status and on the code that its body names. -/
theorem refusal_eq_classify (r : Reply) :
    ∃ message, r.refusal = ServiceError.classify r.status (errorCode? r) message := by
  rw [Reply.refusal, ServiceError.ofResponse, r.read_body, errorCode?]
  cases r.document?.bind ServiceError.envelopeOfJson? with
  | none => exact ⟨_, rfl⟩
  | some named => exact ⟨named.2, rfl⟩

/-- A reply `404` is the error that nothing was found exactly if its body names no code, or one that
means this. -/
theorem refusal_isNotFound_iff (hstatus : r.status = 404) :
    r.refusal.isNotFound = true ↔
      ∀ code, errorCode? r = some code → code ∈ ServiceError.notFoundCodes := by
  obtain ⟨message, hrefusal⟩ := refusal_eq_classify r
  rw [hrefusal, hstatus]
  exact classify_isNotFound_iff

theorem code_of_isRetryable {code : String} (hstatus : r.status = 404)
    (hcode : errorCode? r = some code) (hretry : r.refusal.isRetryable = true) :
    code ∈ ServiceError.throttlingCodes ∨ code ∈ ServiceError.conflictCodes := by
  obtain ⟨message, hrefusal⟩ := refusal_eq_classify r
  rw [hrefusal, hstatus, hcode] at hretry
  obtain ⟨c, hc, hmember⟩ := codes_of_isRetryable hretry
  obtain rfl : code = c := Option.some.inj hc
  exact hmember

theorem isSuccess_of_missing (hstatus : r.status = 404) : r.isSuccess = false := by
  rw [Reply.isSuccess, hstatus]
  rfl

theorem page?_of_decoded {page : ListingPage} {context : String} (hsuccess : r.isSuccess = true)
    (hpage : decodeReply ListingPage.layout context r = .ok page) : page? r = some page := by
  rw [page?, if_pos hsuccess, Reply.document?]
  rw [decodeReply] at hpage
  cases hbody : r.body with
  | error fault =>
    rw [hbody] at hpage
    cases hpage
  | ok body =>
    rw [hbody] at hpage
    change (Json.read? body).bind ListingPage.ofJson? = some page
    simp only [Json.Layout.read] at hpage
    cases hread : (Json.read? body).bind ListingPage.layout.ofJson? with
    | none => simp [hread] at hpage
    | some read => exact hread.trans (by simpa [hread] using hpage)

theorem stateOf_of_isNotFound (hf : f.isNotFound = true) :
    stateOf (.error f) = .ok .succeeded := by
  rw [Failure.isNotFound] at hf
  rw [stateOf, statusOfFailure?]
  cases hs : f.service? with
  | none => simp [hs] at hf
  | some error => cases error <;> simp_all [ServiceError.isNotFound]

end

namespace Connection

variable {c : Connection} {call : Call} {h : History} {f : Failure} {method : Method} {url : String}
  {r : Reply} {answer : Except TransportFault Reply}
  {result : Option (Except Failure (Result call))}

theorem conclude_error {one : OneRequest (Result call)} (hcall : c.oneRequest? call = some one) :
    one.conclude (.error f) = given call h f := by
  cases call with
  | list kind group => cases hcall
  | getMachine | getNetworkCard | getStorageKeys =>
    obtain rfl := Option.some.inj hcall
    exact ifFound_error
  | delete | deleteGroup =>
    obtain rfl := Option.some.inj hcall
    change deletionOf (.error f) = _
    rw [deletionOf, ifFound_error, given]
    split_ifs <;> rfl
  | operationStatus operation =>
    obtain rfl := Option.some.inj hcall
    change stateOf (.error f) = _
    rw [given]
    split_ifs with hf
    · exact stateOf_of_isNotFound hf
    · rfl

/-- A request that is sent again leaves the call open. -/
theorem leavesOpen_of_not_final (hfinal : isFinal answer = false) :
    LeavesOpen (h ++ [c.sent method url answer]) := by
  intro r hlast _
  match answer with
  | .error fault => simp at hlast
  | .ok r' =>
    obtain rfl : r' = r := by simpa using hlast
    rw [isFinal, Bool.or_eq_false_iff] at hfinal
    simpa using hfinal.2

theorem leavesOpen_paused {length : Duration} : LeavesOpen (h ++ [paused length]) := by
  intro r hlast
  simp at hlast

theorem gathered_sent :
    gathered (h ++ [c.sent method url (.ok r)]) =
      gathered h ++ ((page? r).map ListingPage.names).getD [] := by
  rw [gathered_append]
  exact congrArg (gathered h ++ ·) (List.append_nil _)

theorem gathered_refused (hr : r.isSuccess = false) :
    gathered (h ++ [c.sent method url (.ok r)]) = gathered h := by
  rw [gathered_sent, page?, if_neg (by simp [hr])]
  exact List.append_nil _

theorem gathered_of_not_final (hfinal : isFinal answer = false) :
    gathered (h ++ [c.sent method url answer]) = gathered h := by
  match answer with
  | .error fault => exact gathered_append.trans (List.append_nil _)
  | .ok r =>
    rw [isFinal, Bool.or_eq_false_iff] at hfinal
    exact gathered_refused hfinal.1

theorem status_of_success (hr : r.isSuccess = true) :
    ∀ r', lastReply? (h ++ [c.sent method url (.ok r)]) = some r' → r'.status ≠ 404 := by
  intro r' hlast hstatus
  obtain rfl : r = r' := by simpa using hlast
  rw [isSuccess_of_missing hstatus] at hr
  cases hr

theorem settles_fault {fault : TransportFault} :
    Settles call result (h ++ [c.sent method url (.error fault)]) := by
  intro r hlast
  simp at hlast

theorem settles_success (hr : r.isSuccess = true) :
    Settles call result (h ++ [c.sent method url (.ok r)]) :=
  fun r' hlast hstatus => absurd hstatus (status_of_success hr r' hlast)

theorem settles_refused (hr : r.isSuccess = false) :
    Settles call (some (given call h (refused method url r)))
      (h ++ [c.sent method url (.ok r)]) := by
  intro r' hlast _
  obtain rfl : r = r' := by simpa using hlast
  have habsent : absent call (h ++ [c.sent method url (.ok r)]) = absent call h := by
    cases call with
    | list kind group => exact gathered_refused hr
    | _ => rfl
  refine ⟨method, url, ?_⟩
  rw [given, given, habsent]

theorem meets_oneRequest {one : OneRequest (Result call)} (hcall : c.oneRequest? call = some one) :
    (c.carryOut call).Meets (Event.recording (Timed Transport)) (fun h _ => LeavesOpen h)
      (Settles call) [] := by
  rw [carryOut_eq hcall]
  refine meets_bind.mpr (meets_send LeavesOpen ?_ ?_ ?_ ?_)
  · exact fun before hbefore => hbefore
  · intro before answer _
    match answer with
    | .error fault => exact settles_fault
    | .ok r =>
      cases hr : r.isSuccess with
      | true => exact settles_success hr
      | false =>
        rw [judge_refused hr, afterwards, conclude_error (h := before) hcall]
        exact settles_refused hr
  · intro before answer length _ hfinal
    exact ⟨leavesOpen_of_not_final hfinal, leavesOpen_paused⟩
  · intro r hlast
    simp at hlast

/-- Names from before are put before those from a page, and both before the others. -/
theorem bind_names {I : Interface} {p : Program I (Except Failure (List String))}
    {names here : List String} :
    (p.bind fun rest => .done (rest.map fun more => here ++ more)).bind
        (fun rest => .done (rest.map fun more => names ++ more)) =
      p.bind fun rest => .done (rest.map fun more => names ++ here ++ more) := by
  rw [Program.bind_assoc]
  refine congrArg p.bind (funext fun rest => ?_)
  cases rest with
  | error f => rfl
  | ok more => simp [Except.map]

/-- How a listing goes on after a page. -/
def afterPage (c : Connection) (limit : Nat) :
    Except Failure (Option ListingPage) → Task Transport (Except Failure (List String))
  | .error f => .done (.error f)
  | .ok none => .done (.ok [])
  | .ok (some ⟨names, none⟩) => .done (.ok names)
  | .ok (some ⟨names, some next⟩) => (c.listFrom limit next).bind fun rest =>
    .done (rest.map fun more => names ++ more)

theorem listFrom_succ {limit : Nat} :
    c.listFrom (limit + 1) url = (c.send .get url).bind fun answer =>
      c.afterPage limit (ifFound
        (decodeReply ListingPage.layout ("Failed to decode response from " ++ url)) answer) := by
  rw [listFrom, Connection.get, fetch, Program.bind_assoc]
  rfl

/-- With at most `limit` pages to come, a listing settles with the names on the pages before. -/
def SettlesFrom (c : Connection) (limit : Nat) : Prop :=
  ∀ (kind : ResourceKind) (group url : String) (h : History),
    (∀ r, lastReply? h = some r → r.status ≠ 404) →
      ((c.listFrom limit url).bind fun rest =>
          .done (rest.map fun more => gathered h ++ more)).Meets
        (Event.recording (Timed Transport)) (fun h _ => LeavesOpen h)
        (Settles (.list kind group)) h

/-- What a listing makes of the answer for one page, if it settles with the pages after that. -/
theorem meets_afterPage {kind : ResourceKind} {group : String} {limit : Nat}
    (hrest : c.SettlesFrom limit) :
    ((c.afterPage limit (ifFound
        (decodeReply ListingPage.layout ("Failed to decode response from " ++ url))
        (judge .get url answer))).bind fun rest =>
          .done (rest.map fun more => gathered h ++ more)).Meets
      (Event.recording (Timed Transport)) (fun h _ => LeavesOpen h)
      (Settles (.list kind group)) (h ++ [c.sent .get url answer]) := by
  match answer with
  | .error fault =>
    change Settles (.list kind group) (some (.error _)) _
    exact settles_fault
  | .ok r =>
    cases hr : r.isSuccess with
    | false =>
      have hsettled : Settles (.list kind group)
          (some (given (.list kind group) h (refused .get url r)))
          (h ++ [c.sent .get url (.ok r)]) := settles_refused hr
      rw [given, absent] at hsettled
      rw [judge_refused hr, ifFound_error]
      -- a page that is not found ends the listing, and any other failure is that of the listing
      split_ifs at hsettled ⊢
      · change Settles (.list kind group) (some (.ok (gathered h ++ []))) _
        rwa [List.append_nil]
      · exact hsettled
    | true =>
      rw [judge_success hr, ifFound_ok]
      cases hpage : decodeReply ListingPage.layout ("Failed to decode response from " ++ url) r with
      | error f =>
        change Settles (.list kind group) (some (.error f)) _
        exact settles_success hr
      | ok page =>
        obtain ⟨here, none | next⟩ := page
        · change Settles (.list kind group) (some (.ok (gathered h ++ here))) _
          exact settles_success hr
        · have hgathered : gathered (h ++ [c.sent .get url (.ok r)]) = gathered h ++ here := by
            rw [gathered_sent, page?_of_decoded hr hpage]
            rfl
          change Meets _ _ _ (((c.listFrom limit next).bind _).bind _) _
          rw [bind_names, ← hgathered]
          exact hrest kind group next _ (status_of_success hr)

theorem settlesFrom (limit : Nat) : c.SettlesFrom limit := by
  induction limit with
  | zero =>
    intro kind group url h hlast r hr hstatus
    exact absurd hstatus (hlast r hr)
  | succ limit ih =>
    intro kind group url h hlast
    rw [listFrom_succ, Program.bind_assoc]
    -- attempts that are made again gather nothing
    refine meets_bind.mpr (meets_send
      (fun before => LeavesOpen before ∧ gathered before = gathered h) ?_ ?_ ?_ ?_)
    · exact fun before hbefore => hbefore.1
    · rintro before answer ⟨-, hbefore⟩
      rw [← hbefore]
      exact meets_afterPage ih
    · rintro before answer length ⟨-, hbefore⟩ hfinal
      refine ⟨leavesOpen_of_not_final hfinal, leavesOpen_paused, ?_⟩
      rw [gathered_paused, gathered_of_not_final hfinal, hbefore]
    · exact ⟨fun r hr hstatus => absurd hstatus (hlast r hr), rfl⟩

theorem meets_carryOut :
    (c.carryOut call).Meets (Event.recording (Timed Transport)) (fun h _ => LeavesOpen h)
      (Settles call) [] := by
  cases call with
  | list kind group =>
    have hlist : c.list kind group = (c.listFrom c.pageLimit (c.root.collectionUrl kind group)).bind
        fun rest => .done (rest.map fun more => [] ++ more) := by
      have hsame : (fun rest : Except Failure (List String) =>
          (Program.done (rest.map fun more => [] ++ more) : Task Transport _)) = .done := by
        funext rest
        cases rest <;> rfl
      rw [hsame, bind_pure_right]
      rfl
    change Meets _ _ _ (c.list kind group) _
    rw [hlist]
    exact settlesFrom c.pageLimit kind group _ [] (by simp)
  | _ => exact meets_oneRequest rfl

section

variable {q : Task Transport (Except Failure (Result call))}
  (hr : Reaches (Event.recording (Timed Transport)) (c.carryOut call) [] q h)
  (hlast : lastReply? h = some r) (hstatus : r.status = 404)

include hr hlast hstatus

theorem done_of_missing (hfinal : r.refusal.isRetryable = false) : ∃ result, q = .done result := by
  have hmeets := meets_carryOut.reaches hr
  match q with
  | .done result => exact ⟨result, rfl⟩
  | .stalled =>
    obtain ⟨method, url, hresult⟩ := hmeets r hlast hstatus
    cases hresult
  | .ask call next =>
    have hretry : r.refusal.isRetryable = true := hmeets.1 r hlast hstatus
    rw [hfinal] at hretry
    cases hretry

theorem given_of_missing {result : Except Failure (Result call)} (hq : q = .done result) :
    ∃ method url, result = given call h (refused method url r) := by
  subst hq
  obtain ⟨method, url, hresult⟩ := meets_carryOut.reaches hr r hlast hstatus
  exact ⟨method, url, Option.some.inj hresult⟩

end

/-- A call that is answered `404` ends with its resource absent, if the body of that reply names no
error code or one that means this. Under any other code it is declined, or sent again where the code
asks for that. -/
theorem absent_of_missing {q : Task Transport (Except Failure (Result call))}
    (hr : Reaches (Event.recording (Timed Transport)) (c.carryOut call) [] q h)
    (hlast : lastReply? h = some r) (hstatus : r.status = 404) :
    ((∀ code, errorCode? r = some code → code ∈ ServiceError.notFoundCodes) →
      q = .done (.ok (absent call h))) ∧
    ∀ code, errorCode? r = some code → code ∉ ServiceError.notFoundCodes →
      (code ∉ ServiceError.throttlingCodes → code ∉ ServiceError.conflictCodes →
        ∃ result, q = .done result) ∧
      ∀ result, q = .done result →
        ∃ method url, result = declined call (refused method url r) := by
  constructor
  · intro hcodes
    have hfound : r.refusal.isNotFound = true := (refusal_isNotFound_iff hstatus).mpr hcodes
    have hfinal := ServiceError.isRetryable_of_isNotFound hfound
    obtain ⟨result, hq⟩ := done_of_missing hr hlast hstatus hfinal
    obtain ⟨method, url, hresult⟩ := given_of_missing hr hlast hstatus hq
    rw [hq, hresult, given, if_pos (isNotFound_refused.trans hfound)]
  · intro code hcode hother
    constructor
    · intro hthrottling hconflict
      apply done_of_missing hr hlast hstatus
      rw [Bool.eq_false_iff]
      intro hretry
      exact (code_of_isRetryable hstatus hcode hretry).elim hthrottling hconflict
    · intro result hq
      obtain ⟨method, url, hresult⟩ := given_of_missing hr hlast hstatus hq
      refine ⟨method, url, ?_⟩
      rw [hresult, given, if_neg]
      intro hfound
      exact hother ((refusal_isNotFound_iff hstatus).mp hfound code hcode)

/-- A page of a listing that goes on. -/
def firstPage : Reply :=
  ⟨200, [], .ok "\x7b\"value\":[\x7b\"name\":\"a\"\x7d],\"nextLink\":\"https://e/2\"\x7d"⟩

/-- A reply that nothing is found, without a code. -/
def gone : Reply := ⟨404, [], .ok "gone"⟩

/-- A listing whose second page is gone. -/
def shortened : History :=
  [hasty.sent .get (hasty.root.collectionUrl .networkInterface "g") (.ok firstPage),
    hasty.sent .get "https://e/2" (.ok gone)]

theorem reaches_page {α : Type} {f : Except Failure (List String) → Task Transport α}
    (limit : Nat) (url : String) (answer : Except TransportFault Reply) :
    Reaches (Event.recording (Timed Transport)) ((hasty.listFrom (limit + 1) url).bind f) h
      ((hasty.afterPage limit (ifFound
        (decodeReply ListingPage.layout ("Failed to decode response from " ++ url))
        (judge .get url answer))).bind f) (h ++ [hasty.sent .get url answer]) := by
  rw [listFrom_succ, Program.bind_assoc]
  exact reaches_hasty answer

/-- A listing ends at the page that is gone, with the names before. -/
theorem absent_of_missing_page :
    Reaches (Event.recording (Timed Transport)) (hasty.carryOut (.list .networkInterface "g")) []
      (.done (.ok ["a"])) shortened ∧
    lastReply? shortened = some gone ∧ gone.status = 404 ∧ errorCode? gone = none := by
  have hpage : decodeReply ListingPage.layout ("Failed to decode response from " ++
      hasty.root.collectionUrl .networkInterface "g") firstPage =
        .ok ⟨["a"], some "https://e/2"⟩ := by decide +kernel
  have hcode : errorCode? gone = none := by decide +kernel
  have hnames : gathered shortened = ["a"] := by decide +kernel
  have hfirst := reaches_page (f := .done) (h := []) 999999
    (hasty.root.collectionUrl .networkInterface "g") (.ok firstPage)
  rw [bind_pure_right, bind_pure_right, judge_success rfl, ifFound_ok, hpage] at hfirst
  have hsecond := reaches_page (f := fun rest => .done (rest.map fun more => ["a"] ++ more))
    (h := [hasty.sent .get (hasty.root.collectionUrl .networkInterface "g") (.ok firstPage)])
    999998 "https://e/2" (.ok gone)
  have hr : Reaches (Event.recording (Timed Transport))
      (hasty.carryOut (.list .networkInterface "g")) [] _ shortened := hfirst.trans hsecond
  have hq := (absent_of_missing hr rfl rfl).1 (by simp [hcode])
  rw [hq, absent, hnames] at hr
  exact ⟨hr, rfl, rfl, hcode⟩

/-- A reply that an operation is not found, with a code of its own for that. -/
def unlisted : Reply :=
  ⟨404, [], .ok "\x7b\"error\":\x7b\"code\":\"OperationNotFound\"\x7d\x7d"⟩

/-- An operation that is not found is told to have failed, if the reply has a code of its own for that.
-/
theorem missing_operation_failed :
    ¬∀ (c : Connection) (call : Call) (q : Task Transport (Except Failure (Result call)))
      (h : History) (r : Reply),
      Reaches (Event.recording (Timed Transport)) (c.carryOut call) [] q h →
        lastReply? h = some r → r.status = 404 → q = .done (.ok (absent call h)) := by
  intro hclaim
  have hr : Reaches (Event.recording (Timed Transport)) (hasty.carryOut (.operationStatus "o")) []
      (.done (.ok .failed)) [hasty.sent .get "o" (.ok unlisted)] := by
    have hresult : stateOf (judge .get "o" (.ok unlisted)) = .ok .failed := by decide +kernel
    change Reaches _ (hasty.operationStatus "o") _ _ _
    rw [operationStatus_eq, ← hresult]
    exact reaches_hasty (.ok unlisted)
  have hq := hclaim hasty _ _ _ unlisted hr rfl rfl
  injection hq with hq
  injection hq with hq
  cases hq

end Connection

end Decommission.ControlPlane
