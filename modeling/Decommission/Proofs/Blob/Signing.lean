import Decommission.Blob.Client
import Decommission.Proofs.Http.ReadBack
import Decommission.Proofs.Program.Retrying

/-! The signatures of requests to stores are those of the requests that are sent. -/
namespace Decommission.Blob

open Program
open Http (Transport Request Reply Method)

/-- The parts of a request that its signature covers, as they are read back from what is sent. -/
def Signable.read? (r : Request) : Option Signable :=
  (Form.decode (Http.queryOf r.url)).map fun query => {
    method := r.method.label
    path := Http.pathOf r.url
    query
    headers := r.headers.filter fun p =>
      Http.sameName p.1 "x-ms-date" || Http.sameName p.1 "x-ms-version"
    contentLength := (r.body.map String.utf8ByteSize).getD 0 }

/-- The request carries this date, and the signature of what is read back from it. -/
def IsSigned (credential : Credential) (date : Calendar.Instant) (r : Request) : Prop :=
  ∃ s, Signable.read? r = some s ∧ s.contentLength = 0 ∧
    r.values "x-ms-date" = [date.httpDate] ∧
    r.values "authorization" = [credential.authorization s]

/-- What an event sends is signed by the account for the date that was asked for just before. -/
def SendsSigned (account key : String) (before : List (Event (Timed Transport)))
    (e : Event (Timed Transport)) : Prop :=
  ∀ request, Http.request? e = some request → ∃ credential earlier date,
    Credential.ofKey account key = .ok credential ∧
    before = earlier ++ [⟨.act .date, date⟩] ∧ IsSigned credential date request

/-- A call to the store `c`, which may have been closed, or one that is not made to a store. The name
of a container ends no path. -/
def IsCallOn (c : Client) : Call Client → Prop
  | .openStore .. => True
  | .deleteContainer store container =>
    (store = c ∨ store = c.close) ∧ ∀ x ∈ container.toList, Http.endsPath x = false
  | .customImageExists store => store = c ∨ store = c.close
  | .close _ => True

namespace Client

variable {c : Client} {account key authority name : String} {method : Method}
  {query : List (String × String)}

section

variable {path date : String}

/-- The headers that the signature covers are all sent, and no others of their names. -/
theorem filter_headers_request : ((c.request method path query date).headers.filter fun p =>
    Http.sameName p.1 "x-ms-date" || Http.sameName p.1 "x-ms-version") = serviceHeaders date := by
  simp [request, serviceHeaders, Http.sameName]

theorem values_date_request :
    (c.request method path query date).values "x-ms-date" = [date] := by
  simp [Request.values, request, serviceHeaders, Http.sameName]

theorem values_authorization_request :
    (c.request method path query date).values "authorization" = [c.credential.authorization {
      method := method.label, path, query, headers := serviceHeaders date,
      contentLength := 0 }] := by
  simp [Request.values, request, serviceHeaders, Http.sameName]

end

/-- What is signed is what is read back. -/
theorem isSigned_request (date : Calendar.Instant) (hbase : c.base = "https://" ++ authority)
    (hauthority : ∀ x ∈ authority.toList, Http.endsAuthority x = false)
    (hname : ∀ x ∈ name.toList, Http.endsPath x = false) :
    IsSigned c.credential date (c.request method ("/" ++ name) query date.httpDate) := by
  have hread : Signable.read? (c.request method ("/" ++ name) query date.httpDate) = some {
      method := method.label, path := "/" ++ name, query
      headers := serviceHeaders date.httpDate, contentLength := 0 } := by
    have hurl : (c.request method ("/" ++ name) query date.httpDate).url =
        Http.withQuery ("https://" ++ authority ++ ("/" ++ name)) query := by
      rw [← hbase]
      rfl
    have hquery : Form.decode (Http.queryOf (c.request method ("/" ++ name) query
        date.httpDate).url) = some query := by
      rw [hurl, Http.queryOf_withQuery hauthority hname, Form.decode_encode]
    have hpath : Http.pathOf (c.request method ("/" ++ name) query date.httpDate).url =
        "/" ++ name := by
      rw [hurl, Http.pathOf_withQuery hauthority hname]
    rw [Signable.read?, hquery, hpath, filter_headers_request]
    rfl
  exact ⟨_, hread, rfl, values_date_request, values_authorization_request⟩

variable {h : List (Event (Timed Transport))}

/-- Each attempt asks for the date, and sends a request that is signed for it. -/
theorem meets_send (hkey : Credential.ofKey account key = .ok c.credential)
    (hbase : c.base = "https://" ++ authority)
    (hauthority : ∀ x ∈ authority.toList, Http.endsAuthority x = false)
    (hname : ∀ x ∈ name.toList, Http.endsPath x = false) :
    (c.send method ("/" ++ name) query).Meets (Event.recording (Timed Transport))
      (fun before call => ∀ answer, SendsSigned account key before ⟨call, answer⟩)
      (fun _ _ => True) h := by
  -- each attempt asks for a date of its own, so that nothing has to be known before it
  refine RetryPolicy.meets_runFrom (fun _ => True) ?_ trivial
  intro before _
  have hagain (r : Option (Except Failure Reply)) (u : List (Event (Timed Transport))) :
      True ∧ ∀ e, r = some (.error e) → isRetryable e = true → ∀ length,
        (∀ answer, SendsSigned account key u ⟨.pause length, answer⟩) ∧
        ∀ v, Event.recording (Timed Transport) u (.pause length) () v → True := by
    refine ⟨trivial, fun _ _ _ length => ⟨?_, fun _ _ => trivial⟩⟩
    intro answer request hsent
    cases hsent
  unfold sendOnce
  split_ifs
  -- a closed store sends nothing
  · exact hagain _ before
  · refine ⟨?_, ?_⟩
    · intro answer request hsent
      cases hsent
    rintro date _ rfl
    refine ⟨?_, fun answer after _ => hagain _ after⟩
    intro answer request hsent
    obtain rfl := Option.some.inj hsent
    exact ⟨c.credential, before, date, hkey, rfl, isSigned_request date hbase hauthority hname⟩

end Client

variable {g : Gateway} {account key : String} {c : Client} {call : Call Client}
  {q : Task Transport (Answer Client call)} {h : List (Event (Timed Transport))}

theorem of_openStore (hopen : g.openStore account key = .ok c) :
    Credential.ofKey account key = .ok c.credential ∧
      c.base = "https://" ++ (account ++ "." ++ g.suffix) := by
  unfold Gateway.openStore at hopen
  cases hkey : Credential.ofKey account key with
  | error e =>
    rw [hkey] at hopen
    cases hopen
  | ok credential =>
    rw [hkey] at hopen
    obtain rfl := Except.ok.inj hopen
    refine ⟨rfl, ?_⟩
    simp only [String.append_assoc]

theorem imageContainer_endsPath :
    ∀ x ∈ Defaults.imageContainer.toList, Http.endsPath x = false :=
  Http.forall_of_all (by decide)

/-- The host of an account ends no authority. -/
theorem host_endsAuthority (haccount : ∀ x ∈ account.toList, Http.endsAuthority x = false)
    (hsuffix : ∀ x ∈ g.suffix.toList, Http.endsAuthority x = false) :
    ∀ x ∈ (account ++ "." ++ g.suffix).toList, Http.endsAuthority x = false := by
  intro x hx
  rw [String.toList_append, String.toList_append, List.mem_append, List.mem_append] at hx
  rcases hx with (hx | hx) | hx
  · exact haccount x hx
  · rw [List.mem_singleton.mp hx]
    rfl
  · exact hsuffix x hx

/-- Each call sends nothing but what is signed by the account of the store. -/
theorem meets_carryOut (haccount : ∀ x ∈ account.toList, Http.endsAuthority x = false)
    (hsuffix : ∀ x ∈ g.suffix.toList, Http.endsAuthority x = false)
    (hopen : g.openStore account key = .ok c) (hcall : IsCallOn c call) :
    (g.carryOut call).Meets (Event.recording (Timed Transport))
      (fun before call => ∀ answer, SendsSigned account key before ⟨call, answer⟩)
      (fun _ _ => True) [] := by
  have hauthority : ∀ x ∈ (account ++ "." ++ g.suffix).toList, Http.endsAuthority x = false :=
    host_endsAuthority haccount hsuffix
  obtain ⟨hkey, hbase⟩ := of_openStore hopen
  -- closing a store changes neither its credential nor where it is
  have hsend {store : Client} (hstore : store = c ∨ store = c.close) {method : Method}
      {name : String} (query : List (String × String))
      (hname : ∀ x ∈ name.toList, Http.endsPath x = false) :
      (store.send method ("/" ++ name) query).Meets (Event.recording (Timed Transport))
        (fun before call => ∀ answer, SendsSigned account key before ⟨call, answer⟩)
        (fun _ _ => True) [] := by
    rcases hstore with rfl | rfl
    · exact Client.meets_send hkey hbase hauthority hname
    · exact Client.meets_send (c := c.close) hkey hbase hauthority hname
  cases call with
  | openStore account key => trivial
  | deleteContainer store container =>
    obtain ⟨hstore, hname⟩ := hcall
    refine meets_bind.mpr ((hsend hstore _ hname).imp ?_)
    rintro (_ | answer) t -
    · trivial
    · trivial
  | customImageExists store =>
    refine meets_bind.mpr ((hsend hcall _ imageContainer_endsPath).imp ?_)
    rintro (_ | _ | answer) t -
    · trivial
    · trivial
    · trivial
  | close store => trivial

/-- Each request that is sent to a store, again after a failure or not, is signed for its own date by
the account of the store. -/
theorem requests_are_signed (haccount : ∀ x ∈ account.toList, Http.endsAuthority x = false)
    (hsuffix : ∀ x ∈ g.suffix.toList, Http.endsAuthority x = false)
    (hopen : g.openStore account key = .ok c) (hcall : IsCallOn c call)
    (hr : Reaches (Event.recording (Timed Transport)) (g.carryOut call) [] q h) :
    EachAfter (SendsSigned account key) h := by
  have hmeets := meets_carryOut haccount hsuffix hopen hcall
  refine Event.eachAfter_of_meets ?_ hmeets hr
  intro before call answer hallowed
  exact hallowed answer

/-- A gateway on which a request is sent once more after a failure. -/
def Gateway.insistent : Gateway where
  requestTimeout := Duration.seconds 60
  retry := .fixed 2 (Duration.seconds 1)

/-- The store of the account `a` behind that gateway. -/
def Client.insistent : Client where
  credential := ⟨"a", [0x6B, 0x65, 0x79]⟩
  base := "https://a.blob.core.windows.net"
  requestTimeout := Duration.seconds 60
  retry := .fixed 2 (Duration.seconds 1)

/-- A container is deleted from a store that is busy at first: the second request has another date
than the first, and is signed for that. -/
theorem requests_are_signed_busy : ∃ h,
    Reaches (Event.recording (Timed Transport))
      (Gateway.insistent.carryOut (.deleteContainer .insistent "vhds")) [] (.done (.ok true)) h ∧
    (h.filterMap Http.request?).map (fun r => r.values "x-ms-date") =
      [["Thu, 01 Jan 1970 00:00:00 GMT"], ["Thu, 01 Jan 1970 00:00:01 GMT"]] ∧
    EachAfter (SendsSigned "a" "a2V5") h := by
  have hopen : Gateway.insistent.openStore "a" "a2V5" = .ok .insistent := by
    have hkey : Credential.ofKey "a" "a2V5" = .ok ⟨"a", [0x6B, 0x65, 0x79]⟩ := by
      decide +kernel
    rw [Gateway.openStore, hkey]
    rfl
  have hreaches : Reaches (Event.recording (Timed Transport))
      (Gateway.insistent.carryOut (.deleteContainer .insistent "vhds")) [] (.done (.ok true)) _ :=
    .ask (a := (⟨0, 0⟩ : Calendar.Instant)) rfl <|
    .ask (a := (.ok ⟨503, [], .ok ""⟩ : Except TransportFault Reply)) rfl <|
    .ask (a := ()) rfl <|
    .ask (a := (⟨1, 0⟩ : Calendar.Instant)) rfl <|
    .ask (a := (.ok ⟨202, [], .ok ""⟩ : Except TransportFault Reply)) rfl .refl
  refine ⟨_, hreaches, ?_, ?_⟩
  · have hfirst : (⟨0, 0⟩ : Calendar.Instant).httpDate = "Thu, 01 Jan 1970 00:00:00 GMT" := by
      decide +kernel
    have hsecond : (⟨1, 0⟩ : Calendar.Instant).httpDate = "Thu, 01 Jan 1970 00:00:01 GMT" := by
      decide +kernel
    rw [← hfirst, ← hsecond]
    exact congrArg₂ (fun a b => [a, b]) Client.values_date_request Client.values_date_request
  · have hcall : IsCallOn .insistent (.deleteContainer .insistent "vhds") :=
      ⟨.inl rfl, Http.forall_of_all (by decide)⟩
    have haccount : ∀ x ∈ "a".toList, Http.endsAuthority x = false :=
      Http.forall_of_all (by decide)
    have hsuffix : ∀ x ∈ Gateway.insistent.suffix.toList, Http.endsAuthority x = false :=
      Http.forall_of_all (by decide)
    exact requests_are_signed haccount hsuffix hopen hcall hreaches

end Decommission.Blob
