import Decommission.Proofs.ControlPlane.Attempts
import Decommission.Proofs.ControlPlane.Sending
import Decommission.Proofs.Program.PairedRuns
import Decommission.Proofs.Teardown.Jobs

/-!
Runs of one job with other secrets. They send the same requests at the same times and come to the
same, but for what authorizes the requests.
-/
namespace Decommission

open Program
open Http (Transport Request Reply Method)
open Simulation (Wire WireReply)

theorem Base64.isHeaderChar_encodeBytes (bytes : List UInt8) :
    ∀ x ∈ encodeBytes bytes, Http.isHeaderChar x = true := by
  have hdigit (v : Nat) : Http.isHeaderChar (digit v) = true := by
    have halphabet : ∀ x ∈ alphabet, Http.isHeaderChar x = true :=
      List.all_eq_true.mp (by decide)
    rw [digit, List.getD_eq_getElem?_getD]
    cases hv : alphabet[v]? with
    | none => decide
    | some x => exact halphabet x (List.mem_of_getElem? hv)
  have hpad : Http.isHeaderChar '=' = true := by decide
  induction bytes using encodeBytes.induct with
  | case1 => nofun
  | case2 a | case3 a b => simp [encodeBytes, hdigit, hpad]
  | case4 a b c rest ih =>
    simp only [encodeBytes, List.forall_mem_cons]
    exact ⟨hdigit _, hdigit _, hdigit _, hdigit _, ih⟩

namespace Http.Request

/-- The request with what authorizes it. -/
def authorized (r : Request) (value : String) : Request :=
  { r with headers := ("authorization", value) :: r.headers }

/-- The same request but for what authorizes it: the two tokens, or two signatures, which are the
same too if keys are the same. -/
inductive SameBut (token token' : String) (same : Prop) : Request → Request → Prop where
  | bearer (r : Request) :
    SameBut token token' same (r.authorized ("Bearer " ++ token))
      (r.authorized ("Bearer " ++ token'))
  | signed (r : Request) (account : String) {signature signature' : String}
    (h : same → signature' = signature) :
    SameBut token token' same (r.authorized ("SharedKey " ++ account ++ ":" ++ signature))
      (r.authorized ("SharedKey " ++ account ++ ":" ++ signature'))

/-- The request may be sent: nothing in its headers is forbidden there. -/
def isSendable (r : Request) : Bool := r.headers.all fun p => isHeaderValue p.2

end Http.Request

namespace Simulation

/-- Replies that come after the same time, with keys in them, and all else the same. -/
def WireReply.SameButKeys (same : Prop) (r r' : WireReply) : Prop :=
  r'.delay = r.delay ∧ ∃ reply reply', r.outcome = .ok reply ∧ r'.outcome = .ok reply' ∧
    reply.SameButKeys same reply'

/-- The requests are answered in their order by replies that are the same, but that those to a
`POST` may hold other keys. -/
def Answered (same : Prop) (asked : List Request) (replies replies' : List WireReply) : Prop :=
  replies'.length = replies.length ∧
    ∀ (i : Nat) (r r' : WireReply), replies[i]? = some r → replies'[i]? = some r' →
      r = r' ∨ (∃ request : Request, asked[i]? = some request ∧ request.method = .post) ∧
        r.SameButKeys same r'

section

variable {same : Prop} {asked : List Request} {request request' : Request} {r r' : WireReply}
  {replies replies' : List WireReply}

theorem Answered.first (h : Answered same (request :: asked) (r :: replies) (r' :: replies')) :
    r = r' ∨ request.method = .post ∧ r.SameButKeys same r' := by
  refine (h.2 0 r r' rfl rfl).imp_right ?_
  rintro ⟨⟨_, ⟨⟩, hpost⟩, hkeys⟩
  exact ⟨hpost, hkeys⟩

theorem Answered.later (h : Answered same (request :: asked) (r :: replies) (r' :: replies')) :
    Answered same asked replies replies' :=
  ⟨Nat.succ.inj h.1, fun i => h.2 (i + 1)⟩

/-- Replies to no requests are the same. -/
theorem Answered.eq (h : Answered same [] replies replies') : replies' = replies := by
  refine List.ext_getElem h.1 fun i hi' hi => ?_
  rcases h.2 i _ _ (List.getElem?_eq_getElem hi) (List.getElem?_eq_getElem hi') with
    heq | ⟨⟨_, hnone, -⟩, -⟩
  · exact heq.symm
  · cases hnone

/-- Control characters in headers are no matter of keys. -/
theorem receive_sameButKeys {reply reply' : Reply} (h : reply.SameButKeys same reply') :
    (receive reply).SameButKeys same (receive reply') where
  success := h.success
  status := h.status
  headers := by rw [receive, receive, h.headers]
  keys := h.keys

/-- The replies to a pair of requests that are on the way, where `final` will be the requests of the
first run, and `w`, `w'` have got so far. -/
structure Wire.Beside (token token' : String) (same : Prop) (final : List Request) (w w' : Wire) :
    Prop where
  epoch : w'.epoch = w.epoch
  requests : List.Forall₂ (Request.SameBut token token' same) w.requests w'.requests
  answered : Answered same (final.drop w.requests.length) w.replies w'.replies

variable {token token' : String} {final : List Request} {w w' : Wire} {timeout : Duration}

theorem WireReply.alike_within (r r' : WireReply) (timeout : Duration) {method : Method}
    (h : r = r' ∨ method = .post ∧ r.SameButKeys same r') :
    (r'.within timeout).1 = (r.within timeout).1 ∧
    Except.Alike (ReplyAlike same method) (r.within timeout).2 (r'.within timeout).2 := by
  rcases h with rfl | ⟨hpost, hdelay, reply, reply', hreply, hreply', hkeys⟩
  · exact ⟨rfl, Except.alike_refl (fun _ => .inl rfl) _⟩
  · rw [within, within, hdelay, hreply, hreply']
    refine ⟨rfl, ?_⟩
    dsimp only
    split
    · exact .error _
    · exact .ok (.inr ⟨hpost, receive_sameButKeys hkeys⟩)

/-- Requests that are the same but for what authorizes them are answered alike. -/
theorem Wire.Beside.send (h : Wire.Beside token token' same final w w')
    (hrequest : Request.SameBut token token' same request request')
    (hsendable : request'.isSendable = request.isSendable)
    (hfinal : (w.send request timeout).2.requests <+: final) :
    (w'.send request' timeout).1.1 = (w.send request timeout).1.1 ∧
    Except.Alike (ReplyAlike same request.method) (w.send request timeout).1.2
      (w'.send request' timeout).1.2 ∧
    Wire.Beside token token' same final (w.send request timeout).2
      (w'.send request' timeout).2 := by
  cases hs : request.isSendable with
  | false =>
    have hs' : request'.isSendable = false := hsendable.trans hs
    have hno {r : Request} (hr : r.isSendable = false) (w : Wire) :
        w.send r timeout = ((0, .error .builder), w) := by
      rw [Wire.send, ← Request.isSendable, hr]
      rfl
    rw [hno hs, hno hs']
    exact ⟨rfl, .error _, h⟩
  | true =>
    have hsent {r : Request} (hr : r.isSendable = true) (w : Wire) :
        w.send r timeout = (w.answerAt timeout 0, w.after 1 r) := by
      rw [← Wire.send_after timeout w 0 hr, Wire.after_zero]
    rw [hsent hs] at hfinal
    rw [hsent hs, hsent (hsendable.trans hs)]
    obtain ⟨replies, requests, epoch⟩ := w
    obtain ⟨replies', requests', epoch'⟩ := w'
    obtain ⟨rfl, hrequests, hanswered⟩ := h
    have hlogged : List.Forall₂ (Request.SameBut token token' same) (requests ++ [request])
        (requests' ++ [request']) := List.rel_append hrequests (.cons hrequest .nil)
    -- the request is the next one of those that the first run will have sent
    have hnext : final.drop requests.length =
        request :: final.drop (requests ++ [request]).length := by
      obtain ⟨later, rfl⟩ := hfinal
      simp [Wire.after]
    cases replies with
    | nil =>
      obtain rfl : replies' = [] := List.length_eq_zero_iff.mp hanswered.1
      exact ⟨rfl, .error _, rfl, hlogged, rfl, fun i r r' hr => by cases hr⟩
    | cons r replies =>
      obtain ⟨r', replies', rfl⟩ := List.exists_cons_of_length_eq_add_one hanswered.1
      rw [hnext] at hanswered
      obtain ⟨htime, halike⟩ := r.alike_within r' timeout hanswered.first
      exact ⟨htime, halike, rfl, hlogged, hanswered.later⟩

end

end Simulation

section

variable {same : Prop} {c : ControlPlane.Connection} {token' : String}

theorem isSendable_signed {r : Request} {account signature : String}
    (hsignature : Http.isHeaderValue signature = true) :
    (r.authorized ("SharedKey " ++ account ++ ":" ++ signature)).isSendable =
      (r.authorized ("SharedKey " ++ account ++ ":")).isSendable := by
  have hvalue : Http.isHeaderValue ("SharedKey " ++ account ++ ":" ++ signature) =
      Http.isHeaderValue ("SharedKey " ++ account ++ ":") := by
    rw [Http.isHeaderValue, String.toList_append, List.all_append]
    exact (congrArg (_ && ·) hsignature).trans (Bool.and_true _)
  simp only [Request.isSendable, Request.authorized, List.all_cons, hvalue]

theorem isHeaderValue_signature (credential : Blob.Credential) (r : Blob.Signable) :
    Http.isHeaderValue (credential.signature r) = true := by
  rw [Blob.Credential.signature, Base64.encode, Http.isHeaderValue, String.toList_ofList,
    List.all_eq_true]
  exact Base64.isHeaderChar_encodeBytes _

open Simulation in
/-- What is sent side by side is answered alike, after the same time. -/
theorem Sent.served (htoken : Http.isHeaderValue c.accessToken = true)
    (htoken' : Http.isHeaderValue token' = true) {x y : Http.Call}
    {R : Transport.Answer x → Transport.Answer y → Prop} (h : Sent same c token' x y R)
    {w w' : Wire} {final : List Request} (now : Duration)
    (hw : Wire.Beside c.accessToken token' same final w w')
    (hfinal : (Wire.server.serve now x w).2.requests <+: final) :
    (Wire.server.serve now y w').1.1 = (Wire.server.serve now x w).1.1 ∧
    R (Wire.server.serve now x w).1.2 (Wire.server.serve now y w').1.2 ∧
    Wire.Beside c.accessToken token' same final (Wire.server.serve now x w).2
      (Wire.server.serve now y w').2 := by
  cases h with
  | date =>
    have hdate : Wire.server.serve now .date w' = ((Wire.server.serve now .date w).1, w') := by
      change ((0, _), w') = ((0, _), w')
      rw [hw.epoch]
    rw [hdate]
    exact ⟨rfl, rfl, hw⟩
  | asked method url =>
    have hrequest : Request.SameBut c.accessToken token' same (c.request method url)
        ((c.withToken token').request method url) :=
      .bearer ⟨method, url, [("user-agent", Http.userAgent)],
        if method = .post then some "" else none⟩
    have hsendable : ((c.withToken token').request method url).isSendable =
        (c.request method url).isSendable :=
      (ControlPlane.Connection.valid_request (c := c.withToken token') htoken').trans
        (ControlPlane.Connection.valid_request htoken).symm
    exact hw.send hrequest hsendable hfinal
  | @signed store _ hstore method hmethod path query date =>
    obtain ⟨key, rfl, hkey⟩ := hstore
    have hform (store : Blob.Client) : store.request method path query date =
        Request.authorized ⟨method, Http.withQuery (store.base ++ path) query,
          ("user-agent", Http.userAgent) :: Blob.Client.serviceHeaders date, none⟩
          ("SharedKey " ++ store.credential.account ++ ":" ++ store.credential.signature
            ⟨method.label, path, query, Blob.Client.serviceHeaders date, 0⟩) := rfl
    have hrequest : Request.SameBut c.accessToken token' same
        (store.request method path query date)
        (Blob.Client.request { store with credential := { store.credential with key } } method path
          query date) := by
      rw [hform, hform]
      refine .signed _ store.credential.account ?_
      intro hsame
      rw [hkey hsame]
    have hsendable : (Blob.Client.request { store with credential := { store.credential with key } }
        method path query date).isSendable = (store.request method path query date).isSendable := by
      rw [hform, hform]
      exact (isSendable_signed (isHeaderValue_signature _ _)).trans
        (isSendable_signed (isHeaderValue_signature _ _)).symm
    obtain ⟨htime, halike, hbeside⟩ := hw.send hrequest hsendable hfinal
    exact ⟨htime, eq_of_replyAlike halike hmethod, hbeside⟩

/-- What is sent side by side is answered alike throughout a run that sends no requests but these.
-/
theorem Simulation.Wire.answersAlike (htoken : Http.isHeaderValue c.accessToken = true)
    (htoken' : Http.isHeaderValue token' = true) (final : List Request) :
    Wire.server.AnswersAlike (Sent same c token') (fun w => w.requests <+: final)
      (Wire.Beside c.accessToken token' same final) Wire.server where
  final_serve now call w hfinal := by
    refine List.IsPrefix.trans ?_ hfinal
    cases call with
    | date => exact List.prefix_refl _
    | send request timeout =>
      change w.requests <+: (w.send request timeout).2.requests
      rw [Wire.send]
      split
      · split
        · exact List.prefix_append _ _
        · exact List.prefix_append _ _
      · exact List.prefix_refl _
  serve hcall now _ _ hbeside hfinal := hcall.served htoken htoken' now hbeside hfinal
  final_draw _ _ hfinal := hfinal
  draw _ _ _ hbeside := ⟨rfl, hbeside⟩

end

namespace Teardown

open Simulation

/-- The job over HTTP. -/
def Job.over (job : Job) (s : Services) : Task Transport job.Result :=
  Task.implement (J := Service Blob.Client) s.carryOut job.task

/-- Secrets come to light in nothing but what authorizes requests. Where one job is run twice, over
services that differ in the token alone, and is answered by the same replies but for the keys in
replies to a `POST`, both runs come to the same, with the same failures, make their calls and end at
the same times, and send the same requests, but for the token in requests to the control plane, and
for the signature in requests to stores, which is the same too if the first keys are. Only the
answer to a call for keys tells the keys of its own reply. -/
theorem secrets_only_authorize {s : Services} {token' : String} {same : Prop} {job : Job}
    {w u u' : World Wire} {replies : List WireReply} {r r' : Option job.Result}
    (htoken : Http.isHeaderValue s.plane.accessToken = true)
    (htoken' : Http.isHeaderValue token' = true) (hstart : w.state.requests = [])
    (hfirst : Task.run Wire.server (job.over s) w = (r, u))
    (hsecond : Task.run Wire.server (job.over (s.withToken token'))
      (w.holding { w.state with replies }) = (r', u'))
    (hanswered : Answered same u.state.requests w.state.replies replies) :
    Option.Rel (job.Alike same) r r' ∧
    Task.callTimes Wire.server (job.over (s.withToken token'))
      (w.holding { w.state with replies }) = Task.callTimes Wire.server (job.over s) w ∧
    u'.now = u.now ∧ u'.state.replies = u.state.replies ∧
    List.Forall₂ (Request.SameBut s.plane.accessToken token' same) u.state.requests
      u'.state.requests ∧
    (same → token' = s.plane.accessToken → u'.state.requests = u.state.requests) := by
  have hbeside : Beside same s.plane token' (job.Alike same) (job.over s)
      (job.over (s.withToken token')) :=
    Paired.implement (fun _ _ _ => Services.paired_carryOut) job.sideBySide
  have hstate : Wire.Beside s.plane.accessToken token' same u.state.requests w.state
      { w.state with replies } := by
    refine ⟨rfl, ?_, ?_⟩
    · rw [hstart]
      exact .nil
    · rw [hstart]
      exact hanswered
  have hfinal : (Task.run Wire.server (job.over s) w).2.state.requests <+: u.state.requests := by
    rw [hfirst]
  have hservers : Wire.server.AnswersAlike (Sent same s.plane token') _ _ Wire.server :=
    Wire.answersAlike htoken htoken' u.state.requests
  obtain ⟨_, t, hrun, hresult, ht⟩ := hbeside.run_alike hservers hstate hfinal
  rw [hfirst] at hrun hresult ht
  obtain ⟨rfl, rfl⟩ := Prod.mk.inj (hsecond.symm.trans hrun)
  have hreplies : t.replies = u.state.replies := by
    have hrest := ht.answered
    rw [List.drop_length] at hrest
    exact hrest.eq
  refine ⟨hresult, hbeside.callTimes_eq hservers hstate hfinal, rfl, hreplies, ht.requests, ?_⟩
  intro hsame htokens
  rw [htokens] at ht
  have heq : ∀ x y, Request.SameBut s.plane.accessToken s.plane.accessToken same x y → x = y := by
    intro x y hxy
    cases hxy with
    | bearer r => rfl
    | signed r account h => rw [h hsame]
  have hrequests := ht.requests.imp heq
  rw [List.forall₂_eq_eq_eq] at hrequests
  exact hrequests.symm

/-- A call for the keys of an account. -/
def keysJob : Job := .row [.plane (.getStorageKeys "g" "a")]

/-- A reply with this first key. -/
def keysReply (key : String) : WireReply :=
  ⟨0, .ok ⟨200, [], .ok ("\x7b\"key1\":\"" ++ key ++ "\",\"key2\":\"x\"\x7d")⟩⟩

/-- The only reply is one with this first key. -/
def keysWorld (key : String) : World Wire :=
  ⟨0, .never, 0, { replies := [keysReply key], requests := [] }⟩

/-- Services that send each request once, with this token. -/
def tokenServices (token : String) : Services :=
  (Services.ofConnection .hasty "core.windows.net").withToken token

/-- A call for keys with this token, answered by this first key. -/
def keysRun (token key : String) : Option keysJob.Result × World Wire :=
  Task.run Wire.server (keysJob.over (tokenServices token)) (keysWorld key)

theorem keysReply_sameButKeys : (keysReply "a2V5").SameButKeys False (keysReply "a2V6") := by
  have hkey : IsKey "a2V5" := ⟨"key".toUTF8.toList, by decide +kernel⟩
  have hkey' : IsKey "a2V6" := ⟨"kez".toUTF8.toList, by decide +kernel⟩
  refine ⟨rfl, _, _, rfl, rfl, rfl, rfl, rfl, _, _, ⟨"a2V5", "x"⟩, ⟨"a2V6", "x"⟩, rfl, rfl,
    ?_, ?_, .inr ⟨not_false, hkey, hkey'⟩⟩
  · decide +kernel
  · decide +kernel

theorem answered_keys :
    Answered False (keysRun "t" "a2V5").2.state.requests (keysWorld "a2V5").state.replies
      (keysWorld "a2V6").state.replies := by
  refine ⟨rfl, ?_⟩
  intro i r r' hr hr'
  cases i with
  | succ i => cases hr
  | zero =>
    obtain rfl : keysReply "a2V5" = r := Option.some.inj hr
    obtain rfl : keysReply "a2V6" = r' := Option.some.inj hr'
    exact .inr ⟨⟨_, rfl, rfl⟩, keysReply_sameButKeys⟩

theorem secrets_only_authorize_keys :
    Option.Rel (keysJob.Alike False) (keysRun "t" "a2V5").1 (keysRun "u" "a2V6").1 ∧
    (keysRun "u" "a2V6").2.now = (keysRun "t" "a2V5").2.now ∧
    List.Forall₂ (Request.SameBut "t" "u" False) (keysRun "t" "a2V5").2.state.requests
      (keysRun "u" "a2V6").2.state.requests := by
  obtain ⟨hresult, -, hnow, -, hrequests, -⟩ :=
    @secrets_only_authorize (tokenServices "t") "u" False keysJob (keysWorld "a2V5") _ _ _ _ _
      (by decide) (by decide) rfl rfl rfl answered_keys
  exact ⟨hresult, hnow, hrequests⟩

/-- The keys that were listed. -/
def Report.keys? : Report → Option StorageKeys
  | .plane (.getStorageKeys ..) (.ok keys) => keys
  | _ => none

/-- A call for keys does tell them: not even with the same token need two such runs come to the very
same. -/
theorem keys_are_reported :
    ¬∀ (s : Services) (token' : String) (same : Prop) (job : Job) (w u u' : World Wire)
      (replies : List WireReply) (r r' : Option job.Result),
      Http.isHeaderValue s.plane.accessToken = true → Http.isHeaderValue token' = true →
      w.state.requests = [] → Task.run Wire.server (job.over s) w = (r, u) →
      Task.run Wire.server (job.over (s.withToken token')) (w.holding { w.state with replies }) =
        (r', u') →
      Answered same u.state.requests w.state.replies replies → r' = r := by
  intro hclaim
  have hsame : (keysRun "t" "a2V6").1 = (keysRun "t" "a2V5").1 :=
    hclaim (tokenServices "t") "t" False keysJob (keysWorld "a2V5") _ _ _ _ _
      (by decide) (by decide) rfl rfl rfl answered_keys
  have hkeys : (keysRun "t" "a2V5").1.map (List.map Report.keys?) = some [some ⟨"a2V5", "x"⟩] := by
    decide +kernel
  have hkeys' : (keysRun "t" "a2V6").1.map (List.map Report.keys?) = some [some ⟨"a2V6", "x"⟩] := by
    decide +kernel
  rw [hsame, hkeys] at hkeys'
  exact absurd hkeys' (by decide)

end Teardown

end Decommission
