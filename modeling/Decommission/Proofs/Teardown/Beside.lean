import Decommission.Proofs.ControlPlane.Requests
import Decommission.Proofs.Program.Paired
import Decommission.Teardown.OverHttp

/-!
Calls over HTTP that are made side by side with other secrets: another token, or other keys of
storage accounts. They send requests that are the same but for what authorizes them.
-/
namespace Decommission

open Program
open Http (Transport Request Reply Method)

/-- The key of an account can be read. -/
def IsKey (key : String) : Prop := ∃ bytes, Base64.decode (Text.trim key) = .ok bytes

/-- The same key; unless keys are to be the same, also two that can both be read. -/
def KeyAlike (same : Prop) (key key' : String) : Prop :=
  key = key' ∨ ¬same ∧ IsKey key ∧ IsKey key'

/-- Keys of an account of which the first ones are alike. -/
def StorageKeys.Alike (same : Prop) (keys keys' : StorageKeys) : Prop :=
  KeyAlike same keys.key1 keys'.key1

/-- Replies with keys in them, and all else the same. -/
structure Http.Reply.SameButKeys (same : Prop) (r r' : Reply) : Prop where
  success : r.isSuccess = true
  status : r'.status = r.status
  headers : r'.headers = r.headers
  keys : ∃ text text' keys keys', r.body = .ok text ∧ r'.body = .ok text' ∧
    StorageKeys.layout.read text = .ok keys ∧ StorageKeys.layout.read text' = .ok keys' ∧
    keys.Alike same keys'

/-- Stores with keys of their own, and all else the same. -/
def Blob.Client.Alike (same : Prop) (store store' : Blob.Client) : Prop :=
  ∃ key, store' = { store with credential := { store.credential with key } } ∧
    (same → key = store.credential.key)

/-- The same connection with another token. -/
def ControlPlane.Connection.withToken (c : ControlPlane.Connection) (token : String) :
    ControlPlane.Connection :=
  { c with accessToken := token }

/-- Replies to a request. Only those to a `POST` may hold keys. -/
def ReplyAlike (same : Prop) (method : Method) (r r' : Reply) : Prop :=
  r = r' ∨ method = .post ∧ r.SameButKeys same r'

/-- What is sent side by side: requests over the connection and over one with another token, and
requests of stores that are alike. -/
inductive Sent (same : Prop) (c : ControlPlane.Connection) (token' : String) :
    (x y : Http.Call) → (Transport.Answer x → Transport.Answer y → Prop) → Prop where
  | date : Sent same c token' .date .date (· = ·)
  | asked (method : Method) (url : String) :
    Sent same c token' (.send (c.request method url) c.requestTimeout)
      (.send ((c.withToken token').request method url) c.requestTimeout)
      (Except.Alike (ReplyAlike same method))
  | signed {store store' : Blob.Client} (h : store.Alike same store') {method : Method}
    (hmethod : method ≠ .post) (path : String) (query : List (String × String)) (date : String) :
    Sent same c token' (.send (store.request method path query date) store.requestTimeout)
      (.send (store'.request method path query date) store'.requestTimeout) (· = ·)

/-- The tasks are carried out side by side, over the connection and over one with another token. -/
abbrev Beside {α β : Type} (same : Prop) (c : ControlPlane.Connection) (token' : String)
    (post : α → β → Prop) (p : Task Transport α) (q : Task Transport β) : Prop :=
  Paired (Pairing.timed (I := Transport) (Sent same c token')) post p q

section

variable {same : Prop} {c : ControlPlane.Connection} {token' : String} {method : Method}
  {url : String}

theorem keyAlike_refl (key : String) : KeyAlike same key key := .inl rfl

/-- Where no keys can be replied the answers are the same. -/
theorem eq_of_replyAlike {ε : Type} {answer answer' : Except ε Reply}
    (h : Except.Alike (ReplyAlike same method) answer answer') (hmethod : method ≠ .post) :
    answer = answer' := by
  cases h with
  | error e => rfl
  | ok h => rw [h.resolve_right fun h => hmethod h.1]

theorem Blob.Client.alike_refl (store : Blob.Client) : store.Alike same store :=
  ⟨store.credential.key, rfl, fun _ => rfl⟩

namespace ControlPlane.Connection

theorem paired_send : Beside same c token' (Except.Alike (ReplyAlike same method))
    (c.send method url) ((c.withToken token').send method url) := by
  refine Paired.run ?_ c.retry isRetryable
  refine .ask (.act (.asked method url)) ?_
  intro answer answer' halike
  refine .done ?_
  cases halike with
  | error fault => exact .error _
  | ok h =>
    rcases h with rfl | ⟨hpost, hkeys⟩
    · exact Except.alike_refl (fun _ => .inl rfl) _
    · have hsuccess := hkeys.success
      rw [judge_success hsuccess, judge_success (by rwa [Reply.isSuccess, hkeys.status])]
      exact .ok (.inr ⟨hpost, hkeys⟩)

theorem paired_send_same (hmethod : method ≠ .post) :
    Beside same c token' (· = ·) (c.send method url) ((c.withToken token').send method url) :=
  paired_send.imp fun _ _ h => eq_of_replyAlike h hmethod

theorem paired_get {α : Type} {layout : Json.Layout α} :
    Beside same c token' (· = ·) (c.get url layout)
      ((c.withToken token').get url layout) := by
  refine (paired_send_same (by decide)).bind ?_
  rintro answer _ rfl
  exact .done rfl

theorem paired_listFrom {limit : Nat} : Beside same c token' (· = ·)
    (c.listFrom limit url) ((c.withToken token').listFrom limit url) := by
  induction limit generalizing url with
  | zero => exact .stalled
  | succ limit ih =>
    refine paired_get.bind ?_
    rintro page _ rfl
    match page with
    | .error f => exact .done rfl
    | .ok none => exact .done rfl
    | .ok (some ⟨names, none⟩) => exact .done rfl
    | .ok (some ⟨names, some next⟩) =>
      refine ih.bind ?_
      rintro rest _ rfl
      exact .done rfl

theorem paired_deleteAt :
    Beside same c token' (· = ·) (c.deleteAt url) ((c.withToken token').deleteAt url) := by
  rw [deleteAt_eq, deleteAt_eq]
  refine (paired_send_same (by decide)).bind ?_
  rintro answer _ rfl
  exact .done rfl

/-- Calls that are not for keys give the same. -/
theorem paired_carryOut {call : Call}
    (hcall : ∀ group account, call ≠ .getStorageKeys group account) :
    Beside same c token' (· = ·) (c.carryOut call)
      ((c.withToken token').carryOut call) := by
  cases call with
  | getMachine | getNetworkCard => exact paired_get
  | getStorageKeys group account => exact absurd rfl (hcall group account)
  | list kind group => exact paired_listFrom
  | delete | deleteGroup => exact paired_deleteAt
  | operationStatus operation =>
    refine (paired_send_same (by decide)).bind ?_
    rintro answer _ rfl
    match answer with
    | .ok reply => exact .done rfl
    | .error f => exact .done rfl

/-- A call for keys gives keys of which the first ones are alike. -/
theorem paired_getStorageKeys {group account : String} :
    Beside same c token' (Except.Alike (Option.Rel (StorageKeys.Alike same)))
      (c.getStorageKeys group account) ((c.withToken token').getStorageKeys group account) := by
  have hself (found : Except Failure (Option StorageKeys)) :
      Except.Alike (Option.Rel (StorageKeys.Alike same)) found found := by
    refine Except.alike_refl (fun found => ?_) found
    cases found with
    | none => exact .none
    | some keys => exact .some (keyAlike_refl keys.key1)
  refine paired_send.bind ?_
  intro answer answer' halike
  refine .done ?_
  cases halike with
  | error f => exact hself _
  | ok h =>
    rcases h with rfl | ⟨-, hkeys⟩
    · exact hself _
    · obtain ⟨text, text', keys, keys', hbody, hbody', hread, hread', halike⟩ := hkeys.keys
      simp only [ignoreNotFound, decodeReply, hbody, hbody', hread, hread']
      exact .ok (.some halike)

end ControlPlane.Connection

namespace Blob

namespace Client

variable {store store' : Client} {path : String} {query : List (String × String)}

/-- A store sends what its twin sends, with a signature of its own; once closed it sends nothing. -/
theorem paired_send (h : store.Alike same store') (hmethod : method ≠ .post) :
    Beside same c token' (· = ·) (store.send method path query)
      (store'.send method path query) := by
  obtain ⟨key, rfl, hkey⟩ := h
  have hattempt : Beside same c token' (Except.Alike (· = ·)) (store.sendOnce method path query)
      (sendOnce { store with credential := { store.credential with key } } method path query) := by
    rw [sendOnce, sendOnce]
    change Paired _ _ (if store.closed then _ else _) (if store.closed then _ else _)
    split
    · exact .done (.error _)
    refine .ask (.act .date) ?_
    rintro now _ rfl
    refine .ask (.act (.signed ⟨key, rfl, hkey⟩ hmethod path query _)) ?_
    rintro answer _ rfl
    exact .done (Except.alike_refl (fun _ => rfl) _)
  exact (hattempt.run store.retry isRetryable).imp fun _ _ => Except.eq_of_alike

theorem paired_deleteContainer (h : store.Alike same store') {container : String} :
    Beside same c token' (· = ·) (store.deleteContainer container)
      (store'.deleteContainer container) := by
  refine (paired_send h (by decide)).bind ?_
  rintro answer _ rfl
  exact .done rfl

theorem paired_customImageExists (h : store.Alike same store') :
    Beside same c token' (· = ·) store.customImageExists store'.customImageExists := by
  refine (paired_send h (by decide)).bind ?_
  rintro answer _ rfl
  match answer with
  | .ok reply => exact .done rfl
  | .error f => exact .done rfl

end Client

/-- With keys that are alike stores are opened that are alike. -/
theorem alike_openStore {g : Gateway} {account key key' : String} (h : KeyAlike same key key') :
    Except.Alike (Client.Alike same) (g.openStore account key) (g.openStore account key') := by
  rcases h with rfl | ⟨hsame, ⟨bytes, hbytes⟩, ⟨bytes', hbytes'⟩⟩
  · exact Except.alike_refl Client.alike_refl _
  · have hopen {key : String} {bytes : List UInt8}
        (h : Base64.decode (Text.trim key) = .ok bytes) :
        g.openStore account key = .ok {
          credential := ⟨account, bytes⟩
          base := "https://" ++ account ++ "." ++ g.suffix
          requestTimeout := g.requestTimeout
          retry := g.retry } := by
      rw [Gateway.openStore, Credential.ofKey, h]
      rfl
    rw [hopen hbytes, hopen hbytes']
    exact .ok ⟨bytes', rfl, fun h => absurd h hsame⟩

end Blob

end

namespace Teardown

/-- What a client of both services does side by side. -/
inductive Shared (same : Prop) :
    (x y : Call Blob.Client) → (Answer Blob.Client x → Answer Blob.Client y → Prop) → Prop where
  | plane (call : ControlPlane.Call)
    (hcall : ∀ group account, call ≠ .getStorageKeys group account) :
    Shared same (.plane call) (.plane call) (· = ·)
  | keys (group account : String) :
    Shared same (.plane (.getStorageKeys group account)) (.plane (.getStorageKeys group account))
      (Except.Alike (Option.Rel (StorageKeys.Alike same)))
  | openStore (account : String) {key key' : String} (h : KeyAlike same key key') :
    Shared same (.blob (.openStore account key)) (.blob (.openStore account key'))
      (Except.Alike (Blob.Client.Alike same))
  | deleteContainer {store store' : Blob.Client} (h : store.Alike same store')
    (container : String) : Shared same (.blob (.deleteContainer store container))
      (.blob (.deleteContainer store' container)) (· = ·)
  | customImageExists {store store' : Blob.Client} (h : store.Alike same store') :
    Shared same (.blob (.customImageExists store)) (.blob (.customImageExists store')) (· = ·)
  | close {store store' : Blob.Client} (h : store.Alike same store') :
    Shared same (.blob (.close store)) (.blob (.close store')) (· = ·)

/-- The same services, with another token for the control plane. -/
def Services.withToken (s : Services) (token : String) : Services :=
  { s with plane := s.plane.withToken token }

/-- What is done side by side is carried out side by side. -/
theorem Services.paired_carryOut {same : Prop} {s : Services} {token' : String}
    {x y : Call Blob.Client} {R : Answer Blob.Client x → Answer Blob.Client y → Prop}
    (h : Shared same x y R) :
    Beside same s.plane token' R (s.carryOut x) ((s.withToken token').carryOut y) := by
  cases h with
  | plane call hcall => exact ControlPlane.Connection.paired_carryOut hcall
  | keys group account => exact ControlPlane.Connection.paired_getStorageKeys
  | openStore account h => exact .done (Blob.alike_openStore h)
  | deleteContainer h container => exact Blob.Client.paired_deleteContainer h
  | customImageExists h => exact Blob.Client.paired_customImageExists h
  | close h => exact .done rfl

end Teardown

end Decommission
