import Decommission.Proofs.ControlPlane.Missing
import Decommission.Proofs.Program.Repetition

/-!
Listings over several pages: which addresses are visited in which order, and that the names on all
the pages are gathered, or none if one of the pages fails.
-/
namespace Decommission.ControlPlane

open Program
open Http (Transport Request Reply Method)

namespace Connection

variable {c : Connection} {method : Method} {url : String} {answer : Except TransportFault Reply}

section Attempts

/-- A request is sent and sent again, after the delays of the policy from the one on that comes
after `i` others. -/
def attemptsFrom (c : Connection) (method : Method) (url : String) :
    Nat → List (Except TransportFault Reply) → Except TransportFault Reply → History
  | _, [], last => [c.sent method url last]
  | i, answer :: again, last =>
    c.sent method url answer :: paused (c.retry.delay i) ::
      attemptsFrom c method url (i + 1) again last

variable {α : Type} {f : Except Failure Reply → Task Transport α} {result : α} {h : History}

theorem attemptsFrom_eq (i : Nat) (again : List (Except TransportFault Reply))
    (last : Except TransportFault Reply) :
    c.attemptsFrom method url i again last =
      c.retry.historyFrom (fun answer => [c.sent method url answer]) i again last := by
  induction again generalizing i with
  | nil => rfl
  | cons answer again ih =>
    rw [attemptsFrom, ih, RetryPolicy.historyFrom_cons]
    rfl

theorem along_sendOnce_iff {r : Except Failure Reply} :
    (c.sendOnce method url).Along h (.done r) ↔
      ∃ answer, h = [c.sent method url answer] ∧ r = judge method url answer := by
  refine along_ask_done_iff.trans ⟨?_, ?_⟩
  · rintro ⟨answer, rest, rfl, hrest⟩
    obtain ⟨rfl, rfl⟩ := along_done_iff.mp hrest
    exact ⟨answer, rfl, rfl⟩
  · rintro ⟨answer, rfl, rfl⟩
    exact ⟨answer, [], rfl, .here⟩

theorem isRetried_judge :
    RetryPolicy.isRetried isRetryable (judge method url answer) = !isFinal answer := by
  cases hjudge : judge method url answer with
  | error failure => exact isRetryable_of_judge hjudge
  | ok r =>
    have hfinal : isFinal answer = true := by
      by_contra hnot
      obtain ⟨failure, hfailed, -⟩ := judge_of_not_final (eq_false_of_ne_true hnot)
      rw [hjudge] at hfailed
      cases hfailed
    rw [hfinal]
    rfl

/-- A request is sent again after each answer that is not final, as often as the policy allows, and
what follows goes on from the last answer. -/
theorem along_send_iff :
    ((c.send method url).bind f).Along h (.done result) ↔
      ∃ again last rest, (∀ answer ∈ again, isFinal answer = false) ∧
        again.length < c.retry.attempts ∧
        (again.length + 1 = c.retry.attempts ∨ isFinal last = true) ∧
        h = c.attemptsFrom method url 0 again last ++ rest ∧
        (f (judge method url last)).Along rest (.done result) := by
  rw [along_bind_done_iff]
  simp only [send, RetryPolicy.along_run_iff fun _ _ => along_sendOnce_iff, isRetried_judge,
    Bool.not_eq_true', Bool.not_eq_false', attemptsFrom_eq]
  constructor
  · rintro ⟨_, rest, _, rfl, ⟨again, last, hagain, hlength, hlast, rfl, rfl⟩, hrest⟩
    exact ⟨again, last, rest, hagain, hlength, hlast, rfl, hrest⟩
  · rintro ⟨again, last, rest, hagain, hlength, hlast, rfl, hrest⟩
    exact ⟨_, rest, _, rfl, ⟨again, last, hagain, hlength, hlast, rfl, rfl⟩, hrest⟩

end Attempts

end Connection

theorem decoded_of_page? {r : Reply} {page : ListingPage} {context : String}
    (h : page? r = some page) :
    r.isSuccess = true ∧ decodeReply ListingPage.layout context r = .ok page := by
  rw [page?] at h
  split_ifs at h with hsuccess
  refine ⟨hsuccess, ?_⟩
  rw [Reply.document?] at h
  rw [decodeReply]
  cases hbody : r.body with
  | error fault =>
    rw [hbody] at h
    cases h
  | ok body =>
    rw [hbody] at h
    change (Json.read? body).bind ListingPage.layout.ofJson? = some page at h
    simp only [Json.Layout.read, h]

/-- A page of a listing is asked for at its address, and again after some of the answers; the last
answer counts. -/
structure Visit where
  url : String
  again : List (Except TransportFault Reply)
  last : Except TransportFault Reply

namespace Visit

/-- The page that was received. -/
def page? (v : Visit) : Option ListingPage := v.last.toOption.bind ControlPlane.page?

/-- The names on the page that was received. -/
def names (v : Visit) : List String := (v.page?.map ListingPage.names).getD []

/-- The address of the page after the one that was received. -/
def next? (v : Visit) : Option String := v.page?.bind ListingPage.next

/-- The page is told to be absent. -/
def IsMissing (v : Visit) : Prop :=
  ∃ r, v.last = .ok r ∧ r.isSuccess = false ∧ r.refusal.isNotFound = true

/-- What comes of the visit. -/
def outcome (v : Visit) : Except Failure (Option ListingPage) :=
  (Connection.getting v.url ListingPage.layout).conclude (Connection.judge .get v.url v.last)

/-- The page is asked for again after each answer that is not final, as often as the policy allows.
-/
structure Allowed (policy : RetryPolicy) (v : Visit) : Prop where
  again : ∀ answer ∈ v.again, isFinal answer = false
  bounded : v.again.length < policy.attempts
  last : v.again.length + 1 = policy.attempts ∨ isFinal v.last = true

/-- What is done on a visit. -/
def events (c : Connection) (v : Visit) : History := c.attemptsFrom .get v.url 0 v.again v.last

variable {v : Visit}

theorem outcome_eq :
    v.outcome = ifFound
      (decodeReply ListingPage.layout ("Failed to decode response from " ++ v.url))
      (Connection.judge .get v.url v.last) := rfl

theorem outcome_of_page {page : ListingPage} (h : v.page? = some page) :
    v.outcome = .ok (some page) := by
  obtain ⟨r, hlast, hpage⟩ := Option.bind_eq_some_iff.mp h
  have hok : v.last = .ok r := by
    cases hv : v.last with
    | error fault =>
      rw [hv] at hlast
      cases hlast
    | ok r' =>
      rw [hv] at hlast
      exact congrArg Except.ok (Option.some.inj hlast)
  obtain ⟨hsuccess, hdecoded⟩ := decoded_of_page? hpage
  rw [outcome_eq, hok, judge_success hsuccess, ifFound_ok, hdecoded]
  rfl

theorem isMissing_iff {r : Reply} (hlast : v.last = .ok r) :
    v.IsMissing ↔ r.isSuccess = false ∧ r.refusal.isNotFound = true := by
  constructor
  · rintro ⟨r', hr', hmissing⟩
    obtain rfl : r = r' := Except.ok.inj (hlast.symm.trans hr')
    exact hmissing
  · exact fun hmissing => ⟨r, hlast, hmissing⟩

/-- A visit without a page fails, unless the page is told to be absent. -/
theorem outcome_of_no_page (h : v.page? = none) :
    (v.IsMissing ∧ v.outcome = .ok none) ∨ (¬v.IsMissing ∧ ∃ f, v.outcome = .error f) := by
  rw [outcome_eq]
  cases hlast : v.last with
  -- a fault of the transport tells nothing of the page
  | error fault =>
    refine .inr ⟨?_, _, rfl⟩
    rintro ⟨r, hr, -⟩
    rw [hlast] at hr
    cases hr
  | ok r =>
    rw [isMissing_iff hlast]
    cases hr : r.isSuccess with
    -- a success without a page is one that could not be read
    | true =>
      rw [judge_success hr, ifFound_ok]
      cases hdecoded : decodeReply ListingPage.layout
          ("Failed to decode response from " ++ v.url) r with
      | error f => exact .inr ⟨by simp, f, rfl⟩
      | ok page =>
        rw [page?, hlast] at h
        exact absurd ((page?_of_decoded hr hdecoded).symm.trans h) (by simp)
    | false =>
      rw [judge_refused hr, ifFound_error, isNotFound_refused]
      cases hfound : r.refusal.isNotFound with
      | true => exact .inl ⟨⟨rfl, rfl⟩, rfl⟩
      | false => exact .inr ⟨by simp, _, rfl⟩

theorem gathered_attemptsFrom {c : Connection} {method : Method} {url : String} {i : Nat}
    {again : List (Except TransportFault Reply)} {last : Except TransportFault Reply}
    (hagain : ∀ answer ∈ again, isFinal answer = false) :
    gathered (c.attemptsFrom method url i again last) = gathered [c.sent method url last] := by
  induction again generalizing i with
  | nil => rfl
  | cons answer again ih =>
    obtain ⟨hfirst, hagain⟩ := List.forall_mem_cons.mp hagain
    have hnone : gathered [c.sent method url answer] = [] :=
      Connection.gathered_of_not_final (h := []) hfirst
    have hsplit : c.attemptsFrom method url i (answer :: again) last =
        [c.sent method url answer] ++ [paused (c.retry.delay i)] ++
          c.attemptsFrom method url (i + 1) again last := rfl
    rw [hsplit, gathered_append, gathered_paused, hnone, ih hagain, List.nil_append]

/-- The names on the page are gathered, and no others. -/
theorem gathered_events {c : Connection} (hagain : ∀ answer ∈ v.again, isFinal answer = false) :
    gathered (v.events c) = v.names := by
  rw [events, gathered_attemptsFrom hagain, names, page?]
  cases v.last with
  | error fault => rfl
  | ok r => exact Connection.gathered_sent (h := [])

end Visit

/-- The visits of a listing that begins at `url`: each page tells the address of the next one, up to
one that is the last page or is none. -/
structure IsListing (c : Connection) (url : String) (earlier : List Visit) (last : Visit) :
    Prop where
  allowed : ∀ v ∈ earlier ++ [last], v.Allowed c.retry
  urls : (earlier ++ [last]).map (fun v => some v.url) = some url :: earlier.map Visit.next?
  ended : last.next? = none

section Listing

variable {c : Connection} {url : String} {v last : Visit} {earlier : List Visit}

theorem isListing_nil_iff :
    IsListing c url [] last ↔ last.Allowed c.retry ∧ last.url = url ∧ last.next? = none := by
  constructor
  · rintro ⟨hallowed, hurls, hended⟩
    exact ⟨hallowed last List.mem_cons_self, by simpa using hurls, hended⟩
  · rintro ⟨hallowed, rfl, hended⟩
    exact ⟨List.forall_mem_singleton.mpr hallowed, rfl, hended⟩

theorem isListing_cons_iff :
    IsListing c url (v :: earlier) last ↔
      v.Allowed c.retry ∧ v.url = url ∧ ∃ next, v.next? = some next ∧
        IsListing c next earlier last := by
  constructor
  · rintro ⟨hallowed, hurls, hended⟩
    obtain ⟨hfirst, hallowed⟩ := List.forall_mem_cons.mp hallowed
    obtain ⟨hurl, hurls⟩ := List.cons.inj hurls
    -- the next visit has an address, and so the page told one
    obtain ⟨next, hnext⟩ : ∃ next, v.next? = some next := by
      cases earlier with
      | nil => exact ⟨last.url, (List.cons.inj hurls).1.symm⟩
      | cons w earlier => exact ⟨w.url, (List.cons.inj hurls).1.symm⟩
    refine ⟨hfirst, Option.some.inj hurl, next, hnext, hallowed, ?_, hended⟩
    rw [← hnext]
    exact hurls
  · rintro ⟨hfirst, rfl, next, hnext, hallowed, hurls, hended⟩
    refine ⟨List.forall_mem_cons.mpr ⟨hfirst, hallowed⟩, ?_, hended⟩
    rw [List.map_cons, hnext, ← hurls]
    rfl

end Listing

namespace Connection

variable {c : Connection} {url : String}

/-- A listing ends at a page that tells no further address, with the names on it. -/
theorem afterPage_of_last {limit : Nat} {v : Visit} (h : v.next? = none) :
    c.afterPage limit v.outcome = .done (v.outcome.map fun _ => v.names) := by
  rw [Visit.next?] at h
  rw [Visit.names]
  cases hpage : v.page? with
  | none =>
    rcases Visit.outcome_of_no_page hpage with ⟨-, houtcome⟩ | ⟨-, f, houtcome⟩
    · rw [houtcome]
      rfl
    · rw [houtcome]
      rfl
  | some page =>
    obtain ⟨names, next⟩ := page
    rw [hpage] at h
    obtain rfl : next = none := h
    rw [Visit.outcome_of_page hpage]
    rfl

/-- A listing goes on at the address that the page tells. -/
theorem afterPage_of_next {limit : Nat} {v : Visit} {next : String} (h : v.next? = some next) :
    c.afterPage limit v.outcome =
      (c.listFrom limit next).bind fun rest => .done (rest.map fun more => v.names ++ more) := by
  rw [Visit.next?] at h
  rw [Visit.names]
  obtain ⟨page, hpage, hnext⟩ := Option.bind_eq_some_iff.mp h
  obtain ⟨names, _⟩ := page
  obtain rfl := hnext
  rw [Visit.outcome_of_page hpage, hpage]
  rfl

section

variable {limit : Nat} {result : Except Failure (List String)} {h : History}

theorem along_listFrom_succ_iff :
    (c.listFrom (limit + 1) url).Along h (.done result) ↔
      ∃ (v : Visit) (rest : History), v.Allowed c.retry ∧ v.url = url ∧ h = v.events c ++ rest ∧
        (c.afterPage limit v.outcome).Along rest (.done result) := by
  rw [listFrom_succ, along_send_iff]
  constructor
  · rintro ⟨again, last, rest, hagain, hbounded, hlast, rfl, hrest⟩
    exact ⟨⟨url, again, last⟩, rest, ⟨hagain, hbounded, hlast⟩, rfl, rfl, hrest⟩
  · rintro ⟨⟨_, again, last⟩, rest, ⟨hagain, hbounded, hlast⟩, rfl, rfl, hrest⟩
    exact ⟨again, last, rest, hagain, hbounded, hlast, rfl, hrest⟩

/-- A listing that has ended has visited pages up to the last one, each at the address that the one
before told. -/
theorem along_listFrom_iff :
    (c.listFrom limit url).Along h (.done result) ↔
      ∃ earlier last, IsListing c url earlier last ∧ (earlier ++ [last]).length ≤ limit ∧
        h = (earlier ++ [last]).flatMap (Visit.events c) ∧
        result = last.outcome.map fun _ => (earlier ++ [last]).flatMap Visit.names := by
  -- the induction is on the number of pages that may still be visited
  induction limit generalizing url result h with
  | zero =>
    constructor
    · rintro ⟨⟩
    · rintro ⟨earlier, last, -, hlength, -⟩
      simp at hlength
  | succ limit ih =>
    rw [along_listFrom_succ_iff]
    constructor
    · rintro ⟨v, rest, hallowed, hurl, rfl, hrest⟩
      cases hnext : v.next? with
      | none =>
        rw [afterPage_of_last hnext, along_done_iff] at hrest
        obtain ⟨rfl, rfl⟩ := hrest
        refine ⟨[], v, isListing_nil_iff.mpr ⟨hallowed, hurl, hnext⟩, by simp, ?_, ?_⟩
        · simp
        · simp
      | some next =>
        rw [afterPage_of_next hnext, along_bind_done_iff] at hrest
        -- what follows the page is a listing of its own, and then its names are put before
        obtain ⟨before, after, more, rfl, hbefore, hafter⟩ := hrest
        obtain ⟨earlier, last, hlisting, hlength, rfl, rfl⟩ := ih.mp hbefore
        obtain ⟨rfl, rfl⟩ := along_done_iff.mp hafter
        refine ⟨v :: earlier, last,
          isListing_cons_iff.mpr ⟨hallowed, hurl, next, hnext, hlisting⟩,
          Nat.succ_le_succ hlength, ?_, ?_⟩
        · simp
        · cases last.outcome <;> rfl
    · rintro ⟨earlier, last, hlisting, hlength, rfl, rfl⟩
      cases earlier with
      | nil =>
        obtain ⟨hallowed, hurl, hended⟩ := isListing_nil_iff.mp hlisting
        refine ⟨last, [], hallowed, hurl, by simp, ?_⟩
        rw [afterPage_of_last hended]
        simp only [List.nil_append, List.flatMap_singleton]
        exact .here
      | cons v earlier =>
        obtain ⟨hallowed, hurl, next, hnext, hlisting⟩ := isListing_cons_iff.mp hlisting
        have hmore := ih.mpr ⟨earlier, last, hlisting, Nat.le_of_succ_le_succ hlength, rfl, rfl⟩
        refine ⟨v, _, hallowed, hurl, rfl, ?_⟩
        rw [afterPage_of_next hnext]
        refine along_bind_done_iff.mpr ⟨_, [], _, (List.append_nil _).symm, hmore, ?_⟩
        rw [along_done_iff]
        refine ⟨rfl, ?_⟩
        cases last.outcome <;> rfl

end

section

variable {earlier : List Visit} {last : Visit} {kind : ResourceKind} {group : String}
  {result : Except Failure (List String)} {h : History}

theorem reaches_list_iff :
    Reaches (Event.recording (Timed Transport)) (c.list kind group) [] (.done result) h ↔
      ∃ earlier last, IsListing c (c.root.collectionUrl kind group) earlier last ∧
        (earlier ++ [last]).length ≤ c.pageLimit ∧
        h = (earlier ++ [last]).flatMap (Visit.events c) ∧
        result = last.outcome.map fun _ => (earlier ++ [last]).flatMap Visit.names :=
  reaches_iff_along.trans along_listFrom_iff

/-- The names on the visited pages are all that is gathered. -/
theorem gathered_flatMap_events (hlisting : IsListing c url earlier last) :
    gathered ((earlier ++ [last]).flatMap (Visit.events c)) =
      (earlier ++ [last]).flatMap Visit.names := by
  rw [gathered, List.flatMap_assoc]
  exact List.flatMap_congr fun v hv => Visit.gathered_events (hlisting.allowed v hv).again

/-- What a listing gives, by what the last page is. -/
theorem result_eq_iff {names : List String} :
    (result = last.outcome.map fun _ => names) ↔
      ((last.page? ≠ none ∨ last.IsMissing) ∧ result = .ok names) ∨
      (last.page? = none ∧ ¬last.IsMissing ∧ ∃ f, last.outcome = .error f ∧ result = .error f) := by
  cases hpage : last.page? with
  | some page =>
    rw [Visit.outcome_of_page hpage]
    simp [Except.map]
  | none =>
    rcases Visit.outcome_of_no_page hpage with ⟨hmissing, houtcome⟩ | ⟨hmissing, f, houtcome⟩
    · simp [houtcome, hmissing, Except.map]
    · simp [houtcome, hmissing, Except.map]

/-- A listing asks for the page at the address of the collection, then for each page at the address
that the page before told, and again where the policy allows it. It ends at the first page that
tells no address, or that is told to be absent, and gives the names on all pages in order; it fails
if neither can be learnt from the last answer. No name is given just if there was none on any page.
-/
theorem listing_follows_links (c : Connection) (kind : ResourceKind) (group : String)
    (result : Except Failure (List String)) (h : History) :
    (Reaches (Event.recording (Timed Transport)) (c.list kind group) [] (.done result) h ↔
      ∃ earlier last, IsListing c (c.root.collectionUrl kind group) earlier last ∧
        (earlier ++ [last]).length ≤ c.pageLimit ∧
        h = (earlier ++ [last]).flatMap (Visit.events c) ∧
        (((last.page? ≠ none ∨ last.IsMissing) ∧
            result = .ok ((earlier ++ [last]).flatMap Visit.names)) ∨
          (last.page? = none ∧ ¬last.IsMissing ∧
            ∃ f, last.outcome = .error f ∧ result = .error f))) ∧
    ∀ names,
      Reaches (Event.recording (Timed Transport)) (c.list kind group) [] (.done (.ok names)) h →
        names = gathered h ∧ (names = [] ↔ ∀ e ∈ h, namesIn e = []) := by
  refine ⟨?_, ?_⟩
  · simp only [reaches_list_iff, result_eq_iff]
  · intro names hr
    obtain ⟨earlier, last, hlisting, -, rfl, hresult⟩ := reaches_list_iff.mp hr
    have hnames : names = gathered ((earlier ++ [last]).flatMap (Visit.events c)) := by
      rw [gathered_flatMap_events hlisting]
      rcases result_eq_iff.mp hresult with ⟨-, hnames⟩ | ⟨-, -, f, -, hfailed⟩
      · exact Except.ok.inj hnames
      · cases hfailed
    refine ⟨hnames, ?_⟩
    rw [hnames, gathered, List.flatMap_eq_nil_iff]

end

/-- A connection on which each request is sent twice at most. -/
def steady : Connection := { hasty with retry := .fixed 2 (Duration.millis 5) }

/-- A page without names of a listing that goes on. -/
def blankPage : Reply := ⟨200, [], .ok "\x7b\"nextLink\":\"https://e/2\"\x7d"⟩

/-- A page with one name, and none after it. -/
def finalPage : Reply := ⟨200, [], .ok "\x7b\"value\":[\x7b\"name\":\"a\"\x7d]\x7d"⟩

/-- The first page is asked for twice. -/
def blankVisit : Visit :=
  ⟨steady.root.collectionUrl .networkInterface "g", [.ok ⟨503, [], .ok ""⟩], .ok blankPage⟩

def finalVisit : Visit := ⟨"https://e/2", [], .ok finalPage⟩

/-- A page without names does not end the listing. -/
theorem listing_follows_links_past_blank :
    Reaches (Event.recording (Timed Transport)) (steady.list .networkInterface "g") []
      (.done (.ok ["a"])) (blankVisit.events steady ++ finalVisit.events steady) ∧
    (["a"] = [] ↔ ∀ e ∈ blankVisit.events steady ++ finalVisit.events steady, namesIn e = []) := by
  have hblank : blankVisit.page? = some ⟨[], some "https://e/2"⟩ := by decide +kernel
  have hfinal : finalVisit.page? = some ⟨["a"], none⟩ := by decide +kernel
  have hagain : isFinal (.ok ⟨503, [], .ok ""⟩) = false := by decide +kernel
  have hlisting : IsListing steady (steady.root.collectionUrl .networkInterface "g") [blankVisit]
      finalVisit := by
    refine isListing_cons_iff.mpr ⟨⟨List.forall_mem_singleton.mpr hagain, by decide, .inl rfl⟩, rfl,
      "https://e/2", by rw [Visit.next?, hblank]; rfl, isListing_nil_iff.mpr ⟨?_, rfl, ?_⟩⟩
    · exact ⟨List.forall_mem_nil _, by decide, .inr rfl⟩
    · rw [Visit.next?, hfinal]
      rfl
  have hnames : ["a"] = [blankVisit, finalVisit].flatMap Visit.names := by
    simp [Visit.names, hblank, hfinal]
  have hr := (listing_follows_links steady .networkInterface "g" (.ok ["a"]) _).1.mpr
    ⟨[blankVisit], finalVisit, hlisting, by decide, rfl, .inl ⟨.inl (by simp [hfinal]),
      congrArg Except.ok hnames⟩⟩
  rw [List.singleton_append, List.flatMap_cons, List.flatMap_singleton] at hr
  exact ⟨hr, ((listing_follows_links steady .networkInterface "g" (.ok ["a"]) _).2 ["a"] hr).2⟩

end Connection

end Decommission.ControlPlane
