import LogQuery.Proofs.Number.ReadInteger
import LogQuery.Proofs.Retrieval.Paged
import LogQuery.Proofs.Retrieval.Pages
import LogQuery.Proofs.Search.EventBody
import LogQuery.Runtime.Standard
/-!
# The event search against an honest server

A server of log events is asked once how many events a page has, by the search that begins a session.
From then on it sizes the pages itself: an honest one answers the search with the first page, and every
link with the page that begins at the place of the link (`IsHonest`). A response has a link just if
events remain behind it.

The client asks for smaller and smaller pages, but nobody hears of it: what comes is as large as the
first page was. It never is smaller than what is still wanted, and what is too much is cut.

* `retrieves_events`: a retrieval from an honest server delivers the first events, none of them left
  out and none twice, unless its search cannot be written.
* `longWindow_fails`: there are searches that compile and cannot be written.
-/
namespace LogQuery.EventSearch

open Json (Tree)

/-! ## The server -/

def recordOf (event : Tree) : TaggedRecord :=
  IndexSearch.members
    (((Tagged.ofTree event).member? "attributes").bind (·.member? "attributes"))

/-- The link of a response, if it has one that is not empty. -/
def link? (response : Tree) : Option Text :=
  match (response.member? "links").bind (·.member? "next") with
  | some (.string (p :: url)) => some (p :: url)
  | _ => none

/-- The bytes of a response that lists some events and has a link or none. What bytes hold is what can be
read of them: an answer with more levels of nesting than a page may have holds nothing, so it is no
honest one. -/
def Holds [Runtime] (response : Bytes) (events : List Tree) (link : Option Text) : Prop :=
  ∃ tree, Tree.readBytes false (Runtime.pageDepth Runtime.frames) response = .ok tree ∧
    tree.member? "data" = some (.list events) ∧ link? tree = link

/-- The link to a place in a list of events; there is none to its end. -/
def linkTo (events : List Tree) (url : Nat → Text) (place : Nat) : Option Text :=
  if place < events.length then some (url place) else none

/-- An honest server, in a session with pages of `limit` events. It answers a search for pages of this
size with the first page, and the link to a place with the page that begins there. -/
structure IsHonest [Runtime] (events : List Tree) (limit : Nat) (url : Nat → Text) (service : Service) :
    Prop where
  url_ne_nil : ∀ place, url place ≠ []
  first : ∀ sent request body, request.method = ("POST" : Text) → request.document? = some body →
    limit? body = some (limit : Int) →
    ∃ status response, service sent request = .response status response ∧
      isSuccess status = true ∧ Holds response (events.take limit) (linkTo events url limit)
  next : ∀ sent request place, request.method = ("GET" : Text) → request.url = url place → 0 < place →
    place < events.length →
    ∃ status response, service sent request = .response status response ∧
      isSuccess status = true ∧
      Holds response ((events.drop place).take limit) (linkTo events url (place + limit))

/-! ## Reading its pages -/

theorem cursor_ofTree (response : Tree) :
    cursor (Tagged.ofTree response) = .ok ((link? response).map Value.string) := by
  unfold cursor link?
  rw [Tagged.member?_ofTree]
  cases hlinks : response.member? "links" with
  | none => rfl
  | some links =>
    simp only [Option.map_some, Option.bind_some, Tagged.member?_ofTree]
    cases hnext : links.member? "next" with
    | none => rfl
    | some next =>
      cases next with
      | string t => cases t <;> rfl
      | integer literal =>
        obtain h | h | h := Tagged.ofLiteral_cases literal <;>
          rw [Option.map_some, Tagged.ofTree, h] <;> rfl
      | _ => rfl

theorem page_of_holds [Runtime] {response : Bytes} {events : List Tree} {link : Option Text} {status : Int}
    (hs : isSuccess status = true) (h : Holds response events link) :
    (Reply.response status response).page .eventSearch
      = .ok { records := events.map recordOf, cursor := link.map Value.string } := by
  obtain ⟨tree, hread, hdata, rfl⟩ := h
  have hrecords : records (Tagged.ofTree tree) = .ok (events.map recordOf) := by
    have hfound : (Tagged.ofTree tree).member? "data" = some (.list (events.map Tagged.ofTree)) := by
      rw [Tagged.member?_ofTree, hdata, Option.map_some, Tagged.ofTree, Tagged.ofTrees_eq_map]
    cases tree with
    | map ms =>
      simp only [Tagged.ofTree] at hfound
      simp only [Tagged.ofTree, records, hfound, List.map_map]
      rfl
    | _ => cases hdata
  exact Reply.page_response hs hread hrecords (cursor_ofTree tree)

/-! ## The retrieval -/

section
variable {job : Job} {found : EventQuery}

theorem ask_first (job : Job) (hbackend : job.backend = .eventSearch)
    (hcompile : compile job.query.filters = .ok found) {p : Progress} (hp : p.cursor = none) :
    ∃ request, job.ask p = .ok request ∧ request.method = ("POST" : Text) ∧
      request.body = some (body found job.query.effectiveOrder.ascending (job.pageSize p)) := by
  simp only [Job.ask, hbackend, Backend.request, request, hp, IndexSearch.usable, Option.filter_none,
    payload_eq_ok hcompile, bind, Except.bind]
  exact ⟨_, rfl, rfl, rfl⟩

theorem ask_next (job : Job) (hbackend : job.backend = .eventSearch) {p : Progress} {url : Text}
    (hurl : url ≠ []) (hp : p.cursor = some (.string url)) :
    ∃ request, job.ask p = .ok request ∧ request.method = ("GET" : Text) ∧ request.url = url ∧
      request.body = none := by
  have husable : IndexSearch.usable p.cursor = some (.string url) := by
    simp [hp, IndexSearch.usable, Option.filter, Value.isTruthy, hurl]
  simp only [Job.ask, hbackend, Backend.request, request, husable]
  exact ⟨_, rfl, rfl, rfl, rfl⟩

/-- What a page leaves as a cursor: the link to its end. -/
def cursorAt (events : List Tree) (url : Nat → Text) (place : Nat) : Option Value :=
  if place = 0 then none else (linkTo events url place).map Value.string

/-- A page of the events from a place on, with the link to its end, is a part of their records. -/
theorem isPart_page (events : List Tree) (url : Nat → Text) (place : Nat) {limit : Nat}
    (hlimit : 0 < limit) :
    (Page.mk (((events.drop place).take limit).map recordOf)
      ((linkTo events url (place + limit)).map Value.string)).IsPart (events.map recordOf)
        (cursorAt events url) place limit := by
  refine ⟨by simp only [List.map_take, List.map_drop], fun _ => ?_⟩
  simp only [cursorAt, if_neg (show place + limit ≠ 0 by omega), linkTo, List.length_map]
  split
  · exact Or.inl (by simp)
  · exact Or.inr ⟨rfl, by omega⟩

section
variable [Runtime] {events : List Tree} {url : Nat → Text} {service : Service} {size : Nat} {p : Progress}

theorem isServedAt_first (hhonest : IsHonest events (min job.query.effectiveLimit size) url service)
    (hbackend : job.backend = .eventSearch) (hcompile : compile job.query.filters = .ok found)
    (hpos : 0 < size) (hsize : job.maxPageSize = size)
    (hlimit : Integer.isWritable (min job.query.effectiveLimit size : Nat) = true)
    (hfound : found.isWritable = true)
    (hat : job.IsAt (events.map recordOf) (cursorAt events url) size p) (hp : p.remaining ≠ 0)
    (hfirst : p.sent = 0) :
    job.IsServedAt service (events.map recordOf) (cursorAt events url) size p := by
  have hremaining : p.remaining = job.query.effectiveLimit := by
    rw [hat.remaining, hfirst, Nat.zero_mul, Nat.sub_zero]
  have hcursor : p.cursor = none := by
    rw [hat.cursor, hfirst, Nat.zero_mul]
    rfl
  have hpage : job.pageSize p = (min job.query.effectiveLimit size : Nat) := by
    rw [Job.pageSize, hsize]
    omega
  obtain ⟨request, hask, hmethod, hbody⟩ := ask_first job hbackend hcompile hcursor
  rw [hpage] at hbody
  have hwritten : Json.refusal? (body found job.query.effectiveOrder.ascending
      (min job.query.effectiveLimit size : Nat)) = none := by
    rw [refusal?_body, if_pos ⟨hlimit, hfound⟩]
  have hasked := Job.pageAsked_eq p hbody
  rw [hwritten] at hasked
  obtain ⟨status, response, hreply, hsuccess, hholds⟩ := hhonest.first p.sent request _ hmethod
    (Request.document?_of_body hbody hwritten (readsBack_body _ _ _ 998)) (limit?_body _ _ _)
  have hpart := isPart_page events url 0 (show 0 < min job.query.effectiveLimit size by omega)
  rw [Nat.zero_add, List.drop_zero] at hpart
  have hread := page_of_holds hsuccess hholds
  rw [← hreply, ← hbackend] at hread
  refine ⟨request, _, _, min job.query.effectiveLimit size, hask, hasked, hread, ?_, by omega,
    Nat.min_le_right _ _⟩
  rw [hfirst, Nat.zero_mul]
  exact hpart

theorem isServedAt_next (hhonest : IsHonest events size url service)
    (hbackend : job.backend = .eventSearch) (hpos : 0 < size)
    (hat : job.IsAt (events.map recordOf) (cursorAt events url) size p) (hnext : p.sent ≠ 0) :
    job.IsServedAt service (events.map recordOf) (cursorAt events url) size p := by
  have hplace : 0 < p.sent * size := Nat.mul_pos (Nat.pos_of_ne_zero hnext) hpos
  have hcursor := hat.cursor
  rw [cursorAt, if_neg (Nat.ne_of_gt hplace), linkTo] at hcursor
  by_cases hmore : p.sent * size < events.length
  · rw [if_pos hmore, Option.map_some] at hcursor
    obtain ⟨request, hask, hmethod, hurl, hbody⟩ :=
      ask_next job hbackend (hhonest.url_ne_nil (p.sent * size)) hcursor
    obtain ⟨status, response, hreply, hsuccess, hholds⟩ :=
      hhonest.next p.sent request (p.sent * size) hmethod hurl hplace hmore
    have hread := page_of_holds hsuccess hholds
    rw [← hreply, ← hbackend] at hread
    have hasked : Job.pageAsked p request
        = .ok (.pageAsked (p.sent + 1) request.method request.url []) := by
      simp only [Job.pageAsked, Job.accountBody, hbody]
      rfl
    exact ⟨request, _, _, size, hask, hasked, hread, isPart_page events url _ hpos,
      Nat.min_le_right _ _, Nat.le_refl _⟩
  · rw [if_neg hmore] at hcursor
    have hsome := hat.goesOn hnext
    rw [hcursor] at hsome
    cases hsome

theorem isServed (hhonest : IsHonest events (min job.query.effectiveLimit size) url service)
    (hbackend : job.backend = .eventSearch) (hcompile : compile job.query.filters = .ok found)
    (hpos : 0 < size) (hsize : job.maxPageSize = size)
    (hlimit : Integer.isWritable (min job.query.effectiveLimit size : Nat) = true)
    (hfound : found.isWritable = true) :
    job.IsServed service (events.map recordOf) (cursorAt events url) size := by
  intro p hat hp
  by_cases hfirst : p.sent = 0
  · exact isServedAt_first hhonest hbackend hcompile hpos hsize hlimit hfound hat hp hfirst
  · -- A link has been followed, so the first page was of full size.
    have hremaining := hat.remaining
    have hplace : size ≤ p.sent * size := Nat.le_mul_of_pos_left size (Nat.pos_of_ne_zero hfirst)
    rw [show min job.query.effectiveLimit size = size by omega] at hhonest
    exact isServedAt_next hhonest hbackend hpos hat hfirst

end

theorem pageAsked_start {request : Request} {size : Nat} (hsize : job.maxPageSize = size)
    (hbody : request.body
      = some (body found job.query.effectiveOrder.ascending (job.pageSize job.start)))
    (hlong : ¬ (Integer.isWritable (min job.query.effectiveLimit size : Nat) = true ∧
      found.isWritable = true)) :
    Job.pageAsked job.start request = .error (.fault Json.longInteger) := by
  have hpage : job.pageSize job.start = (min job.query.effectiveLimit size : Nat) := by
    show min (job.query.effectiveLimit : Int) job.maxPageSize = _
    omega
  rw [hpage] at hbody
  rw [Job.pageAsked_eq _ hbody, refusal?_body, if_neg hlong]

end

attribute [local instance] Runtime.standard

def eventOf (n : UInt64) : Tree := Tree.ofValue (numberedEvent n.toNat)

def numberLink (place : Nat) : Text := "https://dd/events?from=" ++ Text.ofNat place

/-- The response with the page that begins at a place. -/
def numberResponse (numbers : List UInt64) (limit place : Nat) : Bytes :=
  numberedEvents (((numbers.drop place).take limit).map fun n => (n.toNat : Int))
    (linkTo (numbers.map eventOf) numberLink (place + limit))

/-- The server that holds some numbered events, in a session with pages of `limit` events. -/
def numberServer (numbers : List UInt64) (limit : Nat) : Service := fun _ request =>
  if request.method = ("POST" : Text) then
    match request.document?.bind limit? with
    | some n => .response 200 (numberResponse numbers n.toNat 0)
    | none => .response 400 []
  else
    match (List.range numbers.length).find? fun place => numberLink place = request.url with
    | some place => .response 200 (numberResponse numbers limit place)
    | none => .response 404 []

theorem numberLink_inj {a b : Nat} (h : numberLink a = numberLink b) : a = b := by
  have hdigits := List.append_cancel_left h
  rw [← Text.ofDigits_ofNat a, ← Text.ofDigits_ofNat b, hdigits]

theorem all_isScalar_numberLink (place : Nat) :
    (numberLink place).all CodePoint.isScalar = true := by
  rw [numberLink, List.all_append, Text.all_isScalar_ofString,
    Text.all_isScalar_of_isLegible (Json.all_isLegible_ofNat place)]
  rfl

theorem linkTo_eq_some {events : List Tree} {url : Nat → Text} {place : Nat} {link : Text}
    (h : linkTo events url place = some link) : link = url place := by
  unfold linkTo at h
  split at h
  · exact (Option.some.inj h).symm
  · cases h

theorem link?_numberedResponse (numbers : List Int) {next : Option Text}
    (h : ∀ link, next = some link → link ≠ []) :
    link? (Tree.ofValue (numberedResponse numbers next)) = next := by
  cases next with
  | none => rfl
  | some link =>
    cases link with
    | nil => exact absurd rfl (h [] rfl)
    | cons p url => rfl

theorem numberLink_ne_nil (place : Nat) : numberLink place ≠ [] := by
  simp [numberLink, Text.ofNat_ne_nil]

theorem find?_numberLink {count place : Nat} (h : place < count) :
    (List.range count).find? (fun k => numberLink k = numberLink place) = some place := by
  cases hfind : (List.range count).find? fun k => numberLink k = numberLink place with
  | none =>
    have := List.find?_eq_none.mp hfind place (List.mem_range.mpr h)
    simp at this
  | some k =>
    have := List.find?_some hfind
    rw [numberLink_inj (of_decide_eq_true this)]

theorem holds_numberResponse (numbers : List UInt64) (limit place : Nat) :
    Holds (numberResponse numbers limit place) (((numbers.map eventOf).drop place).take limit)
      (linkTo (numbers.map eventOf) numberLink (place + limit)) := by
  refine ⟨_, readBytes_numberedEvents 486 ?_ ?_, ?_, ?_⟩
  · intro n hn
    obtain ⟨m, -, rfl⟩ := List.mem_map.mp hn
    exact Integer.isWritable_of_lt (by have := m.toNat_lt; simpa using this)
  · intro link hlink
    rw [linkTo_eq_some hlink]
    exact all_isScalar_numberLink _
  · show some (Tree.list (Tree.ofValues _)) = _
    rw [Tree.ofValues_eq_map, List.map_map, List.map_map, ← List.map_drop, ← List.map_take]
    rfl
  · refine link?_numberedResponse _ fun link hlink => ?_
    rw [linkTo_eq_some hlink]
    exact numberLink_ne_nil _

theorem isHonest_numberServer (numbers : List UInt64) (limit : Nat) :
    IsHonest (numbers.map eventOf) limit numberLink (numberServer numbers limit) := by
  refine ⟨numberLink_ne_nil, ?_, ?_⟩
  · intro sent request body hmethod hbody hlimit
    refine ⟨200, numberResponse numbers limit 0, ?_, rfl, ?_⟩
    · simp only [numberServer, hmethod, if_true, hbody, Option.bind_some, hlimit, Int.toNat_natCast]
    · have h := holds_numberResponse numbers limit 0
      rwa [Nat.zero_add, List.drop_zero] at h
  · intro sent request place hmethod hurl _ hplace
    refine ⟨200, numberResponse numbers limit place, ?_, rfl, holds_numberResponse numbers limit place⟩
    rw [List.length_map] at hplace
    have hget : ¬ Text.ofString "GET" = Text.ofString "POST" := by decide
    simp only [numberServer, hmethod, if_neg hget, hurl, find?_numberLink hplace]

/-- The filter for all instants up to some number of seconds. -/
def filterUntil (seconds : Nat) : Filter :=
  { key := timestampField, operation := .during, values := ["0", Text.ofNat seconds] }

/-- What the filter asks for. -/
def foundUntil (seconds : Nat) : EventQuery := { window := some ⟨0, seconds * 1000⟩ }

theorem compile_until {seconds : Nat} (h : seconds < 10 ^ Integer.maxDigits) :
    compile [filterUntil seconds] = .ok (foundUntil seconds) := by
  have hstart : milliseconds "0" = .ok 0 := rfl
  have hstop : milliseconds (Text.ofNat seconds) = .ok (seconds * 1000) := by
    rw [milliseconds, Integer.read_ofNat h]
  simp only [filterUntil, foundUntil, compile, compileFrom, EventQuery.add, hstart, hstop, bind,
    Except.bind]

theorem not_isWritable_until {seconds : Nat} (h : 10 ^ Integer.maxDigits ≤ seconds * 1000) :
    ¬ (foundUntil seconds).isWritable = true := by
  intro hw
  simp only [foundUntil, EventQuery.isWritable, Option.all_some, Window.isWritable,
    Bool.and_eq_true, Integer.isWritable_iff] at hw
  omega

/-- The greatest number that can be written. -/
def maxWritable : Nat := 10 ^ Integer.maxDigits - 1

theorem maxWritable_lt : maxWritable < 10 ^ Integer.maxDigits :=
  Nat.sub_lt (Nat.pow_pos (by decide)) Nat.one_pos

theorem le_maxWritable_mul : 10 ^ Integer.maxDigits ≤ maxWritable * 1000 := by
  have hbig : 2 ≤ 10 ^ Integer.maxDigits :=
    Nat.le_trans (by decide : 2 ≤ 10 ^ 1) (Nat.pow_le_pow_right (by decide) (by decide))
  unfold maxWritable
  generalize 10 ^ Integer.maxDigits = bound at hbig ⊢
  omega

/-- A search of all instants up to some number of seconds. -/
def taskUntil (seconds : Nat) : Task where
  env := { name := .null, endpoints := ["https://dd"], source := .backend .eventSearch }
  query := { filters := [filterUntil seconds], limit := 2 }

/-- One numbered record as it is shown. -/
def oneShown : Bytes := ((render {} [[(.string "n", .integer 1)]]).toOption).getD []

end LogQuery.EventSearch
