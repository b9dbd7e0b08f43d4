import LogQuery.Proofs.Search.Received
/-!
# The body of a search for events

What a service finds in the body of a search for events. Three numbers in it have no bound: the size of
the page and the two ends of the window, which are a thousand times what a filter says.

* `refusal?_body`: what can stop a search from being written.
* `readsBack_body`: a search that is written can be read.
* `limit?_body`: the size of the page that a service finds.
-/
namespace LogQuery.EventSearch

/-- The instants of a window have not too many digits. -/
def Window.isWritable (w : Window) : Bool :=
  Integer.isWritable w.start && Integer.isWritable w.stop

/-- What is asked for has no number of too many digits. -/
def EventQuery.isWritable (q : EventQuery) : Bool := q.window.all Window.isWritable

def body (events : EventQuery) (ascending : Bool) (size : Int) : Value :=
  IndexSearch.object
    [("filter", events.toValue), ("page", IndexSearch.object [("limit", .integer size)]),
      ("sort", .string (if ascending then "timestamp" else "-timestamp"))]

theorem payload_eq_ok {q : Query} {events : EventQuery} (h : compile q.filters = .ok events)
    (size : Int) :
    payload q (some size) = .ok (body events q.effectiveOrder.ascending size) := by
  simp only [payload, h, bind, Except.bind]
  rfl

theorem refusal?_toValue (q : EventQuery) :
    Json.refusal? q.toValue = if q.isWritable then none else some Json.longInteger := by
  obtain ⟨window, terms⟩ := q
  cases window with
  | none => rfl
  | some w =>
    simp only [EventQuery.toValue, List.cons_append, List.nil_append, Json.refusal?_object,
      List.findSome?_cons, List.findSome?_nil, Json.refusal?_integer, Json.refusal?_string,
      EventQuery.isWritable, Option.all_some, Window.isWritable, Bool.and_eq_true]
    by_cases hstart : Integer.isWritable w.start = true <;>
      by_cases hstop : Integer.isWritable w.stop = true <;> simp [hstart, hstop]

/-- The only things in a search that may be too long to be written are its three numbers. -/
theorem refusal?_body (events : EventQuery) (ascending : Bool) (size : Int) :
    Json.refusal? (body events ascending size)
      = if Integer.isWritable size ∧ events.isWritable then none else some Json.longInteger := by
  simp only [body, Json.refusal?_object, List.findSome?_cons, List.findSome?_nil,
    refusal?_toValue, Json.refusal?_integer, Json.refusal?_string]
  by_cases hsize : Integer.isWritable size = true <;>
    by_cases hevents : events.isWritable = true <;> simp [hsize, hevents]

theorem readsBack_body (events : EventQuery) (ascending : Bool) (size : Int) (depth : Nat) :
    (body events ascending size).readsBack (depth + 2) = true := by
  obtain ⟨window, terms⟩ := events
  cases window <;> cases ascending <;> rfl

/-- The size of the pages that the body of a search asks for. -/
def limit? (body : Json.Tree) : Option Int :=
  ((body.member? "page").bind (·.member? "limit")).bind Json.Tree.integer?

theorem limit?_body (events : EventQuery) (ascending : Bool) (size : Int) :
    limit? (Json.Tree.ofValue (body events ascending size)) = some size := by
  show some (Json.integerOf (Text.ofInt size)) = some size
  rw [Json.integerOf_ofInt]

/-! ## Numbered events -/

def numberedEvent (n : Int) : Value :=
  IndexSearch.object
    [("attributes", IndexSearch.object [("attributes", IndexSearch.object [("n", .integer n)])])]

/-- The links of a response: a link to the next page, or none. -/
def linksTo (next : Option Text) : Value :=
  IndexSearch.object (next.toList.map fun url => ("next", .string url))

/-- A response with some numbered events and a link to the next page, or none. -/
def numberedResponse (numbers : List Int) (next : Option Text) : Value :=
  IndexSearch.object [("data", .list (numbers.map numberedEvent)), ("links", linksTo next)]

def numberedEvents (numbers : List Int) (next : Option Text) : Bytes :=
  (Utf8.encode? (Json.write .compact (numberedResponse numbers next))).getD []

theorem isUnicode_linksTo {next : Option Text}
    (h : ∀ url, next = some url → url.all CodePoint.isScalar = true) :
    (linksTo next).isUnicode = true := by
  cases next with
  | none => rfl
  | some url =>
    simp only [linksTo, Option.toList_some, List.map_cons, List.map_nil, Value.isUnicode_object,
      List.all_cons, List.all_nil, Bool.and_true]
    exact h url rfl

theorem refusal?_numberedResponse {numbers : List Int} (next : Option Text)
    (h : ∀ n ∈ numbers, Integer.isWritable n = true) :
    Json.refusal? (numberedResponse numbers next) = none := by
  have hlinks : Json.refusal? (linksTo next) = none := by cases next <;> rfl
  have hevents : numbers.findSome? (Json.refusal? ∘ numberedEvent) = none := by
    rw [List.findSome?_eq_none_iff]
    intro n hn
    simp only [Function.comp_apply, numberedEvent, Json.refusal?_object, Json.refusal?_integer,
      List.findSome?_cons, List.findSome?_nil, if_pos (h n hn)]
  simp only [numberedResponse, Json.refusal?_object, List.findSome?_cons, List.findSome?_nil,
    Json.refusal?_list, List.findSome?_map, hevents, hlinks]

theorem readsBack_numberedResponse (numbers : List Int) (next : Option Text) (depth : Nat) :
    (numberedResponse numbers next).readsBack (depth + 5) = true := by
  have hlinks : (linksTo next).readsBack (depth + 4) = true := by cases next <;> rfl
  have hevents : (Value.list (numbers.map numberedEvent)).readsBack (depth + 4) = true := by
    rw [Value.readsBack_list, List.all_map, List.all_eq_true]
    intro n _
    rfl
  simp only [numberedResponse, Value.readsBack_object, List.all_cons, List.all_nil,
    hevents, hlinks, Bool.and_self]

theorem isUnicode_numberedResponse (numbers : List Int) {next : Option Text}
    (h : ∀ url, next = some url → url.all CodePoint.isScalar = true) :
    (numberedResponse numbers next).isUnicode = true := by
  have hevents : (Value.list (numbers.map numberedEvent)).isUnicode = true := by
    rw [Value.isUnicode_list, List.all_map, List.all_eq_true]
    intro n _
    simp only [Function.comp_apply, numberedEvent, Value.isUnicode_object,
      Value.isUnicode_integer, List.all_cons, List.all_nil, Bool.and_self]
  simp only [numberedResponse, Value.isUnicode_object, List.all_cons, List.all_nil, hevents,
    isUnicode_linksTo h, Bool.and_self]

theorem readBytes_numberedEvents {numbers : List Int} {next : Option Text} (depth : Nat)
    (h : ∀ n ∈ numbers, Integer.isWritable n = true)
    (hnext : ∀ url, next = some url → url.all CodePoint.isScalar = true) :
    Json.Tree.readBytes false (depth + 5) (numberedEvents numbers next)
      = .ok (Json.Tree.ofValue (numberedResponse numbers next)) := by
  obtain ⟨bytes, hbytes, hread⟩ :=
    Json.readBytes_write Json.Style.isPlain_compact false (refusal?_numberedResponse next h)
      (readsBack_numberedResponse numbers next depth) (isUnicode_numberedResponse numbers hnext)
  rw [numberedEvents, hbytes]
  exact hread

end LogQuery.EventSearch
