import LogQuery.Proofs.Json.Refusal
import LogQuery.Proofs.Retrieval.EventServer
import LogQuery.Proofs.Search.Shell
/-!
# The command of a request

The command that sends a request can be given to a shell as it is: a shell takes it for the words that it
was made from (`command_words`), whatever the headers, the body and the address hold. There is no command for
a request with an integer of too many digits in a header or in its body, and there are such requests
(`longWindow_no_command`).
-/
namespace LogQuery.Request

/-! ## The words of a command -/

def header (entry : Scalar × Value) : Text := entry.1.display ++ ": " ++ entry.2.display

def showsHeader (entry : Scalar × Value) : Bool := entry.1.isShowable && entry.2.isShowable

/-- What sends a request: the program, and what it is given. -/
def arguments (r : Request) (headers : List Text) (body : Option Text) : List Text :=
  [Text.ofString "curl", Text.ofString "-X", r.method]
    ++ headers.flatMap (fun header => [Text.ofString "-H", header])
    ++ body.toList.flatMap (fun body => [Text.ofString "-d", body]) ++ [r.url]

theorem words_eq {r : Request} (hmethod : r.method = ("GET" : Text) ∨ r.method = ("POST" : Text))
    (headers : List Text) (body : Option Text) :
    r.words headers body = (r.arguments headers body).map shellWord := by
  have hheader : shellWord "-H" = "-H" := by decide
  have hdata : shellWord "-d" = "-d" := by decide
  have hfirst : [Text.ofString "curl", Text.ofString "-X", r.method].map shellWord
      = [Text.ofString "curl", Text.ofString "-X", r.method] := by
    rcases hmethod with h | h <;> rw [h] <;> decide
  simp only [words, arguments, List.map_append, hfirst, List.map_flatMap, List.map_cons, List.map_nil,
    hheader]
  cases body with
  | none => rfl
  | some body => simp [hdata]

/-! ## When there is a command -/

/-- A request without integers of too many digits. -/
def isShowable (r : Request) : Bool := r.headers.all showsHeader && r.body.all Value.isShowable

theorem headerText_eq (entry : Scalar × Value) :
    headerText entry = if showsHeader entry then .ok (header entry) else .error Json.longInteger := by
  have hname : (Value.scalar entry.1).isShowable = entry.1.isShowable := by rw [Value.isShowable]
  unfold headerText showsHeader Value.shown
  rw [hname]
  cases entry.1.isShowable <;> cases entry.2.isShowable <;> rfl

theorem mapM_headerText (headers : Headers) :
    headers.mapM headerText
      = if headers.all showsHeader then .ok (headers.map header) else .error Json.longInteger := by
  induction headers with
  | nil => rfl
  | cons entry headers ih =>
    rw [List.mapM_cons, headerText_eq, ih, List.all_cons]
    cases showsHeader entry <;> cases headers.all showsHeader <;> rfl

theorem bodyText?_eq {r : Request} (hnames : r.body.all Json.hasNames = true) :
    r.bodyText? = if r.body.all Value.isShowable then .ok (r.body.map (Json.write .compact))
      else .error Json.longInteger := by
  unfold bodyText?
  cases hbody : r.body with
  | none => rfl
  | some v =>
    rw [hbody] at hnames
    simp only [Json.encode_eq, Json.refusal?_eq hnames, Option.all_some]
    by_cases hshow : v.isShowable = true
    · simp only [if_pos hshow]
      rfl
    · simp only [if_neg hshow]
      rfl

theorem command_eq {r : Request} (hnames : r.body.all Json.hasNames = true) :
    r.command = if r.isShowable then
        match Utf8.encode? (Text.join " "
          (r.words (r.headers.map header) (r.body.map (Json.write .compact))) ++ "\n") with
        | some bytes => .ok bytes
        | none => .error .unencodable
      else .error Json.longInteger := by
  unfold command isShowable
  rw [mapM_headerText, bodyText?_eq hnames]
  cases r.headers.all showsHeader <;> cases r.body.all Value.isShowable <;> rfl

/-! ## Texts without surrogates -/

/-- Whether the texts in a request have no surrogates. -/
def isUnicode (r : Request) : Bool :=
  r.headers.all (fun entry => entry.1.display.all CodePoint.isScalar && entry.2.display.all CodePoint.isScalar)
    && r.body.all Value.isUnicode && r.url.all CodePoint.isScalar

theorem all_isScalar_shellWord (t : Text) :
    (shellWord t).all CodePoint.isScalar = t.all CodePoint.isScalar := by
  have hpoint : ∀ p : CodePoint, (quotePoint p).all CodePoint.isScalar = p.isScalar := by
    intro p
    unfold quotePoint
    split
    next hp => rw [hp]; decide
    next => rw [List.all_cons, List.all_nil, Bool.and_true]
  have hquoted : (t.flatMap quotePoint).all CodePoint.isScalar = t.all CodePoint.isScalar := by
    rw [List.all_flatMap]
    exact congrArg t.all (funext hpoint)
  unfold shellWord
  split
  · rfl
  · rw [List.all_cons, List.all_append, hquoted, List.all_cons, List.all_nil]
    simp [CodePoint.isScalar]

theorem all_isScalar_arguments {r : Request}
    (hmethod : r.method = ("GET" : Text) ∨ r.method = ("POST" : Text)) (hunicode : r.isUnicode = true) :
    (r.arguments (r.headers.map header) (r.body.map (Json.write .compact))).all (·.all CodePoint.isScalar)
      = true := by
  unfold isUnicode at hunicode
  rw [Bool.and_eq_true, Bool.and_eq_true] at hunicode
  obtain ⟨⟨hheaders, hbody⟩, hurl⟩ := hunicode
  have hfirst : r.method.all CodePoint.isScalar = true := by
    rcases hmethod with h | h <;> rw [h] <;> decide
  have hheader : ∀ entry ∈ r.headers, (header entry).all CodePoint.isScalar = true := by
    intro entry hentry
    have hboth := List.all_eq_true.mp hheaders entry hentry
    rw [Bool.and_eq_true] at hboth
    rw [header, List.all_append, List.all_append, hboth.1, hboth.2]
    decide
  have hdata : ∀ body ∈ r.body.map (Json.write .compact), body.all CodePoint.isScalar = true := by
    intro body hmem
    obtain ⟨v, hv, rfl⟩ := Option.map_eq_some_iff.mp hmem
    rw [hv] at hbody
    exact Utf8.exists_encode_iff.mp ((Json.exists_encode_write_iff Json.Style.isPlain_compact v).mpr hbody)
  rw [List.all_eq_true]
  intro t ht
  simp only [arguments, List.mem_append, List.mem_cons, List.not_mem_nil, or_false, List.mem_flatMap,
    List.mem_map, Option.mem_toList] at ht
  rcases ht with (((rfl | rfl | rfl) | ⟨_, ⟨entry, hentry, rfl⟩, rfl | rfl⟩) | ⟨body, hbody, rfl | rfl⟩) | rfl
  · decide
  · decide
  · exact hfirst
  · decide
  · exact hheader entry hentry
  · decide
  · exact hdata _ hbody
  · exact hurl

theorem exists_encode_arguments {args : List Text} (h : args.all (·.all CodePoint.isScalar) = true) :
    ∃ bytes, Utf8.encode? (Text.join " " (args.map shellWord) ++ "\n") = some bytes := by
  have hwords : (args.map shellWord).all (·.all CodePoint.isScalar) = true := by
    rw [List.all_map, ← h]
    exact congrArg args.all (funext all_isScalar_shellWord)
  rw [Utf8.exists_encode_iff, List.all_append, Json.all_join (by decide), hwords]
  decide

/-! ## The command -/

/-- **The command of a request.** A shell takes it for the program, the method, every header, the body if
there is one, and the address, and for nothing else. Only for a request with an integer of too many digits
there is no command. -/
theorem command_words (r : Request) (hmethod : r.method = ("GET" : Text) ∨ r.method = ("POST" : Text))
    (hnames : r.body.all Json.hasNames = true) (hunicode : r.isUnicode = true) :
    if r.isShowable then
      ∃ line bytes, r.command = .ok bytes ∧ Utf8.encode? (line ++ "\n") = some bytes ∧
        Shell.words? line
          = some (r.arguments (r.headers.map header) (r.body.map (Json.write .compact)))
    else r.command = .error Json.longInteger := by
  have hcommand := command_eq hnames
  split
  next hshow =>
    obtain ⟨bytes, hbytes⟩ := exists_encode_arguments (all_isScalar_arguments hmethod hunicode)
    rw [← words_eq hmethod] at hbytes
    simp only [if_pos hshow, hbytes] at hcommand
    refine ⟨_, bytes, hcommand, hbytes, ?_⟩
    rw [words_eq hmethod]
    exact Shell.words?_join _
  next hshow => rw [hcommand, if_neg hshow]

/-- A request full of characters that mean something to a shell. -/
def quoted : Request where
  method := "POST"
  url := "https://es/logs?a=1&b='$(x)'"
  headers := [(.string "DD-API-KEY", .string "k"), (.string "X-Note", .string "it's\n$HOME `x` \"y\""),
    (.string "", .string [])]
  body := some (Value.ofMembers [("q", .string "level:'ä';#")])

theorem command_words_quoted : quoted.isUnicode = true ∧
    ∃ line bytes, quoted.command = .ok bytes ∧ Utf8.encode? (line ++ "\n") = some bytes ∧
      Shell.words? line = some
        [("curl" : Text), "-X", "POST", "-H", "DD-API-KEY: k", "-H", "X-Note: it's\n$HOME `x` \"y\"",
          "-H", ": ", "-d", "\x7b\"q\":\"level:'ä';#\"\x7d", "https://es/logs?a=1&b='$(x)'"] := by
  have hunicode : quoted.isUnicode = true := by decide
  exact ⟨hunicode, command_words quoted (Or.inr rfl) rfl hunicode⟩

/-! ## A request without a command -/

/-- The search of all instants up to some number of seconds. -/
def searchUntil (seconds : Nat) : Request where
  method := "POST"
  url := "https://dd/api/v2/logs/events/search"
  headers := EventSearch.headers (EventSearch.taskUntil seconds).env
  body := some (EventSearch.body (EventSearch.foundUntil seconds) false 2)

theorem request_until {seconds : Nat} (h : seconds < 10 ^ Integer.maxDigits) :
    EventSearch.request (EventSearch.taskUntil seconds).env "https://dd"
      (EventSearch.taskUntil seconds).query none 2 = .ok (searchUntil seconds) := by
  have hcompile : EventSearch.compile (EventSearch.taskUntil seconds).query.filters
      = .ok (EventSearch.foundUntil seconds) := EventSearch.compile_until h
  have husable : IndexSearch.usable none = none := rfl
  simp only [EventSearch.request, husable, EventSearch.payload_eq_ok hcompile, bind, Except.bind]
  rfl

theorem isUnicode_searchUntil (seconds : Nat) : (searchUntil seconds).isUnicode = true := by
  have hbody : (EventSearch.body (EventSearch.foundUntil seconds) false 2).isUnicode = true := by
    simp only [EventSearch.body, EventSearch.foundUntil, EventSearch.EventQuery.toValue,
      Value.isUnicode_object, List.cons_append, List.nil_append, List.all_cons, List.all_nil,
      Value.isUnicode_integer]
    rfl
  unfold isUnicode searchUntil
  rw [Option.all_some, hbody]
  rfl

theorem hasNames_searchUntil (seconds : Nat) : (searchUntil seconds).body.all Json.hasNames = true := rfl

theorem not_isShowable_searchUntil {seconds : Nat} (h : 10 ^ Integer.maxDigits ≤ seconds * 1000) :
    (searchUntil seconds).isShowable = false := by
  have hbody : (searchUntil seconds).body = some (EventSearch.body (EventSearch.foundUntil seconds) false 2) :=
    rfl
  have hnames := hasNames_searchUntil seconds
  rw [hbody, Option.all_some] at hnames
  have hlong : ¬ (Integer.isWritable 2 = true ∧ (EventSearch.foundUntil seconds).isWritable = true) :=
    fun hw => EventSearch.not_isWritable_until h hw.2
  have hrefusal := Json.refusal?_eq hnames
  rw [EventSearch.refusal?_body, if_neg hlong] at hrefusal
  rw [isShowable, hbody, Option.all_some]
  cases hshow : (EventSearch.body (EventSearch.foundUntil seconds) false 2).isShowable with
  | false => exact Bool.and_false _
  | true =>
    rw [hshow, if_pos rfl] at hrefusal
    cases hrefusal

theorem command_searchUntil {seconds : Nat} (h : 10 ^ Integer.maxDigits ≤ seconds * 1000) :
    (searchUntil seconds).command = .error Json.longInteger := by
  rw [command_eq (hasNames_searchUntil seconds), not_isShowable_searchUntil h, if_neg Bool.false_ne_true]

/-- A search compiles, there are no surrogates in its request, and there is no command for it. -/
theorem longWindow_no_command :
    EventSearch.request (EventSearch.taskUntil EventSearch.maxWritable).env "https://dd"
      (EventSearch.taskUntil EventSearch.maxWritable).query none 2
      = .ok (searchUntil EventSearch.maxWritable) ∧
    (searchUntil EventSearch.maxWritable).method = ("POST" : Text) ∧
    (searchUntil EventSearch.maxWritable).body.all Json.hasNames = true ∧
    (searchUntil EventSearch.maxWritable).isUnicode = true ∧
    ¬ ∃ line bytes, (searchUntil EventSearch.maxWritable).command = .ok bytes ∧
      Utf8.encode? (line ++ "\n") = some bytes ∧
      Shell.words? line = some ((searchUntil EventSearch.maxWritable).arguments
        ((searchUntil EventSearch.maxWritable).headers.map header)
        ((searchUntil EventSearch.maxWritable).body.map (Json.write .compact))) := by
  refine ⟨request_until EventSearch.maxWritable_lt, rfl, hasNames_searchUntil _, isUnicode_searchUntil _, ?_⟩
  rintro ⟨line, bytes, hcommand, -⟩
  rw [command_searchUntil EventSearch.le_maxWritable_mul] at hcommand
  cases hcommand

end LogQuery.Request
