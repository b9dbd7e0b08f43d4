import LogQuery.Output.Http
import LogQuery.Proofs.Text.Pairs
import LogQuery.Proofs.Text.Split
import Mathlib.Data.List.Infix
/-!
# Raw requests are read back

A raw request is written line by line with one of two line ends (`Raw.text`), and read back without being
told which one it is: the first line shows it. The parts of a request may hold a good deal that looks like
structure, as colons in values, or the characters of the other line end, but not what would end them
(`Raw`).

* `LineEnd.split_line`, `lines?_line`: a line ends at the first line end, whatever follows, and the first line
  shows which one it is.
* `headersAndBody?_lines`: header lines fill the table of headers, up to the empty line in front of the body.
* `Raw.ofText?_text`: every raw request is read back with its parts.
-/
namespace LogQuery.HttpRequest

/-! ## Line ends -/

/-- What the lines of a raw request end with. -/
inductive LineEnd where
  | lineFeed
  /-- A carriage return and a line feed. -/
  | both

/-- A text with a line feed in the place of every carriage return that has one behind it. -/
def withLineFeeds : Text → Text
  | [] => []
  | [p] => [p]
  | p :: q :: rest =>
    if p = .scalar '\r' ∧ q = .scalar '\n' then .scalar '\n' :: withLineFeeds rest
    else p :: withLineFeeds (q :: rest)

namespace LineEnd

def text : LineEnd → Text
  | lineFeed => "\n"
  | both => "\r\n"

def split : LineEnd → Text → List Text
  | lineFeed, t => t.splitOn (.scalar '\n')
  | both, t => t.splitOnPair (.scalar '\r') (.scalar '\n')

/-- What is left of a body when its lines are put together again with line feeds. -/
def unified : LineEnd → Text → Text
  | lineFeed, t => t
  | both, t => withLineFeeds t

variable {e : LineEnd} {line : Text}

theorem not_infix_nil (e : LineEnd) : ¬ e.text <:+: [] := by
  cases e <;> decide

theorem split_line (h : ¬ e.text <:+: line) (rest : Text) :
    e.split (line ++ (e.text ++ rest)) = line :: e.split rest := by
  cases e with
  | lineFeed =>
    have hline : .scalar '\n' ∉ line := fun hmem => h ((List.singleton_infix_iff _ _).mpr hmem)
    show (line ++ .scalar '\n' :: rest).splitOn _ = _
    rw [Text.splitOn_append_sep, Text.splitOn_of_not_mem hline]
    rfl
  | both => exact Text.splitOnPair_append_pair (by decide) h rest

theorem join_splitOnPair : ∀ t : Text,
    Text.join "\n" (t.splitOnPair (.scalar '\r') (.scalar '\n')) = withLineFeeds t
  | [] => rfl
  | [p] => Text.join_cons _ _ _
  | p :: q :: t => by
    unfold Text.splitOnPair withLineFeeds
    split
    · obtain ⟨line, lines, h⟩ := List.exists_cons_of_ne_nil (Text.splitOnPair_ne_nil _ _ t)
      have hrest := join_splitOnPair t
      rw [h, Text.join_cons] at hrest
      rw [h, Text.join_cons, List.flatMap_cons, List.nil_append, List.append_assoc, hrest]
      rfl
    · have hrest := join_splitOnPair (q :: t)
      split
      next h => exact absurd h (Text.splitOnPair_ne_nil _ _ _)
      next line lines h =>
        rw [h, Text.join_cons] at hrest
        rw [Text.join_cons, List.cons_append, hrest]

theorem join_split (e : LineEnd) (t : Text) : Text.join "\n" (e.split t) = e.unified t := by
  cases e with
  | lineFeed => exact Text.join_splitOn (.scalar '\n') t
  | both => exact join_splitOnPair t

end LineEnd

/-! ## Raw requests -/

def headerLine (header : Text × Text) : Text := header.1 ++ ": " ++ header.2

/-- The parts of a raw request, none of which holds what would end it. -/
structure Raw (e : LineEnd) where
  method : Text
  url : Text
  version : Text
  headers : List (Text × Text)
  body : Text
  method_known : method ∈ methods.map Text.ofString
  url_plain : .scalar ' ' ∉ url ∧ .scalar '\n' ∉ url
  version_plain : .scalar ' ' ∉ version ∧ .scalar '\n' ∉ version
  version_ends : version.getLast? ≠ some (.scalar '\r')
  name_ends : ∀ header ∈ headers, ¬ Text.ofString ": " <:+: header.1
  header_plain : ∀ header ∈ headers, ¬ e.text <:+: header.1 ∧ ¬ e.text <:+: header.2

namespace Raw

variable {e : LineEnd} (r : Raw e)

def firstLine : Text := r.method ++ .scalar ' ' :: (r.url ++ .scalar ' ' :: r.version)

/-- What stands behind the first line of a raw request. -/
def tail : Text :=
  (r.headers.flatMap fun header => headerLine header ++ e.text) ++ (e.text ++ r.body)

/-- The text of a raw request. -/
def text : Text := r.firstLine ++ (e.text ++ r.tail)

end Raw

/-! ## The first line -/

theorem method_plain : ∀ method ∈ methods.map Text.ofString,
    .scalar ' ' ∉ method ∧ .scalar '\n' ∉ method := by
  decide

namespace Raw

variable {e : LineEnd} (r : Raw e)

theorem words_firstLine : r.firstLine.splitOn (.scalar ' ') = [r.method, r.url, r.version] := by
  rw [firstLine, Text.splitOn_append_sep, Text.splitOn_append_sep,
    Text.splitOn_of_not_mem (method_plain _ r.method_known).1, Text.splitOn_of_not_mem r.url_plain.1,
    Text.splitOn_of_not_mem r.version_plain.1]
  rfl

theorem lineFeed_notMem_firstLine : .scalar '\n' ∉ r.firstLine := by
  have hmethod := (method_plain _ r.method_known).2
  simp [firstLine, hmethod, r.url_plain.2, r.version_plain.2]

theorem getLast?_firstLine : r.firstLine.getLast? ≠ some (.scalar '\r') := by
  have hends := r.version_ends
  rw [firstLine, List.getLast?_append, List.getLast?_cons, List.getLast?_append, List.getLast?_cons]
  cases h : r.version.getLast? with
  | none => simp
  | some p =>
    rw [h] at hends
    exact hends

end Raw

theorem lines?_line (e : LineEnd) {first : Text} (hfirst : .scalar '\n' ∉ first)
    (hlast : first.getLast? ≠ some (.scalar '\r')) (rest : Text) :
    lines? (first ++ (e.text ++ rest)) = some (first :: e.split rest) := by
  obtain ⟨second, more, hrest⟩ :=
    List.exists_cons_of_ne_nil (Text.splitOn_ne_nil (.scalar '\n') rest)
  have hend : ¬ e.text <:+: first := by
    intro h
    refine hfirst (h.subset ?_)
    cases e <;> decide
  have hsplit := LineEnd.split_line hend rest
  cases e with
  | lineFeed =>
    have hlines : (first ++ (LineEnd.lineFeed.text ++ rest)).splitOn (.scalar '\n')
        = first :: second :: more := by
      rw [← hrest]
      exact hsplit
    rw [lines?, hlines]
    simp only [if_neg hlast]
    rw [← hrest]
    rfl
  | both =>
    -- Split at line feeds, the text has a first line that ends with the carriage return.
    have hreturn : .scalar '\n' ∉ first ++ [.scalar '\r'] := by simp [hfirst]
    have hlines : (first ++ (LineEnd.both.text ++ rest)).splitOn (.scalar '\n')
        = (first ++ [.scalar '\r']) :: second :: more := by
      have hshift : first ++ (LineEnd.both.text ++ rest)
          = (first ++ [.scalar '\r']) ++ .scalar '\n' :: rest := by
        rw [List.append_assoc]
        rfl
      rw [hshift, Text.splitOn_append_sep, Text.splitOn_of_not_mem hreturn, hrest]
      rfl
    rw [lines?, hlines]
    simp only [List.getLast?_concat, if_pos]
    exact congrArg some hsplit

/-! ## The lines of the headers -/

theorem infix_of_infix_append_cons {row t u : Text} {p : CodePoint} (hp : p ∉ row)
    (h : row <:+: t ++ p :: u) : row <:+: t ∨ row <:+: u := by
  obtain ⟨front, back, h⟩ := h
  -- The row ends in front of the code point or begins behind it, or else it would hold it.
  rcases List.append_eq_append_iff.mp h with ⟨more, rfl, -⟩ | ⟨more, hfront, hback⟩
  · exact Or.inl ⟨front, more, rfl⟩
  · cases more with
    | nil => exact Or.inl ⟨front, [], by rw [hfront]; simp⟩
    | cons q more =>
      obtain ⟨rfl, rfl⟩ := List.cons.inj hback
      rcases List.append_eq_append_iff.mp hfront with ⟨inside, -, rfl⟩ | ⟨inside, -, hinside⟩
      · exact absurd (by simp) hp
      · cases inside with
        | nil => exact absurd ((List.nil_append row ▸ hinside) ▸ List.mem_cons_self) hp
        | cons q inside =>
          obtain ⟨-, rfl⟩ := List.cons.inj hinside
          exact Or.inr ⟨inside, back, rfl⟩

theorem headerLine_plain (e : LineEnd) {header : Text × Text} (hname : ¬ e.text <:+: header.1)
    (hvalue : ¬ e.text <:+: header.2) : ¬ e.text <:+: headerLine header := by
  have hcolon : .scalar ':' ∉ e.text := by cases e <;> decide
  have hblank : .scalar ' ' ∉ e.text := by cases e <;> decide
  intro h
  have hline : headerLine header = header.1 ++ .scalar ':' :: ([] ++ .scalar ' ' :: header.2) := by
    rw [headerLine, List.append_assoc]
    rfl
  rw [hline] at h
  rcases infix_of_infix_append_cons hcolon h with h | h
  · exact hname h
  · rcases infix_of_infix_append_cons hblank h with h | h
    · exact e.not_infix_nil h
    · exact hvalue h

theorem cutPair?_headerLine {header : Text × Text} (h : ¬ Text.ofString ": " <:+: header.1) :
    (headerLine header).cutPair? (.scalar ':') (.scalar ' ') = some header := by
  rw [headerLine, List.append_assoc]
  exact Text.cutPair?_append_pair (by decide) h header.2

theorem headersAndBody?_headerLine {header : Text × Text} (h : ¬ Text.ofString ": " <:+: header.1)
    (table : List (Text × Text)) (lines : List Text) :
    headersAndBody? table (headerLine header :: lines)
      = headersAndBody? (Text.insert header.1 header.2 table) lines := by
  have hcut := cutPair?_headerLine h
  cases hline : headerLine header with
  | nil =>
    rw [hline] at hcut
    cases hcut
  | cons p line =>
    rw [hline] at hcut
    rw [headersAndBody?, hcut]
    simp

theorem headersAndBody?_lines {headers : List (Text × Text)}
    (h : ∀ header ∈ headers, ¬ Text.ofString ": " <:+: header.1) (lines : List Text) :
    ∀ table : List (Text × Text),
    headersAndBody? table (headers.map headerLine ++ [] :: lines)
      = some (headers.foldl (fun table (name, value) => Text.insert name value table) table,
          some (Text.join "\n" lines)) := by
  induction headers with
  | nil => exact fun _ => rfl
  | cons header headers ih =>
    intro table
    rw [List.map_cons, List.cons_append, headersAndBody?_headerLine (h header List.mem_cons_self),
      ih fun other hother => h other (List.mem_cons_of_mem _ hother)]
    rfl

theorem split_headerLines {e : LineEnd} {headers : List (Text × Text)}
    (h : ∀ header ∈ headers, ¬ e.text <:+: header.1 ∧ ¬ e.text <:+: header.2) (body : Text) :
    e.split ((headers.flatMap fun header => headerLine header ++ e.text) ++ (e.text ++ body))
      = headers.map headerLine ++ [] :: e.split body := by
  induction headers with
  | nil => exact LineEnd.split_line e.not_infix_nil body
  | cons header headers ih =>
    obtain ⟨hname, hvalue⟩ := h header List.mem_cons_self
    rw [List.flatMap_cons, List.append_assoc, List.append_assoc,
      LineEnd.split_line (headerLine_plain e hname hvalue),
      ih fun other hother => h other (List.mem_cons_of_mem _ hother)]
    rfl

/-! ## The request -/

namespace Raw

variable {e : LineEnd} (r : Raw e)

/-- **Raw requests are read back.** A raw request with either line end is read as its method, its address
and its version, with every header in its first place and with its last value, and with its body, where
line feeds have come into the place of the line ends. -/
theorem ofText?_text : ∃ headers : List (Text × Text),
    ofText? r.text = some
      { method := r.method, url := r.url, version := r.version, headers, body := some (e.unified r.body) } ∧
    headers.map Prod.fst = (r.headers.map Prod.fst).eraseDups ∧
    ∀ name, Text.lookup? name headers = Text.lookup? name r.headers.reverse := by
  refine ⟨Text.ofPairs r.headers, ?_, Text.keys_ofPairs r.headers, fun name =>
    Text.lookup?_ofPairs name r.headers⟩
  have hlines : lines? r.text = some (r.firstLine :: (r.headers.map headerLine ++ [] :: e.split r.body)) := by
    rw [text, lines?_line e r.lineFeed_notMem_firstLine r.getLast?_firstLine, tail,
      split_headerLines r.header_plain]
  have hmethod : methods.any r.method.isString = true := by
    obtain ⟨name, hname, heq⟩ := List.mem_map.mp r.method_known
    exact List.any_eq_true.mpr ⟨name, hname, beq_iff_eq.mpr heq.symm⟩
  have hrest := headersAndBody?_lines r.name_ends (e.split r.body) []
  rw [LineEnd.join_split] at hrest
  simp only [ofText?, hlines, bind, Option.bind, words_firstLine, hmethod, if_pos, hrest]
  rfl

/-- A raw request with a header that is repeated, and with line ends of both kinds in its parts. -/
def accepting : Raw .both where
  method := "POST"
  url := "/logs"
  version := "HTTP/1.1"
  headers := [("Accept", "a: b\n"), ("X\r", ""), ("Accept", "c\r")]
  body := "x\r\n\r\ny\n"
  method_known := by decide
  url_plain := by decide
  version_plain := by decide
  version_ends := by decide
  name_ends := by decide +kernel
  header_plain := by decide +kernel

theorem ofText?_accepting : ∃ headers : List (Text × Text),
    ofText? accepting.text = some
      { method := "POST", url := "/logs", version := "HTTP/1.1", headers, body := some "x\n\ny\n" } ∧
    headers.map Prod.fst = [Text.ofString "Accept", Text.ofString "X\r"] ∧
    Text.lookup? "Accept" headers = some (Text.ofString "c\r") := by
  obtain ⟨headers, htext, hnames, hvalues⟩ := accepting.ofText?_text
  exact ⟨headers, htext, hnames, hvalues "Accept"⟩

end Raw

end LogQuery.HttpRequest
