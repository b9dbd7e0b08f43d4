import LogQuery.Proofs.Output.Printed
import LogQuery.Proofs.Retrieval.Failure
import LogQuery.Proofs.Retrieval.First
import LogQuery.Runtime.Standard
/-!
# What a retrieval prints

A retrieval with a plain profile prints one JSON document for each record, or it fails. It fails with an
error that is reported, unless the first request holds a number that is too long to be written or a
record holds a lone surrogate. The documents are accepted by whoever keeps to the standard, unless a
number in their record is too large for a floating-point number.

* `fits_records`: what is known of the records of a response.
* `plain_run_prints`: what a retrieval leaves behind, whatever the service replies.
* `print_breaks`: there are responses that lead to the exceptions.
-/
namespace LogQuery

/-! ## Records of a response -/

section
variable {P : Tagged → Prop}

theorem IndexSearch.inherited_members (hempty : P (.map [])) {x : Option Tagged}
    (h : ∀ y, x = some y → P y) : P (.map (members x)) := by
  unfold members
  split
  next ms => exact h _ rfl
  next => exact hempty

theorem Backend.inherited_records (hP : Tagged.Inherited P) (hempty : P (.map [])) {b : Backend}
    {document : Tagged} {records : List TaggedRecord} (h : P document)
    (hrecords : b.records document = .ok records) : ∀ r ∈ records, P (.map r) := by
  intro r hr
  cases b with
  | indexSearch =>
    simp only [Backend.records, IndexSearch.records] at hrecords
    split at hrecords
    · obtain ⟨hits, hhits, rfl⟩ := eq_ok_of_map hrecords
      obtain ⟨hit, hmem, rfl⟩ := List.mem_map.mp hr
      have hhit := IndexSearch.inherited_hits hP h hhits hmem
      exact IndexSearch.inherited_members hempty fun y hy => hP.member hhit hy
    · cases hrecords
  | eventSearch =>
    simp only [Backend.records, EventSearch.records] at hrecords
    split at hrecords
    · split at hrecords
      · cases hrecords
        cases hr
      · cases hrecords
        cases hr
      next events hdata =>
        cases hrecords
        obtain ⟨event, hmem, rfl⟩ := List.mem_map.mp hr
        have hevent := hP.item (hP.member h hdata) hmem
        refine IndexSearch.inherited_members hempty fun y hy => ?_
        obtain ⟨outer, houter, hinner⟩ := Option.bind_eq_some_iff.mp hy
        exact hP.member (hP.member hevent houter) hinner
      · cases hrecords
    · cases hrecords

end

theorem Backend.exists_members {b : Backend} {document : Tagged} {records : List TaggedRecord}
    (h : b.records document = .ok records) : ∃ members, document = .map members := by
  cases document with
  | map members => exact ⟨members, rfl⟩
  | _ => cases b <;> cases h

section
variable [Runtime]

theorem Page.fits_records {b : Backend} {body : Bytes} {document : Tagged} {page : Page}
    (hdocument : Page.decodeBody body = .ok document) (hpage : Page.ofResponse b document = .ok page) :
    ∀ r ∈ page.records, (Tagged.map r).Fits (Runtime.pageDepth Runtime.frames) := by
  obtain ⟨hrecords, -⟩ := Reading.parts ⟨document, page, hpage⟩
  obtain ⟨members, rfl⟩ := Backend.exists_members hrecords
  have hfits := Tagged.fits_of_decodeBytes (eq_ok_of_mapError hdocument)
  exact Backend.inherited_records (Tagged.inherited_fits _) hfits.of_empty hfits hrecords

theorem Reply.fits_records {r : Reply} {b : Backend} {page : Page} (h : r.page b = .ok page) :
    ∀ record ∈ page.records, (Tagged.map record).Fits (Runtime.pageDepth Runtime.frames) := by
  obtain ⟨reading, hdocument, rfl⟩ := Reply.exists_reading h
  obtain ⟨_, body, -, -, hbody⟩ := Reply.document_eq_ok hdocument
  exact Page.fits_records hbody reading.isPage

/-! ## Failures on a reply -/

/-- A reply that is at fault, and no interruption, leads to an error that is reported or holds a page
with a surrogate. -/
theorem Reply.IsCulprit.reported {b : Backend} {profile : Profile} {wanted : Nat} {r : Reply}
    {e : Failure} (hp : profile.IsPlain) (hr : r ≠ .interrupted) (h : r.IsCulprit b profile wanted e) :
    e.isReported = true ∨ (e = .fault .unencodable ∧ ∃ page, r.page b = .ok page ∧
      ∃ record ∈ page.records, (Tagged.map record).plain.isUnicode = false) := by
  cases h with
  | interrupted => exact absurd rfl hr
  | unsent | refused | undecodable | misshapen | tooDeep => exact Or.inl rfl
  | @unshown status body reading f hs hd _ hrender =>
    have hfits : ∀ record ∈ reading.page.records.take wanted,
        (Tagged.map record).Fits (Runtime.pageDepth Runtime.frames) :=
      fun record hrecord => Page.fits_records hd reading.isPage record (List.mem_of_mem_take hrecord)
    have hpage : (Reply.response status body).page b = .ok reading.page := by
      rw [Reply.page, Reply.body, if_pos hs]
      show Page.read b body = _
      rw [Page.read, hd]
      exact reading.isPage
    rcases render_plain hp hfits with
      ⟨documents, -, hshown⟩ | ⟨hshown, record, hrecord, hsurrogate⟩ | ⟨hshown, -⟩
    · rw [hshown] at hrender
      cases hrender
    · rw [hshown] at hrender
      refine Or.inr ⟨(Except.error.inj hrender).symm, reading.page, hpage, record, ?_, hsurrogate⟩
      exact List.mem_of_mem_take hrecord
    · rw [hshown] at hrender
      cases hrender

/-- Why a retrieval leaves behind an error that is not reported: the first request holds a number that is
too long to be written, or the last reply holds a record with a lone surrogate. -/
inductive Failure.Escapes (service : Service) (b : Backend) (numbers : List Int) :
    List Request → Failure → Prop
  | unwritten (hlong : ¬ numbers.all Integer.isWritable = true) :
    Escapes service b numbers [] (.fault Json.longInteger)
  | surrogate {earlier : List Request} {request : Request} {page : Page} {record : TaggedRecord}
    (hpage : (service earlier.length request).page b = .ok page) (hrecord : record ∈ page.records)
    (hsurrogate : (Tagged.map record).plain.isUnicode = false) :
    Escapes service b numbers (earlier ++ [request]) (.fault .unencodable)

namespace Job

variable {job : Job} {service : Service} {b : Backend} {numbers : List Int} {e : Failure}

/-- **What a retrieval with a plain profile fails with.** -/
theorem run_reported (hb : job.backend = b) (hp : job.profile.IsPlain)
    (hcancel : ∀ sent, job.isCancelled sent = false) (hcompile : b.Compiles job.query numbers)
    (hreply : ∀ sent request, service sent request ≠ .interrupted)
    (h : (job.run service).outcome = .error e) :
    e.isReported = true ∨
      e.Escapes service b (job.pageSize job.start :: numbers) (job.run service).requests := by
  by_cases hwritable : (job.pageSize job.start :: numbers).all Integer.isWritable = true
  · have hsent := requests_of_canAsk service hcancel (canAsk_start hb hcompile hwritable)
      job.query.effectiveLimit_ne_zero (maxRequests - 1)
    rcases run_failed hb hp.hasFormat hcancel h with ⟨hnone, -⟩ | ⟨readings, hfails⟩
    · rw [show job.runFrom service (maxRequests - 1 + 1) job.start = job.run service from rfl, hnone]
        at hsent
      cases hsent
    · obtain ⟨earlier, request, hrequests, hlength, hculprit⟩ := hfails.last
      rw [hrequests]
      rcases hculprit.reported hp (hreply _ _) with hreported | ⟨rfl, page, hpage, record, hrecord, hs⟩
      · exact Or.inl hreported
      · exact Or.inr (.surrogate (by rw [hlength]; exact hpage) hrecord hs)
  · obtain ⟨request, hask, hasked⟩ := unwritten_start hb hcompile hwritable
    obtain ⟨houtcome, hrequests⟩ :=
      run_unwritten service job.query.effectiveLimit_ne_zero (hcancel 0) hask hasked
    rw [houtcome] at h
    cases h
    rw [hrequests]
    exact Or.inr (.unwritten hwritable)

end Job

/-- The bytes that are delivered are UTF-8, and they are the documents of the first records of the pages
that were read. -/
theorem Job.documents_of_ok {job : Job} {service : Service} {out : Bytes} (hp : job.profile.IsPlain)
    (h : (job.run service).outcome = .ok out) :
    (∃ text, Utf8.strict out = .ok text) ∧ ∃ pages documents,
      ((job.run service).requests.mapIdx fun i request => (service i request).page job.backend)
        = pages.map .ok ∧
      List.Forall₂ (IsDocument (Runtime.pageDepth Runtime.frames))
        ((Page.allRecords pages).take job.query.effectiveLimit) documents ∧
      out = documents.flatMap (· ++ [0x0a]) := by
  obtain ⟨pages, hdelivers⟩ : ∃ pages, job.Delivers service [] (job.run service) out pages :=
    run_pages (maxRequests - 1) (.start hp.hasFormat) job.query.effectiveLimit_ne_zero rfl h
  obtain ⟨final, hfinal, rfl⟩ := hdelivers.shown
  have hanswers := hdelivers.answers
  simp only [Answers, List.length_nil, Nat.zero_add] at hanswers
  have hrender := hfinal.shown
  rw [List.nil_append] at hrender
  have hfits : ∀ record ∈ (Page.allRecords pages).take job.query.effectiveLimit,
      (Tagged.map record).Fits (Runtime.pageDepth Runtime.frames) := by
    intro record hrecord
    obtain ⟨page, hpage, hmem⟩ := List.mem_flatMap.mp (List.mem_of_mem_take hrecord)
    have hread : (.ok page : Except Failure Page) ∈ pages.map .ok := List.mem_map_of_mem hpage
    rw [← hanswers] at hread
    obtain ⟨i, _, hreply⟩ := List.mem_mapIdx.mp hread
    exact Reply.fits_records hreply record hmem
  obtain ⟨-, text, -, hbytes⟩ := (render_eq_ok _ _ _).mp hrender
  refine ⟨⟨text, Utf8.strict_encode hbytes⟩, pages, ?_⟩
  rcases render_plain hp hfits with ⟨documents, hdocuments, hshown⟩ | ⟨hshown, -⟩ | ⟨hshown, -⟩
  · rw [hshown] at hrender
    exact ⟨documents, hanswers, hdocuments, (Except.ok.inj hrender).symm⟩
  · rw [hshown] at hrender
    cases hrender
  · rw [hshown] at hrender
    cases hrender

/-- **What a plain retrieval prints.** A task that compiles is put to a service that nobody interrupts,
whatever it replies. The error that the retrieval leaves behind is reported, unless it escapes. What it
delivers is UTF-8 and consists of one JSON document for each record, with a line end behind it; and a
document is accepted unless a number in its record is too large to have digits. -/
theorem plain_run_prints (t : Task) (service : Service) (stored : Bytes) (b : Backend)
    (profile : Profile) (numbers : List Int) (hplain : t.IsPlain)
    (hsource : t.env.source = .backend b) (hvalid : b.validate t.env t.query = .ok ())
    (hendpoint : t.env.endpoints ≠ []) (hprofile : t.profileFor = .ok profile)
    (hshown : profile.IsPlain) (hcompile : b.Compiles t.query numbers)
    (hreply : ∀ sent request, service sent request ≠ .interrupted) :
    (∀ e, (t.run service stored).outcome = .error e →
      e.isReported = true ∨
        e.Escapes service b (min (t.query.effectiveLimit : Int) (t.maxPageSizeOf b) :: numbers)
          (t.run service stored).requests) ∧
    ∀ out, (t.run service stored).outcome = .ok out →
      (∃ text, Utf8.strict out = .ok text) ∧ ∃ pages documents,
        ((t.run service stored).requests.mapIdx fun i request => (service i request).page b)
          = pages.map .ok ∧
        List.Forall₂ (IsDocument (Runtime.pageDepth Runtime.frames))
          ((Page.allRecords pages).take t.query.effectiveLimit) documents ∧
        out = documents.flatMap (· ++ [0x0a]) := by
  obtain ⟨endpoint, hrun⟩ :=
    Task.run_eq_job hplain hprofile hshown.hasFormat hsource hvalid hendpoint service stored
  have hcancel := Task.isCancelled_jobWith hplain profile b endpoint
  have hjob : (t.jobWith profile b endpoint).profile.IsPlain := hshown
  rw [hrun]
  exact ⟨fun e => Job.run_reported rfl hjob hcancel hcompile hreply,
    fun out => Job.documents_of_ok hjob⟩

end

attribute [local instance] Runtime.standard

def oneWanted : Task where
  env := { name := .null, endpoints := ["http://es"], index := .string "logs" }
  query := { limit := 1 }

/-- A service with one record, which has one member with a value that is written in some way. -/
def oneMember (value : Text) : Service := fun _ _ =>
  .response 200 ((Utf8.encode?
    ("\x7b\"hits\":\x7b\"hits\":[\x7b\"_source\":\x7b\"m\":" ++ value ++ "\x7d\x7d]\x7d\x7d")).getD [])

def oneShown (value : Text) : Bytes :=
  (Utf8.encode? ("\x7b\n  \"m\": " ++ value ++ "\n\x7d\n")).getD []

theorem plain_run_prints_one :
    (oneWanted.run (oneMember "1.50") []).outcome = .ok (oneShown "1.5") ∧
    (∃ text, Utf8.strict (oneShown "1.5") = .ok text) ∧ ∃ pages documents,
      ((oneWanted.run (oneMember "1.50") []).requests.mapIdx fun i request =>
        (oneMember "1.50" i request).page .indexSearch) = pages.map .ok ∧
      List.Forall₂ (IsDocument (Runtime.pageDepth Runtime.frames))
        ((Page.allRecords pages).take oneWanted.query.effectiveLimit) documents ∧
      oneShown "1.5" = documents.flatMap (· ++ [0x0a]) := by
  have houtcome : (oneWanted.run (oneMember "1.50") []).outcome = .ok (oneShown "1.5") :=
    eq_ok_of_toOption (by decide +kernel)
  obtain ⟨-, hprinted⟩ := plain_run_prints oneWanted (oneMember "1.50") [] .indexSearch {} [0]
    ⟨rfl, rfl, rfl, rfl⟩ rfl (by decide) (by decide) rfl ⟨rfl, rfl, rfl, rfl⟩
    (Backend.compiles_unfiltered rfl) (fun _ _ h => by cases h)
  exact ⟨houtcome, hprinted _ houtcome⟩

/-- If no beginning of some bytes is accepted, then not all documents in them are accepted, in whatever way
they are divided. -/
theorem exists_rejected {depth : Nat} {out : Bytes} (hne : out ≠ [])
    (h : ∀ n < out.length, (Tagged.decodeBytes depth (out.take n)).toOption = none) {documents : List Bytes}
    (hdocuments : out = documents.flatMap (· ++ [0x0a])) :
    ∃ document ∈ documents, ∀ x, Tagged.decodeBytes depth document ≠ .ok x := by
  cases documents with
  | nil => exact absurd hdocuments hne
  | cons document rest =>
    refine ⟨document, List.mem_cons_self, fun x hx => ?_⟩
    have hbeginning := h document.length (by simp [hdocuments])
    rw [hdocuments, List.flatMap_cons, List.append_assoc, List.take_left, hx] at hbeginning
    cases hbeginning

/-- A lone surrogate in a response leads to an error that is not reported, and a number that is too large
leads to a document that is not accepted. -/
theorem print_breaks :
    oneWanted.IsPlain ∧ oneWanted.env.source = .backend .indexSearch ∧
    Backend.indexSearch.validate oneWanted.env oneWanted.query = .ok () ∧
    oneWanted.env.endpoints ≠ [] ∧ oneWanted.profileFor = .ok {} ∧ Profile.IsPlain {} ∧
    (∃ numbers, Backend.indexSearch.Compiles oneWanted.query numbers) ∧
    (oneWanted.run (oneMember "\"\\ud800\"") []).outcome = .error (.fault .unencodable) ∧
    Failure.isReported (.fault .unencodable) = false ∧
    (oneWanted.run (oneMember "1e400") []).outcome = .ok (oneShown "Infinity") ∧
    ∀ documents : List Bytes, oneShown "Infinity" = documents.flatMap (· ++ [0x0a]) →
      ∃ document ∈ documents, ∀ x, Tagged.decodeBytes (Runtime.pageDepth Runtime.frames) document ≠ .ok x := by
  refine ⟨⟨rfl, rfl, rfl, rfl⟩, rfl, by decide, by decide, rfl, ⟨rfl, rfl, rfl, rfl⟩,
    ⟨_, Backend.compiles_unfiltered rfl⟩, ?_, rfl, ?_, ?_⟩
  · decide +kernel
  · exact eq_ok_of_toOption (by decide +kernel)
  · exact fun documents => exists_rejected (by decide) (by decide +kernel)

end LogQuery
