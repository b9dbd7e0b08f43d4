import LogQuery.Calendar.Region
import LogQuery.CommandLine.Run
import LogQuery.Proofs.Retrieval.Refusal
import LogQuery.Runtime.Standard
/-!
# Retrievals that fail

A retrieval fails before its first request or on the reply to its last one, never in between. If it
fails on a reply, then all replies before were pages to go on behind, and this one is at fault
(`Reply.IsCulprit`): there was no response, or one that reports no success, or one that holds no page,
or a page with a record that cannot be shown. Whatever was shown before is not delivered.

* `run_failed`: the two ways for a retrieval to fail.
* `failure_discards`: how the kind of a failure and the requests belong together, and what the program
  leaves behind.
-/
namespace LogQuery

/-! ## Kinds of failures -/

/-- A failure of the exchange with the service. -/
inductive Failure.IsOfReply : Failure → Prop
  | transport (reason : Text) : IsOfReply (.transport reason)
  | status (code : Int) (body : Text) : IsOfReply (.status code body)
  | decode (cause : DecodeError) : IsOfReply (.decode cause)

/-- A failure to say what is asked for, and how the records should be shown. -/
inductive Failure.IsRefusal : Failure → Prop
  | format (name : Text) : IsRefusal (.format name)
  | config (cause : ConfigError) : IsRefusal (.config cause)
  | unsupported (cause : UnsupportedError) : IsRefusal (.unsupported cause)
  | parse (cause : ParseError) : IsRefusal (.parse cause)
  | missingElement : IsRefusal (.fault .missingElement)

section

variable [Runtime]

/-- A reply on which a retrieval fails that wants some more records, and how it fails. -/
inductive Reply.IsCulprit (b : Backend) (profile : Profile) (wanted : Nat) : Reply → Failure → Prop
  | unsent (reason : Text) : IsCulprit b profile wanted (.failed reason) (.transport reason)
  | interrupted : IsCulprit b profile wanted .interrupted .interrupted
  | refused {status : Int} (body : Bytes) (hs : isSuccess status = false) :
    IsCulprit b profile wanted (.response status body) (.status status (Utf8.replacing body))
  | undecodable {status : Int} {body : Bytes} {cause : Json.Error} (hs : isSuccess status = true)
    (hd : Page.decodeBody body = .error (.decode (.json cause))) :
    IsCulprit b profile wanted (.response status body) (.decode (.json cause))
  | misshapen {status : Int} {body : Bytes} {document : Tagged} {cause : DecodeError}
    (hs : isSuccess status = true) (hd : Page.decodeBody body = .ok document)
    (hp : Page.ofResponse b document = .error (.decode cause)) :
    IsCulprit b profile wanted (.response status body) (.decode cause)
  /-- A record is nested too deeply to be shown. -/
  | tooDeep {status : Int} {body : Bytes} {reading : Reading b} (hs : isSuccess status = true)
    (hd : Page.decodeBody body = .ok reading.document)
    (hr : render profile ((reading.page.records.take wanted).map TaggedRecord.plain)
      = .error (.decode .tooDeep)) :
    IsCulprit b profile wanted (.response status body) (.decode .tooDeep)
  /-- A record cannot be shown for another reason. -/
  | unshown {status : Int} {body : Bytes} {reading : Reading b} {f : Fault}
    (hs : isSuccess status = true) (hd : Page.decodeBody body = .ok reading.document)
    (hf : IsUnshowable profile f)
    (hr : render profile ((reading.page.records.take wanted).map TaggedRecord.plain)
      = .error (.fault f)) :
    IsCulprit b profile wanted (.response status body) (.fault f)

section
variable {b : Backend} {profile : Profile} {wanted : Nat} {e : Failure}

omit [Runtime] in
theorem IndexSearch.hits_eq_error {document : Tagged} (h : IndexSearch.hits document = .error e) :
    ∃ cause, e = .decode cause := by
  unfold IndexSearch.hits at h
  split at h <;> cases h
  exact ⟨_, rfl⟩

omit [Runtime] in
theorem Page.ofResponse_eq_error {document : Tagged} (h : Page.ofResponse b document = .error e) :
    ∃ cause, e = .decode cause := by
  rcases eq_error_of_bind h with hrecords | ⟨records, -, h⟩
  · cases b with
    | indexSearch =>
      simp only [Backend.records, IndexSearch.records] at hrecords
      split at hrecords
      · exact IndexSearch.hits_eq_error (eq_error_of_map hrecords)
      · cases hrecords
        exact ⟨_, rfl⟩
    | eventSearch =>
      simp only [Backend.records, EventSearch.records] at hrecords
      split at hrecords
      · split at hrecords <;> cases hrecords
        exact ⟨_, rfl⟩
      · cases hrecords
        exact ⟨_, rfl⟩
  rcases eq_error_of_bind h with hcursor | ⟨cursor, -, h⟩
  · cases b with
    | indexSearch => exact IndexSearch.hits_eq_error (eq_error_of_map hcursor)
    | eventSearch =>
      simp only [Backend.cursor, EventSearch.cursor] at hcursor
      split at hcursor <;> cases hcursor
  · cases h

theorem Reply.isCulprit_of_page {r : Reply} (h : r.page b = .error e) :
    r.IsCulprit b profile wanted e := by
  cases r with
  | failed reason =>
    cases h
    exact .unsent reason
  | interrupted =>
    cases h
    exact .interrupted
  | response status body =>
    unfold Reply.page at h
    cases hs : isSuccess status with
    | false =>
      simp only [Reply.body, hs, Bool.false_eq_true, if_false] at h
      cases h
      exact .refused body hs
    | true =>
      simp only [Reply.body, hs, if_true] at h
      have hread : Page.read b body = .error e := h
      rcases eq_error_of_bind hread with hdocument | ⟨document, hdocument, hpage⟩
      · obtain ⟨cause, -, rfl⟩ := eq_error_of_mapError hdocument
        exact .undecodable hs hdocument
      · obtain ⟨cause, rfl⟩ := Page.ofResponse_eq_error hpage
        exact .misshapen hs hdocument hpage

theorem Reply.isCulprit_of_render {r : Reply} {reading : Reading b} (hf : profile.hasFormat = true)
    (hd : r.document = .ok reading.document)
    (hr : render profile ((reading.page.records.take wanted).map TaggedRecord.plain) = .error e) :
    r.IsCulprit b profile wanted e := by
  obtain ⟨status, body, rfl, hs, hdocument⟩ := Reply.document_eq_ok hd
  obtain ⟨f, rfl, hunshowable⟩ := render_eq_error hf hr
  unfold recordFailure at hr ⊢
  split
  next => exact .tooDeep hs hdocument hr
  next => exact .unshown hs hdocument hunshowable (by simpa using hr)

end

/-! ## The exchange that ends in a failure -/

/-- Requests of which the last one was answered by a reply that is at fault, and all others by pages
behind which a retrieval goes on: they have records, as many as they were asked for at least, and a
cursor. -/
structure FailsOn (service : Service) (q : Query) (maxPageSize : Int) (profile : Profile)
    (requests : List Request) (e : Failure) {b : Backend} (readings : List (Reading b)) : Prop where
  answered : ∀ i reading, readings[i]? = some reading →
    ∃ request status body, requests[i]? = some request ∧
      service i request = .response status body ∧ isSuccess status = true ∧
      Page.decodeBody body = .ok reading.document
  goesOn : ∀ i reading, readings[i]? = some reading →
    reading.page.records ≠ [] ∧
    min (q.wantedBehind (Reading.pages (readings.take i))) maxPageSize
      ≤ reading.page.records.length ∧
    reading.page.cursor.isSome = true
  last : ∃ earlier request, requests = earlier ++ [request] ∧ earlier.length = readings.length ∧
    (service readings.length request).IsCulprit b profile
      (q.effectiveLimit - (Page.allRecords (Reading.pages readings)).length) e

namespace Job

variable {job : Job} {service : Service} {b : Backend} {requests : List Request}
  {readings : List (Reading b)} {p : Progress} {e : Failure}

theorem Reaches.goesOn (h : job.Reaches service requests readings p)
    (hf : job.profile.hasFormat = true) (i : Nat) (reading : Reading b)
    (hi : readings[i]? = some reading) :
    reading.page.records ≠ [] ∧
      min (job.query.wantedBehind (Reading.pages (readings.take i))) job.maxPageSize
        ≤ reading.page.records.length ∧
      reading.page.cursor.isSome = true := by
  obtain ⟨q, request, -, -, hwent⟩ := h.wentOn i reading hi
  obtain ⟨hne, hfull, hcursor⟩ :=
    (hwent.reaches.goesOn_iff hf hwent.remaining).mpr ⟨hwent.ne_nil, hwent.hasNext⟩
  exact ⟨hne, hfull, hcursor⟩

theorem Reaches.failsOn {request : Request} (h : job.Reaches service requests readings p)
    (hf : job.profile.hasFormat = true)
    (hculprit : (service p.sent request).IsCulprit b job.profile p.remaining e) :
    FailsOn service job.query job.maxPageSize job.profile (requests ++ [request]) e readings := by
  obtain ⟨hrequests, hreadings⟩ := h.length_requests
  refine ⟨?_, h.goesOn hf, requests, request, rfl, by omega, ?_⟩
  · intro i reading hi
    obtain ⟨earlier, hearlier, hdocument⟩ := h.answered i reading hi
    obtain ⟨status, body, hreply, hs, hbody⟩ := Reply.document_eq_ok hdocument
    obtain ⟨hlt, -⟩ := List.getElem?_eq_some_iff.mp hearlier
    exact ⟨earlier, status, body, by rw [List.getElem?_append_left hlt, hearlier], hreply, hs, hbody⟩
  · rw [hreadings, ← (h.hasRead hf).remaining]
    exact hculprit

/-- **The two ways to fail.** A retrieval fails before its first request, or on the reply to its last
one. -/
theorem run_failed (hb : job.backend = b) (hf : job.profile.hasFormat = true)
    (hcancel : ∀ sent, job.isCancelled sent = false) (h : (job.run service).outcome = .error e) :
    ((job.run service).requests = [] ∧
      (e.IsOfQuery ∨ ∃ f, e = .fault f ∧ Json.IsRefusal f)) ∨
    ∃ readings : List (Reading b),
      FailsOn service job.query job.maxPageSize job.profile (job.run service).requests e readings := by
  obtain ⟨requests, readings, p, tail, hreaches, hcloses, hrun⟩ := run_closes hb service
  rw [h] at hcloses
  rw [hrun]
  cases hcloses with
  | refused _ _ ht =>
    have hnil := hreaches.eq_start_of_refused hb hf hcancel ht
    obtain ⟨hrequests, hreadings⟩ := hreaches.length_requests
    rw [hnil, List.length_nil] at hreadings
    have hempty : requests = [] := List.eq_nil_of_length_eq_zero (by omega)
    rw [hreaches.eq_start hnil] at ht
    exact Or.inl ⟨by rw [hempty]; rfl, refused_start hcancel ht⟩
  | @failed request _ _ _ ht =>
    refine Or.inr ⟨readings, hreaches.failsOn hf ?_⟩
    cases ht with
    | unread ha hr => exact Reply.isCulprit_of_page (hb ▸ hr)
    | unshown ha hr hne hs =>
      obtain ⟨reading, hdocument, rfl⟩ := Reply.exists_reading (hb ▸ hr)
      exact Reply.isCulprit_of_render hf hdocument (eq_error_of_map hs)

end Job

/-! ## Kinds of failures and requests -/

omit [Runtime] in
theorem Failure.IsOfQuery.not_isOfReply {e : Failure} (h : e.IsOfQuery) : ¬ e.IsOfReply := by
  rintro (⟨⟩ | ⟨⟩ | ⟨⟩) <;> rcases h with ⟨_, h⟩ | ⟨_, h⟩ | h <;> cases h

/-- Where a reply is at fault for a failure that is a refusal, it holds a YAML document. -/
theorem Reply.IsCulprit.isYamlFault {b : Backend} {profile : Profile} {wanted : Nat} {r : Reply}
    {e : Failure} (h : r.IsCulprit b profile wanted e) (he : e.IsRefusal) :
    e = .fault .missingElement ∧ IsYamlFault profile.decode .missingElement := by
  cases he with
  | missingElement =>
    cases h with
    | unshown _ _ hf _ =>
      rcases hf with hf | (hf | ⟨_, hf⟩) | hf | hf
      · cases hf
      · cases hf
      · cases hf
      · cases hf
      · exact ⟨rfl, hf⟩
  | _ => cases h

/-- What the program leaves behind after a retrieval that fails with an error of its own. -/
theorem ending_of_failed [ZoneDatabase] {w : CommandLine.World} {arguments : List Text}
    {a : CommandLine.Arguments} {t : Task} {e : Failure}
    (hread : CommandLine.Command.read arguments = .ok (.query a))
    (htask : a.task w = .ok t) (h : (t.run w.service w.input).outcome = .error e)
    (hreported : e.isReported = true) :
    (CommandLine.run w arguments).ending =
      .result { exitCode := 1, output := [], errors := CommandLine.report e.message } := by
  have houtcome : (a.run w).outcome = .error e := by
    rw [CommandLine.Arguments.run, htask]
    exact h
  simp only [CommandLine.run, hread, houtcome]
  cases e with
  | interrupted => cases hreported
  | fault f => cases hreported
  | _ => rfl

theorem Task.run_failed {t : Task} {service : Service} {stored : Bytes} {e : Failure}
    (hplain : t.IsPlain) (h : (t.run service stored).outcome = .error e) :
    ((t.run service stored).requests = [] ∧ ¬ e.IsOfReply) ∨
    ∃ (b : Backend) (profile : Profile) (readings : List (Reading b)),
      t.env.source = .backend b ∧ t.profileFor = .ok profile ∧
      FailsOn service t.query (t.maxPageSizeOf b) profile (t.run service stored).requests e
        readings := by
  rw [Task.run_plain hplain] at h ⊢
  cases hplan : t.plan with
  | error e' =>
    rw [hplan] at h
    cases h
    refine Or.inl ⟨rfl, ?_⟩
    rcases Task.plan_eq_error hplan with ⟨name, rfl⟩ | ⟨cause, rfl⟩ <;> rintro ⟨⟩
  | ok job =>
    rw [hplan] at h
    obtain ⟨profile, b, endpoint, hprofile, hf, hsource, -, -, rfl⟩ :=
      (Task.plan_eq_ok hplain job).mp hplan
    have hbackend : (t.jobWith profile b endpoint).backend = b := rfl
    rcases Job.run_failed hbackend hf (Task.isCancelled_jobWith hplain profile b endpoint) h with
      ⟨hnone, hcause⟩ | ⟨readings, hfails⟩
    · refine Or.inl ⟨hnone, ?_⟩
      rcases hcause with hquery | ⟨f, rfl, -⟩
      · exact hquery.not_isOfReply
      · rintro ⟨⟩
    · exact Or.inr ⟨b, profile, readings, hsource, hprofile, hfails⟩

/-- **A failing page discards everything.** A plain retrieval that fails has sent nothing, or the reply
to its last request is at fault and all replies before were pages to go on behind. In the first case no
reply is to blame; and if it is for the task that the retrieval fails, then it is the first case, but
for a YAML document in a record that breaks down like a filter without its values. The program prints
the report of the failure and nothing else. -/
theorem failure_discards [ZoneDatabase] (t : Task) (service : Service) (stored : Bytes) (e : Failure)
    (hplain : t.IsPlain) (h : (t.run service stored).outcome = .error e) :
    (((t.run service stored).requests = [] ∧ ¬ e.IsOfReply) ∨
      ∃ (b : Backend) (profile : Profile) (readings : List (Reading b)),
        t.env.source = .backend b ∧ t.profileFor = .ok profile ∧
        FailsOn service t.query (t.maxPageSizeOf b) profile (t.run service stored).requests e
          readings) ∧
    (e.IsRefusal → (t.run service stored).requests = [] ∨
      e = .fault .missingElement ∧
        ∃ profile, t.profileFor = .ok profile ∧ IsYamlFault profile.decode .missingElement) ∧
    ∀ (w : CommandLine.World) (arguments : List Text) (a : CommandLine.Arguments),
      CommandLine.Command.read arguments = .ok (.query a) → a.task w = .ok t →
      w.service = service → w.input = stored → e.isReported = true →
      (CommandLine.run w arguments).ending =
        .result { exitCode := 1, output := [], errors := CommandLine.report e.message } := by
  refine ⟨Task.run_failed hplain h, fun hrefusal => ?_, ?_⟩
  · rcases Task.run_failed hplain h with ⟨hnone, -⟩ | ⟨b, profile, readings, -, hprofile, hfails⟩
    · exact Or.inl hnone
    · obtain ⟨earlier, request, -, -, hculprit⟩ := hfails.last
      obtain ⟨rfl, hyaml⟩ := hculprit.isYamlFault hrefusal
      exact Or.inr ⟨rfl, profile, hprofile, hyaml⟩
  · rintro w arguments a hread htask rfl rfl hreported
    exact ending_of_failed hread htask h hreported

end

attribute [local instance] Runtime.standard

/-- A page, and then a service that is not available. -/
def onePage : Service := fun sent _ =>
  if sent = 0 then .response 200 (IndexSearch.numberedHits [1, 2]) else .response 503 []

attribute [local instance] Region.database in
theorem failure_discards_page :
    (threeOfFour.run onePage []).outcome = .error (.status 503 []) ∧
    ∃ (b : Backend) (profile : Profile) (readings : List (Reading b)),
      threeOfFour.env.source = .backend b ∧ threeOfFour.profileFor = .ok profile ∧
      FailsOn onePage threeOfFour.query (threeOfFour.maxPageSizeOf b) profile
        (threeOfFour.run onePage []).requests (.status 503 []) readings := by
  have houtcome : (threeOfFour.run onePage []).outcome = .error (.status 503 []) := by
    decide +kernel
  refine ⟨houtcome, ?_⟩
  obtain ⟨⟨-, hnot⟩ | hfails, -, -⟩ :=
    failure_discards threeOfFour onePage [] (.status 503 []) ⟨rfl, rfl, rfl, rfl⟩ houtcome
  · exact absurd (.status 503 []) hnot
  · exact hfails

/-! ## A document that breaks down -/

/-- One record is wanted, with the YAML documents in its strings. -/
def oneDecoded : Task where
  env := { name := .null, endpoints := ["http://es"], index := .string "logs" }
  query := { limit := 1 }
  profile := { decode := [.yaml] }

/-- A record with a document that holds the integer of an empty text. -/
def emptyInteger : Service := fun _ _ =>
  let hit : Value := IndexSearch.object [("_source", IndexSearch.object [("m", .string "- !!int ''")])]
  let response : Value := IndexSearch.object [("hits", IndexSearch.object [("hits", .list [hit])])]
  .response 200 ((Utf8.encode? (Json.write .compact response)).getD [])

/-- A retrieval can fail for a missing element after it has sent a request. -/
theorem missingElement_behind_request :
    oneDecoded.IsPlain ∧
    (oneDecoded.run emptyInteger []).outcome = .error (.fault .missingElement) ∧
    (oneDecoded.run emptyInteger []).requests.length = 1 := by
  refine ⟨⟨rfl, rfl, rfl, rfl⟩, ?_, ?_⟩
  · decide +kernel
  · decide +kernel

end LogQuery
