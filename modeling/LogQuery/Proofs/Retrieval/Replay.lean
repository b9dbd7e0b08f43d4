import LogQuery.Proofs.Output.Settled
import LogQuery.Proofs.Output.Spare
import LogQuery.Proofs.Retrieval.Printed
import LogQuery.Runtime.Standard
/-!
# Responses that are stored and shown later

A task can deliver the first response as it is (`Task.raw`), and it can show a stored response without
asking for anything (`Task.replayed`). The two together come to what the task does when it asks and shows:
a retrieval that sends one request shows the first records of the response to it, and a stored response
is shown with all its records. But the stored response is shown one frame deeper in the stack, so what is
nested to the last level that is possible is not shown in the same way.

* `Backend.records_cut`: a response that is cut to its first records has these and no others.
* `renderFirst_deeper`: a response that can spare some frames is shown in the same way without them.
* `stored_response_replays`: raw, plain and stored runs of one task on one response.
* `longWindow_not_raw`: there is a task that compiles and delivers no response.
* `deepHit_not_replayed`: there is a response that is shown when it comes and cannot be shown later.
-/
namespace LogQuery

/-! ## Cutting a response -/

namespace Tagged

/-- Change the members of a name; documents that are no maps have none. -/
def changeMember (key : Text) (f : Tagged → Tagged) : Tagged → Tagged
  | map members => map (members.map fun (k, x) => (k, if k = key then f x else x))
  | x => x

/-- The first items of a list; other documents stay as they are. -/
def takeItems (n : Nat) : Tagged → Tagged
  | list items => list (items.take n)
  | x => x

theorem lookup?_changed (key : Text) (f : Tagged → Tagged) : ∀ members : List (Text × Tagged),
    Text.lookup? key (members.map fun (k, x) => (k, if k = key then f x else x))
      = (Text.lookup? key members).map f
  | [] => rfl
  | (k, x) :: rest => by
    simp only [List.map_cons, Text.lookup?]
    split
    · rfl
    · exact lookup?_changed key f rest

theorem member?_changeMember (key : Text) (f : Tagged → Tagged) (x : Tagged) :
    (x.changeMember key f).member? key = (x.member? key).map f := by
  cases x with
  | map members => exact lookup?_changed key f members
  | _ => rfl

end Tagged

/-- A response that is cut to its first records. -/
def Backend.cut (b : Backend) (n : Nat) (response : Tagged) : Tagged :=
  match b with
  | indexSearch => response.changeMember "hits" fun hits => hits.changeMember "hits" (Tagged.takeItems n)
  | eventSearch => response.changeMember "data" (Tagged.takeItems n)

theorem IndexSearch.hits_cut (n : Nat) (response : Tagged) :
    hits (Backend.indexSearch.cut n response) = (hits response).map (List.take n) := by
  have hnone : (Except.ok [] : Except Failure (List Tagged)) = (Except.ok []).map (List.take n) := by
    rw [Except.map, List.take_nil]
  unfold hits Backend.cut
  rw [Tagged.member?_changeMember]
  cases response.member? "hits" with
  | none => exact hnone
  | some outer =>
    simp only [Option.map_some, Option.bind_some, Tagged.member?_changeMember]
    cases outer.member? "hits" with
    | none => exact hnone
    | some inner =>
      cases inner with
      | null => exact hnone
      | _ => rfl

/-- **A response that is cut has its first records.** -/
theorem Backend.records_cut (b : Backend) (n : Nat) (response : Tagged) :
    b.records (b.cut n response) = (b.records response).map (List.take n) := by
  cases b with
  | indexSearch =>
    cases response with
    | map members =>
      have hhits := IndexSearch.hits_cut n (.map members)
      show (IndexSearch.hits (Backend.indexSearch.cut n (.map members))).map _
        = ((IndexSearch.hits (.map members)).map _).map _
      rw [hhits]
      cases IndexSearch.hits (.map members) with
      | error e => rfl
      | ok found => exact congrArg Except.ok (List.map_take ..)
    | _ => rfl
  | eventSearch =>
    cases response with
    | map members =>
      have hdata := Tagged.member?_changeMember "data" (Tagged.takeItems n) (.map members)
      simp only [Tagged.changeMember] at hdata
      simp only [records, cut, EventSearch.records, Tagged.changeMember, hdata]
      cases Tagged.member? "data" (.map members) with
      | none => simp [Except.map]
      | some data => cases data <;> simp [Tagged.takeItems, Tagged.kindName, Except.map]
    | _ => rfl

/-! ## Showing a stored response -/

section

variable [runtime : Runtime] {b : Backend} {profile : Profile} {k limit : Nat} {body cut : Bytes}

/-- Whether a response can spare some frames when its first records are shown: it could be read without
them, and the records can spare them. -/
structure Backend.CanSpare (b : Backend) (profile : Profile) (k limit : Nat) (body : Bytes) : Prop where
  reads : Tagged.decodeBytes (Runtime.pageDepth (Runtime.frames - k)) body ≠ .error .tooDeep
  shows : ∀ document records, Page.decodeBody body = .ok document → b.records document = .ok records →
    ∀ record ∈ records.take limit, profile.CanSpare k record.plain

theorem Page.decodeBody_deeper
    (h : Tagged.decodeBytes (Runtime.pageDepth (Runtime.frames - k)) body ≠ .error .tooDeep) :
    @Page.decodeBody (runtime.deeper k) body = Page.decodeBody body := by
  have hread : Json.Tree.readBytes false (Runtime.pageDepth (Runtime.frames - k)) body
      ≠ .error .tooDeep := fun hdeep => h (by rw [Tagged.decodeBytes, hdeep]; rfl)
  have hsame := Json.readBytes_of_le (Runtime.pageDepth_mono (Nat.sub_le Runtime.frames k)) hread
  unfold Page.decodeBody Tagged.decodeBytes
  rw [hsame]
  rfl

theorem Page.decodeBody_of_deeper {document : Tagged}
    (h : @Page.decodeBody (runtime.deeper k) body = .ok document) :
    Page.decodeBody body = .ok document := by
  have hread : Tagged.decodeBytes (Runtime.pageDepth (Runtime.frames - k)) body = .ok document :=
    eq_ok_of_mapError h
  rw [← Page.decodeBody_deeper (k := k) (fun hdeep => by rw [hread] at hdeep; cases hdeep), h]

/-- **A response that can spare some frames** is shown in the same way without them. -/
theorem renderFirst_deeper (h : b.CanSpare profile k limit body) :
    @renderFirst (runtime.deeper k) b profile limit body = renderFirst b profile limit body := by
  unfold renderFirst
  rw [Page.decodeBody_deeper h.reads]
  cases hdocument : Page.decodeBody body with
  | error e => rfl
  | ok document =>
    simp only [bind, Except.bind]
    cases hrecords : b.records document with
    | error e => rfl
    | ok records =>
      exact Profile.render_deeper (List.forall_mem_map.mpr (h.shows document records hdocument hrecords))

/-- With a plain profile a response can spare frames if it could be read without them, and records can be
written with more levels of nesting than a page can have. -/
theorem Backend.canSpare_plain (hp : profile.IsPlain)
    (hle : Runtime.pageDepth Runtime.frames ≤ Runtime.writeDepth (Runtime.frames - k))
    (h : Tagged.decodeBytes (Runtime.pageDepth (Runtime.frames - k)) body ≠ .error .tooDeep) :
    b.CanSpare profile k limit body where
  reads := h
  shows document records hdocument hrecords record hrecord := by
    obtain ⟨cursor, hcursor⟩ := Backend.exists_cursor hrecords
    have hpage : Page.ofResponse b document = .ok ⟨records, cursor⟩ := by
      simp only [Page.ofResponse, hrecords, hcursor, bind, Except.bind]
    have hfits := Page.fits_records hdocument hpage record (List.mem_of_mem_take hrecord)
    refine ⟨fun hsome => absurd hp.decode hsome, fun shown hshown => ?_⟩
    obtain rfl := Except.ok.inj ((apply_plain hp _).symm.trans hshown)
    have hnone := hfits.refusalWithin?_plain hle
    rw [show Value.map (TaggedRecord.plain record) = (Tagged.map record).plain from rfl, hnone]
    exact fun hdeep => by cases hdeep

/-- A response with no more records than are wanted, or with none at all, is shown as a whole. -/
theorem renderStored_eq (h : ∀ document records, Page.decodeBody body = .ok document →
      b.records document = .ok records → records.length ≤ limit) :
    renderStored b profile body = @renderFirst (runtime.deeper 1) b profile limit body := by
  unfold renderStored renderResponse renderFirst
  cases hdocument : @Page.decodeBody (runtime.deeper 1) body with
  | error e => rfl
  | ok document =>
    simp only [bind, Except.bind]
    cases hrecords : b.records document with
    | error e => rfl
    | ok records =>
      have hfew := h document records (Page.decodeBody_of_deeper hdocument) hrecords
      simp only [List.take_of_length_le hfew]

/-- A response that was cut to the records that are wanted is shown as these records are. -/
theorem renderStored_cut {document : Tagged} {records : List TaggedRecord}
    (hcut : @Page.decodeBody (runtime.deeper 1) cut = .ok (b.cut limit document))
    (hrecords : b.records document = .ok records) : renderStored b profile cut
      = @render (runtime.deeper 1) profile ((records.take limit).map TaggedRecord.plain) := by
  unfold renderStored renderResponse
  rw [hcut]
  simp only [bind, Except.bind, Backend.records_cut, hrecords, Except.map]

end

theorem Job.runRaw_first {job : Job} {service : Service} {status : Int} {body : Bytes}
    (hcancel : ∀ sent, job.isCancelled sent = false) (hask : job.CanAsk job.start)
    (hs : isSuccess status = true) (hreply : ∀ request, service 0 request = .response status body) :
    (job.runRaw service).requests.length = 1 ∧ (job.runRaw service).outcome = .ok body := by
  obtain ⟨request, asked, ha, hw⟩ := hask
  have hbody : (service job.start.sent request).body = .ok body := by
    rw [show job.start.sent = 0 from rfl, hreply, Reply.body, if_pos hs]
  unfold runRaw compose send
  rw [hcancel, ha]
  simp only [hw, Bool.false_eq_true, if_false]
  exact ⟨rfl, hbody⟩

theorem Job.runRaw_unwritten {job : Job} {b : Backend} {numbers : List Int}
    (hcancel : ∀ sent, job.isCancelled sent = false) (hb : job.backend = b)
    (hcompile : b.Compiles job.query numbers)
    (hlong : ¬ (job.pageSize job.start :: numbers).all Integer.isWritable = true) (service : Service) :
    (job.runRaw service).requests = [] ∧
      (job.runRaw service).outcome = .error (.fault Json.longInteger) := by
  obtain ⟨request, ha, hw⟩ := unwritten_start hb hcompile hlong
  unfold runRaw compose send
  rw [hcancel, ha]
  simp only [hw, Bool.false_eq_true, if_false]
  exact ⟨rfl, rfl⟩

section

variable [runtime : Runtime]

namespace Task

/-- The task that delivers the first response as it is. -/
def raw (t : Task) : Task := { t with options := { t.options with raw := true } }

def replayed (t : Task) : Task := { t with options := { t.options with stored := true } }

section
variable {t : Task} {profile : Profile} {b : Backend}

theorem run_raw (h : t.IsPlain) (hprofile : t.profileFor = .ok profile)
    (hsource : t.env.source = .backend b) (hvalid : b.validate t.env t.query = .ok ())
    (hendpoint : t.env.endpoints ≠ []) (service : Service) (stored : Bytes) :
    ∃ endpoint, t.raw.run service stored = (t.jobWith profile b endpoint).runRaw service := by
  obtain ⟨endpoint, he⟩ := exists_endpoint hendpoint t.pick
  have hsettle : t.raw.settle = .ok (profile, b) := by
    have hsame : t.raw.profileFor = .ok profile := hprofile
    have hbackend : t.raw.env.source = .backend b := hsource
    unfold settle
    rw [hsame, hbackend]
    rfl
  have hjob : t.raw.job profile b = .ok (t.jobWith profile b endpoint) :=
    (job_eq_ok profile b _).mpr ⟨hvalid, endpoint, he, rfl⟩
  refine ⟨endpoint, ?_⟩
  unfold run
  rw [hsettle]
  simp only [hjob, show t.raw.options.stored = false from h.stored,
    show t.raw.options.asCommand = false from h.asCommand, show t.raw.options.raw = true from rfl,
    Bool.false_eq_true, if_false, if_true]

theorem run_replayed (h : t.IsPlain) (hprofile : t.profileFor = .ok profile)
    (hf : profile.hasFormat = true) (hsource : t.env.source = .backend b) (service : Service)
    (stored : Bytes) : t.replayed.run service stored = .ended (renderStored b profile stored) := by
  have hsettle : t.replayed.settle = .ok (profile, b) := by
    have hsame : t.replayed.settle = t.settle := rfl
    rw [hsame]
    exact (settle_eq_ok h profile b).mpr ⟨hprofile, hf, hsource⟩
  unfold run
  rw [hsettle]
  rfl

variable {numbers : List Int} {service : Service} {status : Int} {body stored : Bytes}

theorem run_unwritten (hplain : t.IsPlain) (hsource : t.env.source = .backend b)
    (hvalid : b.validate t.env t.query = .ok ()) (hendpoint : t.env.endpoints ≠ [])
    (hprofile : t.profileFor = .ok profile) (hf : profile.hasFormat = true)
    (hcompile : b.Compiles t.query numbers)
    (hlong : ¬ (min (t.query.effectiveLimit : Int) (t.maxPageSizeOf b) :: numbers).all
      Integer.isWritable = true) (service : Service) (stored : Bytes) :
    (t.run service stored).requests = [] ∧
      (t.run service stored).outcome = .error (.fault Json.longInteger) := by
  obtain ⟨endpoint, hrun⟩ := run_eq_job hplain hprofile hf hsource hvalid hendpoint service stored
  have hcancel := isCancelled_jobWith hplain profile b endpoint
  have hbackend : (t.jobWith profile b endpoint).backend = b := rfl
  obtain ⟨request, hask, hasked⟩ := Job.unwritten_start hbackend hcompile hlong
  rw [hrun]
  exact (Job.run_unwritten service t.query.effectiveLimit_ne_zero (hcancel 0) hask hasked).symm

/-- What a plain task whose first request can be written does with the response to it. -/
theorem run_first (hplain : t.IsPlain) (hsource : t.env.source = .backend b)
    (hvalid : b.validate t.env t.query = .ok ()) (hendpoint : t.env.endpoints ≠ [])
    (hprofile : t.profileFor = .ok profile) (hf : profile.hasFormat = true)
    (hcompile : b.Compiles t.query numbers)
    (hwritable : (min (t.query.effectiveLimit : Int) (t.maxPageSizeOf b) :: numbers).all
      Integer.isWritable = true)
    (hs : isSuccess status = true) (hreply : ∀ request, service 0 request = .response status body)
    (stored : Bytes) :
    ((t.run service stored).requests.length = 1 ∧ (t.run service stored).outcome
      = renderFirst b profile t.query.effectiveLimit body) ∨
    (1 < (t.run service stored).requests.length ∧ ∃ page, Page.read b body = .ok page ∧
      page.records.length < t.query.effectiveLimit) := by
  obtain ⟨endpoint, hrun⟩ := run_eq_job hplain hprofile hf hsource hvalid hendpoint service stored
  have hformat : (t.jobWith profile b endpoint).profile.hasFormat = true := hf
  have hbackend : (t.jobWith profile b endpoint).backend = b := rfl
  rw [hrun]
  exact Job.run_first hformat (isCancelled_jobWith hplain profile b endpoint)
    (Job.canAsk_start hbackend hcompile hwritable) hs hreply

/-- A plain task that sends one request shows the first records of the response to it. -/
theorem run_once (hplain : t.IsPlain) (hsource : t.env.source = .backend b)
    (hvalid : b.validate t.env t.query = .ok ()) (hendpoint : t.env.endpoints ≠ [])
    (hprofile : t.profileFor = .ok profile) (hf : profile.hasFormat = true)
    (hcompile : b.Compiles t.query numbers) (hs : isSuccess status = true)
    (hreply : ∀ request, service 0 request = .response status body)
    (hone : (t.run service stored).requests.length = 1) :
    (t.run service stored).outcome = renderFirst b profile t.query.effectiveLimit body := by
  by_cases hwritable : (min (t.query.effectiveLimit : Int) (t.maxPageSizeOf b) :: numbers).all
      Integer.isWritable = true
  · rcases run_first hplain hsource hvalid hendpoint hprofile hf hcompile hwritable hs hreply stored with
      ⟨-, houtcome⟩ | ⟨hmore, -⟩
    · exact houtcome
    · omega
  · obtain ⟨hnone, -⟩ :=
      run_unwritten hplain hsource hvalid hendpoint hprofile hf hcompile hwritable service stored
    rw [hnone] at hone
    cases hone

theorem run_full (hplain : t.IsPlain) (hsource : t.env.source = .backend b)
    (hvalid : b.validate t.env t.query = .ok ()) (hendpoint : t.env.endpoints ≠ [])
    (hprofile : t.profileFor = .ok profile) (hf : profile.hasFormat = true)
    (hcompile : b.Compiles t.query numbers)
    (hwritable : (min (t.query.effectiveLimit : Int) (t.maxPageSizeOf b) :: numbers).all
      Integer.isWritable = true)
    (hs : isSuccess status = true) (hreply : ∀ request, service 0 request = .response status body)
    (stored : Bytes) {document : Tagged} {records : List TaggedRecord}
    (hdocument : Page.decodeBody body = .ok document) (hrecords : b.records document = .ok records)
    (hmany : t.query.effectiveLimit < records.length) :
    (t.run service stored).requests.length = 1 ∧ (t.run service stored).outcome
      = render profile ((records.take t.query.effectiveLimit).map TaggedRecord.plain) := by
  rcases run_first hplain hsource hvalid hendpoint hprofile hf hcompile hwritable hs hreply stored with
    ⟨hone, houtcome⟩ | ⟨-, page, hread, hlt⟩
  · refine ⟨hone, houtcome.trans ?_⟩
    unfold renderFirst
    rw [hdocument]
    simp only [bind, Except.bind, hrecords]
  · obtain ⟨document', hdocument', hpage⟩ := eq_ok_of_bind hread
    obtain rfl := Except.ok.inj (hdocument'.symm.trans hdocument)
    obtain ⟨hparts, -⟩ := Reading.parts ⟨document', page, hpage⟩
    obtain rfl := Except.ok.inj (hparts.symm.trans hrecords)
    exact absurd hlt (Nat.not_lt_of_gt hmany)

end
end Task

/-- **A stored response replays.** A task that compiles is put to a service that answers its first request
with some body.

If a number in the first request is too long to be written, nothing is sent, for the first response as
little as for the records. Otherwise a run for the first response sends one request and delivers the body.

If the plain task sends no other request, and the body has no more records than are wanted, or is no page
at all, then the stored body is shown, without a request, as the plain task shows it, provided that the
body can spare a frame; and in any case as the plain task shows it one frame deeper in the stack. If the
body has more records, then the plain task sends one request, and every body that is the cut response is
shown as it shows them if they can spare a frame. -/
theorem stored_response_replays (t : Task) (service : Service) (status : Int) (body stored : Bytes)
    (b : Backend) (profile : Profile) (numbers : List Int) (hplain : t.IsPlain)
    (hsource : t.env.source = .backend b) (hvalid : b.validate t.env t.query = .ok ())
    (hendpoint : t.env.endpoints ≠ []) (hprofile : t.profileFor = .ok profile)
    (hf : profile.hasFormat = true) (hcompile : b.Compiles t.query numbers)
    (hs : isSuccess status = true) (hreply : ∀ request, service 0 request = .response status body) :
    (¬ (min (t.query.effectiveLimit : Int) (t.maxPageSizeOf b) :: numbers).all Integer.isWritable = true →
      ((t.raw.run service stored).requests = [] ∧
        (t.raw.run service stored).outcome = .error (.fault Json.longInteger)) ∧
      (t.run service stored).requests = [] ∧
        (t.run service stored).outcome = .error (.fault Json.longInteger)) ∧
    ((min (t.query.effectiveLimit : Int) (t.maxPageSizeOf b) :: numbers).all Integer.isWritable = true →
      (t.raw.run service stored).requests.length = 1 ∧
        (t.raw.run service stored).outcome = .ok body) ∧
    ((∀ document records, Page.decodeBody body = .ok document → b.records document = .ok records →
        records.length ≤ t.query.effectiveLimit) →
      (t.replayed.run service body).requests = [] ∧
      ((t.run service stored).requests.length = 1 →
        b.CanSpare profile 1 t.query.effectiveLimit body →
        (t.replayed.run service body).outcome = (t.run service stored).outcome) ∧
      ((@Task.run (runtime.deeper 1) t service stored).requests.length = 1 →
        (t.replayed.run service body).outcome
          = (@Task.run (runtime.deeper 1) t service stored).outcome)) ∧
    ((min (t.query.effectiveLimit : Int) (t.maxPageSizeOf b) :: numbers).all Integer.isWritable = true →
      ∀ document records, Page.decodeBody body = .ok document → b.records document = .ok records →
      t.query.effectiveLimit < records.length →
      (t.run service stored).requests.length = 1 ∧
      ∀ cut, @Page.decodeBody (runtime.deeper 1) cut = .ok (b.cut t.query.effectiveLimit document) →
        (t.replayed.run service cut).requests = [] ∧
        ((∀ record ∈ records.take t.query.effectiveLimit, profile.CanSpare 1 record.plain) →
          (t.replayed.run service cut).outcome = (t.run service stored).outcome)) := by
  obtain ⟨endpoint, hraw⟩ := Task.run_raw hplain hprofile hsource hvalid hendpoint service stored
  have hshown := Task.run_replayed hplain hprofile hf hsource service
  refine ⟨fun hlong => ⟨?_, ?_⟩, fun hwritable => ?_, fun hfew => ⟨?_, ?_, ?_⟩, fun hwritable => ?_⟩
  · rw [hraw]
    exact Job.runRaw_unwritten (Task.isCancelled_jobWith hplain profile b endpoint) rfl hcompile hlong
      service
  · exact Task.run_unwritten hplain hsource hvalid hendpoint hprofile hf hcompile hlong service stored
  · rw [hraw]
    exact Job.runRaw_first (Task.isCancelled_jobWith hplain profile b endpoint)
      (Job.canAsk_start rfl hcompile hwritable) hs hreply
  · rw [hshown]
    rfl
  · -- The stored body is shown one frame deeper, and it can spare that frame.
    intro hone hspare
    have houtcome := Task.run_once hplain hsource hvalid hendpoint hprofile hf hcompile hs hreply hone
    rw [hshown, houtcome, ← renderFirst_deeper hspare]
    exact renderStored_eq hfew
  · intro hone
    have houtcome := @Task.run_once (runtime.deeper 1) _ _ _ _ _ _ _ _ hplain hsource hvalid hendpoint
      hprofile hf hcompile hs hreply hone
    rw [hshown, houtcome]
    exact renderStored_eq hfew
  · -- The first page is all that is wanted, so it is cut in the same place.
    intro document records hdocument hrecords hmany
    obtain ⟨hone, houtcome⟩ := Task.run_full hplain hsource hvalid hendpoint hprofile hf hcompile
      hwritable hs hreply stored hdocument hrecords hmany
    refine ⟨hone, fun cut hcut => ⟨by rw [hshown]; rfl, fun hspare => ?_⟩⟩
    rw [hshown, houtcome, ← Profile.render_deeper (List.forall_mem_map.mpr hspare)]
    exact renderStored_cut hcut hrecords

end

attribute [local instance] Runtime.standard

def twoWanted : Task where
  env := { name := .null, endpoints := ["http://es"], index := .string "logs" }
  query := { limit := 2 }

/-- A service that always answers with the same hits. -/
def sameHits (numbers : List Int) : Service := fun _ _ =>
  .response 200 (IndexSearch.numberedHits numbers)

theorem decodeBytes_numberedHits (depth : Nat) {numbers : List Int}
    (h : ∀ n ∈ numbers, Integer.isWritable n = true) :
    Tagged.decodeBytes (depth + 5) (IndexSearch.numberedHits numbers)
      = .ok (Tagged.ofTree (Json.Tree.ofValue (IndexSearch.numberedResponse numbers))) := by
  rw [Tagged.decodeBytes, IndexSearch.readBytes_numberedHits depth h]
  rfl

/-- A response that is delivered as it is, one of too many records that is cut, and one of too few. -/
theorem stored_response_replays_hits :
    (twoWanted.raw.run (sameHits [1, 2, 3]) []).outcome = .ok (IndexSearch.numberedHits [1, 2, 3]) ∧
    (twoWanted.replayed.run (sameHits [1, 2, 3]) (IndexSearch.numberedHits [1, 2])).outcome
      = (twoWanted.run (sameHits [1, 2, 3]) []).outcome ∧
    (twoWanted.replayed.run (sameHits [1]) (IndexSearch.numberedHits [1])).outcome
      = (twoWanted.run (sameHits [1]) []).outcome := by
  have hdecode : ∀ numbers : List Int, (∀ n ∈ numbers, n.natAbs < 10) →
      Tagged.decodeBytes 491 (IndexSearch.numberedHits numbers)
        = .ok (Tagged.ofTree (Json.Tree.ofValue (IndexSearch.numberedResponse numbers))) :=
    fun numbers h => decodeBytes_numberedHits 486 fun n hn =>
      Integer.isWritable_of_lt (Nat.lt_trans (h n hn) (by decide))
  have hbody : ∀ numbers : List Int, (∀ n ∈ numbers, n.natAbs < 10) →
      Page.decodeBody (IndexSearch.numberedHits numbers)
        = .ok (Tagged.ofTree (Json.Tree.ofValue (IndexSearch.numberedResponse numbers))) :=
    fun numbers h => mapError_eq_ok_iff.mpr (hdecode numbers h)
  have hspare : ∀ numbers : List Int, (∀ n ∈ numbers, n.natAbs < 10) →
      Backend.indexSearch.CanSpare {} 1 2 (IndexSearch.numberedHits numbers) := fun numbers h =>
    Backend.canSpare_plain ⟨rfl, rfl, rfl, rfl⟩ (by decide) (by
      rw [show Runtime.pageDepth (Runtime.frames - 1) = 491 from rfl, hdecode numbers h]
      exact fun hdeep => by cases hdeep)
  have hall := fun numbers => stored_response_replays twoWanted (sameHits numbers) 200
    (IndexSearch.numberedHits numbers) [] .indexSearch {} [0] ⟨rfl, rfl, rfl, rfl⟩ rfl (by decide)
    (by decide) rfl rfl (Backend.compiles_unfiltered rfl) rfl (fun _ => rfl)
  obtain ⟨-, hraw, -, hmany⟩ := hall [1, 2, 3]
  obtain ⟨-, -, hfew, -⟩ := hall [1]
  have hthree := hbody [1, 2, 3] (by decide)
  refine ⟨(hraw (by decide +kernel)).2, ?_, ?_⟩
  · obtain ⟨-, hcut⟩ := hmany (by decide +kernel) _ _ hthree rfl (by decide)
    exact (hcut _ (hbody [1, 2] (by decide))).2 ((hspare [1, 2, 3] (by decide)).shows _ _ hthree rfl)
  · refine (hfew fun document records hdocument hrecords => ?_).2.1 (by decide +kernel)
      (hspare [1] (by decide))
    obtain rfl := Except.ok.inj ((hbody [1] (by decide)).symm.trans hdocument)
    obtain rfl := Except.ok.inj hrecords
    decide

theorem compiles_until {seconds : Nat} (h : seconds < 10 ^ Integer.maxDigits) :
    Backend.eventSearch.Compiles (EventSearch.taskUntil seconds).query [0, seconds * 1000] := by
  have hcompile : EventSearch.compile (EventSearch.taskUntil seconds).query.filters
      = .ok (EventSearch.foundUntil seconds) := EventSearch.compile_until h
  exact .event hcompile

theorem not_all_isWritable_until {seconds : Nat} (h : 10 ^ Integer.maxDigits ≤ seconds * 1000)
    (size : Int) : ¬ [size, 0, (seconds : Int) * 1000].all Integer.isWritable = true := by
  intro hall
  simp only [List.all_cons, List.all_nil, Bool.and_eq_true, Integer.isWritable_iff] at hall
  omega

/-- A search for events compiles, every request is answered, and there is no response to deliver. -/
theorem longWindow_not_raw :
    (EventSearch.taskUntil EventSearch.maxWritable).IsPlain ∧
    (EventSearch.taskUntil EventSearch.maxWritable).env.source = .backend .eventSearch ∧
    (EventSearch.taskUntil EventSearch.maxWritable).env.endpoints ≠ [] ∧
    (EventSearch.taskUntil EventSearch.maxWritable).profileFor = .ok {} ∧
    (∃ numbers, Backend.eventSearch.Compiles (EventSearch.taskUntil EventSearch.maxWritable).query
      numbers) ∧
    (∀ request, sameHits [1] 0 request = .response 200 (IndexSearch.numberedHits [1])) ∧
    ((EventSearch.taskUntil EventSearch.maxWritable).raw.run (sameHits [1]) []).requests = [] ∧
    ((EventSearch.taskUntil EventSearch.maxWritable).raw.run (sameHits [1]) []).outcome
      ≠ .ok (IndexSearch.numberedHits [1]) := by
  have hplain : (EventSearch.taskUntil EventSearch.maxWritable).IsPlain := ⟨rfl, rfl, rfl, rfl⟩
  have hendpoint : (EventSearch.taskUntil EventSearch.maxWritable).env.endpoints ≠ [] :=
    List.cons_ne_nil _ _
  have hcompile := compiles_until EventSearch.maxWritable_lt
  have hprofile : (EventSearch.taskUntil EventSearch.maxWritable).profileFor = .ok {} := rfl
  obtain ⟨endpoint, hrun⟩ := Task.run_raw hplain hprofile rfl rfl hendpoint (sameHits [1]) []
  obtain ⟨hrequests, houtcome⟩ := Job.runRaw_unwritten
    (Task.isCancelled_jobWith hplain {} .eventSearch endpoint) rfl hcompile
    (not_all_isWritable_until EventSearch.le_maxWritable_mul _) (sameHits [1])
  refine ⟨hplain, rfl, hendpoint, hprofile, ⟨_, hcompile⟩, fun _ => rfl, ?_, ?_⟩
  · rw [hrun, hrequests]
  · rw [hrun, houtcome]
    exact fun h => by cases h

/-! ## A response that cannot spare a frame -/

/-- The standard runtime where most of the stack is in use, so that a page can have seven levels of nesting,
and one frame deeper six. -/
@[reducible]
def Runtime.nearlyFull : Runtime := { Runtime.standard with frames := 11 }

/-- A hit with as many levels of nesting as a page can have is shown when it comes, and it is too deep when
it was stored. -/
theorem deepHit_not_replayed : ∃ body shown,
    (∀ request, oneMember (brackets 2) 0 request = .response 200 body) ∧
    (@Task.run .nearlyFull twoWanted (oneMember (brackets 2)) []).requests.length = 1 ∧
    (@Task.run .nearlyFull twoWanted (oneMember (brackets 2)) []).outcome = .ok shown ∧
    (@Task.run .nearlyFull twoWanted.replayed (oneMember (brackets 2)) body).outcome
      = .error (.decode (.json .tooDeep)) := by
  refine ⟨_, (@Task.run .nearlyFull twoWanted (oneMember (brackets 2)) []).outcome.toOption.getD [],
    fun _ => rfl, ?_, eq_ok_of_toOption ?_, ?_⟩
  · decide +kernel
  · decide +kernel
  · decide +kernel

end LogQuery
