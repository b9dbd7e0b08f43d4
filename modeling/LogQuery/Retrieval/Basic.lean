import LogQuery.Config.Settings
import LogQuery.Search.Notice
import LogQuery.Search.Reply
/-!
# Retrieving records

A retrieval asks a search service for page after page until the records that are wanted have come,
or there are no more, or there have been `maxRequests` requests. Every page is shown as soon as it
has come, but nothing is delivered before the end: a page that fails discards everything.

* `Job` is what stays the same during a retrieval, `Progress` what changes from page to page.
* `Job.ask` is the next request; `Job.accept` is the progress after a page.
* `Job.runFrom` is the whole exchange with a service from some progress on, with every request
  that was sent and every notice that was given (`Run`).

The number of requests that are left bounds the recursion, so a retrieval ends whatever the service
does.
-/
namespace LogQuery

/-- How a retrieval departs from asking for pages and showing them. -/
structure Options where
  /-- Give an account of every page. -/
  debug : Bool := false
  /-- Deliver the first response as it is. -/
  raw : Bool := false
  /-- Deliver the command that would send the first request. -/
  asCommand : Bool := false
  /-- Show a stored response and ask for nothing. -/
  stored : Bool := false
  /-- The decode targets that take the place of the ones in the profile. -/
  decode : Option (List Value) := none

/-- Everything that happened during a retrieval. -/
structure Run where
  outcome : Except Failure Bytes
  requests : List Request := []
  notices : List Notice := []

namespace Run

/-- A run that ends at once. -/
def ended (outcome : Except Failure Bytes) : Run := { outcome }

def failed (e : Failure) : Run := ended (.error e)

def afterNotices (notices : List Notice) (r : Run) : Run :=
  { r with notices := notices ++ r.notices }

def afterRequest (request : Request) (r : Run) : Run :=
  { r with requests := request :: r.requests }

end Run

/-- What stays the same during a retrieval. -/
structure Job where
  backend : Backend
  env : Env
  endpoint : Text
  query : Query
  profile : Profile
  /-- The most records to ask for at once. -/
  maxPageSize : Int
  /-- Give an account of every page. -/
  debug : Bool := false
  /-- After how many requests the retrieval is cancelled. -/
  cancelAfter : Option Nat := none

/-- What changes during a retrieval. -/
structure Progress where
  /-- How many requests have been sent. -/
  sent : Nat := 0
  /-- How many records are still wanted. -/
  remaining : Nat
  cursor : Option Value := none
  /-- The records that have come, as they are shown. -/
  shown : Bytes := []

def maxRequests : Nat := 100

namespace Job

/-- The progress before the first request. -/
def start (job : Job) : Progress := { remaining := job.query.effectiveLimit }

/-- Whether the retrieval is cancelled once some requests have been sent. -/
def isCancelled (job : Job) (sent : Nat) : Bool :=
  match job.cancelAfter with
  | some n => n ≤ sent
  | none => false

/-- How many records the next page should have. -/
def pageSize (job : Job) (p : Progress) : Int := min p.remaining job.maxPageSize

def ask (job : Job) (p : Progress) : Except Failure Request :=
  job.backend.request job.env job.endpoint job.query p.cursor (job.pageSize p)

/-- The notices that come with composing the next request. -/
def askNotices (job : Job) (p : Progress) : List Notice := job.backend.notices job.query p.cursor

/-- A notice for an account of the pages, if one is wanted. -/
def account (job : Job) (notice : Notice) : List Notice := if job.debug then [notice] else []

/-- The body of a request in an account, on one line. -/
def accountBody (request : Request) : Except Failure Text :=
  match request.body with
  | some v => (Json.encode .spaced v).mapError .fault
  | none => .ok []

def pageAsked (p : Progress) (request : Request) : Except Failure Notice :=
  (accountBody request).map fun body => .pageAsked (p.sent + 1) request.method request.url body

/-- The records of a page that are still wanted. -/
def wanted (p : Progress) (page : Page) : List TaggedRecord := page.records.take p.remaining

def accept [Runtime] (job : Job) (p : Progress) (page : Page) : Except Failure Progress :=
  let records := wanted p page
  (render job.profile (records.map TaggedRecord.plain)).map fun shown =>
    { sent := p.sent + 1, remaining := p.remaining - records.length, cursor := page.cursor,
      shown := p.shown ++ shown }

/-- Whether there can be records behind a page: it was as large as it was asked to be, and it says
how to go on. -/
def hasNext (job : Job) (p : Progress) (page : Page) : Bool :=
  job.pageSize p ≤ (wanted p page).length && page.cursor.isSome

/-- The end of a retrieval: what has come is delivered. If records are still wanted after the last
request that is allowed, the operator is told. -/
def finish (p : Progress) : Run :=
  let stopped : List Notice :=
    if 0 < p.remaining ∧ maxRequests ≤ p.sent then [.ceilingReached p.sent p.remaining] else []
  (Run.ended (.ok p.shown)).afterNotices stopped

/-- What to do after a page: go on, or end the retrieval. -/
def follow [Runtime] (job : Job) (p : Progress) (page : Page) (goOn : Progress → Run) : Run :=
  if page.records = [] then
    (finish { p with sent := p.sent + 1 }).afterNotices (job.account (.pageEmpty (p.sent + 1)))
  else
    match job.accept p page with
    | .error e => .failed e
    | .ok next =>
      (if job.hasNext p page then goOn next else finish next).afterNotices
        (job.account (.pageRead next.sent (wanted p page).length next.remaining))

def receive [Runtime] (job : Job) (p : Progress) (reply : Reply) (goOn : Progress → Run) : Run :=
  match reply.body with
  | .error e => .failed e
  | .ok body =>
    match Page.read job.backend body with
    | .error e => .failed e
    | .ok page => job.follow p page goOn

/-- Compose the next request and do something with it. -/
def compose (job : Job) (p : Progress) (use : Request → Run) : Run :=
  if job.isCancelled p.sent then .failed (.cancelled p.sent)
  else
    Run.afterNotices (job.askNotices p)
      (match job.ask p with
      | .error e => .failed e
      | .ok request => use request)

/-- Send a request and do something with the reply. -/
def send (job : Job) (service : Service) (p : Progress) (request : Request) (use : Reply → Run) :
    Run :=
  match pageAsked p request with
  | .error e => .failed e
  | .ok notice =>
    ((use (service p.sent request)).afterRequest request).afterNotices (job.account notice)

/-- The rest of a retrieval, with some requests left. -/
def runFrom [Runtime] (job : Job) (service : Service) : (left : Nat) → Progress → Run
  | 0, p => finish p
  | left + 1, p =>
    if p.remaining = 0 then finish p
    else
      job.compose p fun request =>
        job.send service p request fun reply =>
          job.receive p reply (runFrom job service left)

def run [Runtime] (job : Job) (service : Service) : Run := job.runFrom service maxRequests job.start

/-- The first response as it is. -/
def runRaw (job : Job) (service : Service) : Run :=
  job.compose job.start fun request =>
    job.send service job.start request fun reply => .ended reply.body

/-- The command that would send the first request. -/
def runCommand (job : Job) : Run :=
  job.compose job.start fun request => .ended (request.command.mapError .fault)

end Job

/-- Show the records of a response. -/
def renderResponse [Runtime] (b : Backend) (profile : Profile) (body : Bytes) : Except Failure Bytes := do
  let response ← Page.decodeBody body
  let records ← b.records response
  render profile (records.map TaggedRecord.plain)

/-- Show the records of a stored response. This is done by a function of its own, one frame deeper in the
stack than where pages are read and shown. -/
def renderStored [runtime : Runtime] (b : Backend) (profile : Profile) (body : Bytes) :
    Except Failure Bytes :=
  @renderResponse (runtime.deeper 1) b profile body

/-- What a retrieval is asked to do. -/
structure Task where
  env : Env
  query : Query
  options : Options := {}
  profile : Profile := {}
  /-- The page size in place of the service's own. -/
  maxPageSize : Option Int := none
  /-- Which of the endpoints is asked. -/
  pick : Nat := 0
  cancelAfter : Option Nat := none

namespace Task

/-- The profile with the decode targets that the options ask for. -/
def profileFor (t : Task) : Except Failure Profile :=
  match t.options.decode with
  | none => .ok t.profile
  | some targets =>
    ((Target.ofSetting (.list targets)).mapError fun e => .config (.targets e)).map fun decode =>
      { t.profile with decode }

/-- The profile and the service of a task, if it can be done at all. -/
def settle (t : Task) : Except Failure (Profile × Backend) := do
  let profile ← t.profileFor
  if !(t.options.raw || t.options.asCommand) && !profile.hasFormat then
    .error (.format profile.format.display)
  else do
    let backend ← Backend.ofSource t.env.source
    .ok (profile, backend)

/-- The job of asking for pages. -/
def job (t : Task) (profile : Profile) (backend : Backend) : Except Failure Job := do
  backend.validate t.env t.query
  let endpoint ← (t.env.endpoint t.pick).mapError .config
  .ok { backend, env := t.env, endpoint, query := t.query, profile,
        maxPageSize := t.maxPageSize.getD backend.maxPageSize, debug := t.options.debug,
        cancelAfter := t.cancelAfter }

/-- Do a task, given a service and a stored response. -/
def run [Runtime] (t : Task) (service : Service) (stored : Bytes) : Run :=
  match t.settle with
  | .error e => .failed e
  | .ok (profile, backend) =>
    if t.options.stored then .ended (renderStored backend profile stored)
    else
      match t.job profile backend with
      | .error e => .failed e
      | .ok job =>
        if t.options.asCommand then job.runCommand
        else if t.options.raw then job.runRaw service
        else job.run service

end Task
end LogQuery
