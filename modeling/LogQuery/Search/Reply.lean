import LogQuery.Output.Render
import LogQuery.Search.Backend
/-!
# Replies

What comes back when a request is sent, and the page of records that it holds. A search service is
any function from requests to replies (`Service`): nothing is assumed of it.
-/
namespace LogQuery

/-- What comes of sending a request. -/
inductive Reply where
  | response (status : Int) (body : Bytes)
  /-- No response came; the text says why. -/
  | failed (reason : Text)
  /-- The operator interrupted the program while it waited. -/
  | interrupted

/-- How the world answers: the reply to a request, given how many requests were sent before it. -/
abbrev Service := (sent : Nat) → Request → Reply

def isSuccess (status : Int) : Bool := 200 ≤ status && status < 300

/-- The body of a response that reports success. -/
def Reply.body : Reply → Except Failure Bytes
  | response status body =>
    if isSuccess status then .ok body else .error (.status status (Utf8.replacing body))
  | failed reason => .error (.transport reason)
  | interrupted => .error .interrupted

/-- The records of a response, and what to ask for next. -/
structure Page where
  records : List TaggedRecord
  cursor : Option Value

namespace Page

def ofResponse (b : Backend) (response : Tagged) : Except Failure Page := do
  let records ← b.records response
  let cursor ← b.cursor response
  .ok { records, cursor }

section

variable [Runtime]

def decodeBody (body : Bytes) : Except Failure Tagged :=
  (Tagged.decodeBytes (Runtime.pageDepth Runtime.frames) body).mapError fun e => .decode (.json e)

/-- The page that the body of a response holds. -/
def read (b : Backend) (body : Bytes) : Except Failure Page := do
  let response ← decodeBody body
  ofResponse b response

end

end Page

/-- A record without the tags of its numbers. -/
def TaggedRecord.plain (r : TaggedRecord) : Record := Tagged.plainMembers r

end LogQuery
