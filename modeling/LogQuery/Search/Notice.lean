import LogQuery.Text.Basic
/-!
# Notices

What the program tells its operator while it searches: warnings, and if asked to, an account of
every page. A notice is data; its wording is `Notice.message`.
-/
namespace LogQuery

/-- How much a notice matters. -/
inductive Level where
  | info
  | warning
  deriving DecidableEq

/-- Something that an operator may want to know. -/
inductive Notice where
  /-- The order of a query is not one that the service has. -/
  | orderIgnored (field : Text)
  /-- A page is asked for; the body of the request in JSON. -/
  | pageAsked (page : Nat) (method url body : Text)
  /-- A page without records. -/
  | pageEmpty (page : Nat)
  /-- A page with records, and how many are still wanted. -/
  | pageRead (page records remaining : Nat)
  /-- The search ended because there have been too many requests. -/
  | ceilingReached (requests remaining : Nat)
  deriving DecidableEq

namespace Notice

/-- How much a notice matters. -/
def level : Notice → Level
  | orderIgnored _ => .warning
  | ceilingReached _ _ => .warning
  | _ => .info

def aboutPage (page : Nat) : Text := "page " ++ Text.ofNat page ++ ": "

def message : Notice → Text
  | orderIgnored field =>
    "datadog can only sort by timestamp, ignoring order field '" ++ field ++ "'"
  | pageAsked page method url body => aboutPage page ++ Text.join " " [method, url, body]
  | pageEmpty page => aboutPage page ++ "no records, stopping"
  | pageRead page records remaining =>
    aboutPage page ++ Text.ofNat records ++ " record(s), " ++ Text.ofNat remaining ++ " remaining"
  | ceilingReached requests remaining =>
    "stopped after " ++ Text.ofNat requests ++ " requests with " ++ Text.ofNat remaining
      ++ " record(s) still wanted"

end Notice
end LogQuery
