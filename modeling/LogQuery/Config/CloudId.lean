import LogQuery.Base64
import LogQuery.Failure
/-!
# Cloud ids

A cloud id names a search service that runs in a cloud: a name, a colon, and in base 64 the host and
the unique names of the services behind it, with dollar signs between them.
-/
namespace LogQuery.CloudId

def isAscii (t : Text) : Bool := t.all fun p => p.code < 0x80

/-- The address of the search service in a decoded cloud id. -/
def addressOf (value : Text) : Except CloudIdError Text :=
  match value.splitOn (.scalar '$') with
  | host :: service :: _ => .ok ("https://" ++ service ++ "." ++ host)
  | _ => .error (.noUuid value)

/-- The text in the second part of a cloud id. -/
def decode (id encoded : Text) : Except CloudIdError Text := do
  let bytes ← (Base64.decode encoded).mapError (.notBase64 id)
  (Utf8.strict bytes).mapError (.notUtf8 id)

/-- The address that a cloud id names. Base 64 is not even tried on a text that is not ASCII. -/
def address (id : Text) : Except Failure Text :=
  match id.splitOn (.scalar ':') with
  | [_, encoded] =>
    if isAscii encoded then
      (decode id encoded >>= addressOf).mapError fun e => .config (.cloudId e)
    else .error (.fault (.badValue "string argument should contain only ASCII characters"))
  | _ => .error (.config (.cloudId (.badFormat id)))

end LogQuery.CloudId
