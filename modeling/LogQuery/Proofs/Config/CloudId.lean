import LogQuery.Config.CloudId
import LogQuery.Proofs.Base64
import LogQuery.Proofs.Json.WriteBytes
import LogQuery.Proofs.Text.Split
/-!
# Cloud ids are read back

`CloudId.build?` puts a cloud id together: a name, and behind a colon the content in base 64. The colon is
the only one, as there is none in base 64, and strict reading undoes both encodings, so the address is
that of the host and the service in the content, whatever else the content holds (`address_build?`). Other
numbers of colons, and contents without a dollar sign, are reported.
-/
namespace LogQuery.CloudId

variable {id name encoded value host service : Text}

/-- What a cloud id says: the host, the unique name of the search service, and perhaps more. -/
def content (host service : Text) (more : Option Text) : Text :=
  host ++ .scalar '$' :: (service ++ more.elim [] (.scalar '$' :: ·))

/-- The cloud id with a name and a content; there is none when a lone surrogate occurs. -/
def build? (name value : Text) : Option Text :=
  (Utf8.encode? value).map fun bytes => name ++ .scalar ':' :: Base64.encode bytes

/-! ## The parts of a cloud id -/

theorem isMember_of_decode (h : decode id encoded = .ok value) : ∀ p ∈ encoded, Base64.IsMember p := by
  obtain ⟨bytes, hbytes, -⟩ := eq_ok_of_bind h
  exact Base64.isMember_of_decode (eq_ok_of_mapError hbytes)

/-- **One colon.** The address of a cloud id is that of its content, if that can be decoded. -/
theorem address_of_decode (hname : .scalar ':' ∉ name)
    (h : decode (name ++ .scalar ':' :: encoded) encoded = .ok value) :
    address (name ++ .scalar ':' :: encoded)
      = (addressOf value).mapError fun e => .config (.cloudId e) := by
  have hmember := isMember_of_decode h
  have hcolon : .scalar ':' ∉ encoded := fun hmem => (hmember _ hmem).ne_colon rfl
  have hascii : isAscii encoded = true :=
    List.all_eq_true.mpr fun p hp => decide_eq_true (hmember p hp).code_lt
  have hsplit : (name ++ .scalar ':' :: encoded).splitOn (.scalar ':') = [name, encoded] := by
    rw [Text.splitOn_append_sep, Text.splitOn_of_not_mem hname, Text.splitOn_of_not_mem hcolon]
    rfl
  simp only [address, hsplit, hascii, if_true, h]
  rfl

theorem address_of_count (h : id.count (.scalar ':') ≠ 1) :
    address id = .error (.config (.cloudId (.badFormat id))) := by
  have hlength := Text.length_splitOn (.scalar ':') id
  unfold address
  split
  next name encoded hsplit =>
    rw [hsplit] at hlength
    exact absurd (Nat.succ.inj hlength).symm h
  next => rfl

/-! ## The content -/

theorem addressOf_content (hhost : .scalar '$' ∉ host) (hservice : .scalar '$' ∉ service)
    (more : Option Text) :
    addressOf (content host service more) = .ok ("https://" ++ service ++ "." ++ host) := by
  have hsplit : ∃ pieces, (content host service more).splitOn (.scalar '$') = host :: service :: pieces := by
    rw [content, Text.splitOn_append_sep, Text.splitOn_of_not_mem hhost]
    cases more with
    | none =>
      refine ⟨[], ?_⟩
      rw [Option.elim_none, List.append_nil, Text.splitOn_of_not_mem hservice]
      rfl
    | some t =>
      refine ⟨t.splitOn (.scalar '$'), ?_⟩
      rw [Option.elim_some, Text.splitOn_append_sep, Text.splitOn_of_not_mem hservice]
      rfl
  obtain ⟨pieces, hsplit⟩ := hsplit
  rw [addressOf, hsplit]

theorem addressOf_of_not_mem (h : .scalar '$' ∉ value) : addressOf value = .error (.noUuid value) := by
  rw [addressOf, Text.splitOn_of_not_mem h]

theorem decode_of_encode (id : Text) {bytes : Bytes} (h : Utf8.encode? value = some bytes) :
    decode id (Base64.encode bytes) = .ok value := by
  rw [decode, Base64.decode_encode_bytes]
  show (Utf8.strict bytes).mapError (CloudIdError.notUtf8 id) = _
  rw [Utf8.strict_encode h]
  rfl

/-- **A cloud id names the address that it was built from.** With a name without colons, and a host and a
service without dollar signs, a cloud id can be built of any content without lone surrogates, and its
address is that of the service on the host. A cloud id with no colon or several, and one whose content has
no dollar sign, is reported. -/
theorem address_build? :
    (∀ (name host service : Text) (more : Option Text), .scalar ':' ∉ name → .scalar '$' ∉ host →
      .scalar '$' ∉ service → (content host service more).all CodePoint.isScalar = true →
      ∃ id, build? name (content host service more) = some id ∧
        address id = .ok ("https://" ++ service ++ "." ++ host)) ∧
    (∀ id : Text, id.count (.scalar ':') ≠ 1 →
      address id = .error (.config (.cloudId (.badFormat id)))) ∧
    (∀ name encoded value : Text, .scalar ':' ∉ name →
      decode (name ++ .scalar ':' :: encoded) encoded = .ok value → .scalar '$' ∉ value →
      address (name ++ .scalar ':' :: encoded) = .error (.config (.cloudId (.noUuid value)))) := by
  refine ⟨?_, fun id h => address_of_count h, ?_⟩
  · intro name host service more hname hhost hservice hscalar
    obtain ⟨bytes, hbytes⟩ := Utf8.exists_encode_iff.mpr hscalar
    refine ⟨name ++ .scalar ':' :: Base64.encode bytes, by rw [build?, hbytes]; rfl, ?_⟩
    rw [address_of_decode hname (decode_of_encode _ hbytes), addressOf_content hhost hservice]
    rfl
  · intro name encoded value hname hdecode hvalue
    rw [address_of_decode hname hdecode, addressOf_of_not_mem hvalue]
    rfl

/-- A content with more dollar signs and letters beyond ASCII, a cloud id with two colons, and one whose
content is a host alone. -/
theorem address_build?_three :
    (∃ id, build? "né" (content "hôst.io" "abc" (some "k$x")) = some id ∧
      address id = .ok "https://abc.hôst.io") ∧
    address "a:b:c" = .error (.config (.cloudId (.badFormat "a:b:c"))) ∧
    address "a:aG9zdA==" = .error (.config (.cloudId (.noUuid "host"))) := by
  obtain ⟨hbuilt, hcount, hcontent⟩ := address_build?
  refine ⟨hbuilt "né" "hôst.io" "abc" (some "k$x") (by decide) (by decide) (by decide) (by decide), ?_, ?_⟩
  · exact hcount "a:b:c" (by decide)
  · exact hcontent "a" "aG9zdA==" "host" (by decide) (eq_ok_of_toOption (by decide +kernel)) (by decide)

end LogQuery.CloudId
