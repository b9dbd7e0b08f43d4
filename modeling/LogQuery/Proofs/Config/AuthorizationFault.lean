import LogQuery.Config.Authorization
import LogQuery.Proofs.Config.ValueFault
import LogQuery.Proofs.Json.WriteBytes
/-!
# Credentials that break down

What an environment shows to a service is read from its headers, from the credentials of a user and from
those for a cloud. Which of them break down, and how, is said part by part, in the order in which they are
read: the first one that is not read decides.

* `HeaderBreaks`, `HeadersBreak`: a header, and all of them under their names.
* `BasicBreaks`, `CloudBreaks`: the credentials of a user, and those for a cloud.
* `AuthorizationBreaks`, `resolve_eq_fault`: all that an environment shows to a service.
-/
namespace LogQuery.Authorization

variable {environ : Environ} {env header : Text} {spec table basic cloud : Value} {f : Fault}
  {endpoints : List Text}

/-- What should be the name of a variable is none. -/
inductive NameBreaks : Value → Fault → Prop
  | notText {name : Value} (h : ∀ t, name ≠ .string t) :
    NameBreaks name (.wrongType ("str expected, not " ++ name.kindName))
  | unencodable {t : Text} (h : t.all Environ.isNamePoint = false) : NameBreaks (.string t) .unencodable

/-- A header breaks down: its value cannot be shown, it refers to a variable by what is not the name of one,
or it is nothing that a header can be, and cannot be shown either. -/
inductive HeaderBreaks (spec : Value) : Fault → Prop
  | value {v : Value} (hvalue : spec.member? "value" = some v) (h : v.isShowable = false) :
    HeaderBreaks spec Json.longInteger
  | name {name : Value} {f : Fault} (hvalue : spec.member? "value" = none)
    (hname : spec.member? "env" = some name) (h : NameBreaks name f) : HeaderBreaks spec f
  | unsupported (hvalue : spec.member? "value" = none) (hname : spec.member? "env" = none)
    (h : spec.isShowable = false) : HeaderBreaks spec Json.longInteger

theorem namedVariable_eq_fault {name : Value} :
    namedVariable environ env header name = .error (.fault f) ↔ NameBreaks name f := by
  unfold namedVariable
  split
  next t =>
    by_cases hpoints : t.all Environ.isNamePoint = true
    · rw [if_pos hpoints]
      constructor
      · intro h
        split at h <;> cases h
      · intro h
        cases h with
        | notText htext => exact absurd rfl (htext t)
        | unencodable h => exact absurd hpoints (by simp [h])
    · rw [if_neg hpoints]
      constructor
      · intro h
        cases h
        exact .unencodable (Bool.eq_false_iff.mpr hpoints)
      · intro h
        cases h with
        | notText htext => exact absurd rfl (htext t)
        | unencodable => rfl
  next v htext =>
    constructor
    · intro h
      cases h
      exact .notText htext
    · intro h
      cases h with
      | notText => rfl
      | unencodable => exact absurd rfl (htext _)

theorem headerValue_of_value {v : Value} (hvalue : spec.member? "value" = some v) :
    headerValue environ env header spec = v.shown.mapError .fault := by
  cases spec with
  | map entries => simp only [headerValue, hvalue]
  | _ => cases hvalue

theorem headerValue_of_name {name : Value} (hvalue : spec.member? "value" = none)
    (hname : spec.member? "env" = some name) :
    headerValue environ env header spec = namedVariable environ env header name := by
  cases spec with
  | map entries => simp only [headerValue, hvalue, hname]
  | _ => cases hname

/-- A header that is neither a table with a value nor one with a name is a text, or it is reported. -/
theorem headerValue_of_neither (hvalue : spec.member? "value" = none) (hname : spec.member? "env" = none) :
    headerValue environ env header spec = .error (.fault f) ↔
      spec.isShowable = false ∧ f = Json.longInteger := by
  unfold headerValue
  rw [hvalue, hname]
  split
  next t => exact iff_of_false nofun (by simp [Value.isShowable, Scalar.isShowable, Json.scalarRefusal?])
  next h => cases h
  next h => cases h
  next =>
    rw [Except.error.injEq, Failure.naming_eq_fault]
    simp

theorem headerValue_eq_fault :
    headerValue environ env header spec = .error (.fault f) ↔ HeaderBreaks spec f := by
  constructor
  · intro h
    cases hvalue : spec.member? "value" with
    | some v =>
      rw [headerValue_of_value hvalue, mapError_fault_iff, Value.shown_eq_error_iff] at h
      obtain ⟨hlong, rfl⟩ := h
      exact .value hvalue hlong
    | none =>
      cases hname : spec.member? "env" with
      | some name =>
        rw [headerValue_of_name hvalue hname, namedVariable_eq_fault] at h
        exact .name hvalue hname h
      | none =>
        obtain ⟨hlong, rfl⟩ := (headerValue_of_neither hvalue hname).mp h
        exact .unsupported hvalue hname hlong
  · intro h
    cases h with
    | value hvalue h =>
      rw [headerValue_of_value hvalue, mapError_fault_iff]
      exact Value.shown_eq_error_iff.mpr ⟨h, rfl⟩
    | name hvalue hname h =>
      rw [headerValue_of_name hvalue hname]
      exact namedVariable_eq_fault.mpr h
    | unsupported hvalue hname h => exact (headerValue_of_neither hvalue hname).mpr ⟨h, rfl⟩

/-- The headers of a table that are given one by one break down. -/
inductive HeadersBreak (environ : Environ) (env : Text) (table : Value) : Fault → Prop
  | noTable (h : table.LacksTable "header") : HeadersBreak environ env table .missingOperation
  /-- One of them does, and those in front of it do not. -/
  | header {before after : List (Scalar × Value)} {e : Scalar × Value} {f : Fault}
    (hspecs : table.table "header" = .ok (before ++ e :: after))
    (hbefore : ∀ b ∈ before, ∃ t, headerValue environ env b.1.display b.2 = .ok t)
    (h : HeaderBreaks e.2 f) : HeadersBreak environ env table f
  /-- What is wrong with one of them would be reported under its name, which cannot be shown. -/
  | unnamed {before after : List (Scalar × Value)} {e : Scalar × Value} {cause : ConfigError}
    (hspecs : table.table "header" = .ok (before ++ e :: after))
    (hbefore : ∀ b ∈ before, ∃ t, headerValue environ env b.1.display b.2 = .ok t)
    (hcause : headerValue environ env e.1.display e.2 = .error (.config cause))
    (hname : (Value.scalar e.1).isShowable = false) : HeadersBreak environ env table Json.longInteger

def namedHeader (environ : Environ) (env : Text) (e : Scalar × Value) : Except Failure (Scalar × Value) :=
  ((headerValue environ env e.1.display e.2).mapError (.naming (.scalar e.1))).map fun value =>
    (e.1, Value.string value)

theorem ownHeaders_eq : ownHeaders environ env table =
    ((table.table "header").mapError .fault >>= fun specs => specs.mapM (namedHeader environ env)) := rfl

theorem namedHeader_eq_ok_iff {e : Scalar × Value} :
    (∃ y, namedHeader environ env e = .ok y) ↔ ∃ t, headerValue environ env e.1.display e.2 = .ok t := by
  unfold namedHeader
  cases headerValue environ env e.1.display e.2 <;> simp [Except.mapError, Except.map]

theorem namedHeader_eq_fault {e : Scalar × Value} : namedHeader environ env e = .error (.fault f) ↔
    HeaderBreaks e.2 f ∨ (∃ cause, headerValue environ env e.1.display e.2 = .error (.config cause)) ∧
      (Value.scalar e.1).isShowable = false ∧ f = Json.longInteger := by
  rw [namedHeader, map_eq_error_iff, mapError_naming_eq_fault, headerValue_eq_fault]

theorem ownHeaders_eq_fault :
    ownHeaders environ env table = .error (.fault f) ↔ HeadersBreak environ env table f := by
  rw [ownHeaders_eq, bind_eq_error_iff, mapError_fault_iff, Value.table_eq_error_iff]
  simp only [mapM_eq_error_iff, namedHeader_eq_ok_iff, namedHeader_eq_fault, mapError_eq_ok_iff]
  constructor
  · rintro (⟨h, rfl⟩ | ⟨_, hspecs, before, e, after, rfl, hbefore, h | ⟨⟨cause, hcause⟩, hname, rfl⟩⟩)
    · exact .noTable h
    · exact .header hspecs hbefore h
    · exact .unnamed hspecs hbefore hcause hname
  · intro h
    cases h with
    | noTable h => exact Or.inl ⟨h, rfl⟩
    | header hspecs hbefore h => exact Or.inr ⟨_, hspecs, _, _, _, rfl, hbefore, Or.inl h⟩
    | unnamed hspecs hbefore hcause hname =>
      exact Or.inr ⟨_, hspecs, _, _, _, rfl, hbefore, Or.inr ⟨⟨_, hcause⟩, hname, rfl⟩⟩

/-- The credentials of a user break down: they are no table, or the name or the password cannot be shown or
has a lone surrogate in it. -/
inductive BasicBreaks (basic : Value) : Fault → Prop
  | noTable (h : basic.isTable = false) : BasicBreaks basic .missingOperation
  | user {user : Value} (huser : basic.entryOr "user" (.string []) = .ok user)
    (h : user.isShowable = false) : BasicBreaks basic Json.longInteger
  | password {user password : Value} (huser : basic.entryOr "user" (.string []) = .ok user)
    (hshown : user.isShowable = true) (hpassword : basic.entryOr "password" (.string []) = .ok password)
    (h : password.isShowable = false) : BasicBreaks basic Json.longInteger
  | unencodable {user password : Value} (huser : basic.entryOr "user" (.string []) = .ok user)
    (hshown : user.isShowable = true) (hpassword : basic.entryOr "password" (.string []) = .ok password)
    (hshown' : password.isShowable = true)
    (h : (user.display ++ ":" ++ password.display).all CodePoint.isScalar = false) :
    BasicBreaks basic .unencodable

theorem encode?_eq_none_iff {t : Text} : Utf8.encode? t = none ↔ t.all CodePoint.isScalar = false := by
  rw [← Bool.not_eq_true, ← Utf8.exists_encode_iff]
  cases Utf8.encode? t <;> simp

/-- The credentials of a user as they are sent. -/
def tokenOf (user password : Text) : Except Failure Text :=
  match Utf8.encode? (user ++ ":" ++ password) with
  | some bytes => .ok ("Basic " ++ Base64.encode bytes)
  | none => .error (.fault .unencodable)

theorem tokenOf_eq_fault {user password : Text} : tokenOf user password = .error (.fault f) ↔
    (user ++ ":" ++ password).all CodePoint.isScalar = false ∧ f = .unencodable := by
  rw [← encode?_eq_none_iff, tokenOf]
  cases Utf8.encode? (user ++ ":" ++ password) <;> simp [eq_comm]

theorem basicToken_eq {user password : Value} (huser : basic.entryOr "user" (.string []) = .ok user)
    (hpassword : basic.entryOr "password" (.string []) = .ok password) :
    basicToken basic = (user.shown.mapError .fault >>= fun user =>
      password.shown.mapError .fault >>= fun password => tokenOf user password) := by
  unfold basicToken
  rw [huser, hpassword]
  rfl

theorem basicToken_of_not_table (h : basic.isTable = false) :
    basicToken basic = .error (.fault .missingOperation) := by
  rw [basicToken, Value.entryOr_eq_error_iff.mpr ⟨h, rfl⟩]
  rfl

theorem basicToken_eq_fault : basicToken basic = .error (.fault f) ↔ BasicBreaks basic f := by
  constructor
  · intro h
    cases htable : basic.isTable with
    | false =>
      rw [basicToken_of_not_table htable] at h
      cases h
      exact .noTable htable
    | true =>
      obtain ⟨user, huser⟩ := Value.exists_entryOr htable "user" (.string [])
      obtain ⟨password, hpassword⟩ := Value.exists_entryOr htable "password" (.string [])
      rw [basicToken_eq huser hpassword] at h
      rcases eq_error_of_bind h with h | ⟨shown, hshown, h⟩
      · obtain ⟨hlong, rfl⟩ := Value.shown_eq_error_iff.mp (mapError_fault_iff.mp h)
        exact .user huser hlong
      obtain ⟨hfine, rfl⟩ := Value.shown_eq_ok_iff.mp (mapError_eq_ok_iff.mp hshown)
      rcases eq_error_of_bind h with h | ⟨shown', hshown', h⟩
      · obtain ⟨hlong, rfl⟩ := Value.shown_eq_error_iff.mp (mapError_fault_iff.mp h)
        exact .password huser hfine hpassword hlong
      obtain ⟨hfine', rfl⟩ := Value.shown_eq_ok_iff.mp (mapError_eq_ok_iff.mp hshown')
      obtain ⟨hsurrogate, rfl⟩ := tokenOf_eq_fault.mp h
      exact .unencodable huser hfine hpassword hfine' hsurrogate
  · intro h
    cases h with
    | noTable h => exact basicToken_of_not_table h
    | user huser h =>
      obtain ⟨password, hpassword⟩ :=
        Value.exists_entryOr (Value.isTable_of_entryOr huser) "password" (.string [])
      rw [basicToken_eq huser hpassword, Value.shown_eq_error_iff.mpr ⟨h, rfl⟩]
      rfl
    | password huser hshown hpassword h =>
      rw [basicToken_eq huser hpassword, Value.shown_eq_ok_iff.mpr ⟨hshown, rfl⟩,
        Value.shown_eq_error_iff.mpr ⟨h, rfl⟩]
      rfl
    | unencodable huser hshown hpassword hshown' h =>
      rw [basicToken_eq huser hpassword, Value.shown_eq_ok_iff.mpr ⟨hshown, rfl⟩,
        Value.shown_eq_ok_iff.mpr ⟨hshown', rfl⟩]
      exact tokenOf_eq_fault.mpr ⟨h, rfl⟩

/-- A cloud id breaks down. -/
inductive CloudIdBreaks : Value → Fault → Prop
  | notText {id : Value} (htext : ∀ t, id ≠ .string t) (hbytes : ∀ b, id ≠ .scalar (.bytes b)) :
    CloudIdBreaks id .missingOperation
  | bytes (b : Bytes) :
    CloudIdBreaks (.scalar (.bytes b)) (.wrongType "a bytes-like object is required, not 'str'")
  /-- It is of the right form, but there is something in it that cannot stand in base 64 at all. -/
  | notAscii {id name encoded : Text} (hid : id.splitOn (.scalar ':') = [name, encoded])
    (h : CloudId.isAscii encoded = false) :
    CloudIdBreaks (.string id) (.badValue "string argument should contain only ASCII characters")

theorem address_eq_fault {id : Text} :
    CloudId.address id = .error (.fault f) ↔ CloudIdBreaks (.string id) f := by
  unfold CloudId.address
  split
  next name encoded hid =>
    by_cases hascii : CloudId.isAscii encoded = true
    · rw [if_pos hascii]
      refine iff_of_false (fun h => ?_) fun h => ?_
      · obtain ⟨e, -, h⟩ := eq_error_of_mapError h
        cases h
      · cases h with
        | notText htext => exact htext id rfl
        | notAscii hid' h =>
          cases hid.symm.trans hid'
          cases hascii.symm.trans h
    · rw [if_neg hascii]
      constructor
      · intro h
        cases h
        exact .notAscii hid (Bool.eq_false_iff.mpr hascii)
      · intro h
        cases h with
        | notText htext => exact absurd rfl (htext id)
        | notAscii => rfl
  next hform =>
    refine iff_of_false nofun fun h => ?_
    cases h with
    | notText htext => exact htext id rfl
    | notAscii hid => exact hform _ _ hid

def addressFor (env : Text) (id : Value) : Except Failure Text :=
  match id with
  | .string id => (CloudId.address id).mapError (inEnv env)
  | .scalar (.bytes _) => .error (.fault (.wrongType "a bytes-like object is required, not 'str'"))
  | _ => .error (.fault .missingOperation)

theorem inEnv_eq_fault {e : Failure} : inEnv env e = .fault f ↔ e = .fault f := by
  unfold inEnv
  split
  next => exact iff_of_false nofun nofun
  next => exact Iff.rfl

theorem addressFor_eq_fault {id : Value} :
    addressFor env id = .error (.fault f) ↔ CloudIdBreaks id f := by
  unfold addressFor
  split
  next id =>
    rw [← address_eq_fault]
    constructor
    · intro h
      obtain ⟨e, h, he⟩ := eq_error_of_mapError h
      rw [h, inEnv_eq_fault.mp he]
    · intro h
      rw [h]
      rfl
  next b =>
    constructor
    · intro h
      cases h
      exact .bytes b
    · intro h
      cases h with
      | notText _ hbytes => exact absurd rfl (hbytes b)
      | bytes => rfl
  next htext hbytes =>
    constructor
    · intro h
      cases h
      exact .notText htext hbytes
    · intro h
      cases h with
      | notText => rfl
      | bytes b => exact absurd rfl (hbytes b)
      | notAscii => exact absurd rfl (htext _)

theorem cloudAccess_eq {id key : Value} (hid : cloud.entryOr "cloud_id" (.string []) = .ok id)
    (hkey : cloud.entryOr "api_key" (.string []) = .ok key) :
    cloudAccess env cloud = (addressFor env id >>= fun address =>
      (key.shown.mapError .fault).map fun key : Text => (address, "ApiKey " ++ key)) := by
  unfold cloudAccess
  rw [hid, hkey]
  unfold addressFor
  cases id with
  | scalar s =>
    cases s with
    | string t =>
      simp only [Except.mapError, bind, Except.bind]
      cases CloudId.address t <;> cases key.shown <;> rfl
    | _ => rfl
  | _ => rfl

/-- The credentials for a service in a cloud break down: they are no table, the id breaks down, or the key
cannot be shown. -/
inductive CloudBreaks (env : Text) (cloud : Value) : Fault → Prop
  | noTable (h : cloud.isTable = false) : CloudBreaks env cloud .missingOperation
  | id {id : Value} {f : Fault} (hid : cloud.entryOr "cloud_id" (.string []) = .ok id)
    (h : CloudIdBreaks id f) : CloudBreaks env cloud f
  | key {id key : Value} {address : Text} (hid : cloud.entryOr "cloud_id" (.string []) = .ok id)
    (haddress : addressFor env id = .ok address) (hkey : cloud.entryOr "api_key" (.string []) = .ok key)
    (h : key.isShowable = false) : CloudBreaks env cloud Json.longInteger

theorem cloudAccess_of_not_table (h : cloud.isTable = false) :
    cloudAccess env cloud = .error (.fault .missingOperation) := by
  rw [cloudAccess, Value.entryOr_eq_error_iff.mpr ⟨h, rfl⟩]
  rfl

theorem cloudAccess_eq_fault : cloudAccess env cloud = .error (.fault f) ↔ CloudBreaks env cloud f := by
  constructor
  · intro h
    cases htable : cloud.isTable with
    | false =>
      rw [cloudAccess_of_not_table htable] at h
      cases h
      exact .noTable htable
    | true =>
      obtain ⟨id, hid⟩ := Value.exists_entryOr htable "cloud_id" (.string [])
      obtain ⟨key, hkey⟩ := Value.exists_entryOr htable "api_key" (.string [])
      rw [cloudAccess_eq hid hkey] at h
      rcases eq_error_of_bind h with h | ⟨address, haddress, h⟩
      · exact .id hid (addressFor_eq_fault.mp h)
      · obtain ⟨hlong, rfl⟩ := Value.shown_eq_error_iff.mp (mapError_fault_iff.mp (map_eq_error_iff.mp h))
        exact .key hid haddress hkey hlong
  · intro h
    cases h with
    | noTable h => exact cloudAccess_of_not_table h
    | id hid h =>
      obtain ⟨key, hkey⟩ := Value.exists_entryOr (Value.isTable_of_entryOr hid) "api_key" (.string [])
      rw [cloudAccess_eq hid hkey, addressFor_eq_fault.mpr h]
      rfl
    | key hid haddress hkey h =>
      rw [cloudAccess_eq hid hkey, haddress]
      show (Except.map _ (_ : Except Failure Text)) = _
      rw [Value.shown_eq_error_iff.mpr ⟨h, rfl⟩]
      rfl

/-- What an environment shows to a service breaks down: of its headers, the credentials of a user and those
for a cloud, in this order, the first that is not read does. -/
inductive AuthorizationBreaks (environ : Environ) (env : Text) (table : Value) : Fault → Prop
  | headers {f : Fault} (h : HeadersBreak environ env table f) : AuthorizationBreaks environ env table f
  | basic {headers : Headers} {basic : Value} {f : Fault}
    (hheaders : ownHeaders environ env table = .ok headers) (hbasic : table.entry "basic" = .ok basic)
    (htruthy : basic.isTruthy = true) (h : BasicBreaks basic f) :
    AuthorizationBreaks environ env table f
  | cloud {headers : Headers} {basic cloud : Value} {f : Fault}
    (hheaders : ownHeaders environ env table = .ok headers) (hbasic : table.entry "basic" = .ok basic)
    (hfine : basic.isTruthy = true → ∃ token, basicToken basic = .ok token)
    (hcloud : table.entry "cloud" = .ok cloud) (htruthy : cloud.isTruthy = true)
    (h : CloudBreaks env cloud f) : AuthorizationBreaks environ env table f

theorem isTable_of_ownHeaders {headers : Headers} (h : ownHeaders environ env table = .ok headers) :
    table.isTable = true := by
  obtain ⟨specs, hspecs, -⟩ := eq_ok_of_bind h
  obtain ⟨w, hw, -⟩ := eq_ok_of_bind (mapError_eq_ok_iff.mp hspecs)
  exact Value.isTable_of_entry hw

/-- The steps of reading what an environment shows to a service, and the first that fails. -/
theorem resolve_eq_error_iff {e : Failure} : resolve environ env table endpoints = .error e ↔
    ownHeaders environ env table = .error e ∨
    ∃ headers basic, ownHeaders environ env table = .ok headers ∧ table.entry "basic" = .ok basic ∧
      ((basic.isTruthy = true ∧ basicToken basic = .error e) ∨
      ((basic.isTruthy = true → ∃ token, basicToken basic = .ok token) ∧
        ∃ cloud, table.entry "cloud" = .ok cloud ∧ cloud.isTruthy = true ∧
          cloudAccess env cloud = .error e)) := by
  unfold resolve
  cases hheaders : ownHeaders environ env table with
  | error e' => simp [bind, Except.bind]
  | ok headers =>
    have htable := isTable_of_ownHeaders hheaders
    obtain ⟨basic, hbasic⟩ := Value.exists_entry htable "basic"
    obtain ⟨cloud, hcloud⟩ := Value.exists_entry htable "cloud"
    simp only [hbasic, hcloud, Except.mapError, bind, Except.bind]
    by_cases hbasic' : basic.isTruthy = true
    · cases htoken : basicToken basic with
      | error e' => simp [hbasic', htoken, Except.map]
      | ok token =>
        by_cases hcloud' : cloud.isTruthy = true
        · cases haccess : cloudAccess env cloud <;> simp [hbasic', htoken, hcloud', haccess, Except.map]
        · simp [hbasic', htoken, hcloud', Except.map]
    · by_cases hcloud' : cloud.isTruthy = true
      · simp [hbasic', hcloud', map_eq_error_iff]
      · simp [hbasic', hcloud']

theorem resolve_eq_fault : resolve environ env table endpoints = .error (.fault f) ↔
    AuthorizationBreaks environ env table f := by
  rw [resolve_eq_error_iff, ownHeaders_eq_fault]
  constructor
  · rintro (h | ⟨headers, basic, hheaders, hbasic, ⟨htruthy, h⟩ | ⟨hfine, cloud, hcloud, htruthy, h⟩⟩)
    · exact .headers h
    · exact .basic hheaders hbasic htruthy (basicToken_eq_fault.mp h)
    · exact .cloud hheaders hbasic hfine hcloud htruthy (cloudAccess_eq_fault.mp h)
  · intro h
    cases h with
    | headers h => exact Or.inl h
    | basic hheaders hbasic htruthy h =>
      exact Or.inr ⟨_, _, hheaders, hbasic, Or.inl ⟨htruthy, basicToken_eq_fault.mpr h⟩⟩
    | cloud hheaders hbasic hfine hcloud htruthy h =>
      exact Or.inr ⟨_, _, hheaders, hbasic,
        Or.inr ⟨hfine, _, hcloud, htruthy, cloudAccess_eq_fault.mpr h⟩⟩

end LogQuery.Authorization
