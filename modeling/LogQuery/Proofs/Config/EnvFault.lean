import LogQuery.Config.Read
import LogQuery.Proofs.Config.AuthorizationFault
/-!
# Environments that break down

An environment that cannot be read is reported with an error that says why. Some break down instead, because
something is not a table or a sequence where one has to be, because a text cannot be encoded or an integer
cannot be shown, or because a number is too large. The first part that is not read decides.

* `NumbersBreak`, `readNumbers_eq_fault`: the limit and the timeout.
* `TableBreaks`, `ofTable_eq_fault`: the table of an environment.
* `EnvBreaks`, `ofValue_eq_fault`: an environment under its name.
-/
namespace LogQuery

namespace Env

open Authorization (AuthorizationBreaks)

variable {environ : Environ} {name : Scalar} {table : Value} {f : Fault}

/-- The limit or the timeout of an environment is too large for what it is converted to. -/
inductive NumbersBreak (table : Value) : Fault → Prop
  | limit {negative : Bool} (h : table.entryOr "limit" (.integer 0) = .ok (.float (.infinite negative))) :
    NumbersBreak table (.overflow "cannot convert float infinity to integer")
  | timeout {limit : Value} {m n : Int} (hlimit : table.entryOr "limit" (.integer 0) = .ok limit)
    (hfine : limit.toInteger = .ok m) (h : table.entryOr "timeout" (.integer 10) = .ok (.integer n))
    (hlarge : Binary64.ofInt? n = none) :
    NumbersBreak table (.overflow "int too large to convert to float")

theorem numberFailure_eq_fault {f' : Fault} :
    numberFailure name f' = .fault f ↔ ∃ message, f' = .overflow message ∧ f = .overflow message := by
  cases f' <;> simp [numberFailure, eq_comm]

theorem readNumbers_eq {limit timeout : Value} (hlimit : table.entryOr "limit" (.integer 0) = .ok limit)
    (htimeout : table.entryOr "timeout" (.integer 10) = .ok timeout) :
    readNumbers name table = (limit.toInteger.mapError (numberFailure name) >>= fun m =>
      timeout.toDecimal.mapError (numberFailure name) >>= fun x => .ok (m, x)) := by
  unfold readNumbers
  rw [hlimit, htimeout]
  rfl

theorem readNumbers_eq_fault (htable : table.isTable = true) :
    readNumbers name table = .error (.fault f) ↔ NumbersBreak table f := by
  obtain ⟨limit, hlimit⟩ := Value.exists_entryOr htable "limit" (.integer 0)
  obtain ⟨timeout, htimeout⟩ := Value.exists_entryOr htable "timeout" (.integer 10)
  rw [readNumbers_eq hlimit htimeout]
  constructor
  · intro h
    rcases eq_error_of_bind h with h | ⟨m, hm, h⟩
    · obtain ⟨cause, hcause, hf⟩ := eq_error_of_mapError h
      obtain ⟨message, rfl, rfl⟩ := numberFailure_eq_fault.mp hf
      obtain ⟨negative, rfl, rfl⟩ := Value.toInteger_eq_overflow.mp hcause
      exact .limit hlimit
    rcases eq_error_of_bind h with h | ⟨x, -, h⟩
    · obtain ⟨cause, hcause, hf⟩ := eq_error_of_mapError h
      obtain ⟨message, rfl, rfl⟩ := numberFailure_eq_fault.mp hf
      obtain ⟨n, rfl, hlarge, rfl⟩ := Value.toDecimal_eq_overflow.mp hcause
      exact .timeout hlimit (mapError_eq_ok_iff.mp hm) htimeout hlarge
    · cases h
  · intro h
    cases h with
    | limit hinfinite =>
      cases hlimit.symm.trans hinfinite
      rfl
    | @timeout _ m n hlimit' hfine htimeout' hlarge =>
      cases hlimit.symm.trans hlimit'
      cases htimeout.symm.trans htimeout'
      have hdecimal := Value.toDecimal_eq_overflow.mpr ⟨n, rfl, hlarge, rfl⟩
      rw [hfine, hdecimal]
      rfl

/-! ## Whole environments -/

theorem readSource_eq_fault : readSource name table = .error (.fault f) ↔
    (table.isTable = false ∧ f = .missingOperation) ∨ ∃ source, table.entry "source" = .ok source ∧
      source.isTruthy = true ∧ source.isShowable = false ∧ f = Json.longInteger := by
  unfold readSource
  rw [bind_eq_error_iff, mapError_fault_iff, Value.entry_eq_error_iff]
  refine or_congr Iff.rfl (exists_congr fun source => ?_)
  rw [mapError_eq_ok_iff]
  refine and_congr_right fun _ => ?_
  by_cases htruthy : source.isTruthy = true
  · rw [if_pos htruthy]
    split
    next =>
      exact iff_of_false (by simp) (by simp [Value.isShowable, Scalar.isShowable, Json.scalarRefusal?])
    next =>
      rw [Except.error.injEq, Failure.naming_eq_fault]
      simp [htruthy]
  · rw [if_neg htruthy]
    exact iff_of_false (by simp) fun h => htruthy h.1

theorem isTable_of_readSource {b : Backend} (h : readSource name table = .ok b) : table.isTable = true := by
  obtain ⟨source, hsource, -⟩ := eq_ok_of_bind h
  exact Value.isTable_of_entry (mapError_eq_ok_iff.mp hsource)

/-- The endpoints of a table break down: they are no sequence, or one of them cannot be shown. -/
inductive EndpointsBreak (table : Value) : Fault → Prop
  | noSequence {v : Value} {f : Fault} (hv : table.entry "endpoints" = .ok v) (htruthy : v.isTruthy = true)
    (h : v.NoSequence f) : EndpointsBreak table f
  | endpoint {v x : Value} {xs : List Value} (hv : table.entry "endpoints" = .ok v)
    (htruthy : v.isTruthy = true) (hxs : v.elements = .ok xs) (hx : x ∈ xs) (h : x.isShowable = false) :
    EndpointsBreak table Json.longInteger

theorem readEndpoints_eq_error_iff (htable : table.isTable = true) :
    readEndpoints table = .error f ↔ EndpointsBreak table f := by
  obtain ⟨v, hv⟩ := Value.exists_entry htable "endpoints"
  have hread : readEndpoints table
      = ((v.orElse (.list [])).elements >>= fun elements => elements.mapM Value.shown) := by
    rw [readEndpoints, hv]
    rfl
  have halike : ∀ x f, Value.shown x = .error f → f = Json.longInteger := fun _ _ h =>
    (Value.shown_eq_error_iff.mp h).2
  rw [hread, Value.orElse, bind_eq_error_iff]
  simp only [mapM_eq_error_iff_exists fun x _ => halike x, Value.shown_eq_error_iff,
    Value.elements_eq_error_iff,
    and_true]
  constructor
  · intro h
    split at h
    next htruthy =>
      rcases h with h | ⟨xs, hxs, rfl, x, hx, h⟩
      · exact .noSequence hv htruthy h
      · exact .endpoint hv htruthy hxs hx h
    next =>
      rcases h with h | ⟨xs, hxs, -, x, hx, -⟩
      · cases h
      · cases hxs
        cases hx
  · intro h
    cases h with
    | noSequence hv' htruthy h =>
      cases hv.symm.trans hv'
      rw [if_pos htruthy]
      exact Or.inl h
    | endpoint hv' htruthy hxs hx h =>
      cases hv.symm.trans hv'
      rw [if_pos htruthy]
      exact Or.inr ⟨_, hxs, rfl, _, hx, h⟩

theorem exists_setting (htable : table.isTable = true) (key : String) :
    ∃ v, setting table key = .ok v := by
  obtain ⟨v, hv⟩ := Value.exists_entryOr htable key (.string [])
  exact ⟨v, by rw [setting, hv]; rfl⟩

theorem exists_readDefault (htable : table.isTable = true) : ∃ b, readDefault table = .ok b := by
  obtain ⟨v, hv⟩ := Value.exists_entryOr htable "default" (.bool false)
  exact ⟨v.isTruthy, by rw [readDefault, hv]; rfl⟩

theorem exists_readKey (htable : table.isTable = true) (environ : Environ) (key name : String) :
    ∃ v, readKey environ table key name = .ok v := by
  obtain ⟨v, hv⟩ := Value.exists_entry htable key
  exact ⟨_, by rw [readKey, hv]; rfl⟩

/-- The steps of reading an environment, and the first that fails. What is read behind the numbers is there
in every table. -/
theorem ofTable_eq_error_iff {e : Failure} : ofTable environ name table = .error e ↔
    readSource name table = .error e ∨
    ∃ b, readSource name table = .ok b ∧ ((readEndpoints table).mapError .fault = .error e ∨
      ∃ endpoints authorization, readEndpoints table = .ok endpoints ∧
        table.entry "authorization" = .ok authorization ∧
        (Authorization.resolve environ name.display (authorization.orElse (.map [])) endpoints = .error e ∨
        ∃ shown, Authorization.resolve environ name.display (authorization.orElse (.map [])) endpoints
          = .ok shown ∧ readNumbers name table = .error e)) := by
  unfold ofTable
  cases hsource : readSource name table with
  | error e' => simp [bind, Except.bind]
  | ok b =>
    have htable := isTable_of_readSource hsource
    obtain ⟨authorization, hauthorization⟩ := Value.exists_entry htable "authorization"
    obtain ⟨index, hindex⟩ := exists_setting htable "index"
    obtain ⟨isDefault, hdefault⟩ := exists_readDefault htable
    obtain ⟨timezone, htimezone⟩ := exists_setting htable "timezone"
    obtain ⟨timeFormat, htimeFormat⟩ := exists_setting htable "time_format"
    obtain ⟨output, houtput⟩ := exists_setting htable "output"
    obtain ⟨order, horder⟩ := exists_setting htable "order"
    obtain ⟨apiKey, hapiKey⟩ := exists_readKey htable environ "dd_api_key" "DD_API_KEY"
    obtain ⟨appKey, happKey⟩ := exists_readKey htable environ "dd_personal_key" "DD_APP_KEY"
    cases hendpoints : readEndpoints table with
    | error f => simp [Except.mapError, bind, Except.bind]
    | ok endpoints =>
      cases hshown :
          Authorization.resolve environ name.display (authorization.orElse (.map [])) endpoints with
      | error e' => simp [Except.mapError, bind, Except.bind, hauthorization, hshown]
      | ok shown =>
        obtain ⟨headers, found⟩ := shown
        cases hnumbers : readNumbers name table <;>
          simp [Except.mapError, bind, Except.bind, hauthorization, hshown, hindex, hdefault, htimezone,
            htimeFormat, houtput, horder, hapiKey, happKey]

/-- The table of an environment breaks down: it is none, its source cannot be shown, or its endpoints, what
it shows to a service or one of its numbers breaks down. -/
inductive TableBreaks (environ : Environ) (name : Scalar) (table : Value) : Fault → Prop
  | noTable (h : table.isTable = false) : TableBreaks environ name table .missingOperation
  | source {v : Value} (hv : table.entry "source" = .ok v) (htruthy : v.isTruthy = true)
    (h : v.isShowable = false) : TableBreaks environ name table Json.longInteger
  | endpoints {b : Backend} {f : Fault} (hsource : readSource name table = .ok b)
    (h : EndpointsBreak table f) : TableBreaks environ name table f
  | authorization {b : Backend} {endpoints : List Text} {v : Value} {f : Fault}
    (hsource : readSource name table = .ok b) (hendpoints : readEndpoints table = .ok endpoints)
    (hv : table.entry "authorization" = .ok v)
    (h : AuthorizationBreaks environ name.display (v.orElse (.map [])) f) :
    TableBreaks environ name table f
  | numbers {b : Backend} {endpoints : List Text} {v : Value} {shown : Headers × List Text} {f : Fault}
    (hsource : readSource name table = .ok b) (hendpoints : readEndpoints table = .ok endpoints)
    (hv : table.entry "authorization" = .ok v)
    (hshown : Authorization.resolve environ name.display (v.orElse (.map [])) endpoints = .ok shown)
    (h : NumbersBreak table f) : TableBreaks environ name table f

theorem ofTable_eq_fault :
    ofTable environ name table = .error (.fault f) ↔ TableBreaks environ name table f := by
  rw [ofTable_eq_error_iff, readSource_eq_fault]
  constructor
  · rintro ((⟨h, rfl⟩ | ⟨v, hv, htruthy, h, rfl⟩) |
      ⟨b, hsource, h | ⟨endpoints, v, hendpoints, hv, h | ⟨shown, hshown, h⟩⟩⟩)
    · exact .noTable h
    · exact .source hv htruthy h
    · exact .endpoints hsource
        ((readEndpoints_eq_error_iff (isTable_of_readSource hsource)).mp (mapError_fault_iff.mp h))
    · exact .authorization hsource hendpoints hv (Authorization.resolve_eq_fault.mp h)
    · exact .numbers hsource hendpoints hv hshown
        ((readNumbers_eq_fault (isTable_of_readSource hsource)).mp h)
  · intro h
    cases h with
    | noTable h => exact Or.inl (Or.inl ⟨h, rfl⟩)
    | source hv htruthy h => exact Or.inl (Or.inr ⟨_, hv, htruthy, h, rfl⟩)
    | endpoints hsource h =>
      refine Or.inr ⟨_, hsource, Or.inl (mapError_fault_iff.mpr ?_)⟩
      exact (readEndpoints_eq_error_iff (isTable_of_readSource hsource)).mpr h
    | authorization hsource hendpoints hv h =>
      refine Or.inr ⟨_, hsource, Or.inr ⟨_, _, hendpoints, hv, Or.inl ?_⟩⟩
      exact Authorization.resolve_eq_fault.mpr h
    | numbers hsource hendpoints hv hshown h =>
      refine Or.inr ⟨_, hsource, Or.inr ⟨_, _, hendpoints, hv, Or.inr ⟨_, hshown, ?_⟩⟩⟩
      exact (readNumbers_eq_fault (isTable_of_readSource hsource)).mpr h

/-- An environment breaks down: its table does, or what is wrong with it would be reported under a name that
cannot be shown. -/
inductive EnvBreaks (environ : Environ) (name : Scalar) (table : Value) : Fault → Prop
  | table {f : Fault} (h : TableBreaks environ name table f) : EnvBreaks environ name table f
  | unnamed {cause : ConfigError} (hcause : ofTable environ name table = .error (.config cause))
    (hname : (Value.scalar name).isShowable = false) : EnvBreaks environ name table Json.longInteger

/-- **When an environment breaks down**, and how. -/
theorem ofValue_eq_fault :
    Env.ofValue environ name table = .error (.fault f) ↔ EnvBreaks environ name table f := by
  rw [Env.ofValue, mapError_naming_eq_fault, ofTable_eq_fault]
  constructor
  · rintro (h | ⟨⟨cause, hcause⟩, hname, rfl⟩)
    · exact .table h
    · exact .unnamed hcause hname
  · intro h
    cases h with
    | table h => exact Or.inl h
    | unnamed hcause hname => exact Or.inr ⟨⟨_, hcause⟩, hname, rfl⟩

end Env
end LogQuery
