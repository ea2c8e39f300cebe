import TheAuth.Rar.Narrow

/-!
# Authorization details of the authorization server

The bound on the size of a value is checked on the text of the request, and what is stored is a new
text: escapes and inherited attributes make it longer. One beyond the bound is refused when the next
token is minted.
-/

set_option autoImplicit false

namespace TheAuth.Server

open Go Library Library.Result Rar List

structure RARConfig where
  types : List Bytes
  maxDetails : Int

inductive RarError where
  /-- `authorization_details is not supported`. -/
  | notSupported
  | invalid (e : Invalid)
  /-- `type %q is not supported`. -/
  | typeNotSupported (type : Bytes)
  /-- `client may not request type %q`. -/
  | typeNotAllowed (type : Bytes)
  /-- `no authorization_details were granted`. -/
  | notGranted
  /-- `requested details exceed the grant`. -/
  | exceedsGrant | undecodable
deriving DecidableEq

variable [JsonFloat]

def vetType (rar : RARConfig) (clientTypes : Option (List Bytes)) (d : Detail) :
    Except RarError Unit := do
  refuseIf (d.type ∉ rar.types) (.typeNotSupported d.type)
  refuseIf (clientTypes.any fun types => !types.isEmpty && !types.contains d.type)
    (.typeNotAllowed d.type)

def parseAuthorizationDetails (rar : Option RARConfig) (clientTypes : Option (List Bytes))
    (raw : Bytes) : Except RarError (List Detail × Bytes) :=
  if raw = [] then .ok ([], []) else do
    let rar ← orRefuse rar .notSupported
    let list ← (parse raw rar.maxDetails).mapError .invalid
    list.forM (vetType rar clientTypes)
    return (list, marshal list)

def maxStoredDetails : Int := 1024

def grantedDetails (granted : Bytes) : Except RarError (List Detail) := do
  let grant ← (parseBytes granted maxStoredDetails).mapError fun _ => .notGranted
  refuseIf (grant = []) .notGranted
  return grant

def narrowAuthorizationDetails (rar : Option RARConfig) (clientTypes : Option (List Bytes))
    (requestedRaw granted : Bytes) : Except RarError Bytes :=
  if requestedRaw = [] then .ok granted else do
    let (requested, _) ← parseAuthorizationDetails rar clientTypes requestedRaw
    let grant ← grantedDetails granted
    let eff ← orRefuse (narrow requested grant) .exceedsGrant
    return marshal eff

def toAny (list : List Detail) : Except RarError (List Value) :=
  match readJson (marshal list) with
  | some (.arr entries, _) => orRefuse (entriesToValue entries) .undecodable
  | _ => .error .undecodable

def authorizationDetailsClaim (stored : Bytes) : Except RarError (Option (List Value)) :=
  if stored = [] then .ok none else do
    let list ← (parseBytes stored maxStoredDetails).mapError .invalid
    let values ← toAny list
    return some values

def detailsLimit (rar : Option RARConfig) : Int := (rar.map RARConfig.maxDetails).getD 0

/-- The first comes from the authorization request, the others from token requests. -/
inductive Stored (rar : Option RARConfig) : Bytes → Prop
  | authorized {clientTypes : Option (List Bytes)} {raw stored : Bytes} {list : List Detail}
      (parsed : parseAuthorizationDetails rar clientTypes raw = .ok (list, stored)) :
      Stored rar stored
  | narrowed {clientTypes : Option (List Bytes)} {raw granted stored : Bytes}
      (before : Stored rar granted)
      (narrowed : narrowAuthorizationDetails rar clientTypes raw granted = .ok stored) :
      Stored rar stored

/-- The stored text is that of a valid list within the limit. -/
structure WrittenFor (rar : Option RARConfig) (stored : Bytes) (list : List Detail) : Prop where
  text : stored = marshal list
  valid : ∀ d ∈ list, d.Valid
  few : list.length ≤ maxDetails (detailsLimit rar)

variable {rar : Option RARConfig} {clientTypes : Option (List Bytes)} {granted raw stored : Bytes}
  {list : List Detail}

theorem parseAuthorizationDetails_eq_ok
    (parsed : parseAuthorizationDetails rar clientTypes raw = .ok (list, stored)) :
    parse raw (detailsLimit rar) = .ok list ∧ stored = marshal list := by
  unfold parseAuthorizationDetails at parsed
  split at parsed
  next absent =>
    cases parsed
    rw [absent]
    exact ⟨rfl, rfl⟩
  obtain ⟨config, present, parsed⟩ := of_bind parsed
  obtain ⟨_, read, parsed⟩ := of_bind parsed
  obtain ⟨-, parsed⟩ := unit_bind_eq_ok.mp parsed
  cases parsed
  rw [orRefuse_eq_ok.mp present]
  exact ⟨mapError_eq_ok.mp read, rfl⟩

theorem writtenFor_of_parse
    (parsed : parseAuthorizationDetails rar clientTypes raw = .ok (list, stored)) :
    WrittenFor rar stored list := by
  obtain ⟨read, text⟩ := parseAuthorizationDetails_eq_ok parsed
  obtain ⟨valid, few⟩ := valid_of_parseBytes read
  exact ⟨text, valid, few⟩

/-- The effective list is what the request narrows the grant to. -/
def NarrowedTo (rar : Option RARConfig) (clientTypes : Option (List Bytes)) (raw granted : Bytes)
    (effective : List Detail) : Prop :=
  ∃ requested encoded grant,
    parseAuthorizationDetails rar clientTypes raw = .ok (requested, encoded) ∧
      parseBytes granted maxStoredDetails = .ok grant ∧ narrow requested grant = some effective

theorem narrowedTo_of_narrow (asked : raw ≠ [])
    (done : narrowAuthorizationDetails rar clientTypes raw granted = .ok stored) :
    ∃ effective, NarrowedTo rar clientTypes raw granted effective ∧
      WrittenFor rar stored effective := by
  rw [narrowAuthorizationDetails, if_neg asked] at done
  obtain ⟨⟨requested, encoded⟩, parsed, done⟩ := of_bind done
  obtain ⟨grant, read, done⟩ := of_bind done
  obtain ⟨effective, narrowed, done⟩ := of_bind done
  cases done
  obtain ⟨_, found, read⟩ := of_bind read
  obtain ⟨-, read⟩ := of_refuseIf read
  cases read
  have found := mapError_eq_ok.mp found
  have narrowed := orRefuse_eq_ok.mp narrowed
  have asked := writtenFor_of_parse parsed
  refine ⟨effective, ⟨requested, encoded, grant, parsed, found, narrowed⟩, rfl, ?_, ?_⟩
  · exact valid_of_narrow narrowed asked.valid (valid_of_parseBytes found).1
  · rw [length_narrowAll narrowed]
    exact asked.few

theorem Stored.writtenFor (kept : Stored rar stored) :
    ∃ list, WrittenFor rar stored list := by
  induction kept with
  | authorized parsed => exact ⟨_, writtenFor_of_parse parsed⟩
  | @narrowed _ raw _ _ _ narrowed ih =>
    by_cases asked : raw = []
    · rw [narrowAuthorizationDetails, if_pos asked] at narrowed
      cases narrowed
      exact ih
    · obtain ⟨effective, -, written⟩ := narrowedTo_of_narrow asked narrowed
      exact ⟨effective, written⟩

/-- Every stored detail is covered by a granted one. -/
def DetailsWithin (rar : Option RARConfig) (details granted : Bytes) : Prop :=
  ∃ list grants, WrittenFor rar details list ∧ WrittenFor rar granted grants ∧
    ∀ d ∈ list, ∃ g ∈ grants, Covered d g

theorem WrittenFor.within
    (written : WrittenFor rar stored list) : DetailsWithin rar stored stored :=
  ⟨list, list, written, written, fun d listed => ⟨d, listed, .refl d⟩⟩

theorem WrittenFor.unique {first second : List Detail}
    (written : WrittenFor rar stored first) (again : WrittenFor rar stored second) :
    first = second :=
  marshal_inj written.valid again.valid (written.text.symm.trans again.text)

theorem DetailsWithin.trans {details middle : Bytes}
    (first : DetailsWithin rar details middle) (second : DetailsWithin rar middle granted) :
    DetailsWithin rar details granted := by
  obtain ⟨list, _, written, writtenBetween, covered⟩ := first
  obtain ⟨_, grants, writtenBetween', writtenGrants, covered'⟩ := second
  cases writtenBetween.unique writtenBetween'
  refine ⟨list, grants, written, writtenGrants, fun d listed => ?_⟩
  obtain ⟨g, inside, below⟩ := covered d listed
  obtain ⟨h, inside', above⟩ := covered' g inside
  exact ⟨h, inside', attenuates_narrowOne.trans below above⟩

theorem within_of_narrow {grants : List Detail} (written : WrittenFor rar granted grants)
    (done : narrowAuthorizationDetails rar clientTypes raw granted = .ok stored) :
    DetailsWithin rar stored granted := by
  by_cases asked : raw = []
  · rw [narrowAuthorizationDetails, if_pos asked] at done
    cases done
    exact written.within
  · obtain ⟨effective, ⟨_, _, _, -, read, narrowed⟩, again⟩ := narrowedTo_of_narrow asked done
    rw [written.text] at read
    cases eq_of_parseBytes_marshal written.valid read
    exact ⟨effective, grants, again, written, attenuates_narrowOne.narrowAll_covered narrowed⟩

theorem DetailsWithin.claim (within : DetailsWithin rar stored granted)
    {values : List Value} (claimed : authorizationDetailsClaim stored = .ok (some values)) :
    ∃ list grants, toAny list = .ok values ∧ WrittenFor rar granted grants ∧
      ∀ d ∈ list, ∃ g ∈ grants, Covered d g := by
  obtain ⟨list, grants, written, writtenGrants, covered⟩ := within
  unfold authorizationDetailsClaim at claimed
  split at claimed
  · cases claimed
  obtain ⟨_, read, claimed⟩ := of_bind claimed
  obtain ⟨_, converted, claimed⟩ := of_bind claimed
  cases claimed
  have read := mapError_eq_ok.mp read
  rw [written.text] at read
  cases eq_of_parseBytes_marshal written.valid read
  exact ⟨list, grants, converted, writtenGrants, covered⟩

theorem parseBytes_tooLong (long : maxEncodedBytes < raw.length) (max : Int) :
    parseBytes raw max = .error (.tooLong maxEncodedBytes) := by
  have present : raw ≠ [] := by
    rintro rfl
    exact absurd long (Nat.not_lt_zero _)
  rw [parseBytes, if_neg present, refuseIf, if_pos long]
  rfl

theorem WrittenFor.parsed_iff (written : WrittenFor rar stored list) (max : Int) :
    parseBytes stored max = .ok list ↔
      (marshal list).length ≤ maxEncodedBytes ∧ list.length ≤ maxDetails max := by
  rw [written.text]
  constructor
  · intro parsed
    refine ⟨Nat.not_lt.mp fun long => ?_, (valid_of_parseBytes parsed).2⟩
    rw [parseBytes_tooLong long] at parsed
    cases parsed
  · exact fun ⟨short, few⟩ => parseBytes_marshal written.valid short few

theorem WrittenFor.read_iff (written : WrittenFor rar stored list) :
    parseBytes stored (detailsLimit rar) = .ok list ↔ (marshal list).length ≤ maxEncodedBytes :=
  (written.parsed_iff _).trans (and_iff_left written.few)

theorem exists_toAny (valid : ∀ d ∈ list, d.Valid) (some_ : list ≠ []) :
    ∃ values, toAny list = .ok values := by
  obtain ⟨values, found⟩ :
      ∃ values, entriesToValue (list.map Detail.marshalJSON) = some values := by
    refine exists_entriesToValue fun entry inside => ?_
    obtain ⟨d, listed, rfl⟩ := mem_map.mp inside
    exact (valid d listed).exists_toValue
  rw [toAny, readJson_marshal valid some_]
  exact ⟨values, orRefuse_eq_ok.mpr found⟩

theorem WrittenFor.claim_iff (written : WrittenFor rar stored list) :
    (∃ claim, authorizationDetailsClaim stored = .ok claim) ↔
      (marshal list).length ≤ maxEncodedBytes ∧ list.length ≤ maxStoredDetails := by
  refine Iff.trans ?_ (written.parsed_iff maxStoredDetails)
  by_cases absent : stored = []
  · rw [written.text, marshal_eq_nil] at absent
    rw [written.text, absent]
    exact ⟨fun _ => rfl, fun _ => ⟨none, rfl⟩⟩
  rw [authorizationDetailsClaim, if_neg absent]
  constructor
  · rintro ⟨_, claimed⟩
    obtain ⟨_, read, -⟩ := of_bind claimed
    have read := mapError_eq_ok.mp read
    rw [written.text] at read ⊢
    cases eq_of_parseBytes_marshal written.valid read
    exact read
  · intro parsed
    have some_ : list ≠ [] := by
      rintro rfl
      exact absent written.text
    obtain ⟨values, converted⟩ := exists_toAny written.valid some_
    exact ⟨some values, bind_eq_ok.mpr ⟨list, mapError_eq_ok.mpr parsed,
      bind_eq_ok.mpr ⟨values, converted, rfl⟩⟩⟩

/-- **Stored details are read back, exactly if what was parsed is within the bound when it is
encoded again.** -/
theorem stored_details_read_back_iff (rar : Option RARConfig) :
    (∀ clientTypes raw list stored,
      parseAuthorizationDetails rar clientTypes raw = .ok (list, stored) →
        parse raw (detailsLimit rar) = .ok list ∧
          (parseBytes stored (detailsLimit rar) = .ok list ↔
            (marshal list).length ≤ maxEncodedBytes)) ∧
    (∀ clientTypes raw granted stored,
      narrowAuthorizationDetails rar clientTypes raw granted = .ok stored →
        raw = [] ∧ stored = granted ∨
          ∃ effective, NarrowedTo rar clientTypes raw granted effective ∧
            (parseBytes stored (detailsLimit rar) = .ok effective ↔
              (marshal effective).length ≤ maxEncodedBytes)) ∧
    ∀ stored, Stored rar stored → ∃ list, stored = marshal list ∧
      (parseBytes stored (detailsLimit rar) = .ok list ↔
        (marshal list).length ≤ maxEncodedBytes) ∧
      ((∃ claim, authorizationDetailsClaim stored = .ok claim) ↔
        (marshal list).length ≤ maxEncodedBytes ∧ list.length ≤ maxStoredDetails) := by
  refine ⟨?_, ?_, ?_⟩
  · intro clientTypes raw list stored parsed
    exact ⟨(parseAuthorizationDetails_eq_ok parsed).1, (writtenFor_of_parse parsed).read_iff⟩
  · intro _ raw _ stored narrowed
    by_cases asked : raw = []
    · rw [narrowAuthorizationDetails, if_pos asked] at narrowed
      cases narrowed
      exact .inl ⟨asked, rfl⟩
    · obtain ⟨effective, done, written⟩ := narrowedTo_of_narrow asked narrowed
      exact .inr ⟨effective, done, written.read_iff⟩
  · intro _ kept
    obtain ⟨list, written⟩ := kept.writtenFor
    exact ⟨list, written.text, written.read_iff, written.claim_iff⟩

def paymentText (note : Bytes) : Bytes :=
  str "[\x7b\"type\":\"payment\",\"note\":\"" ++ note ++ str "\"\x7d]"

def payments : RARConfig := ⟨[str "payment"], 16⟩

omit [JsonFloat] in
/-- A note of one angle bracket, which is stored as an escape of six bytes. -/
theorem stored_details_read_back_bracket :
    letI := JsonFloat.bits
    ∃ list stored,
      parseAuthorizationDetails (some payments) none (paymentText (str "<")) = .ok (list, stored) ∧
        stored = str "[\x7b\"note\":\"\\u003c\",\"type\":\"payment\"\x7d]" ∧
          parseBytes stored 16 = .ok list := by
  let := JsonFloat.bits
  have stored : (parseAuthorizationDetails (some payments) none (paymentText (str "<"))).map (·.2) =
      .ok (str "[\x7b\"note\":\"\\u003c\",\"type\":\"payment\"\x7d]") := by rfl
  cases parsed : parseAuthorizationDetails (some payments) none (paymentText (str "<")) with
  | error =>
    rw [parsed] at stored
    cases stored
  | ok result =>
    obtain ⟨list, text⟩ := result
    rw [parsed] at stored
    injection stored with same
    refine ⟨list, text, rfl, same, ?_⟩
    have read := (stored_details_read_back_iff (some payments)).1 none _ list text parsed
    refine read.2.mpr ?_
    rw [← (writtenFor_of_parse parsed).text, show text = _ from same]
    decide +kernel

omit [JsonFloat] in
/-- A note of angle brackets is accepted, and its stored text is too long for every reader. -/
theorem long_stored_details_refused :
    letI := JsonFloat.bits
    ∃ list stored,
      parseAuthorizationDetails (some payments) none (paymentText (List.replicate 2800 0x3C)) =
        .ok (list, stored) ∧
      parseBytes stored 16 = .error (.tooLong maxEncodedBytes) ∧
      authorizationDetailsClaim stored = .error (.invalid (.tooLong maxEncodedBytes)) := by
  let := JsonFloat.bits
  have evaluated : (match parseAuthorizationDetails (some payments) none
      (paymentText (replicate 2800 0x3C)) with
      | .ok (_, stored) => decide (maxEncodedBytes < stored.length)
      | .error _ => false) = true := by decide +kernel
  cases parsed : parseAuthorizationDetails (some payments) none
      (paymentText (replicate 2800 0x3C)) with
  | error =>
    rw [parsed] at evaluated
    cases evaluated
  | ok result =>
    obtain ⟨list, stored⟩ := result
    rw [parsed] at evaluated
    have long := of_decide_eq_true evaluated
    have refused := parseBytes_tooLong long
    have present : stored ≠ [] := by
      rintro rfl
      exact absurd long (Nat.not_lt_zero _)
    refine ⟨list, stored, rfl, refused 16, ?_⟩
    rw [authorizationDetailsClaim, if_neg present, refused]
    rfl

end TheAuth.Server
