import NazoAuth.Openid4vp.Response

/-!
# OpenID4VP — responses that pass satisfy the query

What a credential query asks for is stated apart from the code: the values that a path selects are a
relation (`Selects`), and a credential matches a query if it has a holder key, a type, an authority
and claims as the query says (`Matches`). The loops over queries and credentials file each
credential that was verified and matches under its query (`filed`), so that the answered queries are
those with a filed credential.
-/

namespace NazoAuth.Openid4vp

open Lib DigitalCredentials

/-! ## What a query asks for -/

/-- The values that a path selects in a value. -/
inductive Selects : ClaimPath → Json → Json → Prop
  | here (v : Json) : Selects [] v v
  | name {name path members u v} :
      (Json.obj members).get? name = some u → Selects path u v → Selects (.name name :: path) (.obj members) v
  | index {index path items u v} :
      items[index]? = some u → Selects path u v → Selects (.index index :: path) (.arr items) v
  | wildcard {path items u v} :
      u ∈ items → Selects path u v → Selects (.wildcard :: path) (.arr items) v

/-- A claim is there, with one of the values if there are any to choose from. -/
def ClaimMet (claims : Json) (claim : ClaimsQuery) : Prop :=
  ∃ v, Selects claim.path claims v ∧ ∀ allowed, claim.values = some allowed → v ∈ allowed

/-- The authority is the issuer, or its key has signed a certificate of the issuer's chain. -/
def Vouches (authority : TrustedAuthority) (credential : VerifiedCredential) : Prop :=
  (authority.authorityType = "issuer" ∧ credential.issuer ∈ authority.values)
    ∨ (authority.authorityType = "aki" ∧ ∃ value ∈ authority.values, ∃ identifier,
      decode64? value.toList = some identifier ∧ identifier ∈ credential.issuerChainAuthorityKeyIdentifiers)

/-- The claims of a query: all of them, or all of one set. -/
def ClaimsMet (credential : VerifiedCredential) (query : CredentialQuery) (claims : List ClaimsQuery) : Prop :=
  match query.claimSets with
  | none => ∀ claim ∈ claims, ClaimMet credential.claims claim
  | some sets => ∃ set ∈ sets, ∀ id ∈ set, ∃ claim ∈ claims, claim.id = some id ∧ ClaimMet credential.claims claim

/-- The credential is one that the query asks for. -/
structure Matches (credential : VerifiedCredential) (query : CredentialQuery) : Prop where
  format : credential.format = query.format
  holder : query.requireCryptographicHolderBinding ≠ some false → credential.holderKey.isSome
  type : query.Allows credential.credentialType
  trust : ∀ authorities, query.trustedAuthorities = some authorities →
    ∃ authority ∈ authorities, Vouches authority credential
  claims : ∀ claims, query.claims = some claims → ClaimsMet credential query claims

/-! ## Matching -/

variable {path : ClaimPath}

theorem selects_of_segmentValues {segment : ClaimPathSegment} {u : Json} {next : List Json}
    (h : segmentValues segment u = some next) {w v : Json} (hw : w ∈ next) (hv : Selects path w v) :
    Selects (segment :: path) u v := by
  unfold segmentValues at h
  split at h
  · cases h
    exact .name (Option.mem_toList.mp hw) hv
  · cases h
    exact .index (Option.mem_toList.mp hw) hv
  · cases h
    exact .wildcard hw hv
  · cases h

theorem mem_of_mapM {α β : Type} {g : α → Option β} {l : List α} :
    ∀ {r : List β}, l.mapM g = some r → ∀ b ∈ r, ∃ a ∈ l, g a = some b := by
  induction l with
  | nil =>
    intro r h b hb
    cases h
    cases hb
  | cons a rest ih =>
    intro r h b hb
    rw [List.mapM_cons] at h
    obtain ⟨b', hb', h⟩ := Option.bind_eq_some_iff.mp h
    obtain ⟨r', hr', h⟩ := Option.bind_eq_some_iff.mp h
    cases h
    rcases List.mem_cons.mp hb with rfl | hb
    · exact ⟨a, List.mem_cons_self, hb'⟩
    · obtain ⟨a', ha', h'⟩ := ih hr' b hb
      exact ⟨a', .tail a ha', h'⟩

theorem claimValues_spec : ∀ {current values : List Json}, path.foldlM advance current = some values →
    (current ≠ [] → values ≠ []) ∧ ∀ v ∈ values, ∃ u ∈ current, Selects path u v := by
  induction path with
  | nil =>
    intro current values h
    cases h
    exact ⟨id, fun v hv => ⟨v, hv, .here v⟩⟩
  | cons segment path ih =>
    intro current values h
    obtain ⟨next, hnext, h⟩ := Option.bind_eq_some_iff.mp h
    obtain ⟨parts, hparts, hnext⟩ := Option.bind_eq_some_iff.mp hnext
    split_ifs at hnext with hempty
    cases hnext
    obtain ⟨hne, hselect⟩ := ih h
    refine ⟨fun _ => hne hempty, fun v hv => ?_⟩
    obtain ⟨w, hw, hwv⟩ := hselect v hv
    obtain ⟨part, hpart, hw⟩ := List.mem_flatten.mp hw
    obtain ⟨u, hu, hsegment⟩ := mem_of_mapM hparts part hpart
    exact ⟨u, hu, selects_of_segmentValues hsegment hw hwv⟩

theorem claimMet_of_matches {claims : Json} {claim : ClaimsQuery}
    (h : claimMatches claims claim = true) : ClaimMet claims claim := by
  obtain ⟨values, hvalues, hallowed⟩ := (Option.any_eq_true _ _).mp h
  obtain ⟨hne, hselect⟩ := claimValues_spec hvalues
  cases hclaim : claim.values with
  | none =>
    obtain ⟨v, hv⟩ := List.exists_mem_of_ne_nil values (hne (by simp))
    obtain ⟨u, hu, hv⟩ := hselect v hv
    obtain rfl := List.mem_singleton.mp hu
    exact ⟨v, hv, fun allowed h => by rw [hclaim] at h; cases h⟩
  | some =>
    rw [hclaim] at hallowed
    obtain ⟨v, hv, hmem⟩ := List.any_eq_true.mp hallowed
    obtain ⟨u, hu, hv⟩ := hselect v hv
    obtain rfl := List.mem_singleton.mp hu
    refine ⟨v, hv, fun allowed' h => ?_⟩
    rw [hclaim] at h
    cases h
    simpa using hmem

variable {credential : VerifiedCredential} {query : CredentialQuery}

theorem claimsMet_of_match {claims : List ClaimsQuery}
    (h : claimsMatch credential query claims = true) : ClaimsMet credential query claims := by
  unfold claimsMatch at h
  unfold ClaimsMet
  cases hsets : query.claimSets with
  | none =>
    rw [hsets] at h
    exact fun claim hclaim => claimMet_of_matches (List.all_eq_true.mp h claim hclaim)
  | some =>
    rw [hsets] at h
    obtain ⟨set, hset, hall⟩ := List.any_eq_true.mp h
    refine ⟨set, hset, fun id hid => ?_⟩
    have hmem := of_decide_eq_true (List.all_eq_true.mp hall id hid)
    obtain ⟨claim, hclaim, hid⟩ := List.mem_filterMap.mp (List.mem_toFinset.mp hmem)
    obtain ⟨hclaim, hmatch⟩ := List.mem_filter.mp hclaim
    exact ⟨claim, hclaim, hid, claimMet_of_matches hmatch⟩

theorem allows_of_match (htyped : query.Typed) (h : typeMatches credential query = true) :
    query.Allows credential.credentialType := by
  unfold typeMatches at h
  unfold CredentialQuery.Typed at htyped
  unfold CredentialQuery.Allows
  cases hformat : query.format with
  | sdJwtVc =>
    rw [hformat] at h htyped
    obtain ⟨values, hvalues⟩ := htyped
    simp only [hvalues] at h
    obtain ⟨v, hv, heq⟩ := List.any_eq_true.mp h
    refine ⟨values, hvalues, ?_⟩
    cases v with
    | str => rw [← Option.some.inj (of_decide_eq_true heq)]; exact hv
    | null | bool _ | num _ | real _ _ | arr _ | obj _ => cases (of_decide_eq_true heq)
  | msoMdoc =>
    rw [hformat] at h htyped
    obtain ⟨name, hname⟩ := htyped
    simp only [hname] at h
    rw [hname, of_decide_eq_true h]

theorem vouches_of_match {authority : TrustedAuthority}
    (h : authorityMatches credential authority = true) : Vouches authority credential := by
  unfold authorityMatches at h
  split_ifs at h with hissuer haki
  · obtain ⟨value, hvalue, heq⟩ := List.any_eq_true.mp h
    exact .inl ⟨hissuer, of_decide_eq_true heq ▸ hvalue⟩
  · obtain ⟨value, hvalue, hkey⟩ := List.any_eq_true.mp h
    obtain ⟨identifier, hdecoded, hmem⟩ := (Option.any_eq_true _ _).mp hkey
    exact .inr ⟨haki, value, hvalue, identifier, hdecoded, by simpa using hmem⟩

theorem matches_of_credentialMatchesQuery (htyped : query.Typed)
    (hformat : credential.format = query.format)
    (h : credentialMatchesQuery credential query = true) : Matches credential query := by
  unfold credentialMatchesQuery at h
  split_ifs at h with hholder htype htrust
  refine ⟨hformat, fun hrequired => ?_, allows_of_match htyped (by simpa using htype), fun authorities hauth => ?_,
    fun claims hclaims => ?_⟩
  · by_contra hnone
    refine hholder ?_
    cases hbinding : query.requireCryptographicHolderBinding with
    | none => simpa using hnone
    | some required =>
      cases required with
      | true => simpa using hnone
      | false => exact absurd hbinding hrequired
  · rw [hauth] at htrust
    simp only [Option.any_some, Bool.not_eq_true', Bool.not_eq_false] at htrust
    obtain ⟨authority, hmem, hmatch⟩ := List.any_eq_true.mp htrust
    exact ⟨authority, hmem, vouches_of_match hmatch⟩
  · rw [hclaims] at h
    exact claimsMet_of_match h

/-! ## Filed credentials -/

section Filed

variable {verify : PresentedCredential → Except CredentialTrustError VerifiedCredential}
  {present : CredentialQuery → String → PresentedCredential} {token : Json}

/-- A presented credential that is verified and matches. -/
def accepted (verify : PresentedCredential → Except CredentialTrustError VerifiedCredential)
    (present : CredentialQuery → String → PresentedCredential) (query : CredentialQuery)
    (value : Json) : Option VerifiedCredential :=
  (value.str?.bind fun encoded => (verify (present query encoded)).toOption).filter fun credential =>
    credential.format = query.format && credentialMatchesQuery credential query

def filed (verify : PresentedCredential → Except CredentialTrustError VerifiedCredential)
    (present : CredentialQuery → String → PresentedCredential) (token : Json) (query : CredentialQuery) :
    List VerifiedCredential := (answers token query).filterMap (accepted verify present query)

variable {query : CredentialQuery} {value : Json}

theorem accepted_eq_some {credential : VerifiedCredential}
    (h : accepted verify present query value = some credential) :
    ∃ encoded, value = .str encoded ∧ verify (present query encoded) = .ok credential
      ∧ credential.format = query.format ∧ credentialMatchesQuery credential query = true := by
  obtain ⟨hvalue, hmatch⟩ := Option.filter_eq_some_iff.mp h
  obtain ⟨encoded, hencoded, hverified⟩ := Option.bind_eq_some_iff.mp hvalue
  simp only [Bool.and_eq_true, decide_eq_true_eq] at hmatch
  refine ⟨encoded, ?_, ?_, hmatch⟩
  · cases value with
    | str => exact congrArg Json.str (Option.some.inj hencoded)
    | null | bool _ | num _ | real _ _ | arr _ | obj _ => cases hencoded
  · cases hv : verify (present query encoded) with
    | error => rw [hv] at hverified; cases hverified
    | ok => rw [hv] at hverified; exact congrArg Except.ok (Option.some.inj hverified)

def Found.file (found : Found) (query : CredentialQuery) (credentials : List VerifiedCredential) : Found :=
  ⟨found.verified ++ credentials, if credentials = [] then found.satisfied else insert query.id found.satisfied⟩

variable {found found' : Found}

theorem presentValue_spec (h : presentValue verify present query found value = .ok found') :
    found' = found.file query (accepted verify present query value).toList := by
  unfold presentValue at h
  split at h
  · rename_i encoded
    have hskip : ∀ e, verify (present query encoded) = .error e →
        accepted verify present query (.str encoded) = none := by
      intro e he
      simp [accepted, Json.str?, he, Except.toOption]
    split at h
    · cases h
    · cases h
    · cases h
    · cases h
    · cases h
    · rename_i e he
      cases h
      rw [hskip _ he]
      simp [Found.file]
    · rename_i credential hv
      split_ifs at h with hmatch
      · cases h
        have hnone : accepted verify present query (.str encoded) = none := by
          rw [accepted, Json.str?, Option.bind_some, hv]
          exact if_neg (by simpa [or_iff_not_imp_left] using hmatch)
        rw [hnone]
        simp [Found.file]
      · cases h
        have hsome : accepted verify present query (.str encoded) = some credential := by
          rw [accepted, Json.str?, Option.bind_some, hv]
          exact if_pos (by simpa using hmatch)
        rw [hsome]
        simp [Found.file]
  · cases h

@[simp] theorem Found.file_nil (found : Found) (query : CredentialQuery) : found.file query [] = found := by
  simp [Found.file]

theorem Found.file_file (found : Found) (query : CredentialQuery) (a b : List VerifiedCredential) :
    (found.file query a).file query b = found.file query (a ++ b) := by
  cases a with
  | nil => simp
  | cons => cases b <;> simp [Found.file]

theorem presentQuery_spec (h : presentQuery verify present token found query = .ok found') :
    found' = found.file query (filed verify present token query) := by
  have hfold : ∀ (values : List Json) (found : Found),
      values.foldl (fun found value => found.file query (accepted verify present query value).toList) found
        = found.file query (values.filterMap (accepted verify present query)) := by
    intro values
    induction values with
    | nil => exact fun found => (found.file_nil query).symm
    | cons value rest ih =>
      intro found
      rw [List.foldl_cons, ih, Found.file_file]
      cases hvalue : accepted verify present query value with
      | none => rw [List.filterMap_cons_none hvalue]; rfl
      | some => rw [List.filterMap_cons_some hvalue]; rfl
  rw [foldl_of_foldlM presentValue_spec h, hfold]
  rfl

theorem presentQueries_spec {queries : List CredentialQuery} :
    ∀ {found found' : Found}, queries.foldlM (presentQuery verify present token) found = .ok found' →
      found'.verified = found.verified ++ queries.flatMap (filed verify present token)
        ∧ ∀ id, id ∈ found'.satisfied ↔ id ∈ found.satisfied ∨ ∃ q ∈ queries, q.id = id
        ∧ filed verify present token q ≠ [] := by
  induction queries with
  | nil =>
    intro found found' h
    obtain rfl := pure_eq_ok.mp h
    simp
  | cons query rest ih =>
    intro found found' h
    obtain ⟨found₁, hquery, hrest⟩ := of_bind h
    obtain rfl := presentQuery_spec hquery
    obtain ⟨hverified, hsatisfied⟩ := ih hrest
    refine ⟨?_, fun id => ?_⟩
    · rw [hverified, List.flatMap_cons, Found.file, List.append_assoc]
    rw [hsatisfied id]
    by_cases hempty : filed verify present token query = []
    · simp [hempty]
    simp only [Found.file, hempty, if_false, Finset.mem_insert, List.mem_cons]
    constructor
    · rintro ((rfl | hid) | ⟨q, hq, hid, hne⟩)
      · exact .inr ⟨query, .inl rfl, rfl, hempty⟩
      · exact .inl hid
      · exact .inr ⟨q, .inr hq, hid, hne⟩
    · rintro (hid | ⟨q, rfl | hq, hid, hne⟩)
      · exact .inl (.inr hid)
      · exact .inl (.inl hid.symm)
      · exact .inr ⟨q, hq, hid, hne⟩

end Filed

/-! ## Result -/

section Result

variable {q : DcqlQuery}
  {verify : PresentedCredential → Except CredentialTrustError VerifiedCredential}
  {present : CredentialQuery → String → PresentedCredential} {members : List (String × Json)}

variable {answer : String × Json} {query : CredentialQuery}

theorem checkAnswer_spec (h : checkAnswer q answer = .ok ()) :
    ∃ query ∈ q.credentials, query.id = answer.1 ∧ ∃ values, answer.2 = .arr values
      ∧ (query.multiple = false → ∃ value, values = [value]) := by
  unfold checkAnswer at h
  split at h
  · cases h
  rename_i query hfind
  split at h
  · rename_i values hvalues
    split_ifs at h with hform
    refine ⟨query, List.mem_of_find?_eq_some
      hfind, by simpa using List.find?_some hfind, values, hvalues, fun hsingle => ?_⟩
    simp only [Bool.or_eq_true, decide_eq_true_eq, hsingle, Bool.not_false, Bool.true_and, not_or, not_not]
      at hform
    exact List.length_eq_one_iff.mp hform.2
  · cases h

theorem single_of_checked (hq : q.Valid) (hchecked : ∀ answer ∈ members, checkAnswer q answer = .ok ())
    (hquery : query ∈ q.credentials) (hsingle : query.multiple = false) (hanswer : answer ∈ members)
    (hid : answer.1 = query.id) : ∃ value, answer.2 = .arr [value] := by
  obtain ⟨query', hquery', hid', values, hvalues, hone⟩ := checkAnswer_spec (hchecked answer hanswer)
  obtain rfl : query' = query := List.inj_on_of_nodup_map hq.nodup hquery' hquery (hid'.trans hid)
  obtain ⟨value, rfl⟩ := hone hsingle
  exact ⟨value, hvalues⟩

/-- The credentials of a response are those that the query asks for. -/
structure SatisfiesQuery (q : DcqlQuery)
    (verify : PresentedCredential → Except CredentialTrustError VerifiedCredential)
    (present : CredentialQuery → String → PresentedCredential) (members : List (String × Json))
    (credentials : List VerifiedCredential) : Prop where
  /-- The returned credentials are those filed under some query. -/
  returned : credentials = q.credentials.flatMap (filed verify present (.obj members))
  /-- Each was presented under its query, verified, and matches it. -/
  verified : ∀ query ∈ q.credentials, ∀ credential ∈ filed verify present (.obj members) query,
    ∃ encoded, .str encoded ∈ answers (.obj members) query
      ∧ verify (present query encoded) = .ok credential ∧ Matches credential query
  /-- Each required set has an option whose queries are all answered. -/
  sets : ∀ sets, q.credentialSets = some sets → ∀ set ∈ sets, set.required = true → ∃ option ∈ set.options,
    ∀ id ∈ option, ∃ query ∈ q.credentials, query.id = id ∧ filed verify present (.obj members) query ≠ []
  /-- Without sets, every query is answered. -/
  all : q.credentialSets = none → ∀ query ∈ q.credentials, filed verify present (.obj members) query ≠ []
  known : ∀ answer ∈ members, ∃ query ∈ q.credentials, query.id = answer.1
  /-- An answer to a query that takes one credential presents one, and then one is returned or none. -/
  single : ∀ query ∈ q.credentials, query.multiple = false →
    (∀ answer ∈ members, answer.1 = query.id → ∃ value, answer.2 = .arr [value])
      ∧ (filed verify present (.obj members) query ≠ [] → ∃ credential,
        filed verify present (.obj members) query = [credential])

theorem answered_of_card (hq : q.Valid) {satisfied : Finset String} (hcard : satisfied.card = q.credentials.length)
    (hsatisfied : ∀ id, id ∈ satisfied ↔ ∃ query ∈ q.credentials, query.id = id
      ∧ filed verify present (.obj members) query ≠ []) :
    ∀ query ∈ q.credentials, filed verify present (.obj members) query ≠ [] := by
  intro query hquery
  have hsubset : satisfied ⊆ (q.credentials.map (·.id)).toFinset := by
    intro id hid
    obtain ⟨query', hquery', rfl, -⟩ := (hsatisfied id).mp hid
    exact List.mem_toFinset.mpr (List.mem_map_of_mem hquery')
  have hids : (q.credentials.map (·.id)).toFinset.card = q.credentials.length := by
    rw [List.toFinset_card_of_nodup hq.nodup, List.length_map]
  have heq : satisfied = (q.credentials.map (·.id)).toFinset :=
    Finset.eq_of_subset_of_card_le hsubset (by rw [hids, hcard])
  have hmem : query.id ∈ satisfied := heq ▸ List.mem_toFinset.mpr (List.mem_map_of_mem hquery)
  obtain ⟨query', hquery', hid, hne⟩ := (hsatisfied query.id).mp hmem
  obtain rfl : query' = query := List.inj_on_of_nodup_map hq.nodup hquery' hquery hid
  exact hne

theorem filed_single (hanswers : ∀ answer ∈ members, answer.1 = query.id → ∃ value, answer.2 = .arr [value])
    (hne : filed verify present (.obj members) query ≠ []) :
    ∃ credential, filed verify present (.obj members) query = [credential] := by
  have hlength : (filed verify present (.obj members) query).length ≤ 1 := by
    refine (List.length_filterMap_le _ _).trans ?_
    unfold answers
    split
    · rename_i values hget
      obtain ⟨answer, hfind, hvalue⟩ := Option.map_eq_some_iff.mp hget
      obtain ⟨value, hone⟩ := hanswers answer (List.mem_of_find?_eq_some hfind)
        (by simpa using List.find?_some hfind)
      obtain rfl : values = [value] := by rw [hvalue] at hone; exact Json.arr.inj hone
      exact Nat.le_refl 1
    · exact Nat.zero_le 1
  cases hfiled : filed verify present (.obj members) query with
  | nil => exact absurd hfiled hne
  | cons credential rest =>
    rw [hfiled, List.length_cons] at hlength
    obtain rfl : rest = [] := List.length_eq_zero_iff.mp (by omega)
    exact ⟨credential, rfl⟩

/-- **A response that passes satisfies the query.** -/
theorem response_satisfies_query (f : Formats) (ports : Ports) (transaction : PresentationTransaction)
    (response : AuthorizationResponse) (anchors : List (List UInt8)) (now : Instant) (result : PresentationResult)
    (h : verifyResponse f ports transaction response anchors now = .ok result) :
    ∃ members transcript, response.vpToken = some (.obj members)
      ∧ mdocSessionTranscript f transaction = .ok transcript
      ∧ SatisfiesQuery transaction.request.dcqlQuery ports.verify
        (presentedCredential transaction anchors transcript) members result.credentials := by
  unfold verifyResponse at h
  dsimp only at h
  split_ifs at h
  split at h
  · cases h
  · rename_i members hvalidate htoken
    obtain ⟨⟨⟩, hchecked, h⟩ := of_bind h
    obtain ⟨transcript, htranscript, h⟩ := of_bind h
    obtain ⟨found, hfound, h⟩ := of_bind h
    split_ifs at h with hsets
    have hq := valid_of_validate hvalidate
    have hchecked := forM_eq_ok hchecked
    obtain ⟨hverified, hsatisfied⟩ := presentQueries_spec hfound
    simp only [Finset.notMem_empty, false_or, List.nil_append] at hverified hsatisfied
    have hresult : result.credentials = found.verified := by
      unfold completeTransaction at h
      split at h
      · cases h
      · cases h
      · rw [← Except.ok.inj h]
    have hsingle : ∀ query ∈ transaction.request.dcqlQuery.credentials, query.multiple = false →
        ∀ answer ∈ members, answer.1 = query.id → ∃ value, answer.2 = .arr [value] :=
      fun query hquery hone answer hanswer hid => single_of_checked hq hchecked hquery hone hanswer hid
    refine ⟨members, transcript, htoken, htranscript, ?_, ?_, ?_, ?_, ?_, ?_⟩
    · rw [hresult, hverified]
    · intro query hquery credential hcredential
      obtain ⟨value, hvalue, haccepted⟩ := List.mem_filterMap.mp hcredential
      obtain ⟨encoded, rfl, hverify, hformat, hmatch⟩ := accepted_eq_some haccepted
      exact ⟨encoded, hvalue, hverify, matches_of_credentialMatchesQuery (hq.typed query hquery) hformat hmatch⟩
    · intro sets hsome set hset hrequired
      simp only [satisfiesSets, hsome, Bool.not_eq_true', Bool.not_eq_false] at hsets
      obtain ⟨option, hoption, hall⟩ := List.any_eq_true.mp
        (List.all_eq_true.mp hsets set (List.mem_filter.mpr ⟨hset, hrequired⟩))
      exact ⟨option, hoption, fun id hid =>
        (hsatisfied id).mp (of_decide_eq_true (List.all_eq_true.mp hall id hid))⟩
    · intro hnone
      simp only [satisfiesSets, hnone, Bool.not_eq_true', Bool.not_eq_false, decide_eq_true_eq] at hsets
      exact answered_of_card hq hsets hsatisfied
    · intro answer hanswer
      obtain ⟨query, hquery, hid, -⟩ := checkAnswer_spec (hchecked answer hanswer)
      exact ⟨query, hquery, hid⟩
    · intro query hquery hone
      exact ⟨hsingle query hquery hone, filed_single (hsingle query hquery hone)⟩
  · cases h

/-! ## Two queries, one of which is needed -/

def walletFormats : Formats := ⟨id, id, fun _ => [], fun _ _ _ _ => [], id⟩

def walletCredential : VerifiedCredential :=
  ⟨.sdJwtVc, "issuer", [], "pid", .obj [("nationalities", .arr [.str "FR", .str "DE"])], some (.obj []),
    none, none, none⟩

def walletPorts : Ports where
  verify := fun presented => if presented.encoded = "good" then .ok walletCredential else .error .untrustedIssuer
  complete := fun _ _ _ _ => .ok true

def walletQuery (id : String) : CredentialQuery where
  id := id
  format := .sdJwtVc
  multiple := false
  metadata := some (.obj [("vct_values", .arr [.str "pid"])])
  claims := some [⟨[.name "nationalities", .wildcard], some [.str "DE"], none⟩]
  claimSets := none
  trustedAuthorities := some [⟨"issuer", ["issuer"]⟩]
  requireCryptographicHolderBinding := none

def walletTransaction : PresentationTransaction :=
  ⟨"transaction", ⟨"client", .directPost, "uri", "nonce", "state",
    ⟨[walletQuery "first", walletQuery "second"], some [⟨[["first"], ["second"]], true⟩]⟩, none, none⟩, 100⟩

def walletResponse : AuthorizationResponse :=
  ⟨some (.obj [("first", .arr [.str "good"]), ("second", .arr [.str "bad"])]), some "state", none⟩

theorem response_satisfies_query_wallet : ∃ members transcript, walletResponse.vpToken = some (.obj members)
      ∧ mdocSessionTranscript walletFormats walletTransaction = .ok transcript
      ∧ SatisfiesQuery walletTransaction.request.dcqlQuery walletPorts.verify
        (presentedCredential walletTransaction [] transcript) members [walletCredential] :=
  response_satisfies_query walletFormats walletPorts walletTransaction walletResponse [] 50
    ⟨"transaction", [walletCredential], 50⟩ (by rfl)

/-- Both queries take one credential and get one answer, and the response passes; the second has no
credential. -/
theorem refused_answer_is_dropped : verifyResponse walletFormats walletPorts walletTransaction walletResponse [] 50
        = .ok ⟨"transaction", [walletCredential], 50⟩
      ∧ walletQuery "second" ∈ walletTransaction.request.dcqlQuery.credentials
      ∧ (walletQuery "second").multiple = false
      ∧ filed walletPorts.verify (presentedCredential walletTransaction [] none)
        (.obj [("first", .arr [.str "good"]), ("second", .arr [.str "bad"])]) (walletQuery "second") = [] := by
  refine ⟨by rfl, by decide +kernel, rfl, by decide +kernel⟩

end Result

end NazoAuth.Openid4vp
