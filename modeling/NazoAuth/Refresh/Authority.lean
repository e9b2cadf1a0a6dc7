import NazoAuth.Refresh.Chain
import NazoAuth.Refresh.Request

/-!
# Refresh families — authority never widens

Two bounds travel along a family. The **contract** row that a family references is never changed,
and is not deleted while a family references it. The **current audience** is replaced at a rotation
by a subset of itself. Everything else in the family row that says what may be issued and to whom is
written once, at its creation.

What a request signs was compared with the authority it read, and the commit compares that authority
with the family under its lock; so the signed values are bounded by the family as it is at the
commit.
-/

namespace NazoAuth.Refresh

open Lib

variable {h : Hashes} {s s' : RefreshStore} {op : Op} {out : Outcome} {f : RefreshFamilyRow}
  {c : RefreshContractRow} {authority : RefreshTokenAuthority} {contract : RefreshContract}
  {family : RefreshFamilyRow}

/-! ## Contracts -/

theorem refreshContractEnsure_find? {tenantId : Uuid} {prepared : PreparedRefreshContract}
    {ck : Uuid × Digest} (hc : s.contracts.find? ck = some c) :
    (refreshContractEnsure s tenantId prepared).contracts.find? ck = some c := by
  unfold refreshContractEnsure
  cases hi : s.contracts.insert? ⟨tenantId, prepared.contractBlake3, prepared.contractValue⟩ with
  | none => exact hc
  | some =>
    simp only [Table.find?_of_insert? hi]
    split_ifs with hk
    · rw [hk, Table.find?_none_of_insert? hi] at hc
      exact absurd hc (by simp)
    · exact hc

theorem refreshContractEnsure_exists (s : RefreshStore) (tenantId : Uuid) (prepared : PreparedRefreshContract) :
    ∃ c, (refreshContractEnsure s tenantId prepared).contracts.find? (tenantId, prepared.contractBlake3)
    = some c := by
  unfold refreshContractEnsure
  cases hi : s.contracts.insert? ⟨tenantId, prepared.contractBlake3, prepared.contractValue⟩ with
  | none => exact Table.insert?_eq_none.mp hi
  | some =>
    refine ⟨⟨tenantId, prepared.contractBlake3, prepared.contractValue⟩, ?_⟩
    simp only [Table.find?_of_insert? hi, RefreshContractRow.key, if_true]

/-- What one operation can do to the contracts: add one under its digest, or delete unreferenced
ones. -/
inductive ContractEffect (h : Hashes) (s s' : RefreshStore) (op : Op) (out : Outcome) : Prop
  | same : s'.contracts = s.contracts → ContractEffect h s s' op out
  | ensured {s₀ tenantId contract} :
      s₀.contracts = s.contracts →
      s'.contracts = (refreshContractEnsure s₀ tenantId ⟨h.contractBlake3 contract, contract⟩).contracts →
      ContractEffect h s s' op out
  | orphansDeleted {p : RefreshContractRow → Bool} : s'.contracts = s.contracts.delete p →
      (∀ c, p c = true → ∀ f ∈ s.families.rows, (f.tenantId, f.contractBlake3) ≠ c.key) →
      ContractEffect h s s' op out

theorem contractEffect_of_exec (he : exec h s op = (s', out)) : ContractEffect h s s' op out := by
  cases stepped_of_exec he with
  | rolledBack | revoked | swept | reclaimed => exact .same rfl
  | committed _ hc =>
    cases hc with
    | createConflict | unusable | compromised | preserved => exact .same rfl
    | created hv hp hf hs =>
      subst hp hs
      exact .ensured (show (retireVictims s _ _).contracts = s.contracts from rfl) rfl
    | rotated _ _ _ _ hr =>
      obtain ⟨_, _, _, _, hc, _⟩ := rotateFamily_eq hr
      exact .same hc
  | registered =>
    refine .same ?_
    rw [registerClient]
    split <;> rfl
  | retyped =>
    refine .same ?_
    rw [setClientType]
    split_ifs <;> rfl
  | pruned =>
    refine .orphansDeleted rfl fun c hc f hf hk => ?_
    simp only [Bool.and_eq_true, Bool.not_eq_true', List.any_eq_false, decide_eq_true_eq] at hc
    exact hc.2 f hf hk

theorem contract_kept (he : exec h s op = (s', out)) (hf : f ∈ s.families.rows)
    (hc : s.contracts.find? (f.tenantId, f.contractBlake3) = some c) :
    s'.contracts.find? (f.tenantId, f.contractBlake3) = some c := by
  cases contractEffect_of_exec he with
  | same hs => rw [hs]; exact hc
  | ensured h0 hs =>
    rw [hs]
    exact refreshContractEnsure_find? (by rw [h0]; exact hc)
  | orphansDeleted hs hp =>
    rename_i p
    rw [hs, Table.find?_delete, hc]
    have hkey := Table.find?_key hc
    cases hpc : p c with
    | false => simp [hpc]
    | true => exact absurd hkey.symm (hp c hpc f hf)

/-- The store side of the bound: contracts are stored under their digest, and every family has a
non-empty audience and a contract. -/
structure GrantInv (h : Hashes) (s : RefreshStore) : Prop where
  keyed : ∀ c ∈ s.contracts.rows, c.contractBlake3 = h.contractBlake3 c.contract
  family : ∀ k f, s.families.find? k = some f →
    f.currentAudience ≠ [] ∧ ∃ c, s.contracts.find? (f.tenantId, f.contractBlake3) = some c

theorem validAudiences_ne_nil {values : List String} (hv : validAudiences values = true) : values ≠ [] := by
  rintro rfl
  simp [validAudiences] at hv

theorem keyed_step (hinv : GrantInv h s) (he : exec h s op = (s', out))
    (hc : c ∈ s'.contracts.rows) : c.contractBlake3 = h.contractBlake3 c.contract := by
  cases contractEffect_of_exec he with
  | same hs => exact hinv.keyed c (hs ▸ hc)
  | ensured h0 hs =>
    rename_i s₀ tenantId contract
    rw [hs, refreshContractEnsure] at hc
    cases hi : s₀.contracts.insert? ⟨tenantId, h.contractBlake3 contract, contract⟩ with
    | none =>
      simp only [hi] at hc
      exact hinv.keyed c (h0 ▸ hc)
    | some =>
      simp only [hi] at hc
      rcases (Table.mem_of_insert? hi).mp hc with rfl | hc
      · rfl
      · exact hinv.keyed c (h0 ▸ hc)
  | orphansDeleted hs =>
    rw [hs] at hc
    exact hinv.keyed c (Table.mem_delete.mp hc).1

theorem created_contract {token : NewRefreshToken} (he : exec h s op = (s', out))
    (hc : CreatedBy op out token contract) :
    ∃ c, s'.contracts.find? (token.tenantId, h.contractBlake3 contract) = some c := by
  obtain ⟨nativeSource, ha⟩ := hc.action
  rw [hc.outcome] at he
  cases commitEffect_of_exec he ha with
  | created _ hp _ hs _ =>
    subst hp hs
    exact refreshContractEnsure_exists _ token.tenantId ⟨h.contractBlake3 contract, contract⟩

theorem grantInv_step (hinv : GrantInv h s) (he : exec h s op = (s', out)) : GrantInv h s' where
  keyed := fun c hc => keyed_step hinv he hc
  family := by
    intro k f' hf'
    cases hf : s.families.find? k with
    | none =>
      cases familyEffect_of_exec he hf hf' with
      | created hc => exact ⟨validAudiences_ne_nil hc.valid, created_contract he hc⟩
    | some f =>
      obtain ⟨haudience, c, hc⟩ := hinv.family k f hf
      have hkept := contract_kept he (Table.mem_of_find? hf) hc
      cases familyEffect_of_exec he hf hf' with
      | kept hfl =>
        rw [hfl.same]
        exact ⟨haudience, c, hkept⟩
      | rotated hr => exact ⟨validAudiences_ne_nil hr.valid.validAudiences, c, hkept⟩

theorem grantInv_of_run {log : Log} (hr : Run (exec h) RefreshStore.empty log s) : GrantInv h s := by
  refine Run.state_invariant ⟨?_, ?_⟩ (fun _ _ _ _ hi he => grantInv_step hi he) hr
  · exact fun c hc => absurd hc Table.not_mem_empty
  · exact fun k f hf => by simp [RefreshStore.empty] at hf

/-! ## The grant of a family -/

/-- The later row has the grant of the earlier one, with an audience that is at most as wide. -/
structure GrantKept (f f' : RefreshFamilyRow) : Prop where
  key : f'.key = f.key
  clientId : f'.clientId = f.clientId
  userId : f'.userId = f.userId
  contractBlake3 : f'.contractBlake3 = f.contractBlake3
  dpopJkt : f'.dpopJkt = f.dpopJkt
  mtlsX5tS256 : f'.mtlsX5tS256 = f.mtlsX5tS256
  clientAttestationJkt : f'.clientAttestationJkt = f.clientAttestationJkt
  createdAt : f'.createdAt = f.createdAt
  audience : f'.currentAudience ⊆ f.currentAudience

theorem GrantKept.refl (f : RefreshFamilyRow) : GrantKept f f :=
  ⟨rfl, rfl, rfl, rfl, rfl, rfl, rfl, rfl, List.Subset.refl _⟩

theorem GrantKept.trans {f g k : RefreshFamilyRow} (h1 : GrantKept f g) (h2 : GrantKept g k) : GrantKept f k :=
  ⟨h2.key.trans h1.key, h2.clientId.trans h1.clientId, h2.userId.trans h1.userId,
   h2.contractBlake3.trans h1.contractBlake3, h2.dpopJkt.trans h1.dpopJkt, h2.mtlsX5tS256.trans h1.mtlsX5tS256,
   h2.clientAttestationJkt.trans h1.clientAttestationJkt, h2.createdAt.trans h1.createdAt,
   List.Subset.trans h2.audience h1.audience⟩

theorem Flagged.grantKept {f' : RefreshFamilyRow} (hf : Flagged f f') : GrantKept f f' := by
  rw [hf.same]
  exact ⟨rfl, rfl, rfl, rfl, rfl, rfl, rfl, rfl, List.Subset.refl _⟩

/-- What the locked comparison of a family with an authority establishes. -/
structure SourceAgrees (family : RefreshFamilyRow) (contract : RefreshContract)
    (authority : RefreshTokenAuthority) : Prop where
  clientId : family.clientId = authority.clientId
  userId : family.userId = authority.userId
  contract : contract = authority.contract
  audience : family.currentAudience = authority.currentAudiences
  dpopJkt : family.dpopJkt = authority.dpopJkt
  mtlsX5tS256 : family.mtlsX5tS256 = authority.mtlsX5tS256

theorem sourceAgrees_of_matches (hm : sourceMatches family contract authority = true) :
    SourceAgrees family contract authority := by
  simp only [sourceMatches, Bool.and_eq_true, decide_eq_true_eq] at hm
  obtain ⟨⟨⟨⟨⟨⟨⟨⟨⟨-, hclient⟩, huser⟩, -⟩, hcontract⟩, haudience⟩, -⟩, hdpop⟩, hmtls⟩, -⟩ := hm
  exact ⟨hclient, huser, hcontract, haudience, hdpop, hmtls⟩

theorem RotatedBy.grantKept {token : NewRefreshToken} {contract : RefreshContractRow} {client : LockedClientRow}
    (hr : RotatedBy h s s' op out authority token family contract client) :
    GrantKept family (family.install h token) := by
  refine ⟨rfl, rfl, rfl, rfl, rfl, rfl, rfl, rfl, ?_⟩
  have ha := isSubset_iff.mp hr.valid.audiences
  rw [← (sourceAgrees_of_matches hr.sourceMatches).audience] at ha
  exact ha

/-- **Until it is created anew, a family keeps its grant and its contract.** -/
theorem grantKept_of_run {new : Log} {k : Uuid × Uuid} (hr : Run (exec h) s new s')
    (hf : s.families.find? k = some f)
    (hc : s.contracts.find? (f.tenantId, f.contractBlake3) = some c) (hn : ∀ e ∈ new, creates k e = false) :
    s'.families.find? k = none ∨ ∃ f', s'.families.find? k = some f' ∧ GrantKept f f'
      ∧ s'.contracts.find? (f.tenantId, f.contractBlake3) = some c := by
  induction hr with
  | nil => exact .inr ⟨f, hf, GrantKept.refl f, hc⟩
  | cons hr he ih =>
    rename_i log s₁ s₂ op out
    have hnew := hn (op, out) (.head _)
    cases hf₂ : s₂.families.find? k with
    | none => exact .inl rfl
    | some f₂ =>
      refine .inr ⟨f₂, rfl, ?_⟩
      rcases ih fun e hmem => hn e (.tail _ hmem) with ih | ⟨f₁, hf₁, hkept, hc₁⟩
      · -- a deleted family stays deleted
        cases familyEffect_of_exec he ih hf₂ with
        | created hcr hk =>
          subst hk
          exact absurd hcr.creates (by simp [hnew])
      have hkey : (f₁.tenantId, f₁.contractBlake3) = (f.tenantId, f.contractBlake3) := by
        rw [hkept.contractBlake3, show f₁.tenantId = f.tenantId from congrArg Prod.fst hkept.key]
      have hc₂ : s₂.contracts.find? (f.tenantId, f.contractBlake3) = some c := by
        rw [← hkey]
        exact contract_kept he (Table.mem_of_find? hf₁) (hkey ▸ hc₁)
      cases familyEffect_of_exec he hf₁ hf₂ with
      | kept hfl => exact ⟨hkept.trans hfl.grantKept, hc₂⟩
      | rotated hrot => exact ⟨hkept.trans hrot.grantKept, hc₂⟩

/-! ## The result -/

/-- The access token is bounded by a contract and by the row of the family it was derived from. -/
structure WithinGrant (accessToken : AccessTokenSignInput) (contract : RefreshContract)
    (f : RefreshFamilyRow) : Prop where
  scopes : accessToken.scopes ⊆ contract.scopes
  audiences : accessToken.audiences ⊆ f.currentAudience
  audiencesNonempty : accessToken.audiences ≠ []
  subject : accessToken.subject = contract.subject
  authorizationDetails : accessToken.authorizationDetails = contract.authorizationDetails
  userId : accessToken.userId = f.userId
  dpopJkt : ∀ binding, f.dpopJkt = some binding → accessToken.dpopJkt = some binding
  mtlsX5tS256 : ∀ binding, f.mtlsX5tS256 = some binding → accessToken.mtlsX5tS256 = some binding

/-- A request commits with the authority it read, and what it signs is within that authority. -/
theorem refreshRequest_within {cfg : TokenIssuanceConfig} {facts : RequestFacts}
    {client : ClientRow} {form : TokenForm} {clientAttestationJkt : Option String}
    {snapshot : Except RepositoryError (Option RefreshPresentation)} {draw : IssueDraw}
    {requestStartedAt now : Instant} {accessToken : AccessTokenSignInput}
    {commit : Option RefreshTokenCommit}
    (hreq : refreshRequest cfg facts client form clientAttestationJkt snapshot draw requestStartedAt now
      = .ok (accessToken, commit)) :
    ∃ authority rotation issue, commit = some (.useExisting authority rotation)
      ∧ IssueWithin issue authority ∧ SignedFrom issue accessToken := by
  obtain ⟨issue, hissue, hresp⟩ := of_bind hreq
  obtain ⟨presentation, -, hspec⟩ := tokenRefreshWithService_spec hissue
  obtain ⟨details, hwithin, hsigned, hcommit⟩ := issueTokenResponse_spec hspec.authority hresp
  exact ⟨_, _, _, hcommit, hwithin, hsigned⟩

/-- What was signed within an authority is within the family that agrees with the authority. -/
theorem withinGrant_of_agrees {issue : TokenIssue} {accessToken : AccessTokenSignInput}
    (hi : IssueWithin issue authority) (hs : SignedFrom issue accessToken)
    (ha : SourceAgrees family contract authority) : WithinGrant accessToken contract family where
  scopes := by rw [hs.scopes, ha.contract]; exact isSubset_iff.mp hi.scopes
  audiences := by rw [hs.audiences, ha.audience]; exact isSubset_iff.mp hi.audiences
  audiencesNonempty := by rw [hs.audiences]; exact hi.audiencesNonempty
  subject := by rw [hs.subject, ha.contract, hi.subject]
  authorizationDetails := by rw [hs.authorizationDetails, ha.contract, hi.authorizationDetails]
  userId := by rw [hs.userId, ha.userId, hi.userId]
  dpopJkt := fun binding hb => by rw [hs.dpopJkt]; exact hi.dpopJkt binding (ha.dpopJkt ▸ hb)
  mtlsX5tS256 := fun binding hb => by rw [hs.mtlsX5tS256]; exact hi.mtlsX5tS256 binding (ha.mtlsX5tS256 ▸ hb)

/-- **Refreshing never widens authority.** Follow a family from any moment until it is created anew:
its grant stays, its audience shrinks and stays non-empty, and its contract is the stored one. Every
refresh request that commits with it as its source, whatever the request had read, has signed an
access token within that contract and the audience of the generation it was derived from. -/
theorem refresh_never_widens {log new : Log} {s₀ s : RefreshStore} {k : Uuid × Uuid} {f₀ f : RefreshFamilyRow}
    (hr₀ : Run (exec h) RefreshStore.empty log s₀) (hf₀ : s₀.families.find? k = some f₀)
    (hr : Run (exec h) s₀ new s) (hnew : ∀ e ∈ new, creates k e = false)
    (hf : s.families.find? k = some f) : GrantKept f₀ f ∧ f.currentAudience ≠ []
    ∧ ∃ c, s₀.contracts.find? (f₀.tenantId, f₀.contractBlake3) = some c
      ∧ h.contractBlake3 c.contract = f₀.contractBlake3
      ∧ s.contracts.find? (f.tenantId, f.contractBlake3) = some c
      ∧ ∀ cfg facts client form clientAttestationJkt snapshot draw requestStartedAt now accessToken commit
          nativeSource stamp now' s',
        refreshRequest cfg facts client form clientAttestationJkt snapshot draw requestStartedAt now
          = .ok (accessToken, some commit) →
        commit.familyKey = k →
        exec h s ⟨.commit commit nativeSource, stamp, now'⟩ = (s', .persisted .inserted) →
        WithinGrant accessToken c.contract f := by
  have hinv₀ := grantInv_of_run hr₀
  obtain ⟨-, c, hc⟩ := hinv₀.family k f₀ hf₀
  have hkeyed : h.contractBlake3 c.contract = f₀.contractBlake3 := by
    rw [← hinv₀.keyed c (Table.mem_of_find? hc)]
    exact congrArg Prod.snd (Table.find?_key hc)
  rcases grantKept_of_run hr hf₀ hc hnew with hnone | ⟨f', hf', hkept, hc'⟩
  · cases hnone.symm.trans hf
  obtain rfl := Option.some.inj (hf'.symm.trans hf)
  have hck : s.contracts.find? (f'.tenantId, f'.contractBlake3) = some c := by
    rw [hkept.contractBlake3, show f'.tenantId = f₀.tenantId from congrArg Prod.fst hkept.key]
    exact hc'
  have hne : f'.currentAudience ≠ [] := by
    -- the invariant holds at `s` because it does at `s₀` and every step keeps it
    have hinv : GrantInv h s := Run.state_invariant hinv₀ (fun _ _ _ _ hi he => grantInv_step hi he) hr
    exact (hinv.family k f' hf).1
  refine ⟨hkept, hne, c, hc, hkeyed, hck, ?_⟩
  intro cfg facts client form att snapshot draw t₀ t₁ accessToken commit nativeSource stamp now' s' hreq hk hexec
  obtain ⟨authority, rotation, issue, hcommit, hwithin, hsigned⟩ := refreshRequest_within hreq
  obtain rfl := Option.some.inj hcommit
  obtain ⟨family, contract, hus, hm⟩ : ∃ family contract, UsableSource s authority now' family contract
      ∧ sourceMatches family contract.contract authority = true := by
    cases commitEffect_of_exec hexec rfl with
    | preserved hu hm | rotated hu hm _ _ _ => exact ⟨_, _, hu, hm⟩
  have hk : (authority.tenantId, authority.familyId) = k := hk
  have hfound := hus.familyFound
  rw [hk, hf] at hfound
  obtain rfl := Option.some.inj hfound
  obtain rfl := Option.some.inj (hus.contractFound.symm.trans hck)
  exact withinGrant_of_agrees hwithin hsigned (sourceAgrees_of_matches hm)

def sampleClient : ClientRow :=
  ⟨1, 2, "client", .publicClient, "none", ["refresh_token"], ["api"], false, false, false⟩

def sampleConfig : TokenIssuanceConfig := ⟨"https://issuer", false, [], 3600, fun _ => true⟩

def sampleFacts : RequestFacts := ⟨.ok ⟨none, none⟩, .ok (), .ok (), .ok ()⟩

def sampleDraw : IssueDraw := ⟨"aaaa", 14, 0, 21, none, seconds 40⟩

/-- The family is rotated twice; then its current token is refreshed by a request, and what that has
signed is within the grant. -/
theorem refresh_never_widens_sample :
    let s₀ := (execAll (exec sampleHashes) RefreshStore.empty [] (sampleRotations.take 2)).2
    let s := (execAll (exec sampleHashes) s₀ [] (sampleRotations.drop 2)).2
    ∃ f₀ f, s₀.families.find? (1, 5) = some f₀ ∧ s.families.find? (1, 5) = some f
      ∧ f₀.currentMemberId = 11 ∧ f.currentMemberId = 13 ∧ GrantKept f₀ f ∧ f.currentAudience ≠ []
      ∧ ∃ c accessToken commit, s.contracts.find? (f.tenantId, f.contractBlake3) = some c
        ∧ refreshRequestOn sampleHashes s sampleConfig sampleFacts sampleClient ⟨some "aaa", none, []⟩ none
          sampleDraw (seconds 40) (seconds 40) = .ok (accessToken, some commit)
        ∧ (exec sampleHashes s ⟨.commit commit none, seconds 40, seconds 40⟩).2 = .persisted .inserted
        ∧ WithinGrant accessToken c.contract f := by
  intro s₀ s
  have h₀ : (s₀.families.find? (1, 5)).map (·.currentMemberId) = some 11 := by decide
  have h₁ : (s.families.find? (1, 5)).map (·.currentMemberId) = some 13 := by decide
  obtain ⟨f₀, hf₀, hm₀⟩ := Option.map_eq_some_iff.mp h₀
  obtain ⟨f, hf, hm⟩ := Option.map_eq_some_iff.mp h₁
  have hnew : ∀ e ∈ (execAll (exec sampleHashes) s₀ [] (sampleRotations.drop 2)).1,
    creates (1, 5) e = false := by decide
  have hrequest : (refreshRequestOn sampleHashes s sampleConfig sampleFacts sampleClient ⟨some "aaa", none, []⟩
      none sampleDraw (seconds 40) (seconds 40)).toOption.any (fun r => r.2.any fun commit =>
        decide ((exec sampleHashes s ⟨.commit commit none, seconds 40, seconds 40⟩).2 = .persisted .inserted
          ∧ commit.familyKey = (1, 5))) = true := by decide
  obtain ⟨⟨accessToken, commit?⟩, hok, hcommit⟩ := (Option.any_eq_true _ _).mp hrequest
  obtain ⟨commit, rfl, hcommit⟩ := (Option.any_eq_true _ _).mp hcommit
  obtain ⟨hcommitted, hkey⟩ := of_decide_eq_true hcommit
  have hok := toOption_eq_some.mp hok
  obtain ⟨hkept, hne, c, -, -, hc, hwithin⟩ := refresh_never_widens
    (run_execAll RefreshStore.empty (sampleRotations.take 2)) hf₀ (run_execAll s₀ (sampleRotations.drop 2)) hnew hf
  exact ⟨f₀, f, hf₀, hf, hm₀, hm, hkept, hne, c, accessToken, commit, hc, hok, hcommitted,
    hwithin _ _ _ _ _ _ _ _ _ _ _ none _ _ _ hok hkey (Prod.ext rfl hcommitted)⟩

end NazoAuth.Refresh
