import NazoAuth.Refresh.System

/-!
# Refresh families — what one operation can do

Every later argument is about histories, and none of them unfolds an operation again: this module
says once what an operation can do.
-/

namespace NazoAuth.Refresh

open Lib

variable {h : Hashes} {s s' : RefreshStore}

/-! ## Validation -/

/-- What validation guarantees about a replacement generation. -/
structure ValidRotation (authority : RefreshTokenAuthority) (token : NewRefreshToken) : Prop where
  familyId : token.familyId = authority.familyId
  tenantId : token.tenantId = authority.tenantId
  audiences : isSubset token.audiences authority.currentAudiences = true
  validAudiences : validAudiences token.audiences = true

variable {contract : RefreshContract} {token : NewRefreshToken}

theorem validateRefreshCommit_eq_ok {refresh : RefreshTokenCommit} (hv : validateRefreshCommit refresh = .ok ())
    (ht : refresh.token = some token) : validateRefreshSource refresh = .ok ()
      ∧ validAudiences token.audiences = true := by
  unfold validateRefreshCommit at hv
  split_ifs at hv
  split at hv
  · cases hv
  rename_i hs
  simp only [ht, validateRefreshToken] at hv
  split_ifs at hv with hc
  simp only [Bool.or_eq_true, not_or, Bool.not_eq_true', Bool.not_eq_false] at hc
  exact ⟨hs, hc.1.1.2⟩

variable {authority : RefreshTokenAuthority}

theorem validRotation_of_validate (hv : validateRefreshCommit (.useExisting authority (some token)) = .ok ()) :
    ValidRotation authority token := by
  obtain ⟨hs, ha⟩ := validateRefreshCommit_eq_ok hv rfl
  simp only [validateRefreshSource] at hs
  split_ifs at hs with h1 h2
  simp only [Bool.or_eq_true, not_or, decide_eq_true_eq, not_not, Bool.not_eq_true', Bool.not_eq_false] at h2
  obtain ⟨⟨⟨⟨⟨⟨⟨⟨hfamily, htenant⟩, -⟩, -⟩, -⟩, haud⟩, -⟩, -⟩, -⟩ := h2
  exact ⟨hfamily, htenant, haud, ha⟩

/-! ## The commit -/

/-- The source of a commit, as it was found usable under its locks. -/
structure UsableSource (s : RefreshStore) (authority : RefreshTokenAuthority) (now : Instant)
    (family : RefreshFamilyRow) (contract : RefreshContractRow) : Prop where
  familyFound : s.families.find? (authority.tenantId, authority.familyId) = some family
  notRevoked : family.revokedAt = none
  notCompromised : family.reuseDetectedAt = none
  notExpired : now < family.currentExpiresAt
  contractFound : s.contracts.find? (family.tenantId, family.contractBlake3) = some contract

/-- The effects of a commit that was not rolled back. -/
inductive CommitEffect (h : Hashes) (s : RefreshStore) (stamp now : Instant) :
    RefreshTokenCommit → RefreshStore → RefreshTokenPersistResult → Prop
  | createConflict {token contract f} :
      s.families.find? (token.tenantId, token.familyId) = some f →
      CommitEffect h s stamp now (.issueNew token contract)
        (compromiseFamily s token.tenantId token.familyId stamp) .rotationConflict
  | created {token contract prepared s₁ families} :
      validAudiences token.audiences = true →
      prepared = ⟨h.contractBlake3 contract, contract⟩ →
      s.families.find? (token.tenantId, token.familyId) = none →
      s₁ = refreshContractEnsure (retireVictims s (capacityVictims s token stamp) stamp) token.tenantId prepared →
      s₁.families.insert? (newFamilyRow h token prepared) = some families →
      CommitEffect h s stamp now (.issueNew token contract) { s₁ with families := families } .inserted
  | unusable {authority rotation} :
      (∀ f, s.families.find? (authority.tenantId, authority.familyId) = some f →
        f.revokedAt.isSome ∨ f.reuseDetectedAt.isSome ∨ f.currentExpiresAt ≤ now ∨ rotation = none)
      → CommitEffect h s stamp now (.useExisting authority rotation) s .invalidSource
  | compromised {authority token family contract} :
      UsableSource s authority now family contract →
      (sourceMatches family contract.contract authority = true →
        ∃ retry, token.lostResponseRetry = some retry ∧ edgeValid s token authority.memberId retry = false) →
      CommitEffect h s stamp now (.useExisting authority (some token))
        (compromiseFamily s authority.tenantId authority.familyId stamp) .rotationConflict
  | preserved {authority family contract} :
      UsableSource s authority now family contract →
      sourceMatches family contract.contract authority = true →
      CommitEffect h s stamp now (.useExisting authority none) s .inserted
  | rotated {authority token family contract client s'} :
      UsableSource s authority now family contract →
      sourceMatches family contract.contract authority = true →
      ValidRotation authority token →
      s.clients.find? (authority.tenantId, authority.clientId) = some client →
      rotateFamily h s family token client.clientType now = .ok s' →
      CommitEffect h s stamp now (.useExisting authority (some token)) s' .inserted

variable {nativeSource : Option Uuid} {now stamp : Instant} {result : RefreshTokenPersistResult}
  {retired : Option RetiredNativeSsoSource} {refresh : RefreshTokenCommit}

theorem createRefreshFamily_effect {prepared : PreparedRefreshContract}
    (hv : validAudiences token.audiences = true) (hp : prepared = ⟨h.contractBlake3 contract, contract⟩)
    (he : createRefreshFamily h s token prepared nativeSource stamp = .ok (s', result, retired)) :
    CommitEffect h s stamp now (.issueNew token contract) s' result := by
  unfold createRefreshFamily at he
  cases hf : s.families.find? (token.tenantId, token.familyId) with
  | some =>
    simp only [hf] at he
    cases he
    exact .createConflict hf
  | none =>
    simp only [hf] at he
    split_ifs at he with hd
    cases hi : (refreshContractEnsure (retireVictims s (capacityVictims s token stamp) stamp)
        token.tenantId prepared).families.insert? (newFamilyRow h token prepared) with
    | none => simp [hi] at he
    | some =>
      simp only [hi] at he
      cases he
      exact .created hv hp hf rfl hi

theorem persistExisting_effect {rotation : Option NewRefreshToken} {client : LockedClientRow}
    (hv : ∀ token, rotation = some token → ValidRotation authority token)
    (hc : s.clients.find? (authority.tenantId, authority.clientId) = some client)
    (he : persistExisting h s authority rotation client.clientType stamp now = .ok (s', result, retired)) :
    CommitEffect h s stamp now (.useExisting authority rotation) s' result := by
  unfold persistExisting at he
  cases hf : s.families.find? (authority.tenantId, authority.familyId) with
  | none =>
    simp only [hf] at he
    cases he
    exact .unusable fun f hf' => absurd (hf.symm.trans hf') (by simp)
  | some family =>
    simp only [hf] at he
    by_cases ht : (family.revokedAt.isSome || family.reuseDetectedAt.isSome
        || decide (family.currentExpiresAt ≤ now)) = true
    · -- revoked, compromised or expired
      rw [if_pos ht] at he
      cases he
      refine .unusable fun f hf' => ?_
      cases hf.symm.trans hf'
      simp only [Bool.or_eq_true, decide_eq_true_eq] at ht
      tauto
    · rw [if_neg ht] at he
      cases hk : s.contracts.find? (family.tenantId, family.contractBlake3) with
      | none => simp [hk] at he
      | some contract =>
        simp only [Bool.or_eq_true, decide_eq_true_eq, not_or, Bool.not_eq_true, Option.isSome_eq_false_iff,
          Option.isNone_iff_eq_none, not_le] at ht
        have hu : UsableSource s authority now family contract := ⟨hf, ht.1.1, ht.1.2, ht.2, hk⟩
        simp only [hk] at he
        cases hm : sourceMatches family contract.contract authority with
        | false =>
          rw [if_neg (by simp [hm])] at he
          cases rotation with
          | none =>
            cases he
            exact .unusable fun _ _ => by simp
          | some =>
            cases he
            exact .compromised hu fun h' => absurd (hm.symm.trans h') (by simp)
        | true =>
          rw [if_pos hm] at he
          cases rotation with
          | none =>
            cases he
            exact .preserved hu hm
          | some token =>
            have hr := hv token rfl
            simp only at he
            split_ifs at he with hedge
            · cases hrot : rotateFamily h s family token client.clientType now with
              | error => simp [hrot] at he
              | ok =>
                simp only [hrot] at he
                cases he
                exact .rotated hu hm hr hc hrot
            · -- the retried token is not the direct predecessor, or the window has passed
              cases he
              rw [hr.tenantId, hr.familyId]
              refine .compromised hu fun _ => ?_
              cases hl : token.lostResponseRetry with
              | none => simp [hl] at hedge
              | some retry => exact ⟨retry, rfl, by simpa [hl] using hedge⟩

/-- **What a commit can do.** -/
theorem commitRefreshToken_effect
    (he : commitRefreshToken h s refresh nativeSource stamp now = .ok (s', result, retired)) :
    CommitEffect h s stamp now refresh s' result := by
  unfold commitRefreshToken prepareRefreshContract at he
  cases hv : validateRefreshCommit refresh with
  | error => simp [hv] at he
  | ok =>
    cases refresh with
    | issueNew token contract =>
      simp only [hv] at he
      cases hc : s.clients.find? (RefreshTokenCommit.issueNew token contract).clientKey with
      | none => simp [hc] at he
      | some =>
        simp only [hc] at he
        exact createRefreshFamily_effect (validateRefreshCommit_eq_ok hv rfl).2 rfl he
    | useExisting authority rotation =>
      simp only [hv] at he
      cases hc : s.clients.find? (RefreshTokenCommit.useExisting authority rotation).clientKey with
      | none => simp [hc] at he
      | some =>
        simp only [hc] at he
        refine persistExisting_effect (fun token ht => ?_) hc he
        subst ht
        exact validRotation_of_validate hv

/-- **What an operation does.** -/
inductive Stepped (h : Hashes) (s : RefreshStore) (op : Op) : RefreshStore → Outcome → Prop
  | rolledBack (e : RepositoryError) : Stepped h s op s (.rolledBack e)
  | committed {refresh : RefreshTokenCommit} {nativeSource : Option Uuid} {s' : RefreshStore}
      {result : RefreshTokenPersistResult} :
      op.action = .commit refresh nativeSource →
      CommitEffect h s op.stamp op.now refresh s' result → Stepped h s op s' (.persisted result)
  | revoked (scope : RevocationScope) : Stepped h s op (revokeFamilies s scope op.stamp) .done
  | registered (client : LockedClientRow) : Stepped h s op (registerClient s client) .done
  | retyped (tenantId id : Uuid) (clientType : ClientType) :
      Stepped h s op (setClientType s tenantId id clientType op.stamp) .done
  | swept (held : List (Uuid × Digest)) : Stepped h s op (deleteExpiredSpentProofs s held op.stamp) .done
  | reclaimed (candidates heldFamilies : List (Uuid × Uuid)) (heldProofs : List (Uuid × Digest))
      (proofBudget : Nat) :
      Stepped h s op (deleteExpiredRefreshFamilies s candidates heldFamilies heldProofs proofBudget op.stamp) .done
  | pruned (page : List (Uuid × Digest)) : Stepped h s op (deleteOrphanRefreshContracts s page) .done

theorem stepped_of_exec {op : Op} {out : Outcome} (he : exec h s op = (s', out)) : Stepped h s op s' out := by
  unfold exec at he
  split at he
  · rename_i ha
    split at he
    · cases he
      exact .rolledBack _
    · rename_i hc
      cases he
      exact .committed ha (commitRefreshToken_effect hc)
  all_goals
    cases he
    constructor

/-! ## One family row -/

/-- Only the flags of a family row changed, and a flag that was set kept its value. -/
structure Flagged (f f' : RefreshFamilyRow) : Prop where
  same : f' = { f with revokedAt := f'.revokedAt, reuseDetectedAt := f'.reuseDetectedAt }
  revokedAt : f.revokedAt.isSome → f'.revokedAt = f.revokedAt
  reuseDetectedAt : f.reuseDetectedAt.isSome → f'.reuseDetectedAt = f.reuseDetectedAt

theorem Flagged.refl (f : RefreshFamilyRow) : Flagged f f := ⟨rfl, fun _ => rfl, fun _ => rfl⟩

variable {f : RefreshFamilyRow} {t : Instant}

theorem flagged_revoke (hr : f.revokedAt = none) : Flagged f (f.revoke t) :=
  ⟨rfl, fun h => by simp [hr] at h, fun _ => rfl⟩

theorem flagged_compromise (hr : f.reuseDetectedAt = none) : Flagged f (f.compromise t) := by
  refine ⟨rfl, fun h => ?_, fun h => by simp [hr] at h⟩
  obtain ⟨r, hr⟩ := Option.isSome_iff_exists.mp h
  simp [RefreshFamilyRow.compromise, hr]

/-- A row is absent before and after, or present before and after with at most its flags set. -/
def KeptOrAbsent (t t' : Table RefreshFamilyRow.key) (k : Uuid × Uuid) : Prop :=
  (t.find? k = none ∧ t'.find? k = none) ∨ ∃ f f', t.find? k = some f ∧ t'.find? k = some f' ∧ Flagged f f'

theorem KeptOrAbsent.refl (t : Table RefreshFamilyRow.key) (k : Uuid × Uuid) : KeptOrAbsent t t k := by
  cases hf : t.find? k with
  | none => exact .inl ⟨hf, hf⟩
  | some f => exact .inr ⟨f, f, hf, hf, Flagged.refl f⟩

theorem keptOrAbsent_update {t : Table RefreshFamilyRow.key} {p : RefreshFamilyRow → Bool}
    {g : RefreshFamilyRow → RefreshFamilyRow} (hg : ∀ r, (g r).key = r.key)
    (hp : ∀ f, p f = true → Flagged f (g f)) (k : Uuid × Uuid) : KeptOrAbsent t (t.update p g hg) k := by
  cases hf : t.find? k with
  | none => exact .inl ⟨hf, by simp [hf]⟩
  | some f =>
    refine .inr ⟨f, if p f then g f else f, hf, by simp [hf], ?_⟩
    split_ifs with hpf
    · exact hp f hpf
    · exact Flagged.refl f

theorem keptOrAbsent_compromise (tenantId familyId : Uuid) (stamp : Instant) (k : Uuid × Uuid) :
    KeptOrAbsent s.families (compromiseFamily s tenantId familyId stamp).families k := by
  refine keptOrAbsent_update (RefreshFamilyRow.compromise_key stamp) (fun f hf => ?_) k
  simp only [Bool.and_eq_true, Option.isNone_iff_eq_none] at hf
  exact flagged_compromise hf.2

theorem keptOrAbsent_revoke (scope : RevocationScope) (stamp : Instant) (k : Uuid × Uuid) :
    KeptOrAbsent s.families (revokeFamilies s scope stamp).families k := by
  refine keptOrAbsent_update (RefreshFamilyRow.revoke_key stamp) (fun f hf => ?_) k
  simp only [Bool.and_eq_true, Option.isNone_iff_eq_none] at hf
  exact flagged_revoke hf.2

theorem keptOrAbsent_retire (victims : List RefreshFamilyRow) (stamp : Instant) (k : Uuid × Uuid) :
    KeptOrAbsent s.families (retireVictims s victims stamp).families k := by
  refine keptOrAbsent_update (RefreshFamilyRow.revoke_key stamp) (fun f hf => ?_) k
  simp only [Bool.and_eq_true, RefreshFamilyRow.isActive, Option.isNone_iff_eq_none] at hf
  exact flagged_revoke hf.2.1.1

@[simp] theorem refreshContractEnsure_frame (s : RefreshStore) (tenantId : Uuid)
    (prepared : PreparedRefreshContract) :
    (refreshContractEnsure s tenantId prepared).families = s.families
      ∧ (refreshContractEnsure s tenantId prepared).spent = s.spent
      ∧ (refreshContractEnsure s tenantId prepared).clients = s.clients := by
  unfold refreshContractEnsure
  split <;> exact ⟨rfl, rfl, rfl⟩

/-- A family was created by the operation. -/
structure CreatedBy (op : Op) (out : Outcome) (token : NewRefreshToken) (contract : RefreshContract) : Prop where
  action : ∃ nativeSource, op.action = .commit (.issueNew token contract) nativeSource
  outcome : out = .persisted .inserted
  valid : validAudiences token.audiences = true

/-- A family was rotated by the operation. -/
structure RotatedBy (h : Hashes) (s s' : RefreshStore) (op : Op) (out : Outcome)
    (authority : RefreshTokenAuthority) (token : NewRefreshToken) (family : RefreshFamilyRow)
    (contract : RefreshContractRow) (client : LockedClientRow) : Prop where
  action : ∃ nativeSource, op.action = .commit (.useExisting authority (some token)) nativeSource
  outcome : out = .persisted .inserted
  usable : UsableSource s authority op.now family contract
  sourceMatches : sourceMatches family contract.contract authority = true
  valid : ValidRotation authority token
  clientFound : s.clients.find? (authority.tenantId, authority.clientId) = some client
  rotated : rotateFamily h s family token client.clientType op.now = .ok s'

/-- **What any operation can do to one family row**, from what was stored before it and what is
after it. -/
inductive FamilyEffect (h : Hashes) (s s' : RefreshStore) (op : Op) (out : Outcome)
    (k : Uuid × Uuid) : Option RefreshFamilyRow → Option RefreshFamilyRow → Prop
  | absent : (∀ g, installedBy h (op, out) ≠ some (k, g)) → FamilyEffect h s s' op out k none none
  | kept {f f' : RefreshFamilyRow} : Flagged f f' → (∀ g, installedBy h (op, out) ≠ some (k, g)) →
      FamilyEffect h s s' op out k (some f) (some f')
  | created {token : NewRefreshToken} {contract : RefreshContract} :
      CreatedBy op out token contract → k = (token.tenantId, token.familyId) →
      FamilyEffect h s s' op out k none (some (newFamilyRow h token ⟨h.contractBlake3 contract, contract⟩))
  | rotated {authority token family contract client} :
      RotatedBy h s s' op out authority token family contract client →
      k = (authority.tenantId, authority.familyId) →
      FamilyEffect h s s' op out k (some family) (some (family.install h token))
  | deleted {f : RefreshFamilyRow} : f.isTerminal op.stamp = true → (∀ p ∈ s'.spent.rows, p.familyKey ≠ k) →
      (∀ g, installedBy h (op, out) ≠ some (k, g)) → FamilyEffect h s s' op out k (some f) none

variable {op : Op} {out : Outcome} {p : SpentRefreshTokenRow}

theorem installedBy_inserted (ha : op.action = .commit refresh nativeSource) :
    installedBy h (op, .persisted .inserted) =
      refresh.token.map fun token =>
      (refresh.familyKey, ⟨token.memberId, h.blake3 token.rawToken, token.expiresAt⟩) := by
  simp [installedBy, ha]

theorem installedBy_not_inserted (ho : out ≠ .persisted .inserted) : installedBy h (op, out) = none := by
  unfold installedBy
  split
  · rename_i hout
    exact absurd hout ho
  · rfl

theorem FamilyEffect.of_keptOrAbsent {k : Uuid × Uuid} (hk : KeptOrAbsent s.families s'.families k)
    (hn : ∀ g, installedBy h (op, out) ≠ some (k, g)) :
    FamilyEffect h s s' op out k (s.families.find? k) (s'.families.find? k) := by
  rcases hk with ⟨hf, hf'⟩ | ⟨f, f', hf, hf', hfl⟩
  · rw [hf, hf']
    exact .absent hn
  · rw [hf, hf']
    exact .kept hfl hn

/-- An operation that reports no insertion can at most set the flags of a family. -/
theorem FamilyEffect.of_kept {k : Uuid × Uuid} (hk : KeptOrAbsent s.families s'.families k)
    (ho : out ≠ .persisted .inserted) : FamilyEffect h s s' op out k (s.families.find? k) (s'.families.find? k) :=
  .of_keptOrAbsent hk fun g => by simp [installedBy_not_inserted ho]

theorem rotateFamily_eq {family : RefreshFamilyRow} {clientType : ClientType}
    (hr : rotateFamily h s family token clientType now = .ok s') :
    ∃ spent, s.spent.insert? (spentProof family token now) = some spent
      ∧ s'.spent = trimSpentProofs spent token.tenantId token.familyId
          (refreshSpentProofLimit clientType family.dpopJkt family.mtlsX5tS256)
      ∧ s'.families = s.families.update (fun f => f.key = (token.tenantId, token.familyId))
          (RefreshFamilyRow.install h token) (RefreshFamilyRow.install_key h token)
      ∧ s'.contracts = s.contracts ∧ s'.clients = s.clients := by
  unfold rotateFamily at hr
  cases hi : s.spent.insert? (spentProof family token now) with
  | none => simp [hi] at hr
  | some spent =>
    simp only [hi] at hr
    split_ifs at hr
    cases hr
    exact ⟨spent, rfl, rfl, rfl, rfl, rfl⟩

theorem familyEffect_commit (ha : op.action = .commit refresh nativeSource)
    (he : CommitEffect h s op.stamp op.now refresh s' result) (k : Uuid × Uuid) :
    FamilyEffect h s s' op (.persisted result) k (s.families.find? k) (s'.families.find? k) := by
  cases he with
  | createConflict => exact .of_kept (keptOrAbsent_compromise _ _ _ k) (by simp)
  | created hv hp hf hs hi =>
    rename_i token contract prepared s₁ families
    subst hp
    have hfam : s₁.families = (retireVictims s (capacityVictims s token op.stamp) op.stamp).families := by
      rw [hs]; simp
    have hfind := Table.find?_of_insert? hi
    by_cases hk : k = (token.tenantId, token.familyId)
    · have hrow : families.find? (token.tenantId, token.familyId)
          = some (newFamilyRow h token ⟨h.contractBlake3 contract, contract⟩) := by
        simp only [hfind, newFamilyRow, RefreshFamilyRow.key, if_true]
      rw [hk, hf, hrow]
      exact .created ⟨⟨nativeSource, ha⟩, rfl, hv⟩ rfl
    refine .of_keptOrAbsent ?_ fun g hg => hk ?_
    swap
    · rw [installedBy_inserted ha] at hg
      simp only [RefreshTokenCommit.token, Option.map_some, Option.some.injEq, Prod.mk.injEq] at hg
      exact hg.1.symm
    have hne : k ≠ (newFamilyRow h token ⟨h.contractBlake3 contract, contract⟩).key := hk
    have hkept := keptOrAbsent_retire (s := s) (capacityVictims s token op.stamp) op.stamp k
    rw [← hfam] at hkept
    unfold KeptOrAbsent at hkept ⊢
    simpa only [hfind, if_neg hne] using hkept
  | unusable _ => exact .of_kept (KeptOrAbsent.refl _ k) (by simp)
  | compromised _ _ => exact .of_kept (keptOrAbsent_compromise _ _ _ k) (by simp)
  | preserved _ _ =>
    exact .of_keptOrAbsent (KeptOrAbsent.refl _ k) fun g => by
      simp [installedBy_inserted ha, RefreshTokenCommit.token]
  | rotated hu hm hv hc hr =>
    rename_i authority token family contract client
    obtain ⟨spent, -, -, hfam, -, -⟩ := rotateFamily_eq hr
    by_cases hk : k = (authority.tenantId, authority.familyId)
    · have hkey : family.key = (token.tenantId, token.familyId) := by
        rw [hv.tenantId, hv.familyId]
        exact Table.find?_key hu.familyFound
      have hrow : s'.families.find? (authority.tenantId, authority.familyId) = some (family.install h token) := by
        rw [hfam, Table.find?_update, hu.familyFound]
        simp [hkey]
      rw [hk, hu.familyFound, hrow]
      exact .rotated ⟨⟨nativeSource, ha⟩, rfl, hu, hm, hv, hc, hr⟩ rfl
    · refine .of_keptOrAbsent ?_ fun g hg => hk ?_
      swap
      · rw [installedBy_inserted ha] at hg
        simp only [RefreshTokenCommit.token, Option.map_some, Option.some.injEq, Prod.mk.injEq] at hg
        exact hg.1.symm
      cases hf : s.families.find? k with
      | none => exact .inl ⟨hf, by rw [hfam, Table.find?_update, hf]; rfl⟩
      | some f =>
        have hne : f.key ≠ (token.tenantId, token.familyId) := by
          rw [hv.tenantId, hv.familyId, Table.find?_key hf]
          exact hk
        exact .inr ⟨f, f, hf, by rw [hfam, Table.find?_update, hf]; simp [hne], Flagged.refl f⟩

variable {candidates heldFamilies : List (Uuid × Uuid)} {heldProofs : List (Uuid × Digest)}
  {proofBudget : Nat} {familyId tenantId : Uuid} {limit : Option Nat}
  {spent : Table SpentRefreshTokenRow.key}

theorem familyEffect_reclaim
    (hs : s' = deleteExpiredRefreshFamilies s candidates heldFamilies heldProofs proofBudget op.stamp)
    (ho : out ≠ .persisted .inserted) (k : Uuid × Uuid) :
    FamilyEffect h s s' op out k (s.families.find? k) (s'.families.find? k) := by
  have hn : ∀ g, installedBy h (op, out) ≠ some (k, g) := fun g => by simp [installedBy_not_inserted ho]
  subst hs
  simp only [deleteExpiredRefreshFamilies, Table.find?_delete]
  cases hf : s.families.find? k with
  | none => exact .absent hn
  | some f =>
    have hkey : f.key = k := Table.find?_key hf
    rw [Option.filter]
    split_ifs with hc
    · exact .kept (Flagged.refl f) hn
    simp only [Bool.not_eq_true', Bool.not_eq_false, Bool.and_eq_true, List.contains_iff_mem,
      List.any_eq_false, decide_eq_true_eq, hkey] at hc
    have ht := (List.mem_filter.mp hc.1).2
    simp only [hf, Bool.and_eq_true] at ht
    exact .deleted ht.2 (fun p hp => hc.2 p hp) hn

/-- **What one operation does to one family row.** -/
theorem familyEffect_of_exec (he : exec h s op = (s', out)) {k : Uuid × Uuid} {o o' : Option RefreshFamilyRow}
    (hf : s.families.find? k = o) (hf' : s'.families.find? k = o') : FamilyEffect h s s' op out k o o' := by
  subst hf hf'
  cases stepped_of_exec he with
  | rolledBack | swept | pruned => exact .of_kept (KeptOrAbsent.refl _ k) (by simp)
  | committed ha hc => exact familyEffect_commit ha hc k
  | revoked scope => exact .of_kept (keptOrAbsent_revoke scope op.stamp k) (by simp)
  | registered =>
    refine .of_kept ?_ (by simp)
    unfold registerClient
    split <;> exact KeptOrAbsent.refl _ k
  | retyped tenantId id clientType =>
    refine .of_kept ?_ (by simp)
    unfold setClientType
    split_ifs
    · exact keptOrAbsent_revoke (s := updateClientType s tenantId id clientType) _ op.stamp k
    · exact KeptOrAbsent.refl _ k
  | reclaimed => exact familyEffect_reclaim rfl (by simp) k

/-! ## Spent proofs -/

theorem mem_of_mem_trim (hp : p ∈ (trimSpentProofs spent tenantId familyId limit).rows) : p ∈ spent.rows := by
  cases limit with
  | none => exact hp
  | some => exact (Table.mem_delete.mp hp).1

theorem mem_trim (hp : p ∈ spent.rows) : p ∈ (trimSpentProofs spent tenantId familyId limit).rows
      ∨ (p.familyKey = (tenantId, familyId) ∧ limit ≠ none) := by
  cases limit with
  | none => exact .inl hp
  | some =>
    by_cases hk : p.familyKey = (tenantId, familyId)
    · exact .inr ⟨hk, by simp⟩
    · exact .inl (Table.mem_delete.mpr ⟨hp, by simp [hk]⟩)

theorem spent_of_commit (ha : op.action = .commit refresh nativeSource)
    (he : CommitEffect h s op.stamp op.now refresh s' result) :
    s'.spent = s.spent ∨ ∃ authority token family contract client,
      RotatedBy h s s' op (.persisted result) authority token family contract client := by
  cases he with
  | createConflict => exact .inl rfl
  | created hv hp hf hs =>
    subst hs
    exact .inl (by simp [retireVictims, RefreshStore.updateFamilies])
  | unusable | compromised | preserved => exact .inl rfl
  | rotated hu hm hv hc hr => exact .inr ⟨_, _, _, _, _, ⟨nativeSource, ha⟩, rfl, hu, hm, hv, hc, hr⟩

/-- How a spent proof can disappear. -/
inductive SpentLost (h : Hashes) (s s' : RefreshStore) (op : Op) (out : Outcome) (p : SpentRefreshTokenRow) : Prop
  | expired : p.expiresAt ≤ op.stamp → SpentLost h s s' op out p
  | terminal {f : RefreshFamilyRow} : s.families.find? p.familyKey = some f →
      f.isTerminal op.stamp = true → SpentLost h s s' op out p
  | trimmed {authority token family contract client} :
      RotatedBy h s s' op out authority token family contract client →
      p.familyKey = (authority.tenantId, authority.familyId) →
      refreshSpentProofLimit client.clientType family.dpopJkt family.mtlsX5tS256 ≠ none →
      SpentLost h s s' op out p

/-- What can happen to the table of spent proofs. -/
inductive SpentEffect (h : Hashes) (s s' : RefreshStore) (op : Op) (out : Outcome) : Prop
  | same : s'.spent = s.spent → SpentEffect h s s' op out
  | rotated {authority token family contract client} :
      RotatedBy h s s' op out authority token family contract client → SpentEffect h s s' op out
  | deleted {q : SpentRefreshTokenRow → Bool} : s'.spent = s.spent.delete q →
      (∀ p ∈ s.spent.rows, q p = true → SpentLost h s s' op out p) → SpentEffect h s s' op out

theorem mem_of_key_contains {t : Table SpentRefreshTokenRow.key}
    {selected : List SpentRefreshTokenRow} (hsub : ∀ q ∈ selected, q ∈ t.rows) (hp : p ∈ t.rows)
    (hc : (selected.map SpentRefreshTokenRow.key).contains p.key = true) : p ∈ selected := by
  rw [List.contains_iff_mem] at hc
  obtain ⟨q, hq, hk⟩ := List.mem_map.mp hc
  rwa [← List.inj_on_of_nodup_map t.nodup (hsub q hq) hp hk]

theorem spentEffect_sweep {held : List (Uuid × Digest)}
    (hs : s' = deleteExpiredSpentProofs s held op.stamp) : SpentEffect h s s' op out := by
  subst hs
  refine .deleted rfl fun p hp hq => ?_
  have hsel : ∀ q ∈ ((s.spent.rows.filter fun p =>
      decide (p.expiresAt ≤ op.stamp) && !held.contains p.key).insertionSort
        SpentRefreshTokenRow.expiresFirst).take cleanupBatchLimit,
      q ∈ s.spent.rows ∧ q.expiresAt ≤ op.stamp := by
    intro q hq
    have := List.mem_filter.mp ((List.mem_insertionSort _).mp (List.mem_of_mem_take hq))
    simp only [Bool.and_eq_true, decide_eq_true_eq] at this
    exact ⟨this.1, this.2.1⟩
  exact .expired (hsel p (mem_of_key_contains (fun q hq => (hsel q hq).1) hp hq)).2

theorem spentEffect_reclaim
    (hs : s' = deleteExpiredRefreshFamilies s candidates heldFamilies heldProofs proofBudget op.stamp) :
    SpentEffect h s s' op out := by
  subst hs
  refine .deleted rfl fun p hp hq => ?_
  have hsel : ∀ q ∈ (s.spent.rows.filter fun p =>
      (terminalFamilies s candidates heldFamilies op.stamp).contains p.familyKey
        && !heldProofs.contains p.key).take proofBudget,
      q ∈ s.spent.rows ∧ q.familyKey ∈ terminalFamilies s candidates heldFamilies op.stamp := by
    intro q hq
    have := List.mem_filter.mp (List.mem_of_mem_take hq)
    simp only [Bool.and_eq_true, List.contains_iff_mem] at this
    exact ⟨this.1, this.2.1⟩
  have hterm := (hsel p (mem_of_key_contains (fun q hq => (hsel q hq).1) hp hq)).2
  have hany := (List.mem_filter.mp hterm).2
  simp only [Bool.and_eq_true, Option.any_eq_true] at hany
  obtain ⟨f, hf, ht⟩ := hany.2
  exact .terminal hf ht

/-- **What one operation does to the spent proofs.** -/
theorem spentEffect_of_exec (he : exec h s op = (s', out)) : SpentEffect h s s' op out := by
  cases stepped_of_exec he with
  | rolledBack | revoked | pruned => exact .same rfl
  | committed ha hc =>
    rcases spent_of_commit ha hc with hsame | ⟨_, _, _, _, _, hr⟩
    · exact .same hsame
    · exact .rotated hr
  | registered =>
    refine .same ?_
    rw [registerClient]
    split <;> rfl
  | retyped =>
    refine .same ?_
    rw [setClientType]
    split_ifs <;> rfl
  | swept => exact spentEffect_sweep rfl
  | reclaimed => exact spentEffect_reclaim rfl

theorem spent_of_exec (he : exec h s op = (s', out)) (hp : p ∈ s'.spent.rows) :
    p ∈ s.spent.rows ∨ ∃ authority token family contract client,
      RotatedBy h s s' op out authority token family contract client ∧ p = spentProof family token op.now := by
  cases spentEffect_of_exec he with
  | same hs => exact .inl (hs ▸ hp)
  | deleted hs => rw [hs] at hp; exact .inl (Table.mem_delete.mp hp).1
  | rotated hr =>
    obtain ⟨spent, hi, hs, -⟩ := rotateFamily_eq hr.rotated
    rw [hs] at hp
    rcases (Table.mem_of_insert? hi).mp (mem_of_mem_trim hp) with rfl | hold
    · exact .inr ⟨_, _, _, _, _, hr, rfl⟩
    · exact .inl hold

theorem spent_lost_of_exec (he : exec h s op = (s', out)) (hp : p ∈ s.spent.rows) :
    p ∈ s'.spent.rows ∨ SpentLost h s s' op out p := by
  cases spentEffect_of_exec he with
  | same hs => exact .inl (hs ▸ hp)
  | @deleted q hs hq =>
    cases hqp : q p with
    | false => exact .inl (by rw [hs]; exact Table.mem_delete.mpr ⟨hp, hqp⟩)
    | true => exact .inr (hq p hp hqp)
  | rotated hr =>
    obtain ⟨spent, hi, hs, -⟩ := rotateFamily_eq hr.rotated
    have hin := (Table.mem_of_insert? hi).mpr (.inr hp)
    rw [hs]
    rcases mem_trim hin with hk | ⟨hk, hl⟩
    · exact .inl hk
    · rw [hr.valid.tenantId, hr.valid.familyId] at hk
      exact .inr (.trimmed hr hk hl)

end NazoAuth.Refresh
