import NazoAuth.Refresh.Authority

/-!
# Refresh families — reuse of a rotated token is detected

Detection needs evidence: the spent proof of the presented token. For a family without a sender
constraint whose client is public, nothing deletes an unexpired proof while the family can be
refreshed — rotations do not trim, the sweep waits for the proof's own expiry, reclaiming waits for
the family to be expired or revoked, and a client that was confidential in between has lost its
families when it becomes public. That is `RetentionInv`.

With the proof found, a request has no successor to fall back to, so its commit names a member that
is no longer current and the family is compromised.
-/

namespace NazoAuth.Refresh

open Lib

variable {h : Hashes} {s s' : RefreshStore} {op : Op} {out : Outcome}

/-- One clock: transactions start before they read it, and it does not run backwards. -/
def Timed : Log → Prop
  | [] => True
  | e :: log => Timed log ∧ e.1.stamp ≤ e.1.now ∧ ∀ e' ∈ log, e'.1.now ≤ e.1.now

instance decidableTimed : DecidablePred Timed
  | [] => isTrue trivial
  | _ :: log => @instDecidableAnd _ _ (decidableTimed log) inferInstance

/-! ## Clients -/

/-- What one operation can do to the clients. -/
inductive ClientEffect (s s' : RefreshStore) : Prop
  | same : s'.clients = s.clients → ClientEffect s s'
  | registered {client} : s.clients.insert? client = some s'.clients → ClientEffect s s'
  | retyped {tenantId id clientType stamp} :
      s' = setClientType s tenantId id clientType stamp → ClientEffect s s'

theorem clientEffect_of_exec (he : exec h s op = (s', out)) : ClientEffect s s' := by
  cases stepped_of_exec he with
  | rolledBack | revoked | swept | reclaimed | pruned => exact .same rfl
  | committed _ hc =>
    cases hc with
    | createConflict | unusable | compromised | preserved => exact .same rfl
    | created _ _ _ hs =>
      subst hs
      exact .same (by simp [retireVictims, RefreshStore.updateFamilies])
    | rotated _ _ _ _ hr =>
      obtain ⟨_, _, _, _, _, hcl⟩ := rotateFamily_eq hr
      exact .same hcl
  | registered client =>
    unfold registerClient
    split
    · rename_i hi
      exact .registered hi
    · exact .same rfl
  | retyped => exact .retyped rfl

variable {ck : Uuid × Uuid} {nativeSource : Option Uuid}

theorem client_kept (he : exec h s op = (s', out)) {c : LockedClientRow}
    (hc : s.clients.find? ck = some c) : ∃ c', s'.clients.find? ck = some c' := by
  cases clientEffect_of_exec he with
  | same hs => exact ⟨c, by rw [hs, hc]⟩
  | registered hi =>
    rw [Table.find?_of_insert? hi]
    split_ifs
    · exact ⟨_, rfl⟩
    · exact ⟨c, hc⟩
  | retyped hs =>
    subst hs
    rw [setClientType]
    split_ifs <;> simp [revokeFamilies, RefreshStore.updateFamilies, updateClientType, hc]

/-- A client that is public was so before, or is new, or has just lost its families. -/
theorem client_public (he : exec h s op = (s', out)) {c' : LockedClientRow}
    (hc' : s'.clients.find? ck = some c') (hp : c'.clientType = .publicClient) :
    (∃ c, s.clients.find? ck = some c ∧ c.clientType = .publicClient) ∨ s.clients.find? ck = none
      ∨ ∀ k f', s'.families.find? k = some f' → (f'.tenantId, f'.clientId) = ck → f'.revokedAt.isSome := by
  cases clientEffect_of_exec he with
  | same hs => exact .inl ⟨c', by rw [← hs, hc'], hp⟩
  | registered hi =>
    rw [Table.find?_of_insert? hi] at hc'
    split_ifs at hc' with hk
    · exact .inr (.inl (hk ▸ Table.find?_none_of_insert? hi))
    · exact .inl ⟨c', hc', hp⟩
  | retyped hs =>
    rename_i tenantId id clientType stamp
    cases hc : s.clients.find? ck with
    | none => exact .inr (.inl rfl)
    | some c =>
      have hkey := Table.find?_key hc
      by_cases hck : ck = (tenantId, id)
      · by_cases hconf : c.clientType = .confidential
        · -- the trigger fires: every family of the client is revoked
          right; right
          intro k f' hf' hfk
          have hdown : ((s.clients.find? (tenantId, id)).any fun client =>
              client.clientType = .confidential && clientType = .publicClient) = true := by
            have hnew : clientType = .publicClient := by
              have hrow : c' = c.withType clientType := by
                rw [hs, setClientType] at hc'
                have : c.key = (tenantId, id) := hkey.trans hck
                split_ifs at hc' <;>
                  simpa [revokeFamilies, RefreshStore.updateFamilies, updateClientType, hc, this, eq_comm]
                  using hc'
              rw [hrow] at hp
              exact hp
            rw [← hck, hc]
            simp [hconf, hnew]
          rw [hs, setClientType, if_pos hdown] at hf'
          simp only [revokeFamilies, RefreshStore.updateFamilies, Table.find?_update] at hf'
          obtain ⟨f, hf, rfl⟩ := Option.map_eq_some_iff.mp hf'
          by_cases hrev : f.revokedAt = none
          · have hcov : (RevocationScope.client tenantId id).covers (updateClientType s tenantId id clientType) f
                = true := by
              split_ifs at hfk <;>
                (rw [hck] at hfk; simpa [RevocationScope.covers, RefreshFamilyRow.revoke] using hfk)
            simp [hcov, hrev, RefreshFamilyRow.revoke]
          · obtain ⟨t, ht⟩ := Option.ne_none_iff_exists'.mp hrev
            simp [ht]
        · refine .inl ⟨c, rfl, ?_⟩
          cases hct : c.clientType with
          | publicClient => rfl
          | confidential => exact absurd hct hconf
      · refine .inl ⟨c, rfl, ?_⟩
        have hrow : c' = c := by
          rw [hs, setClientType] at hc'
          have hne : c.key ≠ (tenantId, id) := fun h' => hck (hkey.symm.trans h')
          split_ifs at hc' <;>
            simpa [revokeFamilies, RefreshStore.updateFamilies, updateClientType, hc, hne, Ne.symm hne, eq_comm]
            using hc'
        rw [← hrow]
        exact hp

theorem commit_client {refresh : RefreshTokenCommit} {result : RefreshTokenPersistResult}
    (he : exec h s op = (s', .persisted result)) (ha : op.action = .commit refresh nativeSource) :
    ∃ c, s.clients.find? refresh.clientKey = some c := by
  simp only [exec, ha] at he
  cases hc : s.clients.find? refresh.clientKey with
  | some c => exact ⟨c, rfl⟩
  | none =>
    unfold commitRefreshToken at he
    cases hp : prepareRefreshContract h refresh <;> simp [hp, hc] at he

/-! ## Retention -/

/-- A family whose rotated tokens must be recognised at time `t`: live, of a public client and
without a sender constraint. -/
structure Watched (s : RefreshStore) (k : Uuid × Uuid) (f : RefreshFamilyRow) (t : Instant) : Prop where
  found : s.families.find? k = some f
  publicClient : ∃ c, s.clients.find? (f.tenantId, f.clientId) = some c ∧ c.clientType = .publicClient
  dpopJkt : f.dpopJkt = none
  mtlsX5tS256 : f.mtlsX5tS256 = none
  notRevoked : f.revokedAt = none
  notExpired : t < f.currentExpiresAt

def SpentRefreshTokenRow.generation (p : SpentRefreshTokenRow) : Generation :=
  ⟨p.memberId, p.refreshTokenBlake3, p.expiresAt⟩

/-- The spent proof of a generation of family `k` is stored. -/
def Retained (s : RefreshStore) (k : Uuid × Uuid) (g : Generation) : Prop :=
  ∃ p ∈ s.spent.rows, p.familyKey = k ∧ p.generation = g

/-- Every family has a client, and a watched family has the proofs of all its unexpired rotated
tokens. -/
structure RetentionInv (h : Hashes) (log : Log) (s : RefreshStore) : Prop where
  client : ∀ k f, s.families.find? k = some f → ∃ c, s.clients.find? (f.tenantId, f.clientId) = some c
  retained : ∀ k f t, Watched s k f t → (∀ e ∈ log, e.1.now ≤ t) →
    ∀ g ∈ (lineage h k log).tail, t < g.expiresAt → Retained s k g

variable {f' f : RefreshFamilyRow} {k : Uuid × Uuid} {log : Log} {t now stamp : Instant}
  {authority : RefreshTokenAuthority} {g : Generation}

theorem family_client_step (hinv : RetentionInv h log s) (he : exec h s op = (s', out))
    (hf' : s'.families.find? k = some f') :
    ∃ c, s'.clients.find? (f'.tenantId, f'.clientId) = some c := by
  cases hf : s.families.find? k with
  | none =>
    cases familyEffect_of_exec he hf hf' with
    | created hc =>
      obtain ⟨nativeSource, ha⟩ := hc.action
      have hout := hc.outcome
      subst hout
      obtain ⟨c, hfound⟩ := commit_client he ha
      exact client_kept he hfound
  | some f =>
    obtain ⟨c, hc⟩ := hinv.client k f hf
    have hkept := client_kept he hc
    cases familyEffect_of_exec he hf hf' with
    | kept hfl => rwa [hfl.same]
    | rotated => exact hkept

/-- A family that is watched after an operation which did not install a generation was watched
before it. -/
theorem Watched.before (hinv : RetentionInv h log s) (he : exec h s op = (s', out)) (hw : Watched s' k f' t)
    (hf : s.families.find? k = some f) (hfl : Flagged f f') : Watched s k f t := by
  have hsame : f'.tenantId = f.tenantId ∧ f'.clientId = f.clientId ∧ f'.dpopJkt = f.dpopJkt
      ∧ f'.mtlsX5tS256 = f.mtlsX5tS256 ∧ f'.currentExpiresAt = f.currentExpiresAt := by
    rw [hfl.same]
    exact ⟨rfl, rfl, rfl, rfl, rfl⟩
  obtain ⟨htenant, hclient, hdpop, hmtls, hexp⟩ := hsame
  have hrev : f.revokedAt = none := by
    by_contra hne
    have := hfl.revokedAt (Option.isSome_iff_ne_none.mpr hne)
    exact hne (this.symm.trans hw.notRevoked)
  refine ⟨hf, ?_, hdpop.symm.trans hw.dpopJkt, hmtls.symm.trans hw.mtlsX5tS256, hrev, hexp ▸ hw.notExpired⟩
  obtain ⟨c', hc', hp⟩ := hw.publicClient
  rcases client_public he hc' hp with ⟨c, hc, hpub⟩ | hnone | hrevoked
  · exact ⟨c, by rw [← htenant, ← hclient]; exact hc, hpub⟩
  · obtain ⟨c, hc⟩ := hinv.client k f hf
    rw [htenant, hclient, hc] at hnone
    exact absurd hnone (by simp)
  · have := hrevoked k f' hw.found rfl
    rw [hw.notRevoked] at this
    exact absurd this (by simp)

theorem RotatedBy.limit_none {token : NewRefreshToken} {family : RefreshFamilyRow}
    {contract : RefreshContractRow} {client : LockedClientRow}
    (hr : RotatedBy h s s' op out authority token family contract client)
    (hw : Watched s' (authority.tenantId, authority.familyId) (family.install h token) t) :
    client.clientType = .publicClient
      ∧ refreshSpentProofLimit client.clientType family.dpopJkt family.mtlsX5tS256 = none := by
  obtain ⟨c, hc, hpub⟩ := hw.publicClient
  obtain ⟨_, _, _, _, _, hclients⟩ := rotateFamily_eq hr.rotated
  have htenant : family.tenantId = authority.tenantId := congrArg Prod.fst (Table.find?_key hr.usable.familyFound)
  have hclient : family.clientId = authority.clientId := (sourceAgrees_of_matches hr.sourceMatches).clientId
  rw [hclients, show (family.install h token).tenantId = authority.tenantId from htenant,
    show (family.install h token).clientId = authority.clientId from hclient, hr.clientFound] at hc
  cases hc
  have hdpop : family.dpopJkt = none := hw.dpopJkt
  have hmtls : family.mtlsX5tS256 = none := hw.mtlsX5tS256
  exact ⟨hpub, by simp [refreshSpentProofLimit, hpub, hdpop, hmtls]⟩

theorem retained_step (hchain : ChainInv h log s) (hinv : RetentionInv h log s)
    (ht : Timed ((op, out) :: log)) (he : exec h s op = (s', out)) (hw : Watched s' k f' t)
    (hlate : ∀ e ∈ (op, out) :: log, e.1.now ≤ t) (hg : g ∈ (lineage h k ((op, out) :: log)).tail)
    (hexp : t < g.expiresAt) : Retained s' k g := by
  obtain ⟨-, hstamp, hnow⟩ := ht
  have hop : op.now ≤ t := hlate (op, out) (.head _)
  have hfound := hw.found
  cases hf : s.families.find? k with
  | none =>
    cases familyEffect_of_exec he hf hfound with
    | created hc hk =>
      subst hk
      rw [lineage_of_created hc.installedBy hc.creates] at hg
      simp at hg
  | some f =>
  cases familyEffect_of_exec he hf hfound with
  | kept hfl hn =>
    rw [lineage_of_not_installed hn] at hg
    have hw₀ := hw.before hinv he hf hfl
    obtain ⟨p, hp, hpk, rfl⟩ :=
      hinv.retained k f t hw₀ (fun e hmem => hlate e (.tail _ hmem)) g hg hexp
    rcases spent_lost_of_exec he hp with hkept | hlost
    · exact ⟨p, hkept, hpk, rfl⟩
    exfalso
    cases hlost with
    | expired hle =>
      exact absurd (hle.trans (hstamp.trans hop)) (not_le.mpr hexp)
    | terminal hf₀ hterm =>
      rw [hpk] at hf₀
      cases hf₀.symm.trans hf
      simp only [RefreshFamilyRow.isTerminal, Bool.or_eq_true, decide_eq_true_eq, hw₀.notRevoked,
        Option.isSome_none, Bool.false_eq_true, or_false] at hterm
      exact absurd (hterm.trans (hstamp.trans hop)) (not_le.mpr hw₀.notExpired)
    | trimmed hr hfk _ => exact hn _ (by rw [hr.installedBy, ← hpk, hfk])
  | @rotated authority token family contract client hr hk =>
    subst hk
    obtain ⟨hpub, hlimit⟩ := hr.limit_none hw
    obtain ⟨spent, hi, hs, -⟩ := rotateFamily_eq hr.rotated
    have hmem : ∀ p, p = spentProof f token op.now ∨ p ∈ s.spent.rows → p ∈ s'.spent.rows := by
      intro p hp
      rw [hs, hlimit]
      exact (Table.mem_of_insert? hi).mpr hp
    obtain ⟨older, hl⟩ := hchain.current _ _ hf
    rw [lineage_of_rotated hr.installedBy (hr.not_creates _), hl] at hg
    rcases List.mem_cons.mp hg with rfl | hg
    · -- the generation this rotation replaced has its proof from this rotation
      refine ⟨_, hmem _ (.inl rfl), ?_, rfl⟩
      simp only [SpentRefreshTokenRow.familyKey, spentProof, hr.valid.tenantId, hr.valid.familyId]
    · -- older ones had theirs when the rotation read the clock
      have htenant : f.tenantId = authority.tenantId := congrArg Prod.fst (Table.find?_key hf)
      have hclient : f.clientId = authority.clientId := (sourceAgrees_of_matches hr.sourceMatches).clientId
      have hw₀ : Watched s (authority.tenantId, authority.familyId) f op.now :=
        ⟨hf, ⟨client, by rw [htenant, hclient]; exact hr.clientFound, hpub⟩,
         hw.dpopJkt, hw.mtlsX5tS256, hr.usable.notRevoked, hr.usable.notExpired⟩
      obtain ⟨p, hp, hpk, hpg⟩ := hinv.retained _ _ op.now hw₀ hnow g (by rw [hl]; exact hg) (hop.trans_lt hexp)
      exact ⟨p, hmem p (.inr hp), hpk, hpg⟩

theorem retentionInv_init : RetentionInv h [] RefreshStore.empty where
  client := fun k f hf => by simp [RefreshStore.empty] at hf
  retained := fun k f t hw => by simpa [RefreshStore.empty] using hw.found

/-- **Retention.** In every history under one clock, a watched family has all its unexpired
proofs. -/
theorem retentionInv_of_run (hr : Run (exec h) RefreshStore.empty log s)
    (hf : FreshTokens h log) (ht : Timed log) : RetentionInv h log s := by
  refine Run.invariant (G := fun log => FreshTokens h log ∧ Timed log) (fun _ _ hg => ⟨hg.1.1, hg.2.1⟩)
    retentionInv_init ?_ hr ⟨hf, ht⟩
  intro log s op s' out hr hg hinv he
  exact ⟨fun k f hf => family_client_step hinv he hf, fun k f t hw hlate g hmem hexp =>
    retained_step (chainInv_of_run hr hg.1.1) hinv hg.2 he hw hlate hmem hexp⟩

/-! ## Presentation of a rotated token -/

theorem installed_of_lineage (hg : g ∈ lineage h k log) : (k, g) ∈ installed h log := by
  induction log with
  | nil => cases hg
  | cons e log ih =>
    rw [mem_installed_cons]
    unfold lineage at hg
    cases hi : installedBy h e with
    | none =>
      simp only [hi] at hg
      exact .inr (ih hg)
    | some x =>
      obtain ⟨k', g'⟩ := x
      simp only [hi] at hg
      split_ifs at hg with hk hc
      · obtain rfl := List.mem_singleton.mp hg
        exact .inl (by rw [hk])
      · rcases List.mem_cons.mp hg with rfl | hg
        · exact .inl (by rw [hk])
        · exact .inr (ih hg)
      · exact .inr (ih hg)

theorem ChainInv.not_current (hinv : ChainInv h log s) (hg : g ∈ (lineage h k log).tail)
    {k' : Uuid × Uuid} (hf : s.families.find? k' = some f) :
    f.currentMemberId ≠ g.memberId ∧ f.currentTokenBlake3 ≠ g.digest := by
  obtain ⟨e, he, hsrc⟩ := hinv.rotatedOut k g hg
  exact (hinv.source e he _ _ hsrc).2 k' f hf

theorem current_lookup_none (hinv : ChainInv h log s) (hg : g ∈ (lineage h k log).tail) :
    s.families.rows.find? (fun f => f.tenantId = k.1 && f.currentTokenBlake3 = g.digest) = none := by
  refine List.find?_eq_none.mpr fun f hf hcur => ?_
  simp only [Bool.and_eq_true, decide_eq_true_eq] at hcur
  exact (hinv.not_current hg (Table.find?_of_mem hf)).2 hcur.2

/-- The look-up of a rotated token whose proof is stored finds the proof and the family. -/
theorem lookup_of_retained (hinv : ChainInv h log s) (hg : g ∈ (lineage h k log).tail)
    (hf : s.families.find? k = some f) (hret : Retained s k g) :
    ∃ row p, lookupRefreshToken s k.1 g.digest = some row ∧ row.family = f ∧ row.spent = some p
      ∧ p.generation = g := by
  obtain ⟨p, hp, hpk, rfl⟩ := hret
  have hkey : s.spent.find? (k.1, p.generation.digest) = some p := by
    rw [← hpk]
    exact Table.find?_of_mem hp
  refine ⟨⟨f, (s.contracts.find? (f.tenantId, f.contractBlake3)).map (·.contract), some p⟩, p, ?_, rfl, rfl, rfl⟩
  rw [lookupRefreshToken, current_lookup_none hinv hg, hkey]
  simp only [hpk, hf, Option.map_some]

/-- A look-up of a rotated token that finds something finds a proof of its own family. -/
theorem rotated_of_lookup {row : RefreshPresentationRow} (hinv : ChainInv h log s)
    (hfresh : FreshTokens h log) (hg : g ∈ (lineage h k log).tail)
    (hl : lookupRefreshToken s k.1 g.digest = some row) :
    ∃ p, row.spent = some p ∧ s.families.find? k = some row.family ∧ p.memberId = g.memberId
      ∧ p.refreshTokenBlake3 = g.digest := by
  rw [lookupRefreshToken, current_lookup_none hinv hg] at hl
  cases hp : s.spent.find? (k.1, g.digest) with
  | none => simp [hp] at hl
  | some p =>
    simp only [hp] at hl
    obtain ⟨f, hf, rfl⟩ := Option.map_eq_some_iff.mp hl
    have hdigest : p.refreshTokenBlake3 = g.digest := congrArg Prod.snd (Table.find?_key hp)
    -- the proof is a link of its family's lineage, and a digest is installed once
    obtain ⟨-, newer, successor, older, hlin, -⟩ := hinv.link p (Table.mem_of_find? hp)
    have hin : (p.familyKey, p.generation) ∈ installed h log :=
      installed_of_lineage (by rw [hlin]; simp [SpentRefreshTokenRow.generation])
    have heq := installed_inj hfresh hin (installed_of_lineage (List.mem_of_mem_tail hg)) (.inr hdigest)
    have hk : p.familyKey = k := congrArg Prod.fst heq
    exact ⟨p, rfl, by rw [← hk]; exact hf, congrArg (fun x => x.2.memberId) heq, hdigest⟩

/-- The commit of a request that presents a rotated token of a family without a sender constraint:
it has the rotated generation as its source and a replacement for it. -/
theorem commit_of_rotated {cfg : TokenIssuanceConfig} {facts : RequestFacts} {client : ClientRow}
    {form : TokenForm} {clientAttestationJkt : Option String} {rawToken : String} {draw : IssueDraw}
    {requestStartedAt : Instant} {accessToken : AccessTokenSignInput} {commit : RefreshTokenCommit}
    (hinv : ChainInv h log s) (hfresh : FreshTokens h log) (hg : g ∈ (lineage h k log).tail)
    (hunbound : ∀ f, s.families.find? k = some f → f.dpopJkt = none ∧ f.mtlsX5tS256 = none)
    (htenant : client.tenantId = k.1) (hform : form.refreshToken = some rawToken)
    (hraw : h.blake3 rawToken = g.digest)
    (hreq : refreshRequestOn h s cfg facts client form clientAttestationJkt draw requestStartedAt now
      = .ok (accessToken, some commit)) :
    ∃ f authority token, s.families.find? k = some f ∧ commit = .useExisting authority (some token)
      ∧ (authority.tenantId, authority.familyId) = k ∧ authority.clientId = f.clientId
      ∧ authority.memberId = g.memberId := by
  simp only [refreshRequestOn, hform] at hreq
  obtain ⟨issue, hissue, hresp⟩ := of_bind hreq
  obtain ⟨presentation, hsnap, hspec⟩ := tokenRefreshWithService_spec hissue
  simp only [refreshTokenSnapshot, htenant, hraw] at hsnap
  cases hl : lookupRefreshToken s k.1 g.digest with
  | none => simp [hl] at hsnap
  | some row =>
    obtain ⟨p, hp, hf, hmember, -⟩ := rotated_of_lookup hinv hfresh hg hl
    obtain ⟨hdpop, hmtls⟩ := hunbound row.family hf
    cases hc : row.contract with
    | none => simp [hl, RefreshPresentationRow.intoPresentation, hc] at hsnap
    | some contract =>
      -- no sender constraint, so no successor may answer
      simp only [hl, RefreshPresentationRow.intoPresentation, hc, hp, lostResponseEligible, hdpop, hmtls,
        Option.isSome_none, Bool.or_self, Bool.and_false, Bool.false_and, Option.any_some,
        Bool.false_eq_true, if_false, Except.ok.injEq, Option.some.injEq] at hsnap
      subst hsnap
      obtain ⟨details, hwithin, -, hcommit⟩ := issueTokenResponse_spec hspec.authority hresp
      have hpolicy := hspec.policy
      have hdetails : details = (tokenFromSpent p row.family contract).contract.authorizationDetails :=
        hwithin.authorizationDetails.symm
      have hwill : willIssueRefresh cfg client { issue with authorizationDetails := details }
          (RefreshPresentation.token ⟨tokenFromSpent p row.family contract, none⟩).authority = true := by
        simp only [hspec.includeRefresh, hdetails]
        exact hspec.renewable
      rw [if_pos hwill, show refreshFamilyOf _ draw = _ from congrArg (refreshFamilyOf · draw) hpolicy] at hcommit
      have hkey : row.family.key = k := Table.find?_key hf
      exact ⟨row.family, _, _, hf, Option.some.inj hcommit, hkey, rfl, hmember⟩

/-! ## The commit of a stale source -/

theorem compromiseFamily_find? (hf : s.families.find? k = some f) :
    ∃ f', (compromiseFamily s k.1 k.2 stamp).families.find? k = some f' ∧ f'.reuseDetectedAt.isSome := by
  have hkey : f.key = k := Table.find?_key hf
  simp only [compromiseFamily, RefreshStore.updateFamilies, Table.find?_update, hf, Option.map_some, hkey]
  cases hr : f.reuseDetectedAt <;> simp [hr, RefreshFamilyRow.compromise]

def ReuseDetected (s : RefreshStore) (k : Uuid × Uuid) : Prop :=
  ∃ f, s.families.find? k = some f ∧ f.reuseDetectedAt.isSome

/-- The family is deleted, revoked, compromised or expired. -/
def NoLongerLive (s : RefreshStore) (k : Uuid × Uuid) (now : Instant) : Prop :=
  ∀ f, s.families.find? k = some f → f.revokedAt.isSome ∨ f.reuseDetectedAt.isSome ∨ f.currentExpiresAt ≤ now

/-- A replacement for a generation that is not current compromises the family, unless it is no
longer live. -/
theorem persistExisting_stale (token : NewRefreshToken) (clientType : ClientType) (stamp now : Instant)
    (hstale : ∀ f, s.families.find? (authority.tenantId, authority.familyId) = some f → f.currentMemberId
    ≠ authority.memberId) (hcontract : ∀ f, s.families.find? (authority.tenantId, authority.familyId) = some f →
      ∃ c, s.contracts.find? (f.tenantId, f.contractBlake3) = some c) :
    ∃ s' r, persistExisting h s authority (some token) clientType stamp now = .ok (s', r, none)
      ∧ r ≠ .inserted ∧ (ReuseDetected s' (authority.tenantId, authority.familyId)
        ∨ NoLongerLive s (authority.tenantId, authority.familyId) now) := by
  unfold persistExisting
  cases hf : s.families.find? (authority.tenantId, authority.familyId) with
  | none => exact ⟨s, .invalidSource, rfl, by simp, .inr fun f hf' => by simp [hf] at hf'⟩
  | some f =>
    by_cases hdead : (f.revokedAt.isSome || f.reuseDetectedAt.isSome || decide (f.currentExpiresAt ≤ now)) = true
    · refine ⟨s, .invalidSource, by simp only [hdead, if_true], by simp, .inr fun f' hf' => ?_⟩
      cases hf.symm.trans hf'
      simpa only [Bool.or_eq_true, decide_eq_true_eq, or_assoc] using hdead
    · obtain ⟨c, hc⟩ := hcontract f hf
      have hm : sourceMatches f c.contract authority = false := by
        simp [sourceMatches, hstale f hf]
      refine ⟨compromiseFamily s authority.tenantId authority.familyId stamp, .rotationConflict,
        ?_, by simp, .inl ?_⟩
      · simp only [hdead, hc, hm, Option.isSome_some, if_true, Bool.false_eq_true, if_false]
      · exact compromiseFamily_find? hf

theorem exec_commit_invalid {refresh : RefreshTokenCommit} {e : RepositoryError}
    (hv : validateRefreshCommit refresh = .error e) :
    exec h s ⟨.commit refresh nativeSource, stamp, now⟩ = (s, .rolledBack e) := by
  have hc : commitRefreshToken h s refresh nativeSource stamp now = .error e := by
    unfold commitRefreshToken prepareRefreshContract
    rw [hv]
  simp only [exec, hc]

theorem exec_commit_existing {rotation : Option NewRefreshToken} {c : LockedClientRow}
    {r : RefreshTokenPersistResult} {retired : Option RetiredNativeSsoSource}
    (hv : validateRefreshCommit (.useExisting authority rotation) = .ok ())
    (hc : s.clients.find? (authority.tenantId, authority.clientId) = some c)
    (hp : persistExisting h s authority rotation c.clientType stamp now = .ok (s', r, retired)) :
    exec h s ⟨.commit (.useExisting authority rotation) nativeSource, stamp, now⟩ = (s', .persisted r) := by
  have hcommit : commitRefreshToken h s (.useExisting authority rotation) nativeSource stamp now
      = .ok (s', r, retired) := by
    unfold commitRefreshToken prepareRefreshContract RefreshTokenCommit.clientKey
    rw [hv]
    simp only [hc]
    exact hp
  simp only [exec, hcommit]

theorem client_kept_run {new : Log} (hr : Run (exec h) s new s')
    (hc : ∃ c, s.clients.find? ck = some c) : ∃ c, s'.clients.find? ck = some c :=
  Run.state_invariant (I := fun s => ∃ c, s.clients.find? ck = some c) hc
    (fun _ _ _ _ hc he => hc.elim fun _ hc => client_kept he hc) hr

/-! ## The result -/

/-- **Reuse is detected.** Take a history under one clock with fresh tokens, and a generation `g`
that was rotated out of a family and has not expired.

* If the family is live, unbound and of a public client, the look-up of `g` finds its spent proof.
* If a request presents `g` while the family is unbound and ends in a commit, the commit inserts
  nothing and, if its value is valid, leaves the family compromised, or had found it deleted,
  revoked, compromised or expired. -/
theorem reuse_detected {log new : Log} {s₁ s₂ : RefreshStore} {k : Uuid × Uuid} {g : Generation}
    (hr₁ : Run (exec h) RefreshStore.empty log s₁) (hr₂ : Run (exec h) s₁ new s₂)
    (hfresh : FreshTokens h (new ++ log)) (htimed : Timed log) (hg : g ∈ (lineage h k log).tail) :
    (∀ f t, Watched s₁ k f t → (∀ e ∈ log, e.1.now ≤ t) → t < g.expiresAt →
      ∃ row p, lookupRefreshToken s₁ k.1 g.digest = some row ∧ row.family = f ∧ row.spent = some p
        ∧ p.generation = g)
    ∧ ∀ cfg facts client form clientAttestationJkt rawToken draw requestStartedAt now accessToken commit,
        (∀ f, s₁.families.find? k = some f → f.dpopJkt = none ∧ f.mtlsX5tS256 = none) →
        client.tenantId = k.1 → form.refreshToken = some rawToken → h.blake3 rawToken = g.digest →
        refreshRequestOn h s₁ cfg facts client form clientAttestationJkt draw requestStartedAt now
          = .ok (accessToken, some commit) →
        ∀ nativeSource stamp now' s₃ out, exec h s₂ ⟨.commit commit nativeSource, stamp, now'⟩ = (s₃, out) →
          out ≠ .persisted .inserted
          ∧ (validateRefreshCommit commit = .ok () → ReuseDetected s₃ k ∨ NoLongerLive s₂ k now') := by
  have hfresh₁ : FreshTokens h log := freshTokens_of_append hfresh
  have hinv₁ := chainInv_of_run hr₁ hfresh₁
  have hret := retentionInv_of_run hr₁ hfresh₁ htimed
  refine ⟨fun f t hw hlate hexp => lookup_of_retained hinv₁ hg hw.found (hret.retained k f t hw hlate g hg hexp),
    ?_⟩
  intro cfg facts client form att rawToken draw t₀ t₁ accessToken commit hunbound htenant hform hraw hreq
    nativeSource stamp now' s₃ out hexec
  obtain ⟨f, authority, token, hf, rfl, hk, hclient, hmember⟩ :=
    commit_of_rotated hinv₁ hfresh₁ hg hunbound htenant hform hraw hreq
  -- the presented generation is still not current when the commit runs
  have hinv₂ := chainInv_of_run (hr₁.append hr₂) hfresh
  have hstale : ∀ f, s₂.families.find? (authority.tenantId, authority.familyId) = some f →
      f.currentMemberId ≠ authority.memberId := by
    intro f₂ hf₂
    obtain ⟨e, he, hsrc⟩ := hinv₁.rotatedOut k g hg
    rw [hmember]
    exact ((hinv₂.source e (List.mem_append_right _ he) _ _ hsrc).2 _ f₂ hf₂).1
  have hgrant := grantInv_of_run (hr₁.append hr₂)
  obtain ⟨c, hc⟩ : ∃ c, s₂.clients.find? (authority.tenantId, authority.clientId) = some c := by
    refine client_kept_run hr₂ ?_
    have htf : f.tenantId = authority.tenantId := congrArg Prod.fst ((Table.find?_key hf).trans hk.symm)
    rw [hclient, ← htf]
    exact hret.client k f hf
  obtain ⟨s', r, hpersist, hne, hor⟩ :=
    persistExisting_stale (h := h) token c.clientType stamp now' hstale fun f hf => (hgrant.family _ f hf).2
  rw [hk] at hor
  cases hv : validateRefreshCommit (.useExisting authority (some token)) with
  | error =>
    cases (exec_commit_invalid hv).symm.trans hexec
    exact ⟨by simp, fun habs => by simp at habs⟩
  | ok =>
    cases (exec_commit_existing hv hc hpersist).symm.trans hexec
    exact ⟨by simpa using hne, fun _ => hor⟩

/-! ## A replay of the first generation -/

section Sample

def sampleHistory : Log × RefreshStore := execAll (exec sampleHashes) RefreshStore.empty [] sampleRotations

def sampleFamily : RefreshFamilyRow :=
  { newFamilyRow sampleHashes (sampleToken "aaa" 13 (some 12) 30 200)
    ⟨1, sampleContract⟩ with createdAt := seconds 10 }

def sampleForm : TokenForm := ⟨some "a", none, []⟩

/-- What the request that replays the first generation asks the commit to do. -/
def sampleReplay : RefreshTokenCommit :=
  .useExisting (sampleAuthority "a" 11)
    (some { sampleToken "aaaa" 14 (some 11) 40 3640 with lostResponseRetry := some ⟨11, 1, seconds 40⟩ })

theorem sampleReplay_requested :
    (refreshRequestOn sampleHashes sampleHistory.2 sampleConfig sampleFacts sampleClient sampleForm none sampleDraw
      (seconds 40) (seconds 40)).toOption.bind (·.2) = some sampleReplay := by decide +kernel

/-- The replay of the first generation, two rotations later, compromises the sample family. -/
theorem reuse_detected_sample :
    (∃ row p, lookupRefreshToken sampleHistory.2 1 1 = some row ∧ row.spent = some p ∧ p.memberId = 11)
    ∧ ∀ s₃ out, exec sampleHashes sampleHistory.2 ⟨.commit sampleReplay none, seconds 40, seconds 40⟩ = (s₃, out) →
        out ≠ .persisted .inserted ∧ ReuseDetected s₃ (1, 5) := by
  have hg : (⟨11, 1, seconds 100⟩ : Generation) ∈ (lineage sampleHashes (1, 5) sampleHistory.1).tail := by decide
  have hfresh : FreshTokens sampleHashes ([] ++ sampleHistory.1) := by decide
  obtain ⟨hfind, hcommit⟩ := reuse_detected (run_execAll RefreshStore.empty sampleRotations) Run.nil hfresh
    (by decide) hg
  have hf : sampleHistory.2.families.find? (1, 5) = some sampleFamily := by decide
  constructor
  · have hw : Watched sampleHistory.2 (1, 5) sampleFamily (seconds 40) :=
      ⟨hf, ⟨⟨1, 2, "client", .publicClient⟩, by decide, rfl⟩, rfl, rfl, rfl, by decide⟩
    obtain ⟨row, p, hl, -, hp, hpg⟩ := hfind sampleFamily (seconds 40) hw (by decide) (by decide)
    exact ⟨row, p, hl, hp, congrArg Generation.memberId hpg⟩
  · intro s₃ out hexec
    cases hreq : refreshRequestOn sampleHashes sampleHistory.2 sampleConfig sampleFacts sampleClient sampleForm
        none sampleDraw (seconds 40) (seconds 40) with
    | error => exact absurd (hreq ▸ sampleReplay_requested) (by simp [Except.toOption])
    | ok r =>
      obtain ⟨accessToken, commit⟩ := r
      have hsome : commit = some sampleReplay := by simpa [hreq, Except.toOption] using sampleReplay_requested
      subst hsome
      obtain ⟨hne, hor⟩ := hcommit _ _ _ _ _ "a" _ _ _ _ _
        (fun f hf' => by obtain rfl := Option.some.inj (hf.symm.trans hf'); exact ⟨rfl, rfl⟩) rfl rfl (by decide)
        hreq none _ _ s₃ out hexec
      refine ⟨hne, (hor (by decide)).resolve_right fun hdead => ?_⟩
      exact absurd (hdead sampleFamily hf) (by decide)

end Sample

/-! ## The families of a user and a client -/

/-- The active families in the scope of `token`. -/
def activeFamilies (s : RefreshStore) (token : NewRefreshToken) (at_ : Instant) : List RefreshFamilyRow :=
  s.families.rows.filter fun f =>
    f.tenantId = token.tenantId && f.userId = token.userId && f.clientId = token.clientId && f.isActive at_

instance : Std.Total RefreshFamilyRow.olderEq where
  total f g := by
    unfold RefreshFamilyRow.olderEq
    rcases lt_trichotomy f.currentIssuedAt g.currentIssuedAt with h | h | h
    · exact .inl (.inl h)
    · exact (BitVec.le_total f.tokenFamilyId g.tokenFamilyId).imp (fun hle => .inr ⟨h, hle⟩) fun hle =>
        .inr ⟨h.symm, hle⟩
    · exact .inr (.inl h)

instance : IsTrans RefreshFamilyRow RefreshFamilyRow.olderEq where
  trans f g k hfg hgk := by
    rcases hfg with hfg | ⟨hfg, hle⟩
    · exact .inl (hgk.elim (lt_trans hfg) fun h => h.1 ▸ hfg)
    · rcases hgk with hgk | ⟨hgk, hle'⟩
      · exact .inl (hfg ▸ hgk)
      · exact .inr ⟨hfg.trans hgk, BitVec.le_trans hle hle'⟩

/-- The capacity rule over one commit. -/
structure WithinCapacity (s s' : RefreshStore) (token : NewRefreshToken) (stamp : Instant) : Prop where
  bounded : ∀ t, stamp ≤ t → (activeFamilies s' token t).length ≤ maxActiveRefreshFamiliesPerScope
  /-- The active families fall into those that are retired and those that are kept, as many as leave room for one
  more. Those that are retired are older, and nothing else changes in the rows that were there. -/
  oldest : ∃ retired kept, List.Perm (activeFamilies s token stamp) (retired ++ kept)
    ∧ kept.length = min (activeFamilies s token stamp).length (maxActiveRefreshFamiliesPerScope - 1)
    ∧ (∀ f ∈ retired, ∀ g ∈ kept, f.olderEq g)
    ∧ ∀ f ∈ s.families.rows, s'.families.find? f.key = some (if f ∈ retired then f.revoke stamp else f)

/-- A row is retired if it is one of the victims. -/
theorem victim_iff {victims : List RefreshFamilyRow} {token : NewRefreshToken} {f : RefreshFamilyRow}
    (hvictims : victims ⊆ activeFamilies s token stamp) (hf : f ∈ s.families.rows) :
    ((victims.map RefreshFamilyRow.key).contains f.key && f.isActive stamp) = true ↔ f ∈ victims := by
  rw [Bool.and_eq_true, List.contains_iff_mem, List.mem_map]
  constructor
  · rintro ⟨⟨victim, hmem, hkey⟩, -⟩
    have hrow := Table.find?_of_mem (List.mem_filter.mp (hvictims hmem)).1
    rw [hkey, Table.find?_of_mem hf] at hrow
    exact Option.some.inj hrow ▸ hmem
  · intro hmem
    have hactive := (List.mem_filter.mp (hvictims hmem)).2
    simp only [Bool.and_eq_true] at hactive
    exact ⟨⟨f, hmem, rfl⟩, hactive.2⟩

/-- **A commit that creates a family keeps its user within the limit**, whatever was active before:
in the same transaction the oldest families above it are retired. -/
theorem created_within_capacity (op : Op) {token : NewRefreshToken} {contract : RefreshContract}
    {nativeSource : Option Uuid} (he : exec h s op = (s', .persisted .inserted))
    (ha : op.action = .commit (.issueNew token contract) nativeSource) (hu : token.userId ≠ none) :
    WithinCapacity s s' token op.stamp := by
  cases commitEffect_of_exec he ha with
  | created hv hp hf hs hi =>
    rename_i prepared s₁ families
    let ranked := (activeFamilies s token op.stamp).insertionSort RefreshFamilyRow.olderEq
    let n := ranked.length - (maxActiveRefreshFamiliesPerScope - 1)
    have hvictims : capacityVictims s token op.stamp = ranked.take n := if_neg (by simpa using hu)
    have hperm : ranked.Perm (activeFamilies s token op.stamp) := List.perm_insertionSort _ _
    have hsplit : ranked.take n ++ ranked.drop n = ranked := List.take_append_drop n ranked
    have hrows : s₁.families.rows = s.families.rows.map fun f => if f ∈ ranked.take n then f.revoke op.stamp
        else f := by
      rw [hs, (refreshContractEnsure_frame _ _ _).1, hvictims]
      refine List.map_congr_left fun f hf => ?_
      simp only [victim_iff (fun _ hmem => hperm.subset (List.mem_of_mem_take hmem)) hf]
    -- the new family and those of the scope that were not retired
    have hsub : ∀ t, op.stamp ≤ t →
        activeFamilies { s₁ with families := families } token t ⊆ newFamilyRow h token prepared
        :: ranked.drop n := by
      intro t ht f hf
      obtain ⟨hmem, hact⟩ := List.mem_filter.mp hf
      rcases (Table.mem_of_insert? hi).mp hmem with rfl | hold
      · exact List.mem_cons_self
      rw [hrows] at hold
      obtain ⟨f, hrow, rfl⟩ := List.mem_map.mp hold
      split_ifs at hact ⊢ with hvictim
      · simp [RefreshFamilyRow.isActive, RefreshFamilyRow.revoke] at hact
      simp only [Bool.and_eq_true, RefreshFamilyRow.isActive, decide_eq_true_eq, gt_iff_lt] at hact
      have hrank : f ∈ ranked.take n ++ ranked.drop n := by
        rw [hsplit]
        refine hperm.symm.subset (List.mem_filter.mpr ⟨hrow, ?_⟩)
        simp [RefreshFamilyRow.isActive, hact, lt_of_le_of_lt ht hact.2.2]
      exact List.mem_cons_of_mem _ ((List.mem_append.mp hrank).resolve_left hvictim)
    refine ⟨fun t ht => ?_, ranked.take n, ranked.drop n, hsplit.symm ▸ hperm.symm, ?_, ?_, fun f hf => ?_⟩
    · have hlength := (List.subperm_of_subset (families.nodup.of_map.filter _) (hsub t ht)).length_le
      rw [List.length_cons, List.length_drop] at hlength
      exact hlength.trans (by unfold n maxActiveRefreshFamiliesPerScope; omega)
    · rw [List.length_drop, ← hperm.length_eq]
      unfold n
      omega
    · have hsorted := List.pairwise_insertionSort RefreshFamilyRow.olderEq (activeFamilies s token op.stamp)
      exact (List.pairwise_append.mp (hsplit.symm ▸ hsorted)).2.2
    · have hmem : (if f ∈ ranked.take n then f.revoke op.stamp else f) ∈ families.rows := by
        refine (Table.mem_of_insert? hi).mpr (.inr ?_)
        rw [hrows]
        exact List.mem_map_of_mem hf
      have hkey : (if f ∈ ranked.take n then f.revoke op.stamp else f).key = f.key := by split_ifs <;> rfl
      rw [← hkey]
      exact Table.find?_of_mem hmem

/-- Ten families of one user and client, the one with the lowest number the oldest. -/
def fullStore : RefreshStore :=
  (execAll (exec sampleHashes) .empty [] (⟨.registerClient ⟨1, 2, "client", .publicClient⟩, seconds 5, seconds 5⟩
    :: (List.range 10).map fun n => ⟨.commit (.issueNew
      { sampleToken (String.ofList (List.replicate (n + 1) 'a')) (.ofNat 128 (n + 1)) none (10 + n)
      100 with familyId := .ofNat 128 (n + 1) } sampleContract) none, seconds (10 + n), seconds (10 + n)⟩)).2

/-- The commit of one more. -/
def eleventh : Op :=
  ⟨.commit (.issueNew { sampleToken "another token" 11 none 30 100 with familyId := 11 } sampleContract) none,
    seconds 30, seconds 30⟩

/-- The first family is retired. -/
theorem created_within_capacity_full :
    WithinCapacity fullStore (exec sampleHashes fullStore eleventh).1
        { sampleToken "another token" 11 none 30 100 with familyId := 11 } (seconds 30)
      ∧ ((exec sampleHashes fullStore eleventh).1.families.rows.filter (·.revokedAt.isSome)).map (·.tokenFamilyId)
      = [1] :=
  ⟨created_within_capacity (h := sampleHashes) eleventh (Prod.ext rfl rfl) rfl (by decide), by decide +kernel⟩

end NazoAuth.Refresh
