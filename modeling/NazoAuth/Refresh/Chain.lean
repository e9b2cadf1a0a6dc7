import NazoAuth.Refresh.Steps

/-!
# Refresh families — the chain of generations

A history installs generations: one when a family is created, one at every successful rotation. The
generations of a family, newest first, are its *lineage*; it grows only at its head.
-/

namespace NazoAuth.Refresh

open Lib

/-- Every generation that was ever installed, newest first. -/
def installed (h : Hashes) (log : Log) : List ((Uuid × Uuid) × Generation) := log.filterMap (installedBy h)

/-- The generations of family `k` since its creation, newest first. -/
def lineage (h : Hashes) (k : Uuid × Uuid) : Log → List Generation
  | [] => []
  | e :: log =>
    match installedBy h e with
    | none => lineage h k log
    | some (k', g) =>
      if k' = k then
        if creates k e then [g] else g :: lineage h k log
      else lineage h k log

/-- Installed generations have member ids and digests that were not used before. -/
def FreshTokens (h : Hashes) : Log → Prop
  | [] => True
  | e :: log => FreshTokens h log ∧ ∀ k g, installedBy h e = some (k, g) →
      ∀ x ∈ installed h log, x.2.memberId ≠ g.memberId ∧ x.2.digest ≠ g.digest

instance decidableFreshTokens (h : Hashes) : DecidablePred (FreshTokens h)
  | [] => isTrue trivial
  | e :: log =>
    have := decidableFreshTokens h log
    match hi : installedBy h e with
    | none => decidable_of_iff (FreshTokens h log) (by simp [FreshTokens, hi])
    | some (k, g) =>
      decidable_of_iff (FreshTokens h log ∧ ∀ x ∈ installed h log, x.2.memberId ≠ g.memberId
        ∧ x.2.digest ≠ g.digest) (by simp [FreshTokens, hi])

variable {h : Hashes}

/-! ## Facts about histories -/

variable {log new : Log}

theorem freshTokens_of_append (hf : FreshTokens h (new ++ log)) : FreshTokens h log := by
  induction new with
  | nil => exact hf
  | cons e new ih => exact ih hf.1

theorem installed_cons (e : Op × Outcome) (log : Log) :
    installed h (e :: log) = (installedBy h e).toList ++ installed h log := by
  cases hi : installedBy h e <;> simp [installed, hi]

theorem installed_nodup (hf : FreshTokens h log) :
    ((installed h log).map fun x => x.2.memberId).Nodup ∧ ((installed h log).map fun x => x.2.digest).Nodup := by
  induction log with
  | nil => simp [installed]
  | cons e log ih =>
    obtain ⟨hlog, hnew⟩ := hf
    obtain ⟨h1, h2⟩ := ih hlog
    rw [installed_cons]
    cases hi : installedBy h e with
    | none => simpa using ⟨h1, h2⟩
    | some x =>
      have hx := hnew x.1 x.2 hi
      simp only [Option.toList_some, List.singleton_append, List.map_cons, List.nodup_cons, List.mem_map,
        not_exists, not_and]
      exact ⟨⟨fun y hy => (hx y hy).1, h1⟩, ⟨fun y hy => (hx y hy).2, h2⟩⟩

theorem lineage_sublist (k : Uuid × Uuid) (log : Log) :
    List.Sublist (lineage h k log) ((installed h log).map (·.2)) := by
  induction log with
  | nil => exact List.Sublist.refl _
  | cons e log ih =>
    rw [installed_cons]
    unfold lineage
    cases hi : installedBy h e with
    | none => simpa using ih
    | some x =>
      obtain ⟨k', g⟩ := x
      simp only
      split_ifs
      · exact (List.nil_sublist _).cons_cons g
      · exact ih.cons_cons g
      · exact ih.cons g

theorem lineage_nodup (hf : FreshTokens h log) (k : Uuid × Uuid) :
    ((lineage h k log).map Generation.memberId).Nodup ∧ ((lineage h k log).map Generation.digest).Nodup := by
  obtain ⟨h1, h2⟩ := installed_nodup hf
  have hs := lineage_sublist (h := h) k log
  refine ⟨(List.Sublist.map Generation.memberId hs).nodup ?_, (List.Sublist.map Generation.digest hs).nodup ?_⟩
  · simpa [Function.comp_def] using h1
  · simpa [Function.comp_def] using h2

/-- Two installed generations with one member id, or one digest, are the same installation. -/
theorem installed_inj (hf : FreshTokens h log) {x y : (Uuid × Uuid) × Generation}
    (hx : x ∈ installed h log) (hy : y ∈ installed h log)
    (he : x.2.memberId = y.2.memberId ∨ x.2.digest = y.2.digest) : x = y := by
  obtain ⟨h1, h2⟩ := installed_nodup hf
  rcases he with he | he
  · exact List.inj_on_of_nodup_map h1 hx hy he
  · exact List.inj_on_of_nodup_map h2 hx hy he

section Lineage

variable {k : Uuid × Uuid} {e : Op × Outcome} {g : Generation}

theorem lineage_of_not_installed (hn : ∀ g, installedBy h e ≠ some (k, g)) (log : Log) :
    lineage h k (e :: log) = lineage h k log := by
  rw [lineage]
  cases hi : installedBy h e with
  | none => rfl
  | some x =>
    obtain ⟨k', g⟩ := x
    have hk : k' ≠ k := by
      rintro rfl
      exact hn g hi
    simp [hk]

theorem lineage_of_created (hi : installedBy h e = some (k, g)) (hc : creates k e = true)
    (log : Log) : lineage h k (e :: log) = [g] := by
  simp [lineage, hi, hc]

theorem lineage_of_rotated (hi : installedBy h e = some (k, g)) (hc : creates k e = false)
    (log : Log) : lineage h k (e :: log) = g :: lineage h k log := by
  simp [lineage, hi, hc]

end Lineage

/-! ## What creation and rotation leave in the history -/

section Events

variable {s s' : RefreshStore} {op : Op} {out : Outcome} {token : NewRefreshToken}

theorem CreatedBy.installedBy {contract : RefreshContract} (hc : CreatedBy op out token contract) :
    installedBy h (op, out) = some
    ((token.tenantId, token.familyId), ⟨token.memberId, h.blake3 token.rawToken, token.expiresAt⟩) := by
  obtain ⟨nativeSource, ha⟩ := hc.action
  rw [hc.outcome, installedBy_inserted ha]
  rfl

theorem CreatedBy.creates {contract : RefreshContract} (hc : CreatedBy op out token contract) :
    creates (token.tenantId, token.familyId) (op, out) = true := by
  obtain ⟨nativeSource, ha⟩ := hc.action
  simp [Refresh.creates, ha, hc.outcome]

variable {authority : RefreshTokenAuthority} {family : RefreshFamilyRow}
  {contract : RefreshContractRow} {client : LockedClientRow}

theorem RotatedBy.installedBy (hr : RotatedBy h s s' op out authority token family contract client) :
    installedBy h (op, out) =
      some ((authority.tenantId, authority.familyId),
        ⟨token.memberId, h.blake3 token.rawToken, token.expiresAt⟩) := by
  obtain ⟨nativeSource, ha⟩ := hr.action
  rw [hr.outcome, installedBy_inserted ha]
  rfl

theorem RotatedBy.not_creates (hr : RotatedBy h s s' op out authority token family contract client)
    (k : Uuid × Uuid) : creates k (op, out) = false := by
  obtain ⟨nativeSource, ha⟩ := hr.action
  simp [creates, ha]

theorem RotatedBy.source (hr : RotatedBy h s s' op out authority token family contract client) :
    family.currentMemberId = authority.memberId ∧ family.currentTokenBlake3 = authority.tokenBlake3 := by
  have hm := hr.sourceMatches
  simp only [Refresh.sourceMatches, Bool.and_eq_true, decide_eq_true_eq] at hm
  exact ⟨hm.1.1.1.1.1.1.1.1.1.1, hm.1.1.1.1.1.1.1.1.1.2⟩

theorem RotatedBy.rotationSource (hr : RotatedBy h s s' op out authority token family contract client) :
    rotationSource (op, out) = some (authority.memberId, authority.tokenBlake3) := by
  obtain ⟨nativeSource, ha⟩ := hr.action
  simp [Refresh.rotationSource, ha, hr.outcome]

theorem commitEffect_of_exec {refresh : RefreshTokenCommit} {nativeSource : Option Uuid}
    {result : RefreshTokenPersistResult} (he : exec h s op = (s', .persisted result))
    (ha : op.action = .commit refresh nativeSource) : CommitEffect h s op.stamp op.now refresh s' result := by
  cases stepped_of_exec he with
  | committed ha' hc =>
    cases ha.symm.trans ha'
    exact hc

theorem rotated_of_rotationSource {g : Uuid × Digest} (he : exec h s op = (s', out))
    (hs : rotationSource (op, out) = some g) :
    ∃ authority token family contract client, RotatedBy h s s' op out authority token family contract client
      ∧ g = (authority.memberId, authority.tokenBlake3) := by
  unfold rotationSource at hs
  split at hs
  · rename_i authority token nativeSource ha ho
    subst ho
    cases commitEffect_of_exec he ha with
    | rotated hu hm hv hc hr =>
      exact ⟨authority, token, _, _, _, ⟨⟨nativeSource, ha⟩, rfl, hu, hm, hv, hc, hr⟩, (Option.some.inj hs).symm⟩
  · exact absurd hs (by simp)

end Events

/-! ## The invariant -/

/-- A spent proof is a link between two neighbours of a lineage. -/
def LinkOf (l : List Generation) (p : SpentRefreshTokenRow) : Prop :=
  ∃ newer successor older, l = newer ++ successor :: ⟨p.memberId, p.refreshTokenBlake3, p.expiresAt⟩ :: older
    ∧ successor.memberId = p.successorMemberId

theorem LinkOf.cons {l : List Generation} {p : SpentRefreshTokenRow} (hl : LinkOf l p)
    (g : Generation) : LinkOf (g :: l) p := by
  obtain ⟨newer, successor, older, rfl, hs⟩ := hl
  exact ⟨g :: newer, successor, older, rfl, hs⟩

def RefreshFamilyRow.current (f : RefreshFamilyRow) : Generation :=
  ⟨f.currentMemberId, f.currentTokenBlake3, f.currentExpiresAt⟩

variable {f f' : RefreshFamilyRow}

theorem Flagged.current (hf : Flagged f f') : f'.current = f.current := by
  rw [hf.same]
  rfl

/-- The store and its history describe the same chains. -/
structure ChainInv (h : Hashes) (log : Log) (s : RefreshStore) : Prop where
  current : ∀ k f, s.families.find? k = some f → ∃ older, lineage h k log = f.current :: older
  currentInstalled : ∀ k f, s.families.find? k = some f → (k, f.current) ∈ installed h log
  link : ∀ p ∈ s.spent.rows, (∃ f, s.families.find? p.familyKey = some f) ∧ LinkOf (lineage h p.familyKey log) p
  rotatedOut : ∀ k, ∀ g ∈ (lineage h k log).tail, ∃ e ∈ log, rotationSource e = some (g.memberId, g.digest)
  source : ∀ e ∈ log, ∀ m d, rotationSource e = some (m, d) →
    (∃ k g, (k, g) ∈ installed h log ∧ g.memberId = m ∧ g.digest = d) ∧
    ∀ k f, s.families.find? k = some f → f.currentMemberId ≠ m ∧ f.currentTokenBlake3 ≠ d

/-- What happens to the current generation of family `k`: it stays and nothing is installed for `k`,
or a generation is installed for `k` and is the current one afterwards. -/
inductive CurrentStep (h : Hashes) (log : Log) (s s' : RefreshStore) (e : Op × Outcome)
    (k : Uuid × Uuid) (f' : RefreshFamilyRow) : Prop
  | same {f : RefreshFamilyRow} : s.families.find? k = some f → f'.current = f.current →
      (∀ g, installedBy h e ≠ some (k, g)) → CurrentStep h log s s' e k f'
  | created : s.families.find? k = none → installedBy h e = some (k, f'.current) →
      lineage h k (e :: log) = [f'.current] → CurrentStep h log s s' e k f'
  | rotated {f : RefreshFamilyRow} : s.families.find? k = some f → installedBy h e = some (k, f'.current) →
      lineage h k (e :: log) = f'.current :: lineage h k log → CurrentStep h log s s' e k f'

variable {k : Uuid × Uuid} {s s' : RefreshStore}

theorem currentStep_of_exec {op : Op} {out : Outcome} (he : exec h s op = (s', out))
    (log : Log) (hf' : s'.families.find? k = some f') : CurrentStep h log s s' (op, out) k f' := by
  cases hf : s.families.find? k with
  | none =>
    cases familyEffect_of_exec he hf hf' with
    | created hc hk =>
      subst hk
      exact .created hf hc.installedBy (lineage_of_created hc.installedBy hc.creates log)
  | some f =>
    cases familyEffect_of_exec he hf hf' with
    | kept hfl hn => exact .same hf hfl.current hn
    | rotated hr hk =>
      subst hk
      exact .rotated hf hr.installedBy (lineage_of_rotated hr.installedBy (hr.not_creates _) log)

section Step

variable {log : Log} {s s' : RefreshStore} {op : Op} {out : Outcome}

theorem mem_installed_cons {x : (Uuid × Uuid) × Generation} {e : Op × Outcome} :
    x ∈ installed h (e :: log) ↔ installedBy h e = some x ∨ x ∈ installed h log := by
  rw [installed_cons, List.mem_append, Option.mem_toList]

theorem link_step (hinv : ChainInv h log s) (he : exec h s op = (s', out))
    {p : SpentRefreshTokenRow} (hp : p ∈ s'.spent.rows) :
    (∃ f, s'.families.find? p.familyKey = some f) ∧ LinkOf (lineage h p.familyKey ((op, out) :: log)) p := by
  rcases spent_of_exec he hp with hold | ⟨authority, token, family, contract, client, hr, rfl⟩
  · obtain ⟨⟨f, hf⟩, hl⟩ := hinv.link p hold
    cases hf' : s'.families.find? p.familyKey with
    | none =>
      cases familyEffect_of_exec he hf hf' with
      | deleted _ hno => exact absurd rfl (hno p hp)
    | some f' =>
      refine ⟨⟨f', rfl⟩, ?_⟩
      cases familyEffect_of_exec he hf hf' with
      | kept _ hn => rwa [lineage_of_not_installed hn]
      | rotated hr hk =>
        rw [lineage_of_rotated (hk ▸ hr.installedBy) (hr.not_creates _)]
        exact hl.cons _
  · -- the proof that this rotation wrote: its family's lineage has just grown
    have hk : (spentProof family token op.now).familyKey = (authority.tenantId, authority.familyId) := by
      simp only [SpentRefreshTokenRow.familyKey, spentProof, hr.valid.tenantId, hr.valid.familyId]
    rw [hk]
    obtain ⟨older, hold⟩ := hinv.current _ family hr.usable.familyFound
    rw [lineage_of_rotated hr.installedBy (hr.not_creates _), hold]
    refine ⟨?_, [], _, older, rfl, rfl⟩
    cases hf' : s'.families.find? (authority.tenantId, authority.familyId) with
    | none =>
      cases familyEffect_of_exec he hr.usable.familyFound hf' with
      | deleted _ _ hn => exact absurd hr.installedBy (hn _)
    | some f' => exact ⟨f', rfl⟩

/-- A generation that is not current before a step, and not installed by it, is not current after
it. -/
theorem source_step (hfresh : FreshTokens h ((op, out) :: log)) (he : exec h s op = (s', out))
    {k₀ : Uuid × Uuid} {g : Generation} (hg : (k₀, g) ∈ installed h log)
    (hcur : ∀ k f, s.families.find? k = some f → (∀ g, installedBy h (op, out) ≠ some (k, g)) →
      f.currentMemberId ≠ g.memberId ∧ f.currentTokenBlake3 ≠ g.digest)
    {k : Uuid × Uuid} {f' : RefreshFamilyRow} (hf' : s'.families.find? k = some f') :
    f'.currentMemberId ≠ g.memberId ∧ f'.currentTokenBlake3 ≠ g.digest := by
  have hnew : installedBy h (op, out) = some (k, f'.current) →
      f'.currentMemberId ≠ g.memberId ∧ f'.currentTokenBlake3 ≠ g.digest := by
    intro hi
    obtain ⟨h1, h2⟩ := hfresh.2 k f'.current hi _ hg
    exact ⟨fun hc => h1 hc.symm, fun hc => h2 hc.symm⟩
  cases currentStep_of_exec he log hf' with
  | same hf hc hn =>
    rename_i f
    have hcur' := hcur k f hf hn
    have h1 : f'.currentMemberId = f.currentMemberId := congrArg Generation.memberId hc
    have h2 : f'.currentTokenBlake3 = f.currentTokenBlake3 := congrArg Generation.digest hc
    rw [h1, h2]
    exact hcur'
  | created _ hi | rotated _ hi => exact hnew hi

/-- The generations behind the head of a lineage were sources of rotations. -/
theorem rotatedOut_step (hinv : ChainInv h log s) (he : exec h s op = (s', out)) (k : Uuid × Uuid)
    {g : Generation} (hg : g ∈ (lineage h k ((op, out) :: log)).tail) :
    ∃ e ∈ (op, out) :: log, rotationSource e = some (g.memberId, g.digest) := by
  have hold : g ∈ (lineage h k log).tail →
      ∃ e ∈ (op, out) :: log, rotationSource e = some (g.memberId, g.digest) := by
    intro hg
    obtain ⟨e, hmem, hsrc⟩ := hinv.rotatedOut k g hg
    exact ⟨e, .tail _ hmem, hsrc⟩
  have heffect := familyEffect_of_exec he (k := k) rfl rfl
  generalize s.families.find? k = o, s'.families.find? k = o' at heffect
  cases heffect with
  | absent hn | kept _ hn | deleted _ _ hn => rw [lineage_of_not_installed hn] at hg; exact hold hg
  | created hc hk =>
    subst hk
    rw [lineage_of_created hc.installedBy hc.creates] at hg
    simp at hg
  | rotated hr hk =>
    subst hk
    obtain ⟨older, hl⟩ := hinv.current _ _ hr.usable.familyFound
    rw [lineage_of_rotated hr.installedBy (hr.not_creates _), hl] at hg
    rcases List.mem_cons.mp hg with rfl | hg
    · -- the generation that this rotation replaced
      refine ⟨(op, out), List.mem_cons_self, ?_⟩
      simp only [hr.rotationSource, RefreshFamilyRow.current, hr.source.1, hr.source.2]
    · exact hold (by rw [hl]; exact hg)

theorem chainInv_step (hinv : ChainInv h log s) (hfresh : FreshTokens h ((op, out) :: log))
    (he : exec h s op = (s', out)) : ChainInv h ((op, out) :: log) s' where
  current := by
    intro k f' hf'
    cases currentStep_of_exec he log hf' with
    | same hf hc hn =>
      rw [lineage_of_not_installed hn, hc]
      exact hinv.current k _ hf
    | created _ _ hl => exact ⟨[], hl⟩
    | rotated _ _ hl => exact ⟨_, hl⟩
  currentInstalled := by
    intro k f' hf'
    cases currentStep_of_exec he log hf' with
    | same hf hc => rw [hc]; exact mem_installed_cons.mpr (.inr (hinv.currentInstalled k _ hf))
    | created _ hi | rotated _ hi => exact mem_installed_cons.mpr (.inl hi)
  link := fun p hp => link_step hinv he hp
  rotatedOut := fun k g hg => rotatedOut_step hinv he k hg
  source := by
    intro e hmem m d hg
    rcases List.mem_cons.mp hmem with rfl | hmem
    · -- the source of this rotation was current in its own family, and only there
      obtain ⟨authority, token, family, contract, client, hr, hsrc⟩ := rotated_of_rotationSource he hg
      cases hsrc
      have hin := hinv.currentInstalled _ family hr.usable.familyFound
      refine ⟨⟨_, _, mem_installed_cons.mpr (.inr hin), hr.source.1, hr.source.2⟩, fun k f' hf' => ?_⟩
      have := source_step hfresh he hin (fun k f hf hn => ?_) hf'
      · simpa only [RefreshFamilyRow.current, hr.source.1, hr.source.2] using this
      have hk : k ≠ (authority.tenantId, authority.familyId) := by
        rintro rfl
        exact hn _ hr.installedBy
      have hin' := hinv.currentInstalled k f hf
      constructor
      · intro hc
        exact hk (congrArg Prod.fst (installed_inj hfresh.1 hin' hin (.inl hc)))
      · intro hc
        exact hk (congrArg Prod.fst (installed_inj hfresh.1 hin' hin (.inr hc)))
    · obtain ⟨⟨k₀, g, hk₀, rfl, rfl⟩, hcur⟩ := hinv.source e hmem m d hg
      refine ⟨⟨k₀, g, mem_installed_cons.mpr (.inr hk₀), rfl, rfl⟩, fun k f' hf' => ?_⟩
      exact source_step hfresh he hk₀ (fun k f hf _ => hcur k f hf) hf'

end Step

theorem chainInv_init : ChainInv h [] RefreshStore.empty where
  current := fun k f hf => by simp [RefreshStore.empty] at hf
  currentInstalled := fun k f hf => by simp [RefreshStore.empty] at hf
  link := fun p hp => absurd hp Table.not_mem_empty
  rotatedOut := fun k g hg => absurd hg List.not_mem_nil
  source := by simp

/-- **Every history with fresh tokens keeps the chain invariant.** -/
theorem chainInv_of_run (hr : Run (exec h) RefreshStore.empty log s) (hf : FreshTokens h log) : ChainInv h log s :=
  Run.invariant (fun _ _ hg => hg.1) chainInv_init (fun _ _ _ _ _ _ hg hi he => chainInv_step hi hg he) hr hf

/-! ## Flags -/

/-- Every flag of `f` that is set has the same value in `f'`. -/
def FlagsKept (f f' : RefreshFamilyRow) : Prop :=
  (∀ t, f.revokedAt = some t → f'.revokedAt = some t)
    ∧ (∀ t, f.reuseDetectedAt = some t → f'.reuseDetectedAt = some t)

theorem Flagged.flagsKept (hf : Flagged f f') : FlagsKept f f' :=
  ⟨fun t ht => by rw [hf.revokedAt (by simp [ht]), ht], fun t ht => by rw [hf.reuseDetectedAt (by simp [ht]), ht]⟩

theorem FlagsKept.trans {g k : RefreshFamilyRow} (h1 : FlagsKept f g) (h2 : FlagsKept g k) : FlagsKept f k :=
  ⟨fun t ht => h2.1 t (h1.1 t ht), fun t ht => h2.2 t (h1.2 t ht)⟩

theorem FlagsKept.not_usable {family : RefreshFamilyRow} {authority : RefreshTokenAuthority}
    {now : Instant} {contract : RefreshContractRow} (hk : FlagsKept f family)
    (hf : f.revokedAt.isSome ∨ f.reuseDetectedAt.isSome) : ¬ UsableSource s authority now family contract := by
  intro hu
  rcases hf with hf | hf
  · obtain ⟨t, ht⟩ := Option.isSome_iff_exists.mp hf
    exact absurd (hu.notRevoked.symm.trans (hk.1 t ht)) (by simp)
  · obtain ⟨t, ht⟩ := Option.isSome_iff_exists.mp hf
    exact absurd (hu.notCompromised.symm.trans (hk.2 t ht)) (by simp)

/-- A commit that uses family `k` and is reported as inserted found it usable. -/
theorem usable_of_usesSource {op : Op} {out : Outcome} (he : exec h s op = (s', out))
    (hu : usesSource k (op, out) = true) :
    ∃ authority family contract, (authority.tenantId, authority.familyId) = k
      ∧ UsableSource s authority op.now family contract
      ∧ sourceMatches family contract.contract authority = true := by
  unfold usesSource at hu
  split at hu
  · rename_i authority rotation nativeSource ha ho
    subst ho
    have hk : (authority.tenantId, authority.familyId) = k := by simpa using hu
    cases commitEffect_of_exec he ha with
    | preserved hu hm | rotated hu hm _ _ _ => exact ⟨authority, _, _, hk, hu, hm⟩
  · exact absurd hu (by simp)

theorem flagsKept_of_run (hr : Run (exec h) s new s') (hf : s.families.find? k = some f)
    (hn : ∀ e ∈ new, creates k e = false) :
    s'.families.find? k = none ∨ ∃ f', s'.families.find? k = some f' ∧ FlagsKept f f' := by
  induction hr with
  | nil => exact .inr ⟨f, hf, fun t ht => ht, fun t ht => ht⟩
  | cons hr he ih =>
    rename_i log s₁ s₂ op out
    have hnew := hn (op, out) (.head _)
    cases hf₂ : s₂.families.find? k with
    | none => exact .inl rfl
    | some f₂ =>
      refine .inr ⟨f₂, rfl, ?_⟩
      rcases ih fun e hmem => hn e (.tail _ hmem) with ih | ⟨f', hf', hkept⟩
      · cases familyEffect_of_exec he ih hf₂ with
        | created hc hk =>
          subst hk
          exact absurd hc.creates (by simp [hnew])
      · cases familyEffect_of_exec he hf' hf₂ with
        | kept hfl => exact hkept.trans hfl.flagsKept
        | rotated => exact hkept

/-- Once a flag is set, no commit with the family as its source is inserted. -/
theorem not_usesSource_of_run (hr : Run (exec h) s new s') (hf : s.families.find? k = some f)
    (hn : ∀ e ∈ new, creates k e = false) (hflag : f.revokedAt.isSome ∨ f.reuseDetectedAt.isSome) :
    ∀ e ∈ new, usesSource k e = false := by
  induction hr with
  | nil => simp
  | cons hr he ih =>
    have hn' := fun e hmem => hn e (.tail _ hmem)
    intro e hmem
    rcases List.mem_cons.mp hmem with rfl | hmem
    · by_contra hu
      obtain ⟨authority, family, contract, hk, hus, -⟩ := usable_of_usesSource he (by simpa using hu)
      subst hk
      rcases flagsKept_of_run hr hf hn' with hnone | ⟨f', hf', hkept⟩
      · cases hnone.symm.trans hus.familyFound
      · cases hf'.symm.trans hus.familyFound
        exact hkept.not_usable hflag hus
    · exact ih hn' e hmem

/-! ## The result -/

theorem rotationSource_unique (hr : Run (exec h) RefreshStore.empty log s) (hf : FreshTokens h log) (m : Uuid) :
    (log.filter fun e => (rotationSource e).any fun source => source.1 = m).length ≤ 1 := by
  induction hr with
  | nil => simp
  | cons hr he ih =>
    rename_i log s₁ s₂ op out
    have hinv := chainInv_of_run hr hf.1
    rw [List.filter_cons]
    split_ifs with hm
    · -- the newest rotation starts from `m`, so `m` was current and no earlier rotation started from it
      obtain ⟨g, hg, hgm⟩ := (Option.any_eq_true _ _).mp hm
      obtain ⟨authority, token, family, contract, client, hrot, rfl⟩ := rotated_of_rotationSource he hg
      simp only [decide_eq_true_eq] at hgm
      have hnone : log.filter (fun e => (rotationSource e).any fun source => source.1 = m) = [] := by
        rw [List.filter_eq_nil_iff]
        intro e hmem he'
        obtain ⟨⟨m', d'⟩, hg', hgm'⟩ := (Option.any_eq_true _ _).mp he'
        have hne := ((hinv.source e hmem m' d' hg').2 _ family hrot.usable.familyFound).1
        rw [hrot.source.1] at hne
        simp only [decide_eq_true_eq] at hgm'
        exact hne (hgm.trans hgm'.symm)
      simp [hnone]
    · exact ih hf.1

/-- **The chain of a refresh family.** With fresh tokens, the generations of a family form one linear
chain that ends in the current member and repeats no member and no digest; a stored spent proof is a
link of it; a member is the source of at most one rotation; a digest that was rotated out is current
in no family; and until the family is created anew, a flag that is set keeps its value and no commit
with the family as its source is inserted. -/
theorem family_chain {log : Log} {s : RefreshStore} (hr : Run (exec h) RefreshStore.empty log s)
    (hf : FreshTokens h log) (k : Uuid × Uuid) :
    (∀ f, s.families.find? k = some f → ∃ older, lineage h k log = f.current :: older)
    ∧ ((lineage h k log).map Generation.memberId).Nodup
    ∧ ((lineage h k log).map Generation.digest).Nodup
    ∧ (∀ p ∈ s.spent.rows, p.familyKey = k → LinkOf (lineage h k log) p)
    ∧ (∀ m, (log.filter fun e => (rotationSource e).any fun source => source.1 = m).length ≤ 1)
    ∧ (∀ e ∈ log, ∀ m d, rotationSource e = some (m, d) → ∀ f ∈ s.families.rows, f.currentTokenBlake3 ≠ d)
    ∧ (∀ f new s', s.families.find? k = some f → Run (exec h) s new s' → (∀ e ∈ new, creates k e = false) →
        (∀ f', s'.families.find? k = some f' → FlagsKept f f')
        ∧ (f.revokedAt.isSome ∨ f.reuseDetectedAt.isSome → ∀ e ∈ new, usesSource k e = false)) := by
  have hinv := chainInv_of_run hr hf
  obtain ⟨hn1, hn2⟩ := lineage_nodup hf k
  refine ⟨hinv.current k, hn1, hn2, ?_, rotationSource_unique hr hf, ?_, ?_⟩
  · rintro p hp rfl
    exact (hinv.link p hp).2
  · intro e he m d hg f hmem
    exact ((hinv.source e he m d hg).2 f.key f (Table.find?_of_mem hmem)).2
  intro f new s' hfound hrun hnew
  refine ⟨fun f' hf' => ?_, not_usesSource_of_run hrun hfound hnew⟩
  rcases flagsKept_of_run hrun hfound hnew with hnone | ⟨f'', hf'', hkept⟩
  · cases hnone.symm.trans hf'
  · cases hf''.symm.trans hf'
    exact hkept

/-! ## A family whose stored proofs are not one chain

Three generations of one family; the second has the shortest lifetime, as after a reduction of the
configured lifetime that was later taken back. The sweep of expired proofs removes the proof of the
second generation while that of the first, which names the second as its successor, is still
stored. -/

section Sample

def sampleHashes : Hashes := ⟨fun raw => BitVec.ofNat 256 raw.length, fun _ => 1⟩

def sampleContract : RefreshContract where
  subject := "alice"
  scopes := ["openid", "offline_access"]
  audiences := ["api"]
  authorizationDetails := .arr []
  authenticationContext := ⟨2, "https://issuer", "client", 1, ["pwd"], none, none, .arr [], .arr []⟩

def sampleToken (raw : String) (memberId : Uuid) (rotatedFromId : Option Uuid)
    (issued expires : Int) : NewRefreshToken where
  rawToken := raw
  memberId := memberId
  tenantId := 1
  familyId := 5
  rotatedFromId := rotatedFromId
  lostResponseRetry := none
  clientId := 2
  userId := some 3
  audiences := ["api"]
  issuedAt := seconds issued
  expiresAt := seconds expires
  idTokenSid := none
  dpopJkt := none
  mtlsX5tS256 := none
  clientAttestationJkt := none

def sampleAuthority (raw : String) (memberId : Uuid) : RefreshTokenAuthority where
  tenantId := 1
  clientId := 2
  userId := some 3
  familyId := 5
  memberId := memberId
  tokenBlake3 := sampleHashes.blake3 raw
  contractKey := 1
  contract := sampleContract
  currentAudiences := ["api"]
  idTokenSid := none
  dpopJkt := none
  mtlsX5tS256 := none
  clientAttestationJkt := none

def sampleRotations : List Op :=
  [⟨.registerClient ⟨1, 2, "client", .publicClient⟩, seconds 5, seconds 5⟩,
   ⟨.commit (.issueNew (sampleToken "a" 11 none 10 100) sampleContract) none, seconds 10, seconds 10⟩,
   ⟨.commit (.useExisting (sampleAuthority "a" 11) (some (sampleToken "aa" 12 (some 11) 20 50))) none,
     seconds 20, seconds 20⟩,
   ⟨.commit (.useExisting (sampleAuthority "aa" 12) (some (sampleToken "aaa" 13 (some 12) 30 200))) none,
     seconds 30, seconds 30⟩]

/-- The rotations and, a minute after the start, the sweep of expired proofs. -/
def sampleGap : List Op := sampleRotations ++ [⟨.deleteExpiredSpentProofs [], seconds 60, seconds 60⟩]

/-- Proofs in the order of their generations, each naming the next and the last one naming
`current`. -/
def Linked : List SpentRefreshTokenRow → Uuid → Prop
  | [], _ => True
  | [p], current => p.successorMemberId = current
  | p :: q :: rest, current => p.successorMemberId = q.memberId ∧ Linked (q :: rest) current

/-- The stored proofs of a family together with its current member form one chain. -/
def OneChain (s : RefreshStore) (k : Uuid × Uuid) : Prop :=
  ∀ f, s.families.find? k = some f →
    ∃ order, order.Perm (s.spent.rows.filter fun p => p.familyKey = k) ∧ Linked order f.currentMemberId

theorem sampleGap_spent :
    (execAll (exec sampleHashes) RefreshStore.empty [] sampleGap).2.spent.rows.filter
      (fun p => p.familyKey = (1, 5)) = [⟨1, 1, 5, 11, 12, seconds 20, seconds 100⟩] := by decide

theorem sampleGap_current : ((execAll (exec sampleHashes) RefreshStore.empty [] sampleGap).2.families.find?
      (1, 5)).map (·.currentMemberId) = some 13 := by decide

theorem stored_proofs_not_one_chain :
    ∃ log s k, Run (exec sampleHashes) RefreshStore.empty log s ∧ FreshTokens sampleHashes log
      ∧ ¬ OneChain s k := by
  refine ⟨_, _, (1, 5), run_execAll RefreshStore.empty sampleGap, by decide, fun hone => ?_⟩
  obtain ⟨f, hf, hcur⟩ := Option.map_eq_some_iff.mp sampleGap_current
  obtain ⟨order, hperm, hlinked⟩ := hone f hf
  rw [sampleGap_spent, List.perm_singleton] at hperm
  subst hperm
  rw [hcur] at hlinked
  exact absurd (show (12 : Uuid) = 13 from hlinked) (by decide)

theorem family_chain_sample : FreshTokens sampleHashes
    (execAll (exec sampleHashes) RefreshStore.empty [] sampleGap).1
    ∧ ∃ older, lineage sampleHashes (1, 5) (execAll (exec sampleHashes) RefreshStore.empty [] sampleGap).1
        = ⟨13, 3, seconds 200⟩ :: older := by
  have hfresh : FreshTokens sampleHashes (execAll (exec sampleHashes) RefreshStore.empty [] sampleGap).1 := by
    decide
  refine ⟨hfresh, ?_⟩
  have hchain := family_chain (run_execAll RefreshStore.empty sampleGap) hfresh (1, 5)
  have hrow : ((execAll (exec sampleHashes) RefreshStore.empty [] sampleGap).2.families.find? (1, 5)).map
      RefreshFamilyRow.current = some ⟨13, 3, seconds 200⟩ := by decide
  obtain ⟨f, hf, hcur⟩ := Option.map_eq_some_iff.mp hrow
  rw [← hcur]
  exact hchain.1 f hf

end Sample

end NazoAuth.Refresh
