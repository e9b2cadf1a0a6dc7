import NazoAuth.Keys.System
import NazoAuth.Lib.Marker

/-!
# Signing keys — rotation across processes

A generation follows the stored keyset from the instant of its publication on (`Follows`): it shows
the keys that were created before, and a key that it shows as not retired gets no retirement before
the generation has expired and the verification grace is over.
-/

namespace NazoAuth.Keys

open Lib

variable {V : Type} {crypto : Crypto V} {settings : KeySettings}

/-! ## Whole seconds -/

def WholeSecond (t : Instant) : Prop := printed t = t

theorem printed_seconds (n : Int) : printed (seconds n) = seconds n := by
  have h : timestamp (seconds n) = n := Int.mul_ediv_cancel n (by decide)
  rw [printed, h]

variable {now : Instant}

theorem printed_retirement (h : WholeSecond now) :
    printed (retirement settings now) = retirement settings now := by
  have hsum : retirement settings now
      = seconds (timestamp now + settings.verificationGrace + maxDatabaseSnapshotStalenessSeconds) := by
    have hnow : now = timestamp now * 1000000 := h.symm
    rw [retirement, seconds, seconds, seconds, Int.add_mul, Int.add_mul, ← hnow]
  rw [hsum, printed_seconds]

/-! ## Generations follow the store -/

/-- A loaded key and its entry, some time later. -/
structure Mirrors (settings : KeySettings) (t : Instant) (k : StoredVerificationKey) (e : KeyEntry) : Prop where
  kid : k.managed.kid = e.kid
  publicJwk : k.publicJwk = e.publicJwk
  algorithm : k.managed.algorithm = e.alg
  retireAt : k.retireAt = e.retireAt ∨ k.retireAt = none ∧ ∃ r, e.retireAt = some r ∧ retirement settings t ≤ r
  active : k.managed.state = .active → k.retireAt = none
  verifies : k.managed.canVerify = true

variable {t : Instant} {e : KeyEntry} {k : StoredVerificationKey}

theorem Shows.mirrors (h : Shows k e) : Mirrors settings t k e :=
  ⟨h.kid, h.publicJwk, h.algorithm, .inl h.retireAt, h.active, h.verifies⟩

theorem retirement_mono {t' : Instant} (h : t ≤ t') : retirement settings t ≤ retirement settings t' := by
  exact Int.add_le_add_right (Int.add_le_add_right h _) _

theorem Mirrors.step {e' : KeyEntry} (h : Mirrors settings t k e)
    (hstep : EntryStep settings now e e') (ht : t ≤ now) (hwhole : WholeSecond now) : Mirrors settings t k e' := by
  refine ⟨h.kid.trans hstep.kid.symm, h.publicJwk.trans hstep.publicJwk.symm, h.algorithm.trans hstep.alg.symm, ?_,
    h.active, h.verifies⟩
  rcases hstep.retireAt with hsame | ⟨hnone, hset⟩
  · rw [hsame]
    exact h.retireAt
  rcases h.retireAt with hretire | ⟨-, r, hr, -⟩
  · refine .inr ⟨hretire.trans hnone, _, hset, ?_⟩
    rw [printed_retirement hwhole]
    exact retirement_mono ht
  · rw [hnone] at hr
    cases hr

/-- A generation of some instant and the keyset of a later one. -/
structure Follows (settings : KeySettings) (t : Instant) (loaded : List StoredVerificationKey)
    (keys : List KeyEntry) : Prop where
  mirrors : ∀ k ∈ loaded, ∃ e ∈ keys, Mirrors settings t k e
  covered : ∀ e ∈ keys, e.createdAt < t → (∃ k ∈ loaded, Mirrors settings t k e) ∨ ∃ r, e.retireAt = some r ∧ r ≤ t

variable {keys : List KeyEntry} {loaded : List StoredVerificationKey}

theorem Agrees.follows (h : Agrees t loaded keys) : Follows settings t loaded keys := by
  refine ⟨fun k hk => ?_, fun e he _ => ?_⟩
  · obtain ⟨e, he, hshows⟩ := h.shows k hk
    exact ⟨e, he, hshows.mirrors⟩
  · rcases h.shown e he with ⟨k, hk, hshows⟩ | hretired
    · exact .inl ⟨k, hk, hshows.mirrors⟩
    · exact .inr hretired

theorem Follows.step {keys' : List KeyEntry} (h : Follows settings t loaded keys)
    (hevolves : KeysEvolve settings now keys keys') (ht : t ≤ now) (hwhole : WholeSecond now) :
    Follows settings t loaded keys' := by
  refine ⟨fun k hk => ?_, fun e' he' hcreated => ?_⟩
  · obtain ⟨e, he, hmirrors⟩ := h.mirrors k hk
    obtain ⟨e', he', hstep⟩ := hevolves.exists_of_mem he
    exact ⟨e', he', hmirrors.step hstep ht hwhole⟩
  · rcases hevolves.old_or_new he' with ⟨e, he, hstep⟩ | hnew
    · rcases h.covered e he (hstep.createdAt ▸ hcreated) with ⟨k, hk, hmirrors⟩ | ⟨r, hr, hle⟩
      · exact .inl ⟨k, hk, hmirrors.step hstep ht hwhole⟩
      exact .inr ⟨r, hstep.retired hr, hle⟩
    · -- a new entry is not older than the generation
      have hnow : e'.createdAt = now := hnew.createdAt.trans hwhole
      exact absurd hcreated (Int.not_lt.mpr (hnow ▸ ht))

/-! ## What has happened in a history -/

section Histories

variable {s₀ s s' : System V} {op : Op} {out : Outcome V} {log : List (Op × Outcome V)}

def clock (e : Op × Outcome V) : Int := e.1.now

/-- What is known of a generation. -/
structure GenerationInv (crypto : Crypto V) (settings : KeySettings) (keys : List KeyEntry)
    (log : List (Op × Outcome V)) (generation : KeyGeneration V) : Prop where
  snapshot : snapshotFromLoaded crypto generation.loaded = .ok generation.snapshot
  follows : Follows settings generation.publishedAt generation.loaded.verificationKeys keys
  source : ∀ source, generation.loaded.databaseSource = some source →
    Agrees generation.publishedAt generation.loaded.verificationKeys source.fingerprint.payload.keys
  published : ∃ e ∈ log, generation.publishedAt = clock e

/-- The entry of a key that has signed with a generation is not retired before that generation has
expired and the verification grace is over. -/
def SignedInv (settings : KeySettings) (keys : List KeyEntry) (e : Op × Outcome V) : Prop :=
  ∀ selected expiresAt, e.2 = .signed selected expiresAt → (kids keys).Nodup
    ∧ expiresAt - seconds maxDatabaseSnapshotStalenessSeconds ≤ clock e
    ∧ ∃ k ∈ keys, k.kid = selected.kid ∧ k.publicJwk = selected.publicJwk ∧ k.alg = selected.algorithm
    ∧ (k.retireAt = none ∨ ∃ r, k.retireAt = some r ∧ expiresAt + seconds settings.verificationGrace ≤ r)

/-- A verification finds the keys created before the generation was published, unless they are
retired. -/
def VerifiedInv (keys : List KeyEntry) (e : Op × Outcome V) : Prop :=
  ∀ kid found expiresAt, e.1.request.looksFor = some kid → e.2 = .verification found expiresAt →
    expiresAt - seconds maxDatabaseSnapshotStalenessSeconds ≤ clock e
    ∧ ∀ k ∈ keys, k.kid = kid → k.createdAt < expiresAt - seconds maxDatabaseSnapshotStalenessSeconds →
      (∃ key, found = some key ∧ key.publicJwk = k.publicJwk ∧ key.algorithm = k.alg)
        ∨ ∃ r, k.retireAt = some r ∧ r ≤ clock e

structure Inv (crypto : Crypto V) (settings : KeySettings) (log : List (Op × Outcome V))
    (s : System V) : Prop where
  generations : ∀ i h, s.holders i = some h → GenerationInv crypto settings (keysOf s.store) log h.generation
  nodup : ∀ i h, s.holders i = some h → (kids (keysOf s.store)).Nodup
  rotated : ∀ e ∈ log, ∀ kid ∈ e.2.activated, Aged settings (keysOf s.store) (clock e) kid
  signed : ∀ e ∈ log, SignedInv settings (keysOf s.store) e
  verified : ∀ e ∈ log, VerifiedInv (keysOf s.store) e

/-! ### Selection -/

variable {alg : Algorithm} {loaded : LoadedKeyset} {purpose : SigningPurpose} {selected : SelectedKey}

theorem loaded_of_selected (h : loaded.selectedKey purpose alg = some selected) :
    ∃ k ∈ loaded.verificationKeys, k.managed.kid = selected.kid
      ∧ k.publicJwk = selected.publicJwk ∧ k.managed.algorithm = selected.algorithm
      ∧ k.managed.state = .active := by
  have hactive : ∀ {k : StoredVerificationKey}, k.managed.canSign purpose = true → k.managed.state = .active :=
    fun hsign =>
    of_decide_eq_true (Bool.and_eq_true _ _ ▸ hsign).1
  unfold LoadedKeyset.selectedKey at h
  split at h
  · cases h
  rename_i active hfind
  split_ifs at h with hselect
  · cases h
    simp only [Bool.and_eq_true, decide_eq_true_eq] at hselect
    obtain ⟨⟨⟨-, halg⟩, hsign⟩, -⟩ := hselect
    exact ⟨active, List.mem_of_find?_eq_some hfind, by simpa using List.find?_some hfind, rfl, halg, hactive hsign⟩
  · obtain ⟨k, hk, hscoped⟩ := List.exists_of_findSome?_eq_some h
    unfold scopedSelection at hscoped
    split_ifs at hscoped with hskip
    simp only [Bool.or_eq_true, Bool.not_eq_true', decide_eq_true_eq, not_or, Bool.not_eq_false] at hskip
    obtain ⟨⟨⟨-, hsign⟩, halg⟩, -⟩ := hskip
    split at hscoped
    · cases hscoped
      exact ⟨k, hk, rfl, rfl, not_not.mp halg, hactive hsign⟩
    · cases hscoped

variable {generation : KeyGeneration V} {t : Instant}

theorem selected_of_sign {healthy : Bool} {expectedKid : Option String} {answered : Bool}
    (h : generation.sign healthy t purpose alg expectedKid answered = some selected) :
    generation.loaded.selectedKey purpose alg = some selected := by
  unfold KeyGeneration.sign at h
  split_ifs at h
  split at h
  · cases h
  rename_i selected' hselected
  split_ifs at h
  have hsame : selected' = selected := by
    unfold signSelected at h
    split at h
    · split_ifs at h
      exact Option.some.inj h
    · split_ifs at h
      exact Option.some.inj h
    · split_ifs at h
      exact Option.some.inj h
  exact hsame ▸ hselected

/-- The verification key of a loaded key. -/
structure Derived (k : StoredVerificationKey) (key : VerificationKey V) : Prop where
  kid : key.kid = k.managed.kid
  publicJwk : key.publicJwk = k.publicJwk
  algorithm : key.algorithm = k.managed.algorithm
  retireAt : key.retireAt = k.retireAt

theorem derived_of_verificationKeyOf {k : StoredVerificationKey} {key : VerificationKey V}
    (h : verificationKeyOf crypto k = .ok key) : Derived k key := by
  unfold verificationKeyOf at h
  split at h
  · cases h
  · cases h
    exact ⟨rfl, rfl, rfl, rfl⟩

theorem derived_of_snapshot {snapshot : KeySnapshot V} (h : snapshotFromLoaded crypto loaded = .ok snapshot) :
    (∀ key ∈ snapshot.verificationKeys, ∃ k ∈ loaded.verificationKeys, Derived k key)
      ∧ ∀ k ∈ loaded.verificationKeys, k.managed.canVerify = true →
      ∃ key ∈ snapshot.verificationKeys, Derived k key := by
  obtain ⟨keys, hkeys, h⟩ := of_bind h
  cases h
  have hpairs := mapM_eq_ok hkeys
  constructor
  · intro key hkey
    obtain ⟨k, hk, hof⟩ := exists_of_forall₂_right hpairs key hkey
    exact ⟨k, (List.mem_filter.mp hk).1, derived_of_verificationKeyOf hof⟩
  · intro k hk hverify
    obtain ⟨key, hkey, hof⟩ := exists_of_forall₂_left hpairs k (List.mem_filter.mpr ⟨hk, hverify⟩)
    exact ⟨key, hkey, derived_of_verificationKeyOf hof⟩

/-! ### Steps -/

variable {e : Op × Outcome V} {keys keys' : List KeyEntry}

theorem GenerationInv.step (h : GenerationInv crypto settings keys log generation)
    (hevolves : KeysEvolve settings (clock e) keys keys') (hbefore : ∀ e' ∈ log, clock e' ≤ clock e)
    (hwhole : WholeSecond (clock e)) :
    GenerationInv crypto settings keys' (e :: log) generation := by
  obtain ⟨e', he', hpublished⟩ := h.published
  refine ⟨h.snapshot, h.follows.step hevolves ?_ hwhole, h.source, e', .tail _ he', hpublished⟩
  rw [hpublished]
  exact hbefore e' he'

theorem GenerationInv.extend {source : PreparedDatabaseSource}
    (h : GenerationInv crypto settings keys log generation)
    (hsource : generation.loaded.databaseSource = some source) (hbefore : ∀ e' ∈ log, clock e' ≤ clock e) :
    GenerationInv crypto settings source.fingerprint.payload.keys (e :: log) (generation.extend (clock e)) := by
  have hnow : (generation.extend (clock e)).publishedAt = clock e := Int.add_sub_cancel _ _
  obtain ⟨e', he', hpublished⟩ := h.published
  have hle : generation.publishedAt ≤ clock e := by
    rw [hpublished]
    exact hbefore e' he'
  refine ⟨h.snapshot, ?_, fun source' hsource' => ?_, e, List.mem_cons_self, hnow⟩
  · rw [hnow]
    exact ((h.source source hsource).mono hle).follows
  · rw [hnow]
    exact (h.source source' hsource').mono hle

variable {store : Option Record}

theorem generationInv_of_published (h : Published crypto (clock e) store generation) :
    GenerationInv crypto settings (keysOf store) (e :: log) generation := by
  refine ⟨h.snapshot, ?_, fun source hsource => ?_, e, List.mem_cons_self, h.publishedAt⟩
  · rw [h.publishedAt]
    exact h.agrees.follows
  obtain ⟨source', hsource', hstore⟩ := h.source
  cases hsource'.symm.trans hsource
  have hagrees := h.agrees
  rw [hstore] at hagrees
  rw [h.publishedAt]
  exact hagrees

/-- A retirement that is set while a generation may still sign covers what it signs. -/
theorem covers_retirement {expiresAt : Instant} (h : expiresAt - seconds maxDatabaseSnapshotStalenessSeconds ≤ t) :
    expiresAt + seconds settings.verificationGrace ≤ retirement settings t := by
  have hexpires : expiresAt ≤ t + seconds maxDatabaseSnapshotStalenessSeconds := Int.le_add_of_sub_right_le h
  calc expiresAt + seconds settings.verificationGrace
      ≤ t + seconds maxDatabaseSnapshotStalenessSeconds + seconds settings.verificationGrace :=
    Int.add_le_add_right hexpires _
    _ = retirement settings t := Int.add_right_comm _ _ _

theorem SignedInv.step (h : SignedInv settings keys e) (hevolves : KeysEvolve settings t keys keys')
    (hnodup : keys' = keys ∨ (kids keys').Nodup) (hle : clock e ≤ t) (hwhole : WholeSecond t) :
    SignedInv settings keys' e := by
  intro selected expiresAt hout
  obtain ⟨hdistinct, hpublished, k, hk, hkid, hjwk, halg, hretire⟩ := h selected expiresAt hout
  obtain ⟨k', hk', hstep⟩ := hevolves.exists_of_mem hk
  have hdistinct' : (kids keys').Nodup := by
    rcases hnodup with hsame | hnodup
    · exact hsame ▸ hdistinct
    · exact hnodup
  refine ⟨hdistinct', hpublished, k', hk', hstep.kid.trans hkid, hstep.publicJwk.trans hjwk,
    hstep.alg.trans halg, ?_⟩
  rcases hstep.retireAt with hsame | ⟨-, hset⟩
  · rw [hsame]
    exact hretire
  · refine .inr ⟨_, hset, ?_⟩
    rw [printed_retirement hwhole]
    exact covers_retirement (Int.le_trans hpublished hle)

theorem VerifiedInv.step (h : VerifiedInv keys e) (hevolves : KeysEvolve settings t keys keys')
    (hle : clock e ≤ t) (hwhole : WholeSecond t) : VerifiedInv keys' e := by
  intro kid found expiresAt hrequest hout
  obtain ⟨hpublished, hfinds⟩ := h kid found expiresAt hrequest hout
  refine ⟨hpublished, fun k' hk' hkid hcreated => ?_⟩
  rcases hevolves.old_or_new hk' with ⟨k, hk, hstep⟩ | hnew
  · rcases hfinds k hk (hstep.kid.symm.trans hkid)
      (hstep.createdAt ▸ hcreated) with ⟨key, hfound, hjwk, halg⟩ | ⟨r, hr, hretired⟩
    · exact .inl ⟨key, hfound, hjwk.trans hstep.publicJwk.symm, halg.trans hstep.alg.symm⟩
    exact .inr ⟨r, hstep.retired hr, hretired⟩
  · have hnow : k'.createdAt = t := hnew.createdAt.trans hwhole
    exact absurd hcreated (Int.not_lt.mpr (hnow ▸ Int.le_trans hpublished hle))

theorem publishedAt_le (h : GenerationInv crypto settings keys log generation)
    (hbefore : ∀ e ∈ log, clock e ≤ t) : generation.publishedAt ≤ t := by
  obtain ⟨e, he, hpublished⟩ := h.published
  rw [hpublished]
  exact hbefore e he

theorem signedInv_of_exec (hinv : Inv crypto settings log s) (hbefore : ∀ e ∈ log, clock e ≤ op.now)
    (he : exec crypto settings s op = (s', out)) : SignedInv settings (keysOf s'.store) (op, out) := by
  rintro selected expiresAt rfl
  obtain ⟨rfl, held, purpose, alg, expectedKid, answered, hheld, rfl, hsign⟩ := signed_of_exec he
  have hgeneration := hinv.generations _ held hheld
  obtain ⟨k, hk, hkid, hjwk, halg, hactive⟩ := loaded_of_selected (selected_of_sign hsign)
  obtain ⟨e, he, hmirrors⟩ := hgeneration.follows.mirrors k hk
  refine ⟨hinv.nodup _ held hheld, publishedAt_le hgeneration hbefore, e, he, hmirrors.kid.symm.trans hkid,
    hmirrors.publicJwk.symm.trans hjwk, hmirrors.algorithm.symm.trans halg, ?_⟩
  rcases hmirrors.retireAt with hsame | ⟨-, r, hr, hcovers⟩
  · exact .inl (hsame.symm.trans (hmirrors.active hactive))
  · exact .inr ⟨r, hr, Int.le_trans (covers_retirement (Int.le_refl _)) hcovers⟩

theorem canVerifyAt_or (key : VerificationKey V) (t : Instant) : key.canVerifyAt t = true
      ∨ ∃ r, key.retireAt = some r ∧ r ≤ t := by
  unfold VerificationKey.canVerifyAt
  cases hretire : key.retireAt with
  | none => exact .inl rfl
  | some r =>
    by_cases h : t < r
    · exact .inl (decide_eq_true h)
    · exact .inr ⟨r, rfl, Int.not_lt.mp h⟩

/-- What was created before the publication is found, unless it is retired. -/
theorem verifiedInv_of_exec (hinv : Inv crypto settings log s) (hbefore : ∀ e ∈ log, clock e ≤ op.now)
    (he : exec crypto settings s op = (s', out)) : VerifiedInv (keysOf s'.store) (op, out) := by
  rintro kid found expiresAt hrequest rfl
  obtain ⟨rfl, held, hheld, rfl, hlookup⟩ := verification_of_exec hrequest he
  have hgeneration := hinv.generations _ held hheld
  have hnodup := hinv.nodup _ held hheld
  refine ⟨publishedAt_le hgeneration hbefore, fun entry hentry hkid hcreated => ?_⟩
  obtain ⟨hderived, hderives⟩ := derived_of_snapshot hgeneration.snapshot
  rcases hgeneration.follows.covered entry hentry hcreated with ⟨k, hk, hmirrors⟩ | ⟨r, hr, hle⟩
  · obtain ⟨key, hkey, hof⟩ := hderives k hk hmirrors.verifies
    rcases canVerifyAt_or key op.now with hcan | ⟨r, hr, hle⟩
    · -- some key with this identifier is found, and it is a key of the same entry
      have hsome : (held.generation.snapshot.verificationKey op.now kid).isSome = true := by
        refine List.find?_isSome.mpr ⟨key, hkey, ?_⟩
        rw [hof.kid, hmirrors.kid, hkid, hcan]
        simp
      obtain ⟨key', hfound⟩ := Option.isSome_iff_exists.mp hsome
      have hkid' : key'.kid = kid := of_decide_eq_true (Bool.and_eq_true _ _ ▸ List.find?_some hfound).1
      obtain ⟨k', hk', hof'⟩ := hderived key' (List.mem_of_find?_eq_some hfound)
      obtain ⟨entry', hentry', hmirrors'⟩ := hgeneration.follows.mirrors k' hk'
      have hsame : entry' = entry := by
        refine eq_of_kid hnodup hentry' hentry ?_
        rw [← hmirrors'.kid, ← hof'.kid, hkid', hkid]
      subst hsame
      exact .inl ⟨key', hlookup.trans hfound, hof'.publicJwk.trans hmirrors'.publicJwk,
        hof'.algorithm.trans hmirrors'.algorithm⟩
    · refine .inr ⟨r, ?_, hle⟩
      rcases hmirrors.retireAt with hsame | ⟨hnone, -⟩
      · rw [← hsame, ← hof.retireAt, hr]
      · rw [hof.retireAt, hnone] at hr
        cases hr
  · exact .inr ⟨r, hr, Int.le_trans hle (publishedAt_le hgeneration hbefore)⟩

/-- The clock goes forward, in whole seconds. -/
structure Timeline (log : List (Op × Outcome V)) : Prop where
  timed : TimedBy clock log
  whole : ∀ e ∈ log, WholeSecond (clock e)

theorem Timeline.tail (h : Timeline (e :: log)) : Timeline log :=
  ⟨(List.pairwise_cons.mp h.timed).2, fun e' he' => h.whole e' (.tail _ he')⟩

theorem inv_step (hinv : Inv crypto settings log s) (htime : Timeline ((op, out) :: log))
    (he : exec crypto settings s op = (s', out)) : Inv crypto settings ((op, out) :: log) s' := by
  have heffect := effect_of_exec he
  have hbefore : ∀ e ∈ log, clock e ≤ op.now := (List.pairwise_cons.mp htime.timed).1
  have hwhole : WholeSecond op.now := htime.whole _ (.head _)
  constructor
  · intro i h hi
    cases heffect.holds i h hi with
    | old j held hj heq =>
      rw [heq]
      exact (hinv.generations j held hj).step heffect.evolves hbefore hwhole
    | extended j held hj source hsource hstore heq =>
      rw [heq, hstore]
      exact (hinv.generations j held hj).extend hsource hbefore
    | new hpublished => exact generationInv_of_published hpublished
  · intro i h hi
    rcases heffect.nodup with hsame | hnodup
    · cases heffect.holds i h hi with
      | old j held hj | extended j held hj => exact hsame ▸ hinv.nodup j held hj
      | new hpublished => exact hpublished.nodup
    · exact hnodup
  · intro e hmem kid hkid
    rcases List.mem_cons.mp hmem with rfl | hmem
    · exact heffect.aged kid hkid
    · obtain ⟨entry, hentry, rfl, hage⟩ := hinv.rotated e hmem kid hkid
      exact aged_of_evolves heffect.evolves hentry hage
  · intro e hmem
    rcases List.mem_cons.mp hmem with rfl | hmem
    · exact signedInv_of_exec hinv hbefore he
    · exact (hinv.signed e hmem).step heffect.evolves heffect.nodup (hbefore e hmem) hwhole
  · intro e hmem
    rcases List.mem_cons.mp hmem with rfl | hmem
    · exact verifiedInv_of_exec hinv hbefore he
    · exact (hinv.verified e hmem).step heffect.evolves (hbefore e hmem) hwhole

theorem inv_of_run (hrun : Run (exec crypto settings) (System.initial store) log s)
    (htime : Timeline log) : Inv crypto settings log s := by
  refine hrun.invariant (fun e log h => h.tail) ?_ ?_ htime
  · refine ⟨fun i h hi => (by cases hi), fun i h hi => (by cases hi), ?_, ?_, ?_⟩
    · simp
    · simp
    · simp
  · exact fun log s o s' r _ htime hinv he => inv_step hinv htime he

end Histories

/-! ## Rotation -/

/-- A holder signs at some instant, with a key that a maintenance pass has made active. -/
structure SignsRotated (log : List (Op × Outcome V)) (t : Instant) (selected : SelectedKey)
    (expiresAt : Instant) : Prop where
  rotation : ∃ e ∈ log, selected.kid ∈ e.2.activated ∧ clock e ≤ t
  signing : ∃ e ∈ log, clock e = t ∧ e.2 = .signed selected expiresAt

/-- A holder looks at some instant for the verification key of an identifier. -/
def LooksUp (log : List (Op × Outcome V)) (u : Instant) (kid : String)
    (found : Option (VerificationKey V)) (expiresAt : Instant) : Prop :=
  ∃ e ∈ log, clock e = u ∧ e.1.request.looksFor = some kid ∧ e.2 = .verification found expiresAt

/-- The key that was found belongs to the key that has signed. -/
def Verifies (found : Option (VerificationKey V)) (selected : SelectedKey) : Prop :=
  ∃ key, found = some key ∧ key.publicJwk = selected.publicJwk ∧ key.algorithm = selected.algorithm

/-- **Rotation keeps signatures verifiable**, as long as the generations of the signer and of the
verifier are younger than their lifetime. -/
theorem rotated_key_verifies {settings : KeySettings} {store : Option Record} {log : List (Op × Outcome V)}
    {s : System V} (hrun : Run (exec crypto settings) (System.initial store) log s) (htime : Timeline log)
    (hlead : maxDatabaseSnapshotStalenessSeconds ≤ settings.prepublishWindow) {t u : Instant}
    {selected : SelectedKey} {found : Option (VerificationKey V)} {expiresAt expiresAt' : Instant}
    (hsigns : SignsRotated log t selected expiresAt)
    (hlooks : LooksUp log u selected.kid found expiresAt') (hyoung : t < expiresAt) (hyoung' : u < expiresAt')
    (hafter : t ≤ u) (hgrace : u ≤ t + seconds settings.verificationGrace) : Verifies found selected := by
  have hinv := inv_of_run hrun htime
  obtain ⟨rotation, hrotation, hkid, hbefore⟩ := hsigns.rotation
  obtain ⟨signing, hsigning, rfl, hsigned⟩ := hsigns.signing
  obtain ⟨lookup, hlookup, rfl, hrequest, hout⟩ := hlooks
  obtain ⟨aged, haged, hagedKid, hage⟩ := hinv.rotated rotation hrotation _ hkid
  obtain ⟨hnodup, -, entry, hentry, hentryKid, hjwk, halg, hretire⟩ :=
    hinv.signed signing hsigning selected expiresAt hsigned
  obtain rfl := eq_of_kid hnodup haged hentry (hagedKid.trans hentryKid.symm)
  obtain ⟨-, hfinds⟩ := hinv.verified lookup hlookup _ found expiresAt' hrequest hout
  -- the key was created before the verifier's generation was published
  have hcreated : aged.createdAt < expiresAt' - seconds maxDatabaseSnapshotStalenessSeconds := by
    have hwindow : seconds maxDatabaseSnapshotStalenessSeconds ≤ seconds settings.prepublishWindow :=
      seconds_le hlead
    have hsum : aged.createdAt + seconds maxDatabaseSnapshotStalenessSeconds ≤ clock lookup :=
      calc aged.createdAt + seconds maxDatabaseSnapshotStalenessSeconds
          ≤ aged.createdAt + seconds settings.prepublishWindow := Int.add_le_add_left hwindow _
        _ ≤ clock rotation := hage
        _ ≤ clock signing := hbefore
        _ ≤ clock lookup := hafter
    exact Int.lt_sub_right_of_add_lt (Int.lt_of_le_of_lt hsum hyoung')
  rcases hfinds aged hentry hentryKid hcreated with ⟨key, hfound, hkeyJwk, hkeyAlg⟩ | ⟨r, hr, hretired⟩
  · exact ⟨key, hfound, hkeyJwk.trans hjwk, hkeyAlg.trans halg⟩
  -- it is not retired: its retirement was set when the signer's generation could still sign
  rcases hretire with hnone | ⟨r', hr', hcovers⟩
  · rw [hnone] at hr
    cases hr
  cases hr.symm.trans hr'
  have hbeyond : clock lookup < r :=
    calc clock lookup ≤ clock signing + seconds settings.verificationGrace := hgrace
      _ < expiresAt + seconds settings.verificationGrace := Int.add_lt_add_right hyoung _
      _ ≤ r := hcovers
  exact absurd hretired (Int.not_le.mpr hbeyond)

/-! Keys that are pairs of an algorithm and some bytes, two processes, and a prepublication window
of two hours. -/

def plainCrypto : Crypto Unit where
  publicJwk := fun _ _ => some [("kty", .str "plain")]
  usable := fun _ _ => true
  decodingKey := fun _ _ => some ()
  recipientKid := fun pem => some ("recipient-" ++ toString pem.length)
  certified := fun _ _ => true

def twoHours : KeySettings := ⟨7300, 7200, 100⟩

def plainBinding : Binding := ⟨"wrapping", none, false⟩

def draw (n now : Nat) : Draws where
  uuid := fun slot => match slot with
    | none => "successor-" ++ toString n
    | some alg => signingAlgorithmName alg ++ "-" ++ toString n
  privateKey := fun _ => []
  pem := List.replicate n 0
  requestObjectNow := seconds now

/-- Processes 1 and 2 maintain the keyset in one second; the pass of process 2 publishes a successor
of the key that the pass of process 1 has made active. -/
def twoPasses : List Op :=
  [⟨0, 1, .start plainBinding (draw 0 0) (draw 1 0)⟩,
   ⟨seconds 100, 1, .refresh plainBinding (draw 2 100)⟩,
   ⟨seconds 20000, 1, .refresh plainBinding (draw 3 20000)⟩,
   ⟨seconds 20000, 2, .start plainBinding (draw 0 0) (draw 4 20000)⟩]

/-- After two hours process 2 makes the successor active and signs with it. -/
def successorSigns : List Op :=
  [⟨seconds 27200, 2, .refresh plainBinding (draw 5 27200)⟩,
   ⟨seconds 27200, 2, .sign .accessToken .rs256 none true⟩]

def successorKid : String := "rs256-successor-4"

def plainJwk (kid : String) : Json :=
  .obj [("alg", .str "RS256"), ("kid", .str kid), ("kty", .str "plain"), ("use", .str "sig")]

def successor : SelectedKey := ⟨successorKid, .rs256, .active (.local []), plainJwk successorKid⟩

instance {log : List (Op × Outcome Unit)} {t : Instant} {selected : SelectedKey}
    {expiresAt : Instant} : Decidable (SignsRotated log t selected expiresAt) :=
  decidable_of_iff ((∃ e ∈ log, selected.kid ∈ e.2.activated ∧ clock e ≤ t) ∧ ∃ e ∈ log, clock e = t
    ∧ e.2 = .signed selected expiresAt) ⟨fun h => ⟨h.1, h.2⟩, fun h => ⟨h.rotation, h.signing⟩⟩

instance {log : List (Op × Outcome Unit)} {u : Instant} {kid : String} {found : Option (VerificationKey Unit)}
    {expiresAt : Instant} : Decidable (LooksUp log u kid found expiresAt) :=
  inferInstanceAs (Decidable (∃ e ∈ log, clock e = u ∧ e.1.request.looksFor = some kid
    ∧ e.2 = .verification found expiresAt))

instance {log : List (Op × Outcome Unit)} : Decidable (Timeline log) :=
  decidable_of_iff (TimedBy clock log ∧ ∀ e ∈ log, printed (clock e) = clock e)
    ⟨fun h => ⟨h.1, h.2⟩, fun h => ⟨h.timed, h.whole⟩⟩

def runOf (store : Option Record) (ops : List Op) : List (Op × Outcome Unit) × System Unit :=
  execAll (exec plainCrypto twoHours) (System.initial store) [] ops

/-- Process 1 has read the keyset just before the successor was published, and verifies in the last
instant of its generation. -/
def unrefreshed : List Op := twoPasses ++ successorSigns ++ [⟨seconds 27200, 1, .verify successorKid⟩]

def externalKid : String := "external-2"

def externalBinding : Binding := ⟨"wrapping", none, true⟩

/-- Three keys of an external signer, the first one active. -/
def externalStore : Record where
  revision := 3
  payload := ⟨keysetSchemaVersion, "external-1", ["external-1", externalKid, "external-3"].map fun kid =>
    ⟨kid, .rs256, .externalCommand, plainJwk kid, none, some kid, 0, none, none, false⟩, [], some 0, some [], none⟩
  wrappingKeyId := "wrapping"

/-- In one second process 1 makes the second key active, and process 2 the third one. Process 1
signs in the last instant of its generation, and process 2 verifies in the last instant of the
grace. -/
def replacedAtOnce : List Op :=
  [⟨seconds 7300, 1, .start externalBinding (draw 0 0) (draw 1 7300)⟩,
   ⟨seconds 7300, 2, .start externalBinding (draw 0 0) (draw 2 7300)⟩,
   ⟨seconds 14500, 2, .refresh externalBinding (draw 3 14500)⟩,
   ⟨seconds 14500, 1, .sign .accessToken .rs256 none true⟩,
   ⟨seconds 14600, 2, .verify externalKid⟩]

def replaced : SelectedKey := ⟨externalKid, .rs256, .active (.external externalKid), plainJwk externalKid⟩

/-- **A generation in its last instant may lack a key that signs, and may sign with a key whose
grace is over too soon.** In both runs the generations of the signer and of the verifier have not
expired. -/
theorem successor_missing_at_expiry : maxDatabaseSnapshotStalenessSeconds ≤ twoHours.prepublishWindow
    ∧ (∀ selected, ¬ Verifies (none : Option (VerificationKey Unit)) selected)
    ∧ (Run (exec plainCrypto twoHours) (System.initial none) (runOf none unrefreshed).1 (runOf none unrefreshed).2
      ∧ Timeline (runOf none unrefreshed).1
      ∧ SignsRotated (runOf none unrefreshed).1 (seconds 27200) successor (seconds 34400)
      ∧ LooksUp (runOf none unrefreshed).1 (seconds 27200) successor.kid none (seconds 27200))
    ∧ Run (exec plainCrypto twoHours) (System.initial externalStore) (runOf externalStore replacedAtOnce).1
        (runOf externalStore replacedAtOnce).2
      ∧ Timeline (runOf externalStore replacedAtOnce).1
      ∧ SignsRotated (runOf externalStore replacedAtOnce).1 (seconds 14500) replaced (seconds 14500)
      ∧ LooksUp (runOf externalStore replacedAtOnce).1 (seconds 14600) replaced.kid none (seconds 21700) := by
  refine ⟨by decide, ?_, ⟨run_execAll _ _, by decide +kernel⟩, run_execAll _ _, by decide +kernel⟩
  rintro selected ⟨key, hfound, -⟩
  cases hfound

/-- Process 1 reads the keyset once more, and verifies in the last instant of the grace. -/
def refreshedBefore : List Op :=
  twoPasses ++ [⟨seconds 25000, 1, .refresh plainBinding (draw 6 25000)⟩] ++ successorSigns
    ++ [⟨seconds 27300, 1, .verify successorKid⟩]

/-- The successor as process 1 has read it, before it became active. -/
def successorKey : VerificationKey Unit := ⟨successorKid, plainJwk successorKid, .rs256, (), [], none⟩

theorem rotated_key_verifies_refreshed :
    LooksUp (runOf none refreshedBefore).1 (seconds 27300) successor.kid (some successorKey) (seconds 32200)
      ∧ Verifies (some successorKey) successor := by
  have hrun : Run (exec plainCrypto twoHours) (System.initial none) (runOf none refreshedBefore).1
      (runOf none refreshedBefore).2 :=
    run_execAll _ refreshedBefore
  obtain ⟨htime, hsigns, hlooks⟩ : Timeline (runOf none refreshedBefore).1
      ∧ SignsRotated (runOf none refreshedBefore).1 (seconds 27200) successor (seconds 34400)
      ∧ LooksUp (runOf none refreshedBefore).1 (seconds 27300) successor.kid (some successorKey)
      (seconds 32200) := by
    decide +kernel
  exact ⟨hlooks, rotated_key_verifies hrun htime (by decide) hsigns hlooks (by decide) (by decide) (by decide)
    (by decide)⟩

end NazoAuth.Keys
