import NazoAuth.Keys.Steps

/-!
# Signing keys — processes that share a keyset

Each process holds a generation that it loaded from the store; a lease holds the generation that its
process had. A refresh reads the stored keyset, maintains it and publishes a generation at one
instant. `effect_of_exec` says what an operation does to the store and to the holders.

A pass whose compare-and-swap loses is repeated with the record of the winner; the pass that is
stored is one step.
-/

namespace NazoAuth.Keys

open Lib
open Function (update)

variable {V : Type}

/-! ## The system -/

/-- A process, or a lease that shares the health of its process. -/
structure Holder (V : Type) where
  generation : KeyGeneration V
  manager : Nat

structure System (V : Type) where
  store : Option Record
  holders : Nat → Option (Holder V)
  healthy : Nat → Bool

/-- A stored keyset, before any process has started. -/
def System.initial (store : Option Record) : System V := ⟨store, fun _ => none, fun _ => false⟩

inductive Request where
  | start (b : Binding) (initial draws : Draws)
  | refresh (b : Binding) (draws : Draws)
  | lease (manager : Nat)
  | sign (purpose : SigningPurpose) (alg : Algorithm) (expectedKid : Option String) (answered : Bool)
  | verify (kid : String)

structure Op where
  now : Instant
  holder : Nat
  request : Request

inductive Outcome (V : Type) where
  | published (activated : List String)
  | failed (message : String) (activated : List String)
  | leased
  | signed (selected : SelectedKey) (expiresAt : Instant)
  | refused
  | verification (key : Option (VerificationKey V)) (expiresAt : Instant)
  | idle
  deriving DecidableEq

/-- The identifier that a request looks for. -/
def Request.looksFor : Request → Option String
  | .verify kid => some kid
  | _ => none

def maxRevision : Int := 2 ^ 63 - 1

/-- A round of an update: the record in the store after it, what is loaded, and which keys have
become active. -/
def attempt (crypto : Crypto V) (settings : KeySettings) (b : Binding) (draws : Draws)
    (now : Instant) (record : Record) : Except String (Record × LoadedKeyset × List String) :=
  if record.revision < 1 then .error "database signing keyset revision must be positive"
  else if !b.opens record.wrappingKeyId then .error "signing-key wrapping key is unavailable"
  else do
    let (payload, changed, activated) ← maintainPayload crypto settings draws now record.payload
    let loaded ← loadPayload crypto b.externalSigner now payload
    if !changed && record.wrappingKeyId = b.currentId then
      let source ← preparedSource settings now record payload
      .ok (record, { loaded with databaseSource := some source }, activated)
    else if record.revision = maxRevision then .error "signing keyset revision overflow"
    else
      let candidate : Record := ⟨record.revision + 1, payload, b.currentId⟩
      let source ← preparedSource settings now candidate payload
      .ok (candidate, { loaded with databaseSource := some source }, activated)

section Machine

variable (crypto : Crypto V) (settings : KeySettings)

/-- A pass on the stored record, and the publication of what it has loaded. -/
def pass (s : System V) (now : Instant) (holder : Nat) (b : Binding) (draws : Draws)
    (record : Record) : System V × Outcome V :=
  match attempt crypto settings b draws now record with
  | .error message => ({ s with store := some record, healthy := update s.healthy holder false },
    .failed message [])
  | .ok (record, loaded, activated) =>
    match KeyGeneration.database crypto now loaded with
    | .error message => ({ s with store := some record, healthy := update s.healthy holder false },
      .failed message activated)
    | .ok generation =>
      ({ store := some record, holders := update s.holders holder (some ⟨generation, holder⟩),
         healthy := update s.healthy holder true }, .published activated)

/-- Nothing has changed since the generation was loaded, and nothing is due. -/
def isPrepared (generation : KeyGeneration V) (record : Record) (now : Instant) : Bool :=
  generation.loaded.databaseSource.any fun source =>
    source.fingerprint = record && source.nextLifecycleCheck.all fun deadline => now < deadline

def start (s : System V) (now : Instant) (holder : Nat) (b : Binding) (initial draws : Draws) :
    System V × Outcome V :=
  let stopped := { s with holders := update s.holders holder none }
  match s.store with
  | some record => pass crypto settings stopped now holder b draws record
  | none =>
    match initialPayload crypto initial now with
    | .error message => (stopped, .failed message [])
    | .ok payload => pass crypto settings stopped now holder b draws ⟨1, payload, b.currentId⟩

def refresh (s : System V) (now : Instant) (holder : Nat) (b : Binding) (draws : Draws) : System V × Outcome V :=
  match s.holders holder with
  | none => (s, .idle)
  | some h =>
    if h.manager ≠ holder then (s, .idle)
    else match s.store with
      | none => ({ s with healthy := update s.healthy holder false },
        .failed "database signing keyset disappeared" [])
      | some record =>
        if isPrepared h.generation record now then
          ({ s with holders := update s.holders holder (some ⟨h.generation.extend now, holder⟩),
                    healthy := update s.healthy holder true }, .published [])
        else pass crypto settings s now holder b draws record

def exec (s : System V) (op : Op) : System V × Outcome V :=
  match op.request with
  | .start b initial draws => start crypto settings s op.now op.holder b initial draws
  | .refresh b draws => refresh crypto settings s op.now op.holder b draws
  | .lease manager => ({ s with holders := update s.holders op.holder (s.holders manager) }, .leased)
  | .sign purpose alg expectedKid answered =>
    match s.holders op.holder with
    | none => (s, .idle)
    | some h =>
      match h.generation.sign (s.healthy h.manager) op.now purpose alg expectedKid answered with
      | some selected => (s, .signed selected h.generation.expiresAt)
      | none => (s, .refused)
  | .verify kid =>
    match s.holders op.holder with
    | none => (s, .idle)
    | some h => (s, .verification (h.generation.snapshot.verificationKey op.now kid) h.generation.expiresAt)

end Machine

/-! ## What an operation does -/

section Effects

variable {crypto : Crypto V} {settings : KeySettings} {b : Binding} {draws : Draws} {now : Instant}
  {record record' : Record} {loaded : LoadedKeyset} {s s' : System V} {op : Op} {out : Outcome V}

/-- The entries of the store. -/
def keysOf : Option Record → List KeyEntry
  | none => []
  | some record => record.payload.keys

theorem fingerprint_of_preparedSource {fingerprint : Record} {payload : Payload} {source : PreparedDatabaseSource}
    (h : preparedSource settings now fingerprint payload = .ok source) : source.fingerprint = fingerprint := by
  unfold preparedSource at h
  split at h
  · cases h
  obtain ⟨rs256, -, h⟩ := of_bind h
  obtain ⟨ps256, -, h⟩ := of_bind h
  obtain ⟨encryption, -, h⟩ := of_bind h
  rw [← Except.ok.inj h]

/-- A key that was prepublished for its window at some instant. -/
def Aged (settings : KeySettings) (keys : List KeyEntry) (t : Instant) (kid : String) : Prop :=
  ∃ e ∈ keys, e.kid = kid ∧ e.createdAt + seconds settings.prepublishWindow ≤ t

/-- What a pass leaves in the store, and what it has loaded. -/
structure Attempted (settings : KeySettings) (now : Instant) (keys : List KeyEntry)
    (record' : Record) (loaded : LoadedKeyset) (activated : List String) : Prop where
  evolves : KeysEvolve settings now keys record'.payload.keys
  nodup : (kids record'.payload.keys).Nodup
  agrees : Agrees now loaded.verificationKeys record'.payload.keys
  source : ∃ source, loaded.databaseSource = some source ∧ source.fingerprint = record'
  aged : ∀ kid ∈ activated, Aged settings record'.payload.keys now kid

theorem attempted_of_attempt {activated : List String}
    (h : attempt crypto settings b draws now record = .ok (record', loaded, activated)) :
    Attempted settings now record.payload.keys record' loaded activated := by
  unfold attempt at h
  split at h
  · cases h
  split at h
  · cases h
  obtain ⟨⟨payload, changed, activated'⟩, hmaintain, h⟩ := of_bind h
  obtain ⟨loaded', hload, h⟩ := of_bind h
  obtain ⟨p, hpass, -, hactivated⟩ := maintain_parts hmaintain
  obtain ⟨hnodup, hagrees⟩ := agrees_of_load hload
  have hstages := stages_of_pass hpass (hnodup.sublist (kids_of_pass hpass).sublist)
  have haged : ∀ kid ∈ activated', Aged settings payload.keys now kid := fun kid hkid =>
    activated_of_pass hpass hstages (hactivated ▸ hkid)
  split_ifs at h with hsame
  · obtain ⟨source, hsource, h⟩ := of_bind h
    obtain ⟨rfl, hrest⟩ := Prod.mk.inj (Except.ok.inj h)
    cases hrest
    simp only [Bool.and_eq_true, Bool.not_eq_true'] at hsame
    obtain ⟨hunchanged, -⟩ := maintain_unchanged (hsame.1 ▸ hmaintain)
    rw [hunchanged] at hnodup hagrees haged
    exact ⟨KeysEvolve.refl _, hnodup, hagrees, ⟨source, rfl, fingerprint_of_preparedSource hsource⟩, haged⟩
  · obtain ⟨source, hsource, h⟩ := of_bind h
    obtain ⟨rfl, hrest⟩ := Prod.mk.inj (Except.ok.inj h)
    cases hrest
    exact ⟨hstages.evolves, hnodup, hagrees, ⟨source, rfl, fingerprint_of_preparedSource hsource⟩, haged⟩

/-- When a generation was published. -/
def KeyGeneration.publishedAt (generation : KeyGeneration V) : Instant :=
  generation.expiresAt - seconds maxDatabaseSnapshotStalenessSeconds

/-- A generation that was loaded from the store just now. -/
structure Published (crypto : Crypto V) (now : Instant) (store : Option Record)
    (generation : KeyGeneration V) : Prop where
  snapshot : snapshotFromLoaded crypto generation.loaded = .ok generation.snapshot
  publishedAt : generation.publishedAt = now
  nodup : (kids (keysOf store)).Nodup
  agrees : Agrees now generation.loaded.verificationKeys (keysOf store)
  source : ∃ source, generation.loaded.databaseSource = some source ∧ store = some source.fingerprint

/-- The generation of a holder after an operation: an old one, an old one that was read again, or a
new one. -/
inductive Holds (crypto : Crypto V) (s s' : System V) (now : Instant) (generation : KeyGeneration V) : Prop
  | old (i : Nat) (h : Holder V) (hi : s.holders i = some h) (heq : generation = h.generation)
  | extended (i : Nat) (h : Holder V) (hi : s.holders i = some h) (source : PreparedDatabaseSource)
      (hsource : h.generation.loaded.databaseSource = some source) (hstore : s'.store = some source.fingerprint)
      (heq : generation = h.generation.extend now)
  | new (hpublished : Published crypto now s'.store generation)

/-- The keys that have become active. -/
def Outcome.activated : Outcome V → List String
  | .published activated => activated
  | .failed _ activated => activated
  | _ => []

/-- A pass signs nothing and verifies nothing. -/
def Outcome.ofPass : Outcome V → Bool
  | .published _ => true
  | .failed _ _ => true
  | .idle => true
  | _ => false

/-- **What an operation does** to the store and to the holders. -/
structure Effect (crypto : Crypto V) (settings : KeySettings) (s s' : System V) (now : Instant)
    (out : Outcome V) : Prop where
  evolves : KeysEvolve settings now (keysOf s.store) (keysOf s'.store)
  nodup : keysOf s'.store = keysOf s.store ∨ (kids (keysOf s'.store)).Nodup
  holds : ∀ i h, s'.holders i = some h → Holds crypto s s' now h.generation
  aged : ∀ kid ∈ out.activated, Aged settings (keysOf s'.store) now kid

theorem Effect.read (hout : out.activated = []) : Effect crypto settings s s now out :=
  ⟨KeysEvolve.refl _, .inl rfl, fun i h hi => .old i h hi rfl, fun _ hkid => absurd (hout ▸ hkid) List.not_mem_nil⟩

theorem published_of_database {generation : KeyGeneration V} {keys : List KeyEntry}
    {activated : List String} (hattempt : Attempted settings now keys record' loaded activated)
    (h : KeyGeneration.database crypto now loaded = .ok generation) :
    Published crypto now (some record') generation := by
  obtain ⟨snapshot, hsnapshot, h⟩ := of_bind h
  cases h
  obtain ⟨source, hsource, hrecord⟩ := hattempt.source
  exact ⟨hsnapshot, Int.add_sub_cancel _ _, hattempt.nodup, hattempt.agrees, source, hsource, hrecord ▸ rfl⟩

/-- The holders of a system that a pass starts from. -/
def HoldersOf (s s' : System V) : Prop := ∀ i h, s'.holders i = some h → s.holders i = some h

variable {holder : Nat}

theorem holder_of_update {f : Nat → Option (Holder V)} {value : Option (Holder V)} {i : Nat} {h : Holder V}
    (hi : update f holder value i = some h) : value = some h ∨ f i = some h := by
  rw [Function.update_apply] at hi
  split_ifs at hi
  · exact .inl hi
  · exact .inr hi

theorem effect_of_pass {s₁ : System V} (hholders : HoldersOf s s₁)
    (hevolves : KeysEvolve settings now (keysOf s.store) record.payload.keys)
    (hnodup : record.payload.keys = keysOf s.store ∨ (kids record.payload.keys).Nodup)
    (h : pass crypto settings s₁ now holder b draws record = (s', out)) :
    Effect crypto settings s s' now out ∧ out.ofPass = true := by
  unfold pass at h
  split at h
  · cases h
    exact ⟨⟨hevolves, hnodup, fun i h hi => .old i h (hholders i h hi) rfl, nofun⟩, rfl⟩
  rename_i record' loaded activated hattempt
  have hattempted := attempted_of_attempt hattempt
  have hevolves' := hevolves.trans hattempted.evolves
  split at h
  · cases h
    exact ⟨⟨hevolves', .inr hattempted.nodup, fun i h hi => .old i h (hholders i h hi) rfl, hattempted.aged⟩, rfl⟩
  rename_i generation hgeneration
  cases h
  refine ⟨⟨hevolves', .inr hattempted.nodup, fun i h hi => ?_, hattempted.aged⟩, rfl⟩
  rcases holder_of_update hi with hnew | hold
  · cases hnew
    exact .new (published_of_database hattempted hgeneration)
  · exact .old i h (hholders i h hold) rfl

theorem localKid_ne (uuid uuid' : String) : localKid .rs256 uuid ≠ localKid .ps256 uuid' := by
  intro h
  have hlist := congrArg String.toList h
  simp [localKid, signingAlgorithmName] at hlist

theorem initialPayload_eq_ok {payload : Payload} (h : initialPayload crypto draws now = .ok payload) :
    (kids payload.keys).Nodup ∧ ∀ e ∈ payload.keys, IsNew now e := by
  obtain ⟨active, hactive, h⟩ := of_bind h
  obtain ⟨protocol, hprotocol, h⟩ := of_bind h
  cases h
  obtain ⟨jwk, -, hactive⟩ := of_bind hactive
  obtain ⟨jwk', -, hprotocol⟩ := of_bind hprotocol
  cases hactive
  cases hprotocol
  constructor
  · simp [kids, localKid_ne]
  intro e he
  rcases List.mem_pair.mp he with rfl | rfl
  · exact ⟨rfl, .general rfl rfl⟩
  · exact ⟨rfl, .protocol rfl (.inr rfl)⟩

theorem effect_of_start {initial : Draws} (h : start crypto settings s now holder b initial draws = (s', out)) :
    Effect crypto settings s s' now out ∧ out.ofPass = true := by
  have hholders : HoldersOf s { s with holders := update s.holders holder none } := fun i h hi =>
    (holder_of_update hi).resolve_left (Option.some_ne_none h).symm
  unfold start at h
  split at h
  · rename_i record hstore
    have hkeys : keysOf s.store = record.payload.keys := by rw [hstore, keysOf]
    exact effect_of_pass hholders (hkeys ▸ KeysEvolve.refl _) (.inl hkeys.symm) h
  · rename_i hstore
    split at h
    · cases h
      exact ⟨⟨KeysEvolve.refl _, .inl rfl, fun i h hi => .old i h (hholders i h hi) rfl, nofun⟩, rfl⟩
    · rename_i payload hpayload
      obtain ⟨hnodup, hnew⟩ := initialPayload_eq_ok hpayload
      have hevolves : KeysEvolve settings now (keysOf s.store) payload.keys := by
        rw [hstore]
        exact ⟨[], payload.keys, rfl, .nil, hnew⟩
      exact effect_of_pass hholders hevolves (.inr hnodup) h

theorem effect_of_refresh (h : refresh crypto settings s now holder b draws = (s', out)) :
    Effect crypto settings s s' now out ∧ out.ofPass = true := by
  unfold refresh at h
  split at h
  · cases h
    exact ⟨.read rfl, rfl⟩
  rename_i held hheld
  split_ifs at h with hmanager
  · cases h
    exact ⟨.read rfl, rfl⟩
  split at h
  · cases h
    exact ⟨⟨KeysEvolve.refl _, .inl rfl, fun i h hi => .old i h hi rfl, nofun⟩, rfl⟩
  rename_i record hstore
  split_ifs at h with hprepared
  · cases h
    refine ⟨⟨KeysEvolve.refl _, .inl rfl, fun i h hi => ?_, nofun⟩, rfl⟩
    rcases holder_of_update hi with hnew | hold
    · cases hnew
      obtain ⟨source, hsource, hsame⟩ := (Option.any_eq_true _ _).mp hprepared
      have hfingerprint := of_decide_eq_true (Bool.and_eq_true _ _ ▸ hsame).1
      exact .extended holder held hheld source hsource (hfingerprint ▸ hstore) rfl
    · exact .old i h hold rfl
  · have hkeys : keysOf s.store = record.payload.keys := by rw [hstore, keysOf]
    exact effect_of_pass (fun i h hi => hi) (hkeys ▸ KeysEvolve.refl _) (.inl hkeys.symm) h

theorem effect_of_exec (h : exec crypto settings s op = (s', out)) : Effect crypto settings s s' op.now out := by
  unfold exec at h
  split at h
  · exact (effect_of_start h).1
  · exact (effect_of_refresh h).1
  · cases h
    exact ⟨KeysEvolve.refl _, .inl rfl, fun i h hi =>
      (holder_of_update hi).elim (.old _ h · rfl) (.old i h · rfl), nofun⟩
  · split at h
    · cases h
      exact Effect.read rfl
    split at h
    · cases h
      exact Effect.read rfl
    · cases h
      exact Effect.read rfl
  · split at h
    · cases h
      exact Effect.read rfl
    · cases h
      exact Effect.read rfl

/-! ## Signing and verification -/

theorem signed_of_exec {selected : SelectedKey} {expiresAt : Instant}
    (h : exec crypto settings s op = (s', .signed selected expiresAt)) :
    s' = s ∧ ∃ held purpose alg expectedKid answered, s.holders op.holder = some held
      ∧ expiresAt = held.generation.expiresAt
      ∧ held.generation.sign (s.healthy held.manager) op.now purpose alg expectedKid answered = some selected := by
  unfold exec at h
  split at h
  · cases (effect_of_start h).2
  · cases (effect_of_refresh h).2
  · cases h
  · rename_i purpose alg expectedKid answered _
    split at h
    · cases h
    rename_i held hheld
    split at h
    · rename_i selected' hsign
      obtain ⟨rfl, hout⟩ := Prod.mk.inj h
      cases hout
      exact ⟨rfl, held, purpose, alg, expectedKid, answered, hheld, rfl, hsign⟩
    · cases h
  · split at h
    · cases h
    · cases h

theorem verification_of_exec {kid : String} {found : Option (VerificationKey V)}
    {expiresAt : Instant} (hrequest : op.request.looksFor = some kid)
    (h : exec crypto settings s op = (s', .verification found expiresAt)) :
    s' = s ∧ ∃ held, s.holders op.holder = some held ∧ expiresAt = held.generation.expiresAt
      ∧ found = held.generation.snapshot.verificationKey op.now kid := by
  unfold exec at h
  split at h
  · cases (effect_of_start h).2
  · cases (effect_of_refresh h).2
  · cases h
  · split at h
    · cases h
    · split at h
      · cases h
      · cases h
  · rename_i kid' hverify
    rw [hverify] at hrequest
    cases hrequest
    split at h
    · cases h
    rename_i held hheld
    obtain ⟨rfl, hout⟩ := Prod.mk.inj h
    cases hout
    exact ⟨rfl, held, hheld, rfl, rfl⟩

end Effects

end NazoAuth.Keys
