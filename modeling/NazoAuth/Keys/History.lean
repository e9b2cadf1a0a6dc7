import NazoAuth.Keys.Loading

/-!
# Signing keys — the history of a stored keyset

Whatever the writers do, and however they interleave, a stored keyset grows: no key goes, and
nothing of a key changes but that it may be retired once (`Grows`). Every stored keyset is sound
(`SoundPayload`): it has one active key, at most one current and one pending key of each kind, and
it loads.

A candidate is computed from a record that was read before. It is stored only if the revision has
not changed, and two records with one revision are one record (`WriterInv`), so that it was computed
from the record it replaces.
-/

namespace NazoAuth.Keys

open Lib
open Function (update)

variable {V : Type} {crypto : Crypto V} {settings : KeySettings} {draws : Draws} {now t : Instant}
  {payload payload' : Payload} {keys keys' : List KeyEntry} {e e' : KeyEntry} {alg : Algorithm}
  {record : Record} {request : WriteRequest}

/-! ## What a writer keeps -/

/-- Nothing of a key changes, but that a key without a retirement may get one. -/
structure Kept (e e' : KeyEntry) : Prop where
  kid : e'.kid = e.kid
  alg : e'.alg = e.alg
  publicJwk : e'.publicJwk = e.publicJwk
  createdAt : e'.createdAt = e.createdAt
  retireAt : e.retireAt.isSome → e'.retireAt = e.retireAt

theorem Kept.refl (e : KeyEntry) : Kept e e := ⟨rfl, rfl, rfl, rfl, fun _ => rfl⟩

theorem Kept.trans {e'' : KeyEntry} (h : Kept e e') (h' : Kept e' e'') : Kept e e'' :=
  ⟨h'.kid.trans h.kid, h'.alg.trans h.alg, h'.publicJwk.trans h.publicJwk, h'.createdAt.trans h.createdAt,
    fun hsome => (h'.retireAt (h.retireAt hsome ▸ hsome)).trans (h.retireAt hsome)⟩

theorem EntryStep.kept (h : EntryStep settings now e e') : Kept e e' := by
  refine ⟨h.kid, h.alg, h.publicJwk, h.createdAt, fun hsome => ?_⟩
  obtain ⟨r, hr⟩ := Option.isSome_iff_exists.mp hsome
  rw [hr, h.retired hr]

/-- A recipient key of request objects: the current one, or one of the ring. -/
def StoresRecipient (crypto : Crypto V) (payload : Payload) (kid : String) (createdAt : Instant)
    (retireAt : Option Instant) : Prop :=
  (crypto.recipientKid payload.requestObjectPrivatePem = some kid ∧ payload.requestObjectCreatedAt = some createdAt
    ∧ retireAt = none)
    ∨ ∃ entry ∈ payload.requestObjectRetainedKeys.getD [], entry.kid = kid
    ∧ entry.createdAt = createdAt ∧ entry.retireAt = retireAt

/-- A keyset after some writes. -/
structure Grows (crypto : Crypto V) (payload payload' : Payload) : Prop where
  keys : ∀ e ∈ payload.keys, ∃ e' ∈ payload'.keys, Kept e e'
  recipients : ∀ kid createdAt retireAt, StoresRecipient crypto payload kid createdAt retireAt →
    ∃ retireAt', StoresRecipient crypto payload' kid createdAt retireAt' ∧ (retireAt.isSome → retireAt' = retireAt)

theorem Grows.refl (payload : Payload) : Grows crypto payload payload :=
  ⟨fun e he => ⟨e, he, Kept.refl e⟩, fun _ _ retireAt h => ⟨retireAt, h, fun _ => rfl⟩⟩

theorem Grows.trans {payload'' : Payload} (h : Grows crypto payload payload')
    (h' : Grows crypto payload' payload'') : Grows crypto payload payload'' := by
  constructor
  · intro e he
    obtain ⟨e', he', hkept⟩ := h.keys e he
    obtain ⟨e'', he'', hkept'⟩ := h'.keys e' he'
    exact ⟨e'', he'', hkept.trans hkept'⟩
  · intro kid createdAt retireAt hstores
    obtain ⟨r, hr, hsame⟩ := h.recipients kid createdAt retireAt hstores
    obtain ⟨r', hr', hsame'⟩ := h'.recipients kid createdAt r hr
    exact ⟨r', hr', fun hsome => (hsame' (hsame hsome ▸ hsome)).trans (hsame hsome)⟩

/-! ## Sound keysets -/

def isCurrentProtocolKey (alg : Algorithm) (e : KeyEntry) : Bool :=
  (isProtocolKey alg e).toOption = some true && !e.prepublished

def isPendingProtocolKey (alg : Algorithm) (e : KeyEntry) : Bool :=
  (isProtocolKey alg e).toOption = some true && e.prepublished

/-- There are no two keys of one kind. -/
structure Unambiguous (payload : Payload) : Prop where
  current : ∀ alg, payload.keys.countP (isCurrentProtocolKey alg) ≤ 1
  pending : ∀ alg, payload.keys.countP (isPendingProtocolKey alg) ≤ 1
  recipient : (payload.requestObjectRetainedKeys.getD []).countP (fun entry => entry.retireAt.isNone) ≤ 1

structure SoundPayload (crypto : Crypto V) (t : Instant) (payload : Payload) : Prop where
  shape : ∀ e ∈ payload.keys, Shape e
  ring : payload.requestObjectCreatedAt.isSome
  unambiguous : Unambiguous payload
  loads : ∃ signer loaded, loadPayload crypto signer t payload = .ok loaded

theorem Shape.protocol_of (h : Shape e) (hkey : isProtocolKey alg e = .ok true) :
    e.purposes = some protocolSigningPurposes ∧ (e.alg = .rs256 ∨ e.alg = .ps256) := by
  obtain ⟨-, -, ps, hps, hid⟩ := isProtocolKey_eq_true hkey
  cases h with
  | general hpurposes => cases hps.symm.trans hpurposes
  | protocol hpurposes halg => exact ⟨hpurposes, halg⟩
  | openid4vc hpurposes =>
    obtain ⟨ps', hps', hall⟩ := hpurposes
    cases hps.symm.trans hps'
    cases hall _ hid

theorem not_protocol (h : ∀ ps, e.purposes = some ps → .idToken ∉ ps) :
    (isProtocolKey alg e).toOption ≠ some true := by
  intro htrue
  obtain ⟨-, -, ps, hps, hid⟩ := isProtocolKey_eq_true (toOption_eq_some.mp htrue)
  exact h ps hps hid

variable {found : Option (KeyEntry × Nat) × Option (KeyEntry × Nat)}

theorem countP_of_indices {entries : List (KeyEntry × Nat)}
    {found' : Option (KeyEntry × Nat) × Option (KeyEntry × Nat)} (h : entries.foldlM (fun found entry => do
      if !(← isProtocolKey alg entry.1) then .ok found
      else if entry.1.prepublished then
        if found.2.isSome then .error "duplicate current or pending local protocol key"
        else .ok (found.1, some entry)
      else if found.1.isSome then .error "duplicate current or pending local protocol key"
      else .ok (some entry, found.2)) found = .ok found') :
    (entries.map (·.1)).countP (isCurrentProtocolKey alg) + found.1.isSome.toNat = found'.1.isSome.toNat
      ∧ (entries.map (·.1)).countP (isPendingProtocolKey alg) + found.2.isSome.toNat = found'.2.isSome.toNat := by
  induction entries generalizing found with
  | nil =>
    obtain rfl := pure_eq_ok.mp h
    exact ⟨Nat.zero_add _, Nat.zero_add _⟩
  | cons entry rest ih =>
    obtain ⟨next, hnext, h⟩ := of_bind h
    obtain ⟨hcurrent, hpending⟩ := ih h
    obtain ⟨is, his, hnext⟩ := of_bind hnext
    have hoption := toOption_eq_some.mpr his
    rw [List.map_cons, List.countP_cons, List.countP_cons]
    simp only [isCurrentProtocolKey, isPendingProtocolKey, hoption]
    cases is with
    | false =>
      cases hnext
      exact ⟨hcurrent, hpending⟩
    | true =>
      cases hpre : entry.1.prepublished with
      | true | false =>
        simp only [hpre, Bool.not_true, Bool.false_eq_true, if_false, if_true] at hnext
        split_ifs at hnext with hsome
        cases hnext
        simp only [Bool.not_eq_true] at hsome
        rw [hsome]
        exact ⟨hcurrent, hpending⟩

theorem protocolKeyIndices_unique (h : protocolKeyIndices keys alg = .ok found) :
    keys.countP (isCurrentProtocolKey alg) ≤ 1 ∧ keys.countP (isPendingProtocolKey alg) ≤ 1 := by
  obtain ⟨hcurrent, hpending⟩ := countP_of_indices h
  rw [List.zipIdx_map_fst] at hcurrent hpending
  have hle : ∀ b : Bool, b.toNat ≤ 1 := Bool.toNat_le
  exact ⟨(Nat.le_of_add_right_le (Nat.le_of_eq hcurrent)).trans (hle _),
    (Nat.le_of_add_right_le (Nat.le_of_eq hpending)).trans (hle _)⟩

theorem countP_other_algorithm (hshape : ∀ e ∈ keys, Shape e) (hrs : alg ≠ .rs256)
    (hps : alg ≠ .ps256) (p : KeyEntry → Bool)
    (hp : ∀ e, p e = true → (isProtocolKey alg e).toOption = some true) : keys.countP p ≤ 1 := by
  rw [List.countP_eq_zero.mpr]
  · exact Nat.zero_le 1
  intro e he hpe
  have hkey := toOption_eq_some.mp (hp e hpe)
  have halg : e.alg = alg := (isProtocolKey_eq_true hkey).1
  rcases ((hshape e he).protocol_of hkey).2 with h | h
  · exact hrs (halg.symm.trans h)
  · exact hps (halg.symm.trans h)

variable {entries : List RetainedKey} {settings : KeySettings} {source : PreparedDatabaseSource}

theorem pendingRing_of_check {next : Option Instant}
    (hentries : payload.requestObjectRetainedKeys = some entries)
    (hcreated : payload.requestObjectCreatedAt.isSome)
    (h : nextEncryptionCheck settings t payload = .ok next) :
    entries.countP (fun entry => entry.retireAt.isNone) ≤ 1 := by
  unfold nextEncryptionCheck at h
  split at h
  · rename_i hnone
    rw [hnone] at hcreated
    cases hcreated
  · rw [hentries] at h
    dsimp only at h
    rw [List.countP_eq_length_filter]
    split at h
    · rename_i hnil
      rw [hnil]
      exact Nat.zero_le 1
    · rename_i hone
      rw [hone]
      exact Nat.le_refl 1
    · cases h

/-- Maintenance has its next check prepared only if there are no two keys of one kind. -/
theorem unambiguous_of_source (hshape : ∀ e ∈ payload.keys, Shape e)
    (hcreated : payload.requestObjectCreatedAt.isSome)
    (hentries : payload.requestObjectRetainedKeys = some entries)
    (h : preparedSource settings t record payload = .ok source) : Unambiguous payload := by
  unfold preparedSource at h
  split at h
  · cases h
  obtain ⟨rs256, hrs256, h⟩ := of_bind h
  obtain ⟨ps256, hps256, h⟩ := of_bind h
  obtain ⟨encryption, hencryption, -⟩ := of_bind h
  obtain ⟨found, hfound, -⟩ := of_bind hrs256
  obtain ⟨found', hfound', -⟩ := of_bind hps256
  obtain ⟨hcurrent, hpending⟩ := protocolKeyIndices_unique hfound
  obtain ⟨hcurrent', hpending'⟩ := protocolKeyIndices_unique hfound'
  have hisCurrent : ∀ alg e, isCurrentProtocolKey alg e = true → (isProtocolKey alg e).toOption = some true :=
    fun alg e h => of_decide_eq_true (Bool.and_eq_true _ _ ▸ h).1
  have hisPending : ∀ alg e, isPendingProtocolKey alg e = true → (isProtocolKey alg e).toOption = some true :=
    fun alg e h => of_decide_eq_true (Bool.and_eq_true _ _ ▸ h).1
  refine ⟨fun alg => ?_, fun alg => ?_, ?_⟩
  · cases alg with
    | rs256 => exact hcurrent
    | ps256 => exact hcurrent'
    | eddsa | es256 => exact countP_other_algorithm hshape (by decide) (by decide) _ (hisCurrent _)
  · cases alg with
    | rs256 => exact hpending
    | ps256 => exact hpending'
    | eddsa | es256 => exact countP_other_algorithm hshape (by decide) (by decide) _ (hisPending _)
  · rw [hentries]
    exact pendingRing_of_check hentries hcreated hencryption

/-! ## Maintenance -/

theorem shape_of_evolves (h : KeysEvolve settings now keys keys') (hshape : ∀ e ∈ keys, Shape e) :
    ∀ e ∈ keys', Shape e := by
  intro e' he'
  rcases h.old_or_new he' with ⟨e, he, hstep⟩ | hnew
  · exact hstep.shape (hshape e he)
  · exact hnew.shape

/-! ## The ring of request object keys -/

theorem recipient_of_load {loaded kids : List String} (h : loadRetainedKeys crypto t loaded entries = .ok kids) :
    ∀ entry ∈ entries, entry.retireAt = none → entry.privatePem.bind crypto.recipientKid = some entry.kid := by
  induction entries generalizing loaded with
  | nil => exact nofun
  | cons first rest ih =>
    intro entry hentry hretire
    unfold loadRetainedKeys at h
    split_ifs at h with hdead
    · rcases List.mem_cons.mp hentry with rfl | hentry
      · rw [hretire] at hdead
        cases hdead
      · exact ih h entry hentry hretire
    · split at h
      · cases h
      rename_i kid hkid
      split_ifs at h with hbad
      rcases List.mem_cons.mp hentry with rfl | hentry
      · rw [hkid]
        simp only [Bool.or_eq_true, decide_eq_true_eq, not_or, not_not] at hbad
        rw [hbad.1]
      · exact ih h entry hentry hretire

def KeyRing.Stores (crypto : Crypto V) (ring : KeyRing) (kid : String) (createdAt : Instant)
    (retireAt : Option Instant) : Prop :=
  (crypto.recipientKid ring.privatePem = some kid ∧ ring.createdAt = createdAt ∧ retireAt = none)
    ∨ ∃ entry ∈ ring.entries, entry.kid = kid ∧ entry.createdAt = createdAt ∧ entry.retireAt = retireAt

variable {createdAt : Instant}

theorem rotateRing_keeps {ring ring' : KeyRing} {rotated : Bool} {kid : String}
    {retireAt : Option Instant} (hload : ∀ entry ∈ ring.entries, entry.retireAt = none →
      entry.privatePem.bind crypto.recipientKid = some entry.kid)
    (h : rotateRing crypto settings draws now ring = .ok (ring', rotated))
    (hstores : ring.Stores crypto kid createdAt retireAt) :
    ∃ retireAt', ring'.Stores crypto kid createdAt retireAt' ∧ (retireAt.isSome → retireAt' = retireAt) := by
  unfold rotateRing at h
  dsimp only at h
  split at h
  · rename_i index hindex
    split at h
    · rename_i candidate hcandidate
      split_ifs at h
      · split at h
        · rename_i kid' pem hkid' hpem
          cases h
          have hnone : candidate.retireAt = none := by
            obtain ⟨hlt, hp, -⟩ := List.findIdx?_eq_some_iff_getElem.mp hindex
            rw [List.getElem?_eq_getElem hlt] at hcandidate
            cases hcandidate
            exact Option.isNone_iff_eq_none.mp hp
          rcases hstores with ⟨hkid, hcreated, rfl⟩ | ⟨entry, hentry, hkid, hcreated, rfl⟩
          · -- the current recipient is retired
            refine ⟨some (retirement settings now),
              .inr ⟨_, List.mem_append_right _ (List.mem_singleton.mpr rfl), ?_, hcreated, rfl⟩, ?_⟩
            · exact Option.some.inj (hkid'.symm.trans hkid)
            · exact nofun
          · obtain ⟨i, hi⟩ := List.mem_iff_getElem?.mp hentry
            by_cases hsame : i = index
            · -- the pending recipient is the current one
              obtain rfl : candidate = entry := Option.some.inj (hcandidate.symm.trans (hsame ▸ hi))
              refine ⟨none, .inl ⟨?_, hcreated, rfl⟩, fun _ => hnone.symm⟩
              have hrecipient := hload _ hentry hnone
              rw [hpem] at hrecipient
              exact hrecipient.trans (congrArg some hkid)
            · refine ⟨entry.retireAt, .inr ⟨entry, List.mem_append_left _ ?_, hkid, hcreated, rfl⟩, fun _ => rfl⟩
              exact List.mem_eraseIdx_iff_getElem?.mpr ⟨i, hsame, hi⟩
        · cases h
      · cases h
        exact ⟨retireAt, hstores, fun _ => rfl⟩
    · cases h
      exact ⟨retireAt, hstores, fun _ => rfl⟩
  · split_ifs at h
    · split at h
      · cases h
        refine ⟨retireAt, ?_, fun _ => rfl⟩
        rcases hstores with hcurrent | ⟨entry, hentry, hsame⟩
        · exact .inl hcurrent
        · exact .inr ⟨entry, List.mem_append_left _ hentry, hsame⟩
      · cases h
    · cases h
      exact ⟨retireAt, hstores, fun _ => rfl⟩

theorem dropRetained_keeps (now : Instant) (entry : RetainedKey) :
    (dropRetained now entry).kid = entry.kid ∧ (dropRetained now entry).createdAt = entry.createdAt
    ∧ (dropRetained now entry).retireAt = entry.retireAt := by
  unfold dropRetained
  split_ifs
  · exact ⟨rfl, rfl, rfl⟩
  · exact ⟨rfl, rfl, rfl⟩

variable {changed : Bool}

theorem encryption_keeps (h : maintainEncryptionKeys crypto settings draws now payload = .ok (payload', changed))
    (hring : payload.requestObjectCreatedAt.isSome)
    (hload : ∀ entry ∈ payload.requestObjectRetainedKeys.getD [], entry.retireAt = none →
      entry.privatePem.bind crypto.recipientKid = some entry.kid) :
    (payload'.requestObjectCreatedAt.isSome ∧ ∃ entries, payload'.requestObjectRetainedKeys = some entries)
      ∧ ∀ kid createdAt retireAt, StoresRecipient crypto payload kid createdAt retireAt →
        ∃ retireAt', StoresRecipient crypto payload' kid createdAt retireAt'
          ∧ (retireAt.isSome → retireAt' = retireAt) := by
  obtain ⟨⟨ring, migrated⟩, hof, h⟩ := of_bind h
  obtain ⟨⟨ring', rotated⟩, hrotate, h⟩ := of_bind h
  cases h
  refine ⟨⟨rfl, _, rfl⟩, fun kid createdAt retireAt hstores => ?_⟩
  unfold requestObjectRing at hof
  split at hof
  · rename_i hnone
    rw [hnone] at hring
    cases hring
  · rename_i created entries hcreated hentries
    cases hof
    rw [hentries] at hload
    have hfrom : (⟨payload.requestObjectPrivatePem, created, entries⟩ : KeyRing).Stores crypto kid createdAt
        retireAt := by
      rcases hstores with ⟨hkid, hsome, hretire⟩ | hstores
      · exact .inl ⟨hkid, Option.some.inj (hcreated.symm.trans hsome), hretire⟩
      · rw [hentries] at hstores
        exact .inr hstores
    obtain ⟨retireAt', hto, hsame⟩ := rotateRing_keeps hload hrotate hfrom
    refine ⟨retireAt', ?_, hsame⟩
    rcases hto with ⟨hkid, hsome, hretire⟩ | ⟨entry, hentry, hkid, hsome, hretire⟩
    · exact .inl ⟨hkid, congrArg some hsome, hretire⟩
    · obtain ⟨hkid', hcreated', hretire'⟩ := dropRetained_keeps now entry
      exact .inr ⟨_, List.mem_map_of_mem hentry, hkid'.trans hkid, hcreated'.trans hsome, hretire'.trans hretire⟩
  · cases hof

/-! ## The writers -/

/-- What a writer has computed. -/
structure Computed (crypto : Crypto V) (loadedAt now : Instant) (record : Record)
    (request : WriteRequest) (payload : Payload) : Prop where
  valid : request.validate crypto = .ok ()
  mutated : ∃ changed, request.mutate crypto now record.payload = .ok (payload, changed)
  loads : ∃ signer loaded, loadPayload crypto signer loadedAt payload = .ok loaded
  source : request.checkSource loadedAt record payload = .ok ()

variable {loadedAt : Instant} {after : Record} {b : Binding}

theorem computed_of_candidate (h : candidateOf crypto b now loadedAt record request = .ok (some after)) :
    after.revision = record.revision + 1 ∧ Computed crypto loadedAt now record request after.payload := by
  obtain ⟨⟨⟩, hvalid, h⟩ := of_bind h
  split at h
  · cases h
  split at h
  · cases h
  split at h
  · cases h
  obtain ⟨⟨payload, changed⟩, hmutated, h⟩ := of_bind h
  dsimp only at h
  split at h
  · cases h
  obtain ⟨loaded, hloads, h⟩ := of_bind h
  obtain ⟨⟨⟩, hsource, h⟩ := of_bind h
  split at h
  · cases h
  split at h
  · cases h
  cases h
  exact ⟨rfl, hvalid, ⟨changed, hmutated⟩, ⟨_, loaded, hloads⟩, hsource⟩

theorem unambiguous_push (payload : Payload) (e : KeyEntry) (hnew : ∀ ps, e.purposes = some ps → .idToken ∉ ps)
    (h : Unambiguous payload) : Unambiguous { payload with keys := payload.keys ++ [e] } := by
  have hnot : ∀ alg, (isProtocolKey alg e).toOption ≠ some true := fun alg => not_protocol hnew
  refine ⟨fun alg => ?_, fun alg => ?_, h.recipient⟩
  · have hcurrent : isCurrentProtocolKey alg e = false := by simp [isCurrentProtocolKey, hnot alg]
    rw [List.countP_append, List.countP_singleton, hcurrent]
    exact h.current alg
  · have hpending : isPendingProtocolKey alg e = false := by simp [isPendingProtocolKey, hnot alg]
    rw [List.countP_append, List.countP_singleton, hpending]
    exact h.pending alg

theorem grows_push (payload : Payload) (e : KeyEntry) :
    Grows crypto payload { payload with keys := payload.keys ++ [e] } :=
  ⟨fun e' he' => ⟨e', List.mem_append_left _ he', Kept.refl e'⟩, fun _ _ retireAt h => ⟨retireAt, h, fun _ => rfl⟩⟩

/-- What a writer does to a sound keyset, before the result is loaded. -/
structure Extends (crypto : Crypto V) (payload payload' : Payload) : Prop where
  grows : Grows crypto payload payload'
  shape : ∀ e ∈ payload'.keys, Shape e
  ring : payload'.requestObjectCreatedAt.isSome
  unambiguous : Unambiguous payload'

theorem extends_refl (h : SoundPayload crypto t payload) : Extends crypto payload payload :=
  ⟨Grows.refl _, h.shape, h.ring, h.unambiguous⟩

theorem extends_push (h : SoundPayload crypto t payload) (hshape : Shape e)
    (hnew : ∀ ps, e.purposes = some ps → .idToken ∉ ps) :
    Extends crypto payload { payload with keys := payload.keys ++ [e] } := by
  refine ⟨grows_push payload e, fun e' he' => ?_, h.ring, unambiguous_push payload e hnew h.unambiguous⟩
  rcases List.mem_append.mp he' with he' | he'
  · exact h.shape e' he'
  · rw [List.mem_singleton.mp he']
    exact hshape

theorem openid4vc_not_idToken {ps : List SigningPurpose} (h : ∀ p ∈ ps, p.isOpenid4vc = true) : .idToken ∉ ps := by
  intro hid
  cases h _ hid

theorem extends_of_registerLocal {registration : LocalKeyRegistration} (hsound : SoundPayload crypto t payload)
    (hvalid : validateLocalRegistration registration = .ok ())
    (h : registerLocal crypto draws now registration payload = .ok (payload', changed)) :
    Extends crypto payload payload' := by
  obtain ⟨existing, -, h⟩ := of_bind h
  cases existing with
  | some =>
    cases h
    exact extends_refl hsound
  | none =>
    obtain ⟨entry, hentry, h⟩ := of_bind h
    cases h
    have hall : ∀ p ∈ registration.purposes, p.isOpenid4vc = true := by
      unfold validateLocalRegistration at hvalid
      split_ifs at hvalid with hempty hother
      intro p hp
      by_contra hnot
      exact hother (List.any_eq_true.mpr ⟨p, hp, by simpa using hnot⟩)
    obtain ⟨jwk, -, hentry⟩ := of_bind hentry
    cases hentry
    refine extends_push hsound (.openid4vc ⟨_, rfl, hall⟩ rfl rfl) fun ps hps => ?_
    cases hps
    exact openid4vc_not_idToken hall

theorem extends_of_registerExternal {registration : ExternalKeyRegistration}
    (hsound : SoundPayload crypto t payload)
    (h : registerExternal now registration payload = .ok (payload', changed)) :
    Extends crypto payload payload' := by
  unfold registerExternal at h
  split at h
  · cases h
  split_ifs at h
  split at h
  · split_ifs at h
    cases h
    exact extends_refl hsound
  · cases h
    exact extends_push hsound (.general rfl rfl) fun ps hps => (by cases hps)

theorem dropOpenid4vc_of_shape (hshape : Shape e) (h : dropOpenid4vc settings now e = .ok e') :
    e' = e ∨ (e' = { e with
      purposes := none, retireAt := some (printed (now + seconds settings.verificationGrace)) }
      ∧ e.retireAt = none ∧ e.prepublished = false ∧ ∀ ps, e.purposes = some ps → .idToken ∉ ps) := by
  obtain ⟨purposes, hpurposes, h⟩ := of_bind h
  have hentry := purposes_of_ok hpurposes
  cases purposes with
  | none => exact .inl (Except.ok.inj h).symm
  | some ps =>
    dsimp only at h
    cases hshape with
    | general hnone => cases hentry.symm.trans hnone
    | protocol hall =>
      cases hentry.symm.trans hall
      exact .inl (Except.ok.inj h).symm
    | openid4vc hall hpublished hcurrent =>
      obtain ⟨ps', hps', hall⟩ := hall
      cases hentry.symm.trans hps'
      have hrest : ps.filter (fun p => !p.isOpenid4vc) = [] :=
        List.filter_eq_nil_iff.mpr fun p hp => by simp [hall p hp]
      rw [hrest] at h
      split_ifs at h with hlength hempty
      · exact .inl (Except.ok.inj h).symm
      · refine .inr ⟨(Except.ok.inj h).symm, hcurrent, hpublished, fun ps' hps' => ?_⟩
        cases hentry.symm.trans hps'
        exact openid4vc_not_idToken hall
      · exact absurd rfl hempty

/-- What the commit of a new key does to the other entries. -/
structure Dropped (e e' : KeyEntry) : Prop where
  kept : Kept e e'
  shape : Shape e'
  protocol : ∀ alg, (isProtocolKey alg e').toOption = some true ↔ (isProtocolKey alg e).toOption = some true
  prepublished : e'.prepublished = e.prepublished

theorem dropped_of_shape (hshape : Shape e) (h : dropOpenid4vc settings now e = .ok e') : Dropped e e' := by
  rcases dropOpenid4vc_of_shape hshape h with rfl | ⟨rfl, hcurrent, hpublished, hnot⟩
  · exact ⟨Kept.refl _, hshape, fun _ => Iff.rfl, rfl⟩
  refine ⟨⟨rfl, rfl, rfl, rfl, fun hsome => ?_⟩, .general rfl hpublished, fun alg => ?_, rfl⟩
  · rw [hcurrent] at hsome
    cases hsome
  · exact iff_of_false (not_protocol fun ps hps => (by cases hps)) (not_protocol hnot)

theorem dropped_of_mapM (hshape : ∀ e ∈ keys, Shape e)
    (h : keys.mapM (dropOpenid4vc settings now) = .ok keys') : List.Forall₂ Dropped keys keys' := by
  have hforall := mapM_eq_ok h
  clear h
  induction hforall with
  | nil => exact .nil
  | cons hab _ ih =>
    exact .cons (dropped_of_shape (hshape _ (.head _)) hab) (ih fun e he => hshape e (.tail _ he))

theorem countP_of_dropped (h : List.Forall₂ Dropped keys keys') (alg : Algorithm) :
    keys'.countP (isCurrentProtocolKey alg) = keys.countP (isCurrentProtocolKey alg)
      ∧ keys'.countP (isPendingProtocolKey alg) = keys.countP (isPendingProtocolKey alg) := by
  induction h with
  | nil => exact ⟨rfl, rfl⟩
  | @cons e e' _ _ hab _ ih =>
    have hprotocol : decide ((isProtocolKey alg e').toOption = some true)
        = decide ((isProtocolKey alg e).toOption = some true) :=
      decide_eq_decide.mpr (hab.protocol alg)
    rw [List.countP_cons, List.countP_cons, List.countP_cons, List.countP_cons, ih.1, ih.2]
    unfold isCurrentProtocolKey isPendingProtocolKey
    rw [hprotocol, hab.prepublished]
    exact ⟨rfl, rfl⟩

variable {material : Openid4vcMaterial} {newKey : Option (Option (List UInt8))}

theorem commit_eq_ok
    (h : commitMaterial crypto settings now material newKey payload = .ok payload') : ∃ keys, (match newKey with
      | none => keys = payload.keys
      | some key => replaceOpenid4vcKey crypto settings now material.signingKid key payload.keys = .ok keys)
        ∧ payload' = { payload with keys := keys, openid4vc := some material } := by
  cases newKey with
  | none => exact ⟨_, rfl, (Except.ok.inj h).symm⟩
  | some =>
    obtain ⟨keys, hkeys, h⟩ := of_bind h
    exact ⟨keys, hkeys, (Except.ok.inj h).symm⟩

theorem extends_of_commit (hsound : SoundPayload crypto t payload)
    (h : commitMaterial crypto settings now material newKey payload = .ok payload') :
    Extends crypto payload payload' := by
  obtain ⟨keys, hkeys, rfl⟩ := commit_eq_ok h
  have hrecipients : ∀ kid createdAt retireAt, StoresRecipient crypto payload kid createdAt retireAt →
      ∃ retireAt', StoresRecipient crypto { payload with keys := keys, openid4vc := some material } kid
      createdAt retireAt'
        ∧ (retireAt.isSome → retireAt' = retireAt) := fun _ _ retireAt hstores => ⟨retireAt, hstores, fun _ => rfl⟩
  cases newKey with
  | none =>
    obtain rfl : keys = payload.keys := hkeys
    exact ⟨⟨fun e he => ⟨e, he, Kept.refl e⟩, hrecipients⟩, hsound.shape, hsound.ring,
      ⟨hsound.unambiguous.current, hsound.unambiguous.pending, hsound.unambiguous.recipient⟩⟩
  | some key =>
    change replaceOpenid4vcKey crypto settings now material.signingKid key payload.keys = .ok keys at hkeys
    unfold replaceOpenid4vcKey at hkeys
    split at hkeys
    · cases hkeys
    split at hkeys
    · cases hkeys
    rename_i der
    obtain ⟨jwk, -, hkeys⟩ := of_bind hkeys
    split_ifs at hkeys
    obtain ⟨dropped, hdropped, hkeys⟩ := of_bind hkeys
    cases hkeys
    have hforall := dropped_of_mapM hsound.shape hdropped
    have hnew : ∀ p ∈ [SigningPurpose.credential, .presentationRequest], p.isOpenid4vc = true := by decide
    have hpush := unambiguous_push { payload with keys := dropped, openid4vc := some material }
      (openid4vcEntry material.signingKid jwk der now)
      (fun ps hps => Option.some.inj hps ▸ openid4vc_not_idToken hnew)
      ⟨fun alg => (countP_of_dropped hforall alg).1 ▸ hsound.unambiguous.current alg,
        fun alg => (countP_of_dropped hforall alg).2 ▸ hsound.unambiguous.pending alg,
        hsound.unambiguous.recipient⟩
    refine ⟨⟨fun e he => ?_, hrecipients⟩, fun e he => ?_, hsound.ring, hpush⟩
    · obtain ⟨e', he', hstep⟩ := exists_of_forall₂_left hforall e he
      exact ⟨e', List.mem_append_left _ he', hstep.kept⟩
    rcases List.mem_append.mp he with he | he
    · obtain ⟨e₀, -, hstep⟩ := exists_of_forall₂_right hforall e he
      exact hstep.shape
    · rw [List.mem_singleton.mp he]
      exact .openid4vc ⟨_, rfl, hnew⟩ rfl rfl

theorem extends_of_maintain {activated : List String} (hsound : SoundPayload crypto t payload)
    (h : maintainPayload crypto settings draws now payload = .ok (payload', changed, activated))
    (hsource : preparedSource settings loadedAt record payload' = .ok source) :
    Extends crypto payload payload' := by
  obtain ⟨p, hpass, -, -⟩ := maintain_parts h
  obtain ⟨signer, loaded, hload⟩ := hsound.loads
  have hnodup := (agrees_of_load hload).1
  have hevolves := (stages_of_pass hpass hnodup).evolves
  have hshape := shape_of_evolves hevolves hsound.shape
  have hrecipient := recipient_of_load (loadPayload_iff.mp hload).retained
  obtain ⟨⟨hring, entries, hentries⟩, hkeeps⟩ := encryption_keeps hpass.encryption hsound.ring hrecipient
  refine ⟨⟨fun e he => ?_, hkeeps⟩, hshape, hring, unambiguous_of_source hshape hring hentries hsource⟩
  obtain ⟨e', he', hstep⟩ := hevolves.exists_of_mem he
  exact ⟨e', he', hstep.kept⟩

/-- **A writer extends a sound keyset to a sound keyset.** -/
theorem sound_of_candidate (hsound : SoundPayload crypto t record.payload)
    (h : candidateOf crypto b now loadedAt record request = .ok (some after)) :
    after.revision = record.revision + 1 ∧ Grows crypto record.payload after.payload
      ∧ SoundPayload crypto loadedAt after.payload := by
  obtain ⟨hrevision, hcomputed⟩ := computed_of_candidate h
  obtain ⟨changed, hmutated⟩ := hcomputed.mutated
  have hextends : Extends crypto record.payload after.payload := by
    cases request with
    | maintain =>
      obtain ⟨⟨payload', changed', activated⟩, hmaintained, hmutated⟩ := of_bind hmutated
      cases hmutated
      obtain ⟨source, hsource, -⟩ := of_bind hcomputed.source
      exact extends_of_maintain hsound hmaintained hsource
    | registerLocal => exact extends_of_registerLocal hsound hcomputed.valid hmutated
    | registerExternal => exact extends_of_registerExternal hsound hmutated
    | commitOpenid4vc =>
      obtain ⟨payload', hcommitted, hmutated⟩ := of_bind hmutated
      cases hmutated
      exact extends_of_commit hsound hcommitted
  exact ⟨hrevision, hextends.grows, hextends.shape, hextends.ring, hextends.unambiguous, hcomputed.loads⟩

/-! ## Runs -/

def ended (e : TimedOp × WriteOutcome) : Instant :=
  match e.1.op with
  | .prepare _ _ loadedAt _ => loadedAt
  | _ => e.1.now

/-- The first keys can be used. -/
structure UsableDraws (crypto : Crypto V) (draws : Draws) : Prop where
  active : crypto.usable .rs256 (draws.privateKey none) = true
  protocol : crypto.usable .ps256 (draws.privateKey (some .ps256)) = true
  recipient : (crypto.recipientKid draws.pem).isSome

/-- Every keyset is created with keys that can be used. -/
def Drawn (crypto : Crypto V) (log : List (TimedOp × WriteOutcome)) : Prop :=
  ∀ e ∈ log, ∀ b draws, e.1.op = .create b draws → UsableDraws crypto draws

def stores (e : TimedOp × WriteOutcome) : Bool :=
  match e.2 with
  | .created _ => true
  | .written _ _ => true
  | _ => false

variable {activeKid : String} {signer : Bool} {purposes : Option (List SigningPurpose)}

theorem localEntry_loads {slot : Option Algorithm}
    (h : localEntry crypto draws slot alg createdAt purposes = .ok e)
    (husable : crypto.usable alg (draws.privateKey slot) = true) :
    loadMaterial crypto signer activeKid e = .ok (.local (draws.privateKey slot)) := by
  obtain ⟨jwk, hjwk, h⟩ := of_bind h
  cases h
  unfold loadMaterial
  dsimp only
  rw [hjwk]
  show (if jwk ≠ jwk then _ else _) = _
  rw [if_neg (fun h => h rfl), husable]
  rfl

theorem loadEntry_of_material {handle : KeyHandle} (hpurposes : keyEntryPurposes e = .ok purposes)
    (hretire : e.retireAt = none) (hactive : e.kid = activeKid → e.purposes = none)
    (hmaterial : loadMaterial crypto signer activeKid e = .ok handle) :
    loadEntry crypto signer t activeKid e = .ok (some ⟨e.publicJwk,
      ⟨e.kid, e.alg, purposes.getD (if e.kid = activeKid then allSigningPurposes else []), entryState activeKid e,
        handle⟩, e.retireAt⟩) := by
  refine loadEntry_iff.mpr ⟨purposes, hpurposes, ?_, fun hkid => ⟨hactive hkid, hretire⟩, handle, hmaterial, rfl⟩
  rw [hretire]
  rfl

theorem loadKeys_pair {key key' : StoredVerificationKey}
    (hkey : loadEntry crypto signer t activeKid e = .ok (some key))
    (hkey' : loadEntry crypto signer t activeKid e' = .ok (some key'))
    (hblank : isBlank e.kid = false) (hblank' : isBlank e'.kid = false) (hne : e'.kid ≠ e.kid) :
    loadKeys crypto signer t activeKid [] [e, e'] = .ok [key, key'] := by
  simp only [loadKeys, hblank, hblank', hkey, hkey', List.mem_singleton, hne, if_false]
  rfl

theorem localKid_not_blank (uuid : String) :
    isBlank (localKid .rs256 uuid) = false ∧ isBlank (localKid .ps256 uuid) = false := by
  have hr : isWhiteSpace 'r' = false := by decide
  have hp : isWhiteSpace 'p' = false := by decide
  simp [isBlank, localKid, signingAlgorithmName, hr, hp]

theorem sound_initial (hdraws : UsableDraws crypto draws)
    (h : initialPayload crypto draws now = .ok payload) : SoundPayload crypto now payload := by
  have hnew := (initialPayload_eq_ok h).2
  obtain ⟨active, hactive, h⟩ := of_bind h
  obtain ⟨protocol, hprotocol, h⟩ := of_bind h
  cases h
  have hmaterial : loadMaterial crypto false active.kid active = .ok _ := localEntry_loads hactive hdraws.active
  have hmaterial' : loadMaterial crypto false active.kid protocol = .ok _ :=
    localEntry_loads hprotocol hdraws.protocol
  obtain ⟨jwk, -, hactive⟩ := of_bind hactive
  obtain ⟨jwk', -, hprotocol⟩ := of_bind hprotocol
  cases hactive
  cases hprotocol
  refine ⟨fun e he => (hnew e he).shape, rfl, ?_, ?_⟩
  · have hnot : ∀ alg, (isProtocolKey alg
      ⟨localKid .rs256 (draws.uuid none), .rs256, .localDb, jwk, some (draws.privateKey none), none,
        printed now, none, none, false⟩).toOption ≠ some true := fun alg => not_protocol fun ps hps =>
          (by cases hps)
    refine ⟨fun alg => ?_, fun alg => ?_, Nat.zero_le 1⟩
    · dsimp only
      rw [List.countP_cons_of_neg (by simp [isCurrentProtocolKey, hnot alg])]
      exact List.countP_le_length
    · dsimp only
      rw [List.countP_cons_of_neg (by simp [isPendingProtocolKey, hnot alg])]
      exact List.countP_le_length
  · obtain ⟨recipient, hrecipient⟩ := Option.isSome_iff_exists.mp hdraws.recipient
    have hfirst := loadEntry_of_material (t := now) rfl rfl (fun _ => rfl) hmaterial
    have hsecond := loadEntry_of_material (t := now) (by rfl)
      rfl (fun hkid => absurd hkid.symm (localKid_ne _ _)) hmaterial'
    have hkeys := loadKeys_pair hfirst hsecond (localKid_not_blank _).1 (localKid_not_blank _).2
      (localKid_ne _ _).symm
    exact ⟨false, ⟨none, _, .rs256, .local (draws.privateKey none), _, recipient, [], none⟩, loadPayload_iff.mpr
      ⟨rfl, hrecipient, hkeys, ⟨_, List.find?_cons_of_pos (decide_eq_true rfl), rfl, rfl⟩, rfl, rfl,
        rfl, rfl, rfl⟩⟩

/-! ## The steps of the store -/

/-- What an operation does. -/
inductive WriteEffect (crypto : Crypto V) (store : KeyStore) (op : TimedOp) : KeyStore → WriteOutcome → Prop
  | same (outcome : WriteOutcome) (hstores : stores (op, outcome) = false) :
      WriteEffect crypto store op store outcome
  | created (b : Binding) (draws : Draws) (payload : Payload) (hop : op.op = .create b draws)
      (hnone : store.record = none) (hpayload : initialPayload crypto draws op.now = .ok payload) :
      WriteEffect crypto store op { store with record := some ⟨1, payload, b.currentId⟩ }
      (.created ⟨1, payload, b.currentId⟩)
  | read (writer : Nat) : WriteEffect crypto store op { store with
      seen := update store.seen writer store.record, candidate :=
        update store.candidate writer none } .read
  | cleared (writer : Nat) (outcome : WriteOutcome) (hstores : stores (op, outcome) = false) :
      WriteEffect crypto store op { store with candidate := update store.candidate writer none } outcome
  | prepared (writer : Nat) (b : Binding) (request : WriteRequest) (r candidate : Record)
      (hseen : store.seen writer = some r)
      (hcandidate : candidateOf crypto b op.now (ended (op, .prepared)) r request = .ok (some candidate)) :
      WriteEffect crypto store op
        { store with candidate := update store.candidate writer (some candidate) } .prepared
  | written (writer : Nat) (record seen candidate : Record) (hrecord : store.record = some record)
      (hseen : store.seen writer = some seen)
      (hcandidate : store.candidate writer = some candidate) (hrevision : record.revision = seen.revision) :
      WriteEffect crypto store op { store with
        record := some candidate, candidate := update store.candidate writer none }
          (.written record candidate)
  | conflict (writer : Nat) : WriteEffect crypto store op { store with
      seen := update store.seen writer store.record, candidate :=
        update store.candidate writer none } .conflict

variable {store : KeyStore}

theorem effect_of_write {store' : KeyStore} {op : TimedOp} {outcome : WriteOutcome}
    (h : execWrite crypto store op = (store', outcome)) : WriteEffect crypto store op store' outcome := by
  obtain ⟨now, op⟩ := op
  cases op with
  | create b draws =>
    simp only [execWrite, KeyStore.create] at h
    split at h
    · cases h
      exact .same _ rfl
    rename_i payload hpayload
    split at h
    · cases h
      exact .same _ rfl
    · rename_i hnone
      cases h
      exact .created b draws payload rfl hnone hpayload
  | read writer =>
    cases h
    exact .read writer
  | prepare writer b loadedAt request =>
    simp only [execWrite, KeyStore.prepare] at h
    split at h
    · cases h
      exact .same _ rfl
    rename_i r hseen
    split at h
    · cases h
      exact .cleared writer _ rfl
    · cases h
      exact .cleared writer _ rfl
    · rename_i candidate hcandidate
      cases h
      exact .prepared writer b request r candidate hseen hcandidate
  | swap writer =>
    simp only [execWrite, KeyStore.swap] at h
    split at h
    · rename_i record seen candidate hrecord hseen hcandidate
      split at h
      · rename_i hrevision
        cases h
        exact .written writer record seen candidate hrecord hseen hcandidate hrevision
      · cases h
        rw [← hrecord]
        exact .conflict writer
    · cases h
      exact .same _ rfl

/-- The store between two operations. -/
structure WriterInv (crypto : Crypto V) (log : List (TimedOp × WriteOutcome)) (store : KeyStore) : Prop where
  absent : store.record = none → log.countP stores = 0
  counted : ∀ record, store.record = some record → record.revision = log.countP stores
  sound : ∀ record, store.record = some record → ∃ e ∈ log, SoundPayload crypto (ended e) record.payload
  /-- A record that was read is the stored one, or it has a smaller revision. -/
  seen : ∀ writer r, store.seen writer = some r →
    ∃ record, store.record = some record ∧ (r = record ∨ r.revision < record.revision)
  candidate : ∀ writer c, store.candidate writer = some c → ∃ r, store.seen writer = some r
    ∧ ∃ e ∈ log, ∃ b now request, candidateOf crypto b now (ended e) r request = .ok (some c)

section Steps

variable {log : List (TimedOp × WriteOutcome)} {store store' : KeyStore} {op : TimedOp} {outcome : WriteOutcome}

theorem countP_cons_same (h : stores (op, outcome) = false) :
    ((op, outcome) :: log).countP stores = log.countP stores :=
  List.countP_cons_of_neg (by rw [h]; decide)

theorem countP_cons_stores (h : stores (op, outcome) = true) :
    ((op, outcome) :: log).countP stores = log.countP stores + 1 :=
  List.countP_cons_of_pos h

section

variable (hinv : WriterInv crypto log store)

include hinv

theorem inv_of_same (hstores : stores (op, outcome) = false) (hrecord : store'.record = store.record)
    (hseen : ∀ writer r, store'.seen writer = some r → store.seen writer = some r ∨ store.record = some r)
    (hcandidate : ∀ writer c, store'.candidate writer = some c → ∃ r, store'.seen writer = some r
      ∧ ∃ e ∈ (op, outcome) :: log, ∃ b now request, candidateOf crypto b now (ended e) r request = .ok (some c)) :
    WriterInv crypto ((op, outcome) :: log) store' := by
  refine ⟨fun hnone => ?_, fun record h => ?_, fun record h => ?_, fun writer r h => ?_, hcandidate⟩
  · rw [countP_cons_same hstores]
    exact hinv.absent (hrecord ▸ hnone)
  · rw [countP_cons_same hstores]
    exact hinv.counted record (hrecord ▸ h)
  · obtain ⟨e, he, hsound⟩ := hinv.sound record (hrecord ▸ h)
    exact ⟨e, .tail _ he, hsound⟩
  rw [hrecord]
  rcases hseen writer r h with hold | hnew
  · exact hinv.seen writer r hold
  · exact ⟨r, hnew, .inl rfl⟩

/-- A writer whose candidate is still there has read the record that it was computed from. -/
theorem candidate_of_cleared {e₀ : TimedOp × WriteOutcome} {writer w : Nat} {c : Record}
    (h : update store.candidate writer none w = some c) : w ≠ writer ∧ ∃ r, store.seen w = some r
      ∧ ∃ e ∈ e₀ :: log, ∃ b now request, candidateOf crypto b now (ended e) r request = .ok (some c) := by
  have hw : w ≠ writer := by
    rintro rfl
    simp at h
  rw [Function.update_of_ne hw] at h
  obtain ⟨r, hr, e, he, hcandidate⟩ := hinv.candidate w c h
  exact ⟨hw, r, hr, e, .tail _ he, hcandidate⟩

theorem inv_of_read (hstores : stores (op, outcome) = false) (writer : Nat) :
    WriterInv crypto ((op, outcome) :: log) { store with
      seen := update store.seen writer store.record, candidate :=
        update store.candidate writer none } := by
  refine inv_of_same hinv hstores rfl (fun w r h => ?_) fun w c h => ?_
  · by_cases hw : w = writer
    · subst hw
      exact .inr (by simpa using h)
    · exact .inl (by simpa [Function.update_of_ne hw] using h)
  · obtain ⟨hw, r, hr, hcandidate⟩ := candidate_of_cleared hinv h
    exact ⟨r, by simpa [Function.update_of_ne hw] using hr, hcandidate⟩

/-- The record that a write replaces is the one that the candidate was computed from. -/
theorem sound_of_written {writer : Nat} {record seen candidate : Record}
    (hrecord : store.record = some record) (hseen : store.seen writer = some seen)
    (hcandidate : store.candidate writer = some candidate)
    (hrevision : record.revision = seen.revision) : candidate.revision = record.revision + 1
      ∧ Grows crypto record.payload candidate.payload
      ∧ ∃ e ∈ log, SoundPayload crypto (ended e) candidate.payload := by
  obtain ⟨r, hr, e, he, b, now, request, hcomputed⟩ := hinv.candidate writer candidate hcandidate
  cases hseen.symm.trans hr
  obtain ⟨record', hrecord', hsame⟩ := hinv.seen writer seen hseen
  cases hrecord.symm.trans hrecord'
  rcases hsame with rfl | hlt
  · obtain ⟨_, _, hsound⟩ := hinv.sound seen hrecord
    obtain ⟨hnext, hgrows, hsound'⟩ := sound_of_candidate hsound hcomputed
    exact ⟨hnext, hgrows, e, he, hsound'⟩
  · exact absurd hrevision (Int.ne_of_gt hlt)

theorem writerInv_step (hdrawn : Drawn crypto ((op, outcome) :: log))
    (h : WriteEffect crypto store op store' outcome) : WriterInv crypto ((op, outcome) :: log) store' := by
  cases h with
  | same _ hstores =>
    refine inv_of_same hinv hstores rfl (fun _ _ h => .inl h) fun writer c h => ?_
    obtain ⟨r, hr, e, he, hcandidate⟩ := hinv.candidate writer c h
    exact ⟨r, hr, e, .tail _ he, hcandidate⟩
  | created b draws payload hop hnone hpayload =>
    have hsound := sound_initial (hdrawn _ (.head _) b draws hop) hpayload
    have hended : ended (op, .created ⟨1, payload, b.currentId⟩) = op.now := by simp [ended, hop]
    have hunseen : ∀ writer r, store.seen writer ≠ some r := by
      intro writer r hr
      obtain ⟨record, hrecord, -⟩ := hinv.seen writer r hr
      cases hnone.symm.trans hrecord
    refine ⟨nofun, fun record h => ?_, fun record h => ?_, fun writer r h => absurd h (hunseen writer r), ?_⟩
    · cases h
      rw [countP_cons_stores rfl, hinv.absent hnone]
      rfl
    · cases h
      exact ⟨_, List.mem_cons_self, hended.symm ▸ hsound⟩
    · intro writer c h
      obtain ⟨r, hr, -⟩ := hinv.candidate writer c h
      exact absurd hr (hunseen writer r)
  | read writer => exact inv_of_read hinv rfl writer
  | cleared writer _ hstores =>
    exact inv_of_same hinv hstores rfl (fun _ _ h => .inl h) fun w c h => (candidate_of_cleared hinv h).2
  | prepared writer b request r candidate hseen hcandidate =>
    refine inv_of_same hinv rfl rfl (fun _ _ h => .inl h) fun w c h => ?_
    by_cases hw : w = writer
    · subst hw
      obtain rfl : candidate = c := by simpa using h
      exact ⟨r, hseen, _, List.mem_cons_self, b, op.now, request, hcandidate⟩
    · have h : store.candidate w = some c := by simpa [Function.update_of_ne hw] using h
      obtain ⟨r, hr, e, he, hcandidate⟩ := hinv.candidate w c h
      exact ⟨r, hr, e, .tail _ he, hcandidate⟩
  | written writer record seen candidate hrecord hseen hcandidate hrevision =>
    obtain ⟨hnext, -, e, he, hsound⟩ := sound_of_written hinv hrecord hseen hcandidate hrevision
    refine ⟨nofun, fun record' h => ?_, fun record' h => ?_, fun w r h => ?_,
      fun w c h => (candidate_of_cleared hinv h).2⟩
    · cases h
      rw [countP_cons_stores rfl, hnext, hinv.counted record hrecord]
      rfl
    · cases h
      exact ⟨e, .tail _ he, hsound⟩
    · obtain ⟨record', hrecord', hsame⟩ := hinv.seen w r h
      cases hrecord.symm.trans hrecord'
      have hle : r.revision ≤ record.revision := by
        rcases hsame with rfl | hlt
        · exact Int.le_refl _
        · exact Int.le_of_lt hlt
      exact ⟨candidate, rfl, .inr (hnext ▸ Int.lt_add_one_of_le hle)⟩
  | conflict writer => exact inv_of_read hinv rfl writer

theorem grows_step (h : WriteEffect crypto store op store' outcome) (hrecord : store.record = some record) :
    ∃ record', store'.record = some record' ∧ Grows crypto record.payload record'.payload := by
  cases h with
  | created b draws payload hop hnone => cases hnone.symm.trans hrecord
  | written writer record' seen candidate hrecord' hseen hcandidate hrevision =>
    cases hrecord'.symm.trans hrecord
    exact ⟨candidate, rfl, (sound_of_written hinv hrecord' hseen hcandidate hrevision).2.1⟩
  | _ => exact ⟨record, hrecord, Grows.refl _⟩

end

theorem inv_of_writes (hrun : Run (execWrite crypto) KeyStore.empty log store)
    (hdrawn : Drawn crypto log) : WriterInv crypto log store := by
  refine hrun.invariant (fun e log h e' he' => h e' (.tail _ he')) ?_ ?_ hdrawn
  · refine ⟨fun _ => rfl, fun _ h => ?_, fun _ h => ?_, fun _ _ h => ?_, fun _ _ h => ?_⟩ <;> cases h
  · exact fun log s o s' r _ hdrawn hinv he => writerInv_step hinv hdrawn (effect_of_write he)

theorem grows_of_run {earlier : KeyStore} {newer older : List (TimedOp × WriteOutcome)}
    (hrun : Run (execWrite crypto) KeyStore.empty (newer ++ older) store) (hdrawn : Drawn crypto (newer ++ older))
    (holder : Run (execWrite crypto) KeyStore.empty older earlier) (hrecord : earlier.record = some record) :
    ∃ record', store.record = some record' ∧ Grows crypto record.payload record'.payload := by
  induction newer generalizing store with
  | nil =>
    obtain rfl := hrun.unique holder
    exact ⟨record, hrecord, Grows.refl _⟩
  | cons e newer ih =>
    cases hrun with
    | cons hrun he =>
      have hdrawn : Drawn crypto (newer ++ older) := fun e' he' => hdrawn e' (.tail _ he')
      obtain ⟨record₁, hrecord₁, hgrows⟩ := ih hrun hdrawn
      obtain ⟨record₂, hrecord₂, hgrows'⟩ := grows_step (inv_of_writes hrun hdrawn) (effect_of_write he) hrecord₁
      exact ⟨record₂, hrecord₂, hgrows.trans hgrows'⟩

end Steps

/-! ## The history of a keyset -/

def isGeneralActive (payload : Payload) (e : KeyEntry) : Bool :=
  e.purposes.isNone && entryState payload.activeKid e = .active

/-- A keyset that is stored. -/
structure StoredKeyset (crypto : Crypto V) (t : Instant) (payload : Payload) : Prop where
  active : ∃ e, payload.keys.filter (isGeneralActive payload) = [e] ∧ e.kid = payload.activeKid ∧ e.retireAt = none
  unambiguous : Unambiguous payload
  /-- An active external key needs a signer. -/
  loads : ∀ t' ≥ t, ∀ signer, (signer = true ∨ ∀ e ∈ payload.keys, e.kid = payload.activeKid →
    e.backend = .localDb) → ∃ loaded, loadPayload crypto signer t' payload = .ok loaded
  /-- Who loads it signs with no key that has a retirement. -/
  selects : ∀ signer t' loaded purpose alg selected, loadPayload crypto signer t' payload = .ok loaded →
    loaded.selectedKey purpose alg = some selected → ∀ e ∈ payload.keys, e.kid = selected.kid → e.retireAt = none

theorem generalActive_of_sound (hsound : SoundPayload crypto t payload) :
    ∃ e, payload.keys.filter (isGeneralActive payload) = [e] ∧ e.kid = payload.activeKid ∧ e.retireAt = none := by
  obtain ⟨signer, loaded, hload⟩ := hsound.loads
  obtain ⟨e, he, hkid, hpurposes, hretire⟩ := active_of_load hload
  have hnodup := (agrees_of_load hload).1
  have hpublished : e.prepublished = false := by
    cases hsound.shape e he with
    | general _ hpublished => exact hpublished
    | protocol hsome => cases hsome.symm.trans hpurposes
    | openid4vc hsome =>
      obtain ⟨ps, hps, -⟩ := hsome
      cases hps.symm.trans hpurposes
  refine ⟨e, List.perm_singleton.mp ?_, hkid, hretire⟩
  refine (List.perm_ext_iff_of_nodup (hnodup.of_map.filter _) (List.nodup_singleton e)).mpr fun e' => ?_
  rw [List.mem_filter, List.mem_singleton]
  constructor
  · rintro ⟨he', hactive⟩
    have hkid' : e'.kid = payload.activeKid := by
      simp only [isGeneralActive, Bool.and_eq_true, Option.isNone_iff_eq_none, decide_eq_true_eq] at hactive
      obtain ⟨hnone, hstate⟩ := hactive
      unfold entryState at hstate
      split_ifs at hstate with hretired hpre hkid
      simpa [hnone] using hkid
    exact eq_of_kid hnodup he' he (hkid'.trans hkid.symm)
  · rintro rfl
    refine ⟨he, ?_⟩
    simp [isGeneralActive, entryState, hpurposes, hretire, hpublished, hkid]

theorem stored_of_sound (hpublic : PublicOnly crypto) (hsound : SoundPayload crypto t payload) :
    StoredKeyset crypto t payload := by
  obtain ⟨signer, loaded, hload⟩ := hsound.loads
  refine ⟨generalActive_of_sound hsound, hsound.unambiguous, fun t' ht' signer' hsigner => ?_, ?_⟩
  · refine loads_later hpublic ht' (fun e he => ?_) hload
    rcases hsigner with hsigner | hlocal
    · exact .inr (.inl hsigner)
    · exact .inr (.inr (hlocal e he))
  · intro signer' t' loaded' purpose alg selected hload' hselected e he hkid
    obtain ⟨e', he', hkid', hretire⟩ := selected_not_retired hload' hselected
    obtain rfl := eq_of_kid (agrees_of_load hload').1 he he' (hkid.trans hkid'.symm)
    exact hretire

/-- What holds after any operations of the writers. -/
structure KeysetHistory (crypto : Crypto V) (log : List (TimedOp × WriteOutcome)) (store : KeyStore) : Prop where
  /-- The revision is the number of writes. -/
  revision : ∀ record, store.record = some record → record.revision = log.countP stores
  written : ∀ op before after, (op, .written before after) ∈ log → after.revision = before.revision + 1
  stored : ∀ record, store.record = some record → ∀ t, (∀ e ∈ log, ended e ≤ t) →
    StoredKeyset crypto t record.payload
  grows : ∀ newer older earlier record, log = newer ++ older →
    Run (execWrite crypto) KeyStore.empty older earlier →
    earlier.record = some record → ∃ record', store.record = some record'
      ∧ Grows crypto record.payload record'.payload

theorem written_of_run {log : List (TimedOp × WriteOutcome)}
    (hrun : Run (execWrite crypto) KeyStore.empty log store) (hdrawn : Drawn crypto log) :
    ∀ op before after, (op, .written before after) ∈ log → after.revision = before.revision + 1 := by
  induction hrun with
  | nil => simp
  | @cons log _ _ _ _ hrun he ih =>
    have hrest : Drawn crypto log := fun e' he' => hdrawn e' (.tail _ he')
    intro op before after hmem
    rcases List.mem_cons.mp hmem with heq | hmem
    · cases heq
      cases effect_of_write he with
      | same _ hstores | cleared _ _ hstores => cases hstores
      | written writer record seen candidate hrecord hseen hcandidate hrevision =>
        exact (sound_of_written (inv_of_writes hrun hrest) hrecord hseen hcandidate hrevision).1
    · exact ih hrest op before after hmem

/-- **The history of a keyset.** -/
theorem keyset_history {log : List (TimedOp × WriteOutcome)} {store : KeyStore} (hpublic : PublicOnly crypto)
    (hrun : Run (execWrite crypto) KeyStore.empty log store) (hdrawn : Drawn crypto log) :
    KeysetHistory crypto log store := by
  have hinv := inv_of_writes hrun hdrawn
  refine ⟨hinv.counted, written_of_run hrun hdrawn, fun record hrecord t ht => ?_, ?_⟩
  · obtain ⟨e, he, hsound⟩ := hinv.sound record hrecord
    have hstored := stored_of_sound hpublic hsound
    exact ⟨hstored.active, hstored.unambiguous, fun t' ht' => hstored.loads t' (Int.le_trans (ht e he) ht'),
      hstored.selects⟩
  · rintro newer older earlier record rfl holder hrecord
    exact grows_of_run hrun hdrawn holder hrecord

/-! Two writers read the first record. One registers a key for credentials; the other one has lost,
computes again and registers a key of an external signer. -/

def credentialKey : LocalKeyRegistration := ⟨.es256, [.credential], by decide⟩

def externalKey : ExternalKeyRegistration := ⟨"external", .rs256, "slot-1", plainJwk "external"⟩

def twoWriters : List TimedOp :=
  [⟨0, .create plainBinding (draw 0 0)⟩,
   ⟨seconds 1, .read 1⟩,
   ⟨seconds 1, .read 2⟩,
   ⟨seconds 2, .prepare 1 plainBinding (seconds 2) (.registerLocal credentialKey (draw 1 2))⟩,
   ⟨seconds 3, .prepare 2 plainBinding (seconds 3) (.registerExternal externalKey)⟩,
   ⟨seconds 4, .swap 1⟩,
   ⟨seconds 4, .swap 2⟩,
   ⟨seconds 5, .prepare 2 plainBinding (seconds 5) (.registerExternal externalKey)⟩,
   ⟨seconds 6, .swap 2⟩]

def writersRun : List (TimedOp × WriteOutcome) × KeyStore :=
  execAll (execWrite plainCrypto) KeyStore.empty [] twoWriters

theorem keyset_history_twoWriters : ∃ record, writersRun.2.record = some record ∧ record.revision = 3
    ∧ kids record.payload.keys = ["rs256-successor-0", "ps256-PS256-0", "es256-successor-1", "external"]
    ∧ StoredKeyset plainCrypto (seconds 6) record.payload := by
  have hpublic : PublicOnly plainCrypto := by
    intro alg der members hmembers m hm
    cases hmembers
    obtain rfl := List.mem_singleton.mp hm
    decide
  have hdrawn : Drawn plainCrypto writersRun.1 := fun e _ b draws _ => ⟨rfl, rfl, rfl⟩
  have hhistory := keyset_history hpublic (run_execAll KeyStore.empty twoWriters) hdrawn
  obtain ⟨record, hrecord⟩ : ∃ record, writersRun.2.record = some record :=
    Option.isSome_iff_exists.mp (by decide +kernel)
  have hkids : writersRun.2.record.map (fun record => kids record.payload.keys)
      = some ["rs256-successor-0", "ps256-PS256-0", "es256-successor-1", "external"] := by decide +kernel
  rw [hrecord] at hkids
  refine ⟨record, hrecord, ?_, Option.some.inj hkids, hhistory.stored record hrecord _ (by decide +kernel)⟩
  have hcount : writersRun.1.countP stores = 3 := by decide +kernel
  exact (hhistory.revision record hrecord).trans (congrArg Int.ofNat hcount)

end NazoAuth.Keys
