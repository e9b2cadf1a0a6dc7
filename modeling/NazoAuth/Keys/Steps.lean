import NazoAuth.Keys.Generation
import Mathlib.Data.List.Nodup

/-!
# Signing keys — what a pass does

A part of a pass does nothing, adds a key or makes one active (`Part`); from this come what a pass
does to the entries (`Stages.evolves`), that a pass that reports no change makes none
(`maintain_unchanged`), and that a key becomes active after its prepublication window
(`activated_of_pass`). A keyset that loads has distinct identifiers, and what is loaded agrees with
it (`agrees_of_load`).
-/

namespace NazoAuth.Keys

open Lib

variable {V : Type} {crypto : Crypto V} {settings : KeySettings} {draws : Draws} {now : Instant}
  {payload payload' : Payload} {keys : List KeyEntry} {active entry : KeyEntry} {alg : Algorithm}
  {m : Maintained}

/-! ## Entries -/

/-- The entries that the writers make. -/
inductive Shape (e : KeyEntry) : Prop
  | general (purposes : e.purposes = none) (published : e.prepublished = false)
  | protocol (purposes : e.purposes = some protocolSigningPurposes) (alg : e.alg = .rs256 ∨ e.alg = .ps256)
  | openid4vc (purposes : ∃ ps, e.purposes = some ps ∧ ∀ p ∈ ps, p.isOpenid4vc = true)
      (published : e.prepublished = false) (current : e.retireAt = none)

variable {e e' : KeyEntry}

/-- A change that keeps the purposes, and that does not retire an OpenID4VC key, keeps the shape. -/
theorem Shape.step (hpurposes : e'.purposes = e.purposes) (halg : e'.alg = e.alg)
    (hpublished : e.prepublished = false → e'.prepublished = false)
    (hretire : (e.retireAt = none → e'.retireAt = none) ∨ ∀ ps, e.purposes = some ps → .idToken ∈ ps)
    (h : Shape e) : Shape e' := by
  cases h with
  | general hnone hfalse => exact .general (hpurposes.trans hnone) (hpublished hfalse)
  | protocol hsome hprotocol => exact .protocol (hpurposes.trans hsome) (halg ▸ hprotocol)
  | openid4vc hsome hfalse hcurrent =>
    obtain ⟨ps, hps, hall⟩ := hsome
    refine .openid4vc ⟨ps, hpurposes.trans hps, hall⟩ (hpublished hfalse) ?_
    rcases hretire with hretire | hid
    · exact hretire hcurrent
    · cases hall _ (hid ps hps)

/-- What a pass at some instant may do to an entry: a key that is not retired may get its
retirement. -/
structure EntryStep (settings : KeySettings) (now : Instant) (e e' : KeyEntry) : Prop where
  kid : e'.kid = e.kid
  alg : e'.alg = e.alg
  publicJwk : e'.publicJwk = e.publicJwk
  createdAt : e'.createdAt = e.createdAt
  retireAt : e'.retireAt = e.retireAt ∨ e.retireAt = none ∧ e'.retireAt = some (printed (retirement settings now))
  shape : Shape e → Shape e'

theorem EntryStep.refl (e : KeyEntry) : EntryStep settings now e e := ⟨rfl, rfl, rfl, rfl, .inl rfl, fun h => h⟩

theorem EntryStep.retired {e e' : KeyEntry} {r : Instant} (h : EntryStep settings now e e')
    (hr : e.retireAt = some r) : e'.retireAt = some r := by
  rcases h.retireAt with hsame | ⟨hnone, -⟩
  · exact hsame.trans hr
  · cases hnone.symm.trans hr

theorem EntryStep.trans (a b c : KeyEntry) (h : EntryStep settings now a b)
    (h' : EntryStep settings now b c) : EntryStep settings now a c := by
  refine ⟨h'.kid.trans h.kid, h'.alg.trans h.alg, h'.publicJwk.trans h.publicJwk, h'.createdAt.trans h.createdAt,
    ?_, fun hshape => h'.shape (h.shape hshape)⟩
  rcases h'.retireAt with hsame | ⟨hnone, hset⟩
  · rw [hsame]
    exact h.retireAt
  · rcases h.retireAt with hsame | ⟨-, hset'⟩
    · exact .inr ⟨hsame ▸ hnone, hset⟩
    · simp [hset'] at hnone

structure IsNew (now : Instant) (e : KeyEntry) : Prop where
  createdAt : e.createdAt = printed now
  shape : Shape e

theorem IsNew.step (a b : KeyEntry) (h : IsNew now a) (h' : EntryStep settings now a b) : IsNew now b :=
  ⟨h'.createdAt.trans h.createdAt, h'.shape h.shape⟩

abbrev KeysEvolve (settings : KeySettings) (now : Instant) : List KeyEntry → List KeyEntry → Prop :=
  Evolves (EntryStep settings now) (IsNew now)

theorem KeysEvolve.refl (keys : List KeyEntry) : KeysEvolve settings now keys keys :=
  Evolves.refl EntryStep.refl keys

theorem KeysEvolve.trans {keys' keys'' : List KeyEntry} (h : KeysEvolve settings now keys keys')
    (h' : KeysEvolve settings now keys' keys'') :
    KeysEvolve settings now keys keys'' := Evolves.trans EntryStep.trans IsNew.step h h'

variable {purposes : Option (List SigningPurpose)}

theorem localEntry_eq_ok {slot : Option Algorithm} {createdAt : Instant}
    (h : localEntry crypto draws slot alg createdAt purposes = .ok entry) :
    entry.createdAt = createdAt ∧ entry.prepublished = false ∧ entry.alg = alg ∧ entry.purposes = purposes := by
  obtain ⟨jwk, -, h⟩ := of_bind h
  cases h
  exact ⟨rfl, rfl, rfl, rfl⟩

theorem purposes_of_ok (h : keyEntryPurposes e = .ok purposes) : e.purposes = purposes := by
  unfold keyEntryPurposes at h
  split at h
  · rename_i hentry
    exact hentry.trans (Except.ok.inj h)
  · cases h
  · rename_i hentry
    split_ifs at h
    exact hentry.trans (Except.ok.inj h)

theorem upgradePurposes_eq_ok (h : upgradePurposes e = .ok e') :
    e' = e ∨ e' = { e with purposes := some protocolSigningPurposes } := by
  unfold upgradePurposes at h
  split_ifs at h with hlocal
  · exact .inl (Except.ok.inj h).symm
  obtain ⟨purposes, -, h⟩ := of_bind h
  split_ifs at h
  · exact .inr (Except.ok.inj h).symm
  · exact .inl (Except.ok.inj h).symm

theorem upgrade_of_shape (h : Shape e) (hup : upgradePurposes e = .ok e') : e' = e := by
  unfold upgradePurposes at hup
  split_ifs at hup
  · exact (Except.ok.inj hup).symm
  obtain ⟨purposes, hpurposes, hup⟩ := of_bind hup
  split_ifs at hup with hprevious
  · -- no writer makes a key with the purposes of before
    exfalso
    obtain ⟨ps, rfl, hps⟩ := (Option.any_eq_true _ _).mp hprevious
    have hentry : e.purposes = some ps := purposes_of_ok hpurposes
    cases h with
    | general hnone => cases hentry.symm.trans hnone
    | protocol hall =>
      cases hentry.symm.trans hall
      revert hps
      decide
    | openid4vc hall =>
      obtain ⟨ps', hps', hall⟩ := hall
      cases hentry.symm.trans hps'
      have hcontains := List.all_eq_true.mp (Bool.and_eq_true _ _ ▸ hps).2 .idToken (by decide)
      cases hall _ (List.contains_iff_mem.mp hcontains)
  · exact (Except.ok.inj hup).symm

theorem EntryStep.upgrade (e e' : KeyEntry) (h : upgradePurposes e = .ok e') : EntryStep settings now e e' := by
  have hsame : Shape e → e' = e := fun hshape => upgrade_of_shape hshape h
  rcases upgradePurposes_eq_ok h with rfl | rfl
  · exact EntryStep.refl _
  · exact ⟨rfl, rfl, rfl, rfl, .inl rfl, fun hshape => (hsame hshape).symm ▸ hshape⟩

theorem retireAt_upgrade (h : upgradePurposes e = .ok e') : e'.kid = e.kid ∧ e'.retireAt = e.retireAt := by
  rcases upgradePurposes_eq_ok h with rfl | rfl
  · exact ⟨rfl, rfl⟩
  · exact ⟨rfl, rfl⟩

/-- The upgrade of a key with every purpose leaves it none, or the purposes of protocol keys. -/
theorem idToken_upgrade (h : upgradePurposes e = .ok e') (hnone : e.purposes = none) :
    ∀ ps, e'.purposes = some ps → .idToken ∈ ps := by
  rcases upgradePurposes_eq_ok h with rfl | rfl
  · simp [hnone]
  · rintro ps ⟨⟩
    decide

theorem EntryStep.dropPrivate (activeKid : String) (e : KeyEntry) :
    EntryStep settings now e (dropPrivate activeKid now e) := by
  unfold Keys.dropPrivate
  split_ifs
  · exact ⟨rfl, rfl, rfl, rfl, .inl rfl, Shape.step rfl rfl (fun h => h) (.inl fun h => h)⟩
  · exact EntryStep.refl e

/-! ## Identifiers -/

def kids (keys : List KeyEntry) : List String := keys.map (·.kid)

variable {f : KeyEntry → KeyEntry}

theorem kids_map (hf : ∀ e, (f e).kid = e.kid) (keys : List KeyEntry) : kids (keys.map f) = kids keys := by
  unfold kids
  rw [List.map_map]
  exact List.map_congr_left fun e _ => hf e

theorem kids_modify (hf : ∀ e, (f e).kid = e.kid) (keys : List KeyEntry) (i : Nat) :
    kids (keys.modify i f) = kids keys := by
  induction keys generalizing i with
  | nil => cases i <;> rfl
  | cons e keys ih =>
    cases i with
    | zero => exact congrArg (· :: kids keys) (hf e)
    | succ i => exact congrArg (e.kid :: ·) (ih i)

theorem kids_upgrade {upgraded : List KeyEntry} (h : keys.mapM upgradePurposes = .ok upgraded) :
    kids upgraded = kids keys := by
  have hforall := mapM_eq_ok h
  clear h
  induction hforall with
  | nil => rfl
  | cons hab _ ih =>
    rcases upgradePurposes_eq_ok hab with rfl | rfl
    · exact congrArg (List.cons _) ih
    · exact congrArg (List.cons _) ih

theorem kids_activate (oldKid newKid : String) (retireAt : Instant) :
    kids (activate keys oldKid newKid retireAt) = kids keys := by
  refine kids_map (fun e => ?_) keys
  unfold activateEntry
  split_ifs <;> rfl

variable {activeKid kid : String}

theorem eq_of_kid (hnodup : (kids keys).Nodup) (he : e ∈ keys) (he' : e' ∈ keys)
    (hkid : e.kid = e'.kid) : e = e' :=
  List.inj_on_of_nodup_map hnodup he he' hkid

theorem candidate_at {allowLocal : Bool} {found : KeyEntry × Nat}
    (h : prepublishedCandidate keys activeKid alg allowLocal = some found) :
    keys[found.2]? = some found.1 ∧ isCandidate activeKid alg allowLocal found.1 = true := by
  revert h
  refine List.foldlRecOn (motive := fun selected => selected = some found →
    keys[found.2]? = some found.1 ∧ isCandidate activeKid alg allowLocal found.1 = true) _ _
      (fun h => by cases h) ?_
  rintro selected ih ⟨e, i⟩ hmem h
  have hat : keys[i]? = some e := List.mk_mem_zipIdx_iff_getElem?.mp hmem
  by_cases hcandidate : isCandidate activeKid alg allowLocal e = true
  · rw [if_neg (by simpa using hcandidate)] at h
    split at h
    · cases h
      exact ⟨hat, hcandidate⟩
    split_ifs at h
    · cases h
      exact ⟨hat, hcandidate⟩
    · exact ih h
  · rw [if_pos (by simpa using hcandidate)] at h
    exact ih h

theorem activate_step {old next : KeyEntry} (hnodup : (kids keys).Nodup) (hold : old ∈ keys) (hnext : next ∈ keys)
    (hretire : old.retireAt = none) (hid : ∀ ps, old.purposes = some ps → .idToken ∈ ps)
    (hretire' : next.retireAt = none) (he : e ∈ keys) :
    EntryStep settings now e (activateEntry old.kid next.kid (retirement settings now) e) := by
  unfold activateEntry
  split_ifs with hkid hkid'
  · obtain rfl := eq_of_kid hnodup he hold hkid
    exact ⟨rfl, rfl, rfl, rfl, .inr ⟨hretire, rfl⟩, Shape.step rfl rfl (fun h => h) (.inr hid)⟩
  · obtain rfl := eq_of_kid hnodup he hnext hkid'
    exact ⟨rfl, rfl, rfl, rfl, .inl hretire'.symm, Shape.step rfl rfl (fun h => h) (.inl fun _ => rfl)⟩
  · exact EntryStep.refl e

/-! ## The parts of a pass -/

/-- What a part of a pass does: nothing, or a key is added, or one becomes active that was published
for long enough. The active key is found by its identifier, so that the rotation needs identifiers
that are distinct. -/
inductive Part (settings : KeySettings) (now : Instant) (distinct : Prop) (keys : List KeyEntry) :
    Maintained → Prop
  | same : Part settings now distinct keys ⟨keys, false, []⟩
  | pushed (entry : KeyEntry) (hnew : IsNew now entry) :
      Part settings now distinct keys ⟨keys ++ [entry], true, []⟩
  | activated (next : KeyEntry) (after : List KeyEntry) (hmem : next ∈ keys)
      (hage : next.createdAt + seconds settings.prepublishWindow ≤ now) (hkids : kids after = kids keys)
      (hevolves : distinct → KeysEvolve settings now keys after) : Part settings now distinct keys
      ⟨after, true, [next.kid]⟩

namespace Part

variable {distinct : Prop} (h : Part settings now distinct keys m)
include h

theorem prefix_kids : kids keys <+: kids m.keys := by
  cases h with
  | same => exact List.prefix_refl _
  | pushed entry => exact ⟨[entry.kid], by simp [kids]⟩
  | activated next after _ _ hkids => exact hkids ▸ List.prefix_refl _

theorem unchanged (hchanged : m.changed = false) : m.keys = keys ∧ m.activated = [] := by
  cases h with
  | same => exact ⟨rfl, rfl⟩
  | pushed | activated => cases hchanged

theorem evolves (hdistinct : distinct) : KeysEvolve settings now keys m.keys := by
  cases h with
  | same => exact KeysEvolve.refl keys
  | pushed entry hnew => exact Evolves.push EntryStep.refl hnew
  | activated next after _ _ _ hevolves => exact hevolves hdistinct

theorem aged (hkid : kid ∈ m.activated) : ∃ e ∈ keys, e.kid = kid
      ∧ e.createdAt + seconds settings.prepublishWindow ≤ now := by
  cases h with
  | same | pushed => cases hkid
  | activated next after hmem hage => exact ⟨next, hmem, (List.mem_singleton.mp hkid).symm, hage⟩

end Part

theorem part_of_rotate {allowLocal : Bool} (hupgraded : payload.keys.mapM upgradePurposes = .ok keys)
    (hmem : active ∈ payload.keys) (hpurposes : active.purposes = none)
    (hretire : active.retireAt = none) (h : rotate crypto settings draws now active
      ((prepublishedCandidate payload.keys activeKid alg allowLocal).map (·.2)) keys = .ok m) :
    Part settings now (kids keys).Nodup keys m := by
  have hpublish : publishSuccessor crypto draws now active keys = .ok m →
      Part settings now (kids keys).Nodup keys m := by
    intro h
    obtain ⟨entry, hentry, h⟩ := of_bind h
    obtain ⟨hcreated, hpublished, -, hnone⟩ := localEntry_eq_ok hentry
    cases h
    exact .pushed entry ⟨hcreated, .general hnone hpublished⟩
  unfold rotate at h
  by_cases hdue : active.createdAt + seconds settings.rotationInterval ≤ now
  · rw [if_pos hdue] at h
    cases hfound : prepublishedCandidate payload.keys activeKid alg allowLocal with
    | none =>
      rw [hfound] at h
      dsimp only [Option.map_none] at h
      split_ifs at h
      · exact hpublish h
      · cases h
        exact .same
    | some found =>
      rw [hfound] at h
      dsimp only [Option.map_some] at h
      split at h
      · rename_i next hat
        split_ifs at h with hwindow
        · cases h
          refine .activated next _ (List.mem_of_getElem? hat) hwindow (kids_activate _ _ _) fun hnodup => ?_
          -- the active key and its successor are not retired before the pass, and the upgrade keeps that
          obtain ⟨active', hactive', hup⟩ := exists_of_forall₂_left (mapM_eq_ok hupgraded) _ hmem
          obtain ⟨hkid, hretire'⟩ := retireAt_upgrade hup
          obtain ⟨hfoundAt, hcandidate⟩ := candidate_at hfound
          obtain ⟨e, he, hupNext⟩ := forall₂_getElem? (mapM_eq_ok hupgraded) hat
          cases hfoundAt.symm.trans he
          have hnext : next.retireAt = none := by
            rw [(retireAt_upgrade hupNext).2]
            simp only [isCandidate, Bool.and_eq_true, Option.isNone_iff_eq_none] at hcandidate
            exact hcandidate.1.1.2
          rw [← hkid]
          exact Evolves.map fun e he => activate_step hnodup hactive' (List.mem_of_getElem? hat)
            (hretire'.trans hretire) (idToken_upgrade hup hpurposes) hnext he
        · cases h
          exact .same
      · cases h
        exact .same
  · rw [if_neg hdue] at h
    split_ifs at h
    · exact hpublish h
    · cases h
      exact .same

def ProtocolAt (keys : List KeyEntry) (alg : Algorithm) (found : Option (KeyEntry × Nat)) : Prop :=
  ∀ e i, found = some (e, i) → keys[i]? = some e ∧ isProtocolKey alg e = .ok true

theorem isProtocolKey_eq_true (h : isProtocolKey alg e = .ok true) :
    e.alg = alg ∧ e.retireAt = none ∧ ∃ purposes, e.purposes = some purposes ∧ .idToken ∈ purposes := by
  unfold isProtocolKey at h
  split_ifs at h with hcond
  · cases h
  simp only [Bool.or_eq_true, decide_eq_true_eq, not_or, Option.not_isSome_iff_eq_none] at hcond
  refine ⟨not_not.mp hcond.1.2, hcond.2, ?_⟩
  obtain ⟨purposes, hpurposes, h⟩ := of_bind h
  obtain ⟨ps, rfl, hall⟩ := (Option.any_eq_true _ _).mp (Except.ok.inj h)
  have hcontains := List.all_eq_true.mp (Bool.and_eq_true _ _ ▸ hall).2 .idToken (by decide)
  exact ⟨ps, purposes_of_ok hpurposes, List.contains_iff_mem.mp hcontains⟩

theorem protocolKeyIndices_eq_ok {found : Option (KeyEntry × Nat) × Option (KeyEntry × Nat)}
    (h : protocolKeyIndices keys alg = .ok found) : ProtocolAt keys alg found.1 ∧ ProtocolAt keys alg found.2 := by
  refine foldlM_invariant (I := fun found => ProtocolAt keys alg found.1 ∧ ProtocolAt keys alg found.2) ?_ ?_ h
  · exact ⟨fun e i he => (by cases he), fun e i he => (by cases he)⟩
  rintro found ⟨e, i⟩ found' hmem ⟨hcurrent, hpending⟩ hstep
  have hat : keys[i]? = some e := List.mk_mem_zipIdx_iff_getElem?.mp hmem
  obtain ⟨is, his, hstep⟩ := of_bind hstep
  split_ifs at hstep with hskip hpre
  · cases hstep
    exact ⟨hcurrent, hpending⟩
  · cases hstep
    refine ⟨hcurrent, fun e' i' he' => ?_⟩
    cases he'
    exact ⟨hat, by rw [his]; simpa using hskip⟩
  · cases hstep
    refine ⟨fun e' i' he' => ?_, hpending⟩
    cases he'
    exact ⟨hat, by rw [his]; simpa using hskip⟩

theorem part_of_protocol (halg : alg = .rs256 ∨ alg = .ps256)
    (h : maintainProtocolKey crypto settings draws now active alg keys = .ok m) :
    Part settings now True keys m := by
  have hadded : ∀ {entry : KeyEntry},
    localEntry crypto draws (some alg) alg (printed now) (some protocolSigningPurposes) = .ok entry →
      ∀ prepublished, IsNew now { entry with prepublished := prepublished } := by
    intro entry hentry prepublished
    obtain ⟨hcreated, -, halg', hpurposes⟩ := localEntry_eq_ok hentry
    exact ⟨hcreated, .protocol hpurposes (halg'.symm ▸ halg)⟩
  obtain ⟨⟨current, pending⟩, hfound, h⟩ := of_bind h
  obtain ⟨hcurrent, hpending⟩ := protocolKeyIndices_eq_ok hfound
  dsimp only at h hcurrent hpending
  cases current with
  | none =>
    dsimp only at h
    split_ifs at h
    · obtain ⟨entry, hentry, h⟩ := of_bind h
      cases h
      exact .pushed entry (hadded hentry entry.prepublished)
    · cases h
      exact .same
  | some current =>
    obtain ⟨current, index⟩ := current
    dsimp only at h
    cases pending with
    | none =>
      dsimp only at h
      split_ifs at h
      · obtain ⟨entry, hentry, h⟩ := of_bind h
        cases h
        exact .pushed _ (hadded hentry true)
      · cases h
        exact .same
    | some pending =>
      obtain ⟨pending, next⟩ := pending
      dsimp only at h
      split_ifs at h with hdue
      · cases h
        obtain ⟨hat, hkey⟩ := hcurrent _ _ rfl
        obtain ⟨hat', -⟩ := hpending _ _ rfl
        have hwindow := of_decide_eq_true (Bool.and_eq_true _ _ ▸ hdue : _ ∧ _).2
        refine .activated pending _ (List.mem_of_getElem? hat') hwindow
          ((kids_modify ?_ _ next).trans (kids_modify ?_ keys index)) fun _ => ?_
        · exact fun _ => rfl
        · exact fun _ => rfl
        have hretired : KeysEvolve settings now keys
            (keys.modify index fun e => { e with retireAt := some (printed (retirement settings now)) }) := by
          refine Evolves.modify EntryStep.refl fun e he => ?_
          cases hat.symm.trans he
          obtain ⟨-, hunretired, ps, hps, hid⟩ := isProtocolKey_eq_true hkey
          refine ⟨rfl, rfl, rfl, rfl, .inr ⟨hunretired, rfl⟩,
            Shape.step rfl rfl (fun h => h) (.inr fun ps' hps' => ?_)⟩
          exact Option.some.inj (hps.symm.trans hps') ▸ hid
        exact hretired.trans (Evolves.modify EntryStep.refl fun e _ =>
          ⟨rfl, rfl, rfl, rfl, .inl rfl, Shape.step rfl rfl (fun _ => rfl) (.inl fun h => h)⟩)
      · cases h
        exact .same

/-! ## A pass -/

/-- The keys after the parts of a pass, and what it reports. -/
structure Parts where
  active : KeyEntry
  upgraded : List KeyEntry
  rotated : Maintained
  first : Maintained
  second : Maintained
  encryption : Bool

def Parts.stored (p : Parts) (payload : Payload) (now : Instant) : List KeyEntry :=
  p.second.keys.map (dropPrivate payload.activeKid now)

structure PassOf {V : Type} (crypto : Crypto V) (settings : KeySettings) (draws : Draws)
    (now : Instant) (payload payload' : Payload) (p : Parts) : Prop where
  mem : p.active ∈ payload.keys
  purposes : p.active.purposes = none
  retireAt : p.active.retireAt = none
  upgraded : payload.keys.mapM upgradePurposes = .ok p.upgraded
  rotated : rotate crypto settings draws now p.active
    ((prepublishedCandidate payload.keys payload.activeKid p.active.alg p.active.isLocal).map (·.2)) p.upgraded
    = .ok p.rotated
  first : maintainProtocolKey crypto settings draws now p.active .rs256 p.rotated.keys = .ok p.first
  second : maintainProtocolKey crypto settings draws now p.active .ps256 p.first.keys = .ok p.second
  encryption : maintainEncryptionKeys crypto settings draws draws.requestObjectNow { payload with
    activeKid := p.rotated.activated.head?.getD payload.activeKid, keys := p.stored payload now }
      = .ok (payload', p.encryption)

variable {activated : List String}

theorem maintain_parts {changed : Bool}
    (h : maintainPayload crypto settings draws now payload = .ok (payload', changed, activated)) :
    ∃ p, PassOf crypto settings draws now payload payload' p
      ∧ changed = (p.encryption || (decide (p.upgraded ≠ payload.keys) || p.rotated.changed
        || (p.first.changed || p.second.changed)
        || decide (p.stored payload now ≠ p.second.keys)))
      ∧ activated = p.rotated.activated ++ (p.first.activated ++ p.second.activated) := by
  unfold maintainPayload at h
  split at h
  · cases h
  rename_i active hactive
  split_ifs at h with hcurrent
  obtain ⟨upgraded, hupgraded, h⟩ := of_bind h
  obtain ⟨rotated, hrotated, h⟩ := of_bind h
  obtain ⟨protocol, hprotocol, h⟩ := of_bind h
  obtain ⟨⟨payload'', encryption⟩, hencryption, h⟩ := of_bind h
  obtain ⟨first, hfirst, hprotocol⟩ := of_bind hprotocol
  obtain ⟨second, hsecond, hprotocol⟩ := of_bind hprotocol
  cases hprotocol
  obtain ⟨rfl, hreport⟩ := Prod.mk.inj (Except.ok.inj h)
  cases hreport
  simp only [Bool.or_eq_true, not_or, Option.not_isSome_iff_eq_none] at hcurrent
  exact ⟨⟨active, upgraded, rotated, first, second, encryption⟩,
    ⟨List.mem_of_find?_eq_some hactive, hcurrent.1, hcurrent.2,
    hupgraded, hrotated, hfirst, hsecond, hencryption⟩, rfl, rfl⟩

theorem encryption_frame {report : Payload × Bool}
    (h : maintainEncryptionKeys crypto settings draws now payload = .ok report) :
    report.1.keys = payload.keys := by
  obtain ⟨⟨ring, migrated⟩, -, h⟩ := of_bind h
  obtain ⟨⟨ring', rotated⟩, -, h⟩ := of_bind h
  cases h
  rfl

theorem rotateRing_unchanged {ring ring' : KeyRing}
    (h : rotateRing crypto settings draws now ring = .ok (ring', false)) : ring' = ring := by
  unfold rotateRing at h
  dsimp only at h
  split at h
  · split at h
    · split_ifs at h
      · split at h
        · cases h
        · cases h
      · exact (Prod.mk.inj (Except.ok.inj h)).1.symm
    · exact (Prod.mk.inj (Except.ok.inj h)).1.symm
  · split_ifs at h
    · split at h
      · cases h
      · cases h
    · exact (Prod.mk.inj (Except.ok.inj h)).1.symm

theorem encryption_unchanged (h : maintainEncryptionKeys crypto settings draws now payload
    = .ok (payload', false)) : payload' = payload := by
  obtain ⟨⟨ring, migrated⟩, hring, h⟩ := of_bind h
  obtain ⟨⟨ring', rotated⟩, hrotate, h⟩ := of_bind h
  obtain ⟨rfl, hflags⟩ := Prod.mk.inj (Except.ok.inj h)
  simp only [Bool.or_eq_false_iff, decide_eq_false_iff_not, not_not] at hflags
  obtain ⟨⟨rfl, rfl⟩, hdropped⟩ := hflags
  obtain rfl := rotateRing_unchanged hrotate
  unfold requestObjectRing at hring
  split at hring
  · cases hring
  · rename_i createdAt entries hcreated hentries
    cases hring
    rw [hdropped, ← hcreated, ← hentries]
  · cases hring

theorem PassOf.part_rotated {p : Parts} (hpass : PassOf crypto settings draws now payload payload' p) :
    Part settings now (kids p.upgraded).Nodup p.upgraded p.rotated :=
  part_of_rotate hpass.upgraded hpass.mem hpass.purposes hpass.retireAt hpass.rotated

/-- **A pass that reports no change makes none.** -/
theorem maintain_unchanged (h : maintainPayload crypto settings draws now payload
    = .ok (payload', false, activated)) : payload' = payload ∧ activated = [] := by
  obtain ⟨p, hpass, hchanged, rfl⟩ := maintain_parts h
  have hflags := hchanged.symm
  simp only [Bool.or_eq_false_iff, decide_eq_false_iff_not, not_not] at hflags
  obtain ⟨hencryption, ⟨⟨hupgraded, hrotated⟩, hfirst, hsecond⟩, hdropped⟩ := hflags
  obtain ⟨hkeys, hactivated⟩ := hpass.part_rotated.unchanged hrotated
  obtain ⟨hkeys1, hactivated1⟩ := (part_of_protocol (.inl rfl) hpass.first).unchanged hfirst
  obtain ⟨hkeys2, hactivated2⟩ := (part_of_protocol (.inr rfl) hpass.second).unchanged hsecond
  have hstored : p.stored payload now = payload.keys := by rw [hdropped, hkeys2, hkeys1, hkeys, hupgraded]
  have hpayload := hpass.encryption
  rw [hencryption, hstored, hactivated] at hpayload
  refine ⟨encryption_unchanged hpayload, ?_⟩
  rw [hactivated, hactivated1, hactivated2]
  rfl

variable {p : Parts}

theorem kids_of_pass (hpass : PassOf crypto settings draws now payload payload' p) :
    kids payload.keys <+: kids payload'.keys := by
  have hstep : ∀ e, EntryStep settings now e (dropPrivate payload.activeKid now e) := EntryStep.dropPrivate _
  have hdropped : kids (p.stored payload now) = kids p.second.keys := kids_map (fun e => (hstep e).kid) _
  rw [encryption_frame hpass.encryption, hdropped, ← kids_upgrade hpass.upgraded]
  exact (hpass.part_rotated.prefix_kids.trans (part_of_protocol (.inl rfl) hpass.first).prefix_kids).trans
    (part_of_protocol (.inr rfl) hpass.second).prefix_kids

/-- What the parts of a pass do to the entries. -/
structure Stages (settings : KeySettings) (now : Instant) (payload payload' : Payload) (p : Parts) : Prop where
  upgraded : KeysEvolve settings now payload.keys p.upgraded
  rotated : KeysEvolve settings now p.upgraded p.rotated.keys
  first : KeysEvolve settings now p.rotated.keys p.first.keys
  second : KeysEvolve settings now p.first.keys p.second.keys
  stored : KeysEvolve settings now p.second.keys payload'.keys

theorem stages_of_pass (hpass : PassOf crypto settings draws now payload payload' p)
    (hnodup : (kids payload.keys).Nodup) : Stages settings now payload payload' p := by
  have hnodup' : (kids p.upgraded).Nodup := (kids_upgrade hpass.upgraded).symm ▸ hnodup
  refine ⟨Evolves.mapM hpass.upgraded EntryStep.upgrade, hpass.part_rotated.evolves hnodup',
    (part_of_protocol (.inl rfl) hpass.first).evolves trivial,
    (part_of_protocol (.inr rfl) hpass.second).evolves trivial, ?_⟩
  rw [encryption_frame hpass.encryption]
  exact Evolves.map fun e _ => EntryStep.dropPrivate _ e

namespace Stages

variable {p : Parts} (h : Stages settings now payload payload' p)
include h

theorem afterFirst : KeysEvolve settings now p.first.keys payload'.keys := h.second.trans h.stored

theorem afterRotated : KeysEvolve settings now p.rotated.keys payload'.keys := h.first.trans h.afterFirst

theorem afterUpgrade : KeysEvolve settings now p.upgraded payload'.keys := h.rotated.trans h.afterRotated

/-- **What a pass does to the entries**, when their identifiers are distinct. -/
theorem evolves : KeysEvolve settings now payload.keys payload'.keys := h.upgraded.trans h.afterUpgrade

end Stages

variable {t : Instant}

theorem aged_of_evolves {keys' : List KeyEntry} (h : KeysEvolve settings now keys keys')
    (hmem : entry ∈ keys) (hage : entry.createdAt + seconds settings.prepublishWindow ≤ t) :
    ∃ e ∈ keys', e.kid = entry.kid ∧ e.createdAt + seconds settings.prepublishWindow ≤ t := by
  obtain ⟨e, he, hstep⟩ := h.exists_of_mem hmem
  refine ⟨e, he, hstep.kid, ?_⟩
  rw [hstep.createdAt]
  exact hage

/-- **A key becomes active after its prepublication window.** -/
theorem activated_of_pass (hpass : PassOf crypto settings draws now payload payload' p)
    (hstages : Stages settings now payload payload' p)
    (hkid : kid ∈ p.rotated.activated ++ (p.first.activated ++ p.second.activated)) :
    ∃ e ∈ payload'.keys, e.kid = kid ∧ e.createdAt + seconds settings.prepublishWindow ≤ now := by
  rcases List.mem_append.mp hkid with hkid | hkid
  · obtain ⟨e, he, rfl, hage⟩ := hpass.part_rotated.aged hkid
    exact aged_of_evolves hstages.afterUpgrade he hage
  · rcases List.mem_append.mp hkid with hkid | hkid
    · obtain ⟨e, he, rfl, hage⟩ := (part_of_protocol (.inl rfl) hpass.first).aged hkid
      exact aged_of_evolves hstages.afterRotated he hage
    · obtain ⟨e, he, rfl, hage⟩ := (part_of_protocol (.inr rfl) hpass.second).aged hkid
      exact aged_of_evolves hstages.afterFirst he hage

/-! ## Loading -/

/-- A loaded key shows an entry as it is. -/
structure Shows (k : StoredVerificationKey) (e : KeyEntry) : Prop where
  kid : k.managed.kid = e.kid
  publicJwk : k.publicJwk = e.publicJwk
  algorithm : k.managed.algorithm = e.alg
  retireAt : k.retireAt = e.retireAt
  active : k.managed.state = .active → k.retireAt = none
  verifies : k.managed.canVerify = true

/-- What is loaded at some instant agrees with the stored keys: each shows an entry, and the others
are retired. -/
structure Agrees (t : Instant) (loaded : List StoredVerificationKey) (keys : List KeyEntry) : Prop where
  shows : ∀ k ∈ loaded, ∃ e ∈ keys, Shows k e
  shown : ∀ e ∈ keys, (∃ k ∈ loaded, Shows k e) ∨ ∃ r, e.retireAt = some r ∧ r ≤ t

variable {loaded : List StoredVerificationKey}

theorem Agrees.mono {t' : Instant} (h : Agrees t loaded keys) (ht : t ≤ t') : Agrees t' loaded keys := by
  refine ⟨h.shows, fun e he => ?_⟩
  rcases h.shown e he with hshown | ⟨r, hr, hle⟩
  · exact .inl hshown
  · exact .inr ⟨r, hr, le_trans hle ht⟩

theorem retireAt_of_active (h : entryState activeKid e = .active) : e.retireAt = none := by
  unfold entryState at h
  split_ifs at h with hretire
  exact Option.not_isSome_iff_eq_none.mp hretire

theorem entryState_verifies (activeKid : String) (e : KeyEntry) :
    entryState activeKid e = .prepublished ∨ entryState activeKid e = .active
      ∨ entryState activeKid e = .grace := by
  unfold entryState
  split_ifs <;> simp

variable {externalSigner : Bool}

def liveAt (t : Instant) (retireAt : Option Instant) : Bool := !(retireAt.any fun r => decide (r ≤ t))

theorem loadEntry_iff {k : Option StoredVerificationKey} :
    loadEntry crypto externalSigner now activeKid entry = .ok k
      ↔ ∃ purposes, keyEntryPurposes entry = .ok purposes ∧ match k with
      | none => liveAt now entry.retireAt = false ∧ entry.kid ≠ activeKid
        ∧ validateExternalPublicJwk entry.kid entry.alg entry.publicJwk = .ok ()
      | some key => liveAt now entry.retireAt = true
        ∧ (entry.kid = activeKid → entry.purposes = none ∧ entry.retireAt = none)
        ∧ ∃ handle, loadMaterial crypto externalSigner activeKid entry = .ok handle
          ∧ key = ⟨entry.publicJwk, ⟨entry.kid, entry.alg,
            purposes.getD (if entry.kid = activeKid then allSigningPurposes else []),
            entryState activeKid entry, handle⟩, entry.retireAt⟩ := by
  unfold loadEntry
  rw [bind_eq_ok]
  refine exists_congr fun purposes => and_congr_right fun _ => ?_
  by_cases hretired : (entry.retireAt.any fun time => decide (time ≤ now)) = true
  · have hlive : liveAt now entry.retireAt = false := by simp only [liveAt, hretired, Bool.not_true]
    dsimp only
    rw [if_pos hretired]
    by_cases hactive : entry.kid = activeKid
    · rw [if_pos hactive]
      cases k with
      | none => simp [hactive]
      | some => simp [hlive]
    · rw [if_neg hactive, bind_eq_ok]
      cases k with
      | none =>
        constructor
        · rintro ⟨⟨⟩, hvalid, -⟩
          exact ⟨hlive, hactive, hvalid⟩
        · rintro ⟨-, -, hvalid⟩
          exact ⟨(), hvalid, rfl⟩
      | some => simp [hlive]
  · have hlive : liveAt now entry.retireAt = true := by simp only [liveAt, hretired, Bool.not_false]
    dsimp only
    rw [if_neg hretired, bind_eq_ok]
    cases k with
    | none =>
      constructor
      · rintro ⟨handle, -, h⟩
        split at h
        · cases h
        · cases h
      · rintro ⟨hdead, -⟩
        cases hlive.symm.trans hdead
    | some key =>
      constructor
      · rintro ⟨handle, hmaterial, h⟩
        split at h
        · cases h
        · rename_i hcurrent
          refine ⟨hlive, fun hactive => ?_, handle, hmaterial, (Option.some.inj (Except.ok.inj h)).symm⟩
          simpa [hactive] using hcurrent
      · rintro ⟨-, hcurrent, handle, hmaterial, rfl⟩
        refine ⟨handle, hmaterial, if_neg ?_⟩
        simp only [Bool.and_eq_true, decide_eq_true_eq, Bool.or_eq_true, not_and, not_or,
          Option.not_isSome_iff_eq_none]
        exact hcurrent

theorem retired_of_entry (h : loadEntry crypto externalSigner now activeKid entry = .ok none) :
    ∃ r, entry.retireAt = some r ∧ r ≤ now := by
  obtain ⟨purposes, -, hdead, -⟩ := loadEntry_iff.mp h
  obtain ⟨r, hr, hle⟩ := (Option.any_eq_true _ _).mp (Bool.not_eq_false' _ ▸ hdead)
  exact ⟨r, hr, of_decide_eq_true hle⟩

theorem shows_of_entry {k : StoredVerificationKey}
    (h : loadEntry crypto externalSigner now activeKid entry = .ok (some k)) : Shows k entry := by
  obtain ⟨purposes, -, -, -, handle, -, rfl⟩ := loadEntry_iff.mp h
  refine ⟨rfl, rfl, rfl, rfl, retireAt_of_active, ?_⟩
  rcases entryState_verifies activeKid entry with hstate | hstate | hstate <;> rw [hstate] <;> rfl

/-- What is loaded, entry by entry. -/
structure LoadedKeys {V : Type} (crypto : Crypto V) (externalSigner : Bool) (now : Instant) (activeKid : String)
    (seen : List String) (keys : List KeyEntry) (loaded : List StoredVerificationKey) : Prop where
  nodup : (kids keys).Nodup
  fresh : ∀ kid ∈ kids keys, kid ∉ seen
  entries : ∀ e ∈ keys, ∃ k, loadEntry crypto externalSigner now activeKid e = .ok k ∧ ∀ key ∈ k, key ∈ loaded
  keys : ∀ k ∈ loaded, ∃ e ∈ keys, loadEntry crypto externalSigner now activeKid e = .ok (some k)

theorem loadKeys_eq_ok {seen : List String}
    (h : loadKeys crypto externalSigner now activeKid seen keys = .ok loaded) :
    LoadedKeys crypto externalSigner now activeKid seen keys loaded := by
  induction keys generalizing seen loaded with
  | nil =>
    cases h
    exact ⟨List.nodup_nil, by simp [kids], fun _ he => absurd he List.not_mem_nil,
      fun _ hk => absurd hk List.not_mem_nil⟩
  | cons e rest ih =>
    unfold loadKeys at h
    split_ifs at h with hblank hseen
    obtain ⟨key, hkey, h⟩ := of_bind h
    obtain ⟨others, hothers, h⟩ := of_bind h
    cases h
    have ih := ih hothers
    refine ⟨List.nodup_cons.mpr ⟨fun hmem => ih.fresh _ hmem (.head _), ih.nodup⟩, fun kid hkid => ?_,
      fun e' he' => ?_, fun k hk => ?_⟩
    · rcases List.mem_cons.mp hkid with rfl | hkid
      · exact hseen
      · exact fun hmem => ih.fresh kid hkid (.tail _ hmem)
    · rcases List.mem_cons.mp he' with rfl | he'
      · exact ⟨key, hkey, fun k hk => List.mem_append_left _ (Option.mem_toList.mpr hk)⟩
      · obtain ⟨k, hk, hmem⟩ := ih.entries e' he'
        exact ⟨k, hk, fun key hkey => List.mem_append_right _ (hmem key hkey)⟩
    · rcases List.mem_append.mp hk with hk | hk
      · exact ⟨e, .head _, Option.mem_toList.mp hk ▸ hkey⟩
      · obtain ⟨e', he', hentry⟩ := ih.keys k hk
        exact ⟨e', .tail _ he', hentry⟩

theorem LoadedKeys.agrees {seen : List String}
    (h : LoadedKeys crypto externalSigner now activeKid seen keys loaded) : Agrees now loaded keys := by
  constructor
  · intro k hk
    obtain ⟨e, he, hentry⟩ := h.keys k hk
    exact ⟨e, he, shows_of_entry hentry⟩
  · intro e he
    obtain ⟨k, hentry, hmem⟩ := h.entries e he
    cases k with
    | none => exact .inr (retired_of_entry hentry)
    | some k => exact .inl ⟨k, hmem k rfl, shows_of_entry hentry⟩

/-- The parts of a keyset that loads. -/
structure LoadedFrom (crypto : Crypto V) (externalSigner : Bool) (now : Instant) (payload : Payload)
    (loaded : LoadedKeyset) : Prop where
  schemaVersion : payload.schemaVersion = keysetSchemaVersion
  recipient : crypto.recipientKid payload.requestObjectPrivatePem = some loaded.requestObjectKid
  keys : loadKeys crypto externalSigner now payload.activeKid [] payload.keys = .ok loaded.verificationKeys
  active : ∃ active, loaded.verificationKeys.find? (fun k => decide (k.managed.kid = payload.activeKid))
    = some active ∧ loaded.activeAlg = active.managed.algorithm ∧ loaded.activeSigningKey = active.managed.handle
  retained : loadRetainedKeys crypto now [] (payload.requestObjectRetainedKeys.getD [])
    = .ok loaded.requestObjectRetainedKids
  activeKid : loaded.activeKid = payload.activeKid
  material : loaded.openid4vcMaterial = payload.openid4vc
  validated : validateOpenid4vcMaterial crypto loaded = .ok ()
  source : loaded.databaseSource = none

theorem loadPayload_iff {loaded : LoadedKeyset} :
    loadPayload crypto externalSigner now payload = .ok loaded
      ↔ LoadedFrom crypto externalSigner now payload loaded := by
  unfold loadPayload
  constructor
  · intro h
    split_ifs at h with hschema
    split at h
    · cases h
    rename_i requestObjectKid hrecipient
    obtain ⟨keys, hkeys, h⟩ := of_bind h
    split at h
    · cases h
    rename_i active hactive
    obtain ⟨retained, hretained, h⟩ := of_bind h
    obtain ⟨⟨⟩, hvalidated, h⟩ := of_bind h
    cases h
    exact ⟨Decidable.not_not.mp hschema, hrecipient, hkeys, ⟨active, hactive, rfl, rfl⟩, hretained, rfl, rfl,
      hvalidated, rfl⟩
  · rintro ⟨hschema, hrecipient, hkeys, ⟨active, hactive, halg, hhandle⟩, hretained, hkid, hmaterial,
      hvalidated, hsource⟩
    rw [if_neg (fun h => h hschema), hrecipient]
    refine bind_eq_ok.mpr ⟨_, hkeys, ?_⟩
    rw [hactive]
    have hsame : ({
        databaseSource := none, activeKid := payload.activeKid, activeAlg := active.managed.algorithm,
        activeSigningKey := active.managed.handle, verificationKeys := loaded.verificationKeys,
        requestObjectKid := loaded.requestObjectKid,
        requestObjectRetainedKids := loaded.requestObjectRetainedKids,
        openid4vcMaterial := payload.openid4vc }) = loaded := by
      rw [← hsource, ← hkid, ← halg, ← hhandle, ← hmaterial]
    refine bind_eq_ok.mpr ⟨_, hretained, bind_eq_ok.mpr ⟨(), ?_, congrArg Except.ok hsame⟩⟩
    rw [hsame]
    exact hvalidated

/-- **A keyset that loads has distinct identifiers, and what is loaded agrees with it.** -/
theorem agrees_of_load {loaded : LoadedKeyset} (h : loadPayload crypto externalSigner now payload = .ok loaded) :
    (kids payload.keys).Nodup ∧ Agrees now loaded.verificationKeys payload.keys := by
  have hkeys := loadKeys_eq_ok (loadPayload_iff.mp h).keys
  exact ⟨hkeys.nodup, hkeys.agrees⟩

end NazoAuth.Keys
