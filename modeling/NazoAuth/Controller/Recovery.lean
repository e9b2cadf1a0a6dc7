import NazoAuth.Controller.Steps
import NazoAuth.Lib.Marker
import Mathlib.Data.Fintype.Card

/-!
# Controllers — break-glass recovery

A recovery is safe: it needs a signature of the root of this moment, over the proposal of its
challenge, and no usable slot. It is final: a recovery key that has been replaced is in the key
history, and no key of the history becomes the root again; a revoked slot stays revoked.

The tables satisfy an invariant (`TablesInv`) that is three unique indices and the key history, and
every change keeps it.
-/

namespace NazoAuth.Controller

open Lib

variable {crypto : ControllerCrypto} {tables tables' : Tables} {allowed : ChallengeEffect → Bool}

/-! ## The invariant -/

def SlotConflict (a b : ControllerSlot) : Prop :=
  a.deploymentId = b.deploymentId ∧ a.status = .active ∧ b.status = .active ∧ a.slotIndex = b.slotIndex

def PendingConflict (a b : RecoveryChallenge) : Prop := a.deploymentId = b.deploymentId
      ∧ a.consumedAt = none ∧ b.consumedAt = none

/-- Two challenges of a deployment with one allocation nonce. -/
def NonceConflict (a b : RecoveryChallenge) : Prop := a.deploymentId = b.deploymentId
      ∧ a.allocationNonce = b.allocationNonce

structure TablesInv (tables : Tables) : Prop where
  slots : tables.slots.Unique SlotConflict
  pending : tables.challenges.Unique PendingConflict
  nonces : tables.challenges.Unique NonceConflict
  /-- The root of a deployment is in its key history. -/
  roots : ∀ d root, tables.roots.find? d = some root → (d, root.recoveryPublicKey) ∈ tables.rootKeys.rows

theorem SlotConflict.symm (a b : ControllerSlot) (h : SlotConflict a b) : SlotConflict b a :=
  ⟨h.1.symm, h.2.2.1, h.2.1, h.2.2.2.symm⟩

theorem slots_of_update (p : ControllerSlot → Bool) (f : ControllerSlot → ControllerSlot)
    (hf : ∀ slot, (f slot).key = slot.key) (hstep : ∀ slot, SlotStep slot (f slot))
    (h : tables.slots.Unique SlotConflict) : (tables.slots.update p f hf).Unique SlotConflict := by
  have hstep' : ∀ slot, SlotStep slot (if p slot then f slot else slot)
      ∧ (if p slot then f slot else slot).deploymentId = slot.deploymentId := by
    intro slot
    split_ifs
    · exact ⟨hstep slot, congrArg Prod.fst (hf slot)⟩
    · exact ⟨SlotStep.refl slot, rfl⟩
  refine Table.unique_update h fun a b hconflict => ?_
  obtain ⟨ha, hda⟩ := hstep' a
  obtain ⟨hb, hdb⟩ := hstep' b
  obtain ⟨hd, hactive, hactive', hindex⟩ := hconflict
  exact ⟨hda.symm.trans (hd.trans hdb), ha.active hactive, hb.active hactive',
    ha.slotIndex.symm.trans (hindex.trans hb.slotIndex)⟩

variable {now : Instant} {row : RecoveryChallenge}

theorem slots_of_insert {slot : NewControllerSlot} {controllerId : String} {stored : ControllerSlot}
    (hinsert : insertSlot tables slot controllerId now = .ok (tables', stored))
    (h : tables.slots.Unique SlotConflict) : tables'.slots.Unique SlotConflict := by
  obtain ⟨⟨slots, hslots, rfl⟩, hindex, hdeployment, -⟩ := insertSlot_eq_ok hinsert
  refine Table.unique_insert? h SlotConflict.symm hslots fun other hother hconflict => ?_
  have hfree := List.find?_some hindex
  have hactive : other ∈ activeSlots tables slot.deploymentId := by
    refine List.mem_filter.mpr ⟨hother, ?_⟩
    simp [ControllerSlot.isActive, ← hconflict.1, hdeployment, hconflict.2.2.1]
  have hused : ((activeSlots tables slot.deploymentId).any fun slot => decide (slot.slotIndex = stored.slotIndex))
      = true :=
    List.any_eq_true.mpr ⟨other, hactive, decide_eq_true hconflict.2.2.2.symm⟩
  rw [hused] at hfree
  cases hfree

theorem challenges_of_update (p : RecoveryChallenge → Bool) (f : RecoveryChallenge → RecoveryChallenge)
    (hf : ∀ row, (f row).challengeId = row.challengeId) (hstep : ∀ row, p row = true → ChallengeStep row (f row))
    (hpending : tables.challenges.Unique PendingConflict) (hnonces : tables.challenges.Unique NonceConflict) :
    (tables.challenges.update p f hf).Unique PendingConflict
      ∧ (tables.challenges.update p f hf).Unique NonceConflict := by
  have hstep' : ∀ row, ChallengeStep row (if p row then f row else row) := by
    intro row
    split_ifs with hp
    · exact hstep row hp
    · exact ChallengeStep.refl row
  have hnone : ∀ row, (if p row then f row else row).consumedAt = none → row.consumedAt = none := by
    intro row hrow
    by_contra hsome
    have hsome' := (hstep' row).consumed (Option.isSome_iff_ne_none.mpr hsome)
    rw [hrow] at hsome'
    cases hsome'
  constructor
  · refine Table.unique_update hpending fun a b hconflict => ?_
    exact ⟨(hstep' a).deploymentId.symm.trans (hconflict.1.trans (hstep' b).deploymentId), hnone a hconflict.2.1,
      hnone b hconflict.2.2⟩
  · refine Table.unique_update hnonces fun a b hconflict => ?_
    exact ⟨(hstep' a).deploymentId.symm.trans (hconflict.1.trans (hstep' b).deploymentId),
      (hstep' a).allocationNonce.symm.trans (hconflict.2.trans (hstep' b).allocationNonce)⟩

/-- A challenge is allocated only if none is pending and its nonce is new. -/
theorem challenges_of_insert {challenges : Table RecoveryChallenge.challengeId}
    (hprior : priorChallenge tables row.deploymentId row.allocationNonce = none)
    (hinsert : tables.challenges.insert? row = some challenges)
    (hpending : tables.challenges.Unique PendingConflict) (hnonces : tables.challenges.Unique NonceConflict) :
    challenges.Unique PendingConflict ∧ challenges.Unique NonceConflict := by
  obtain ⟨hnonce, hnone⟩ := Option.or_eq_none_iff.mp hprior
  constructor
  · refine Table.unique_insert? hpending (fun a b h => ⟨h.1.symm, h.2.2, h.2.1⟩) hinsert
      fun other hother hconflict => ?_
    refine List.find?_eq_none.mp hnone other hother ?_
    simp [RecoveryChallenge.isPending, hconflict.1, hconflict.2.2]
  · refine Table.unique_insert? hnonces (fun a b h => ⟨h.1.symm, h.2.symm⟩) hinsert
      fun other hother hconflict => ?_
    refine List.find?_eq_none.mp hnonce other hother ?_
    simp [hconflict.1, hconflict.2]

theorem inv_of_change (h : Change allowed tables tables') (hinv : TablesInv tables) : TablesInv tables' := by
  cases h with
  | approvals => exact ⟨hinv.slots, hinv.pending, hinv.nonces, hinv.roots⟩
  | slots p f hf hstep => exact ⟨slots_of_update p f hf hstep hinv.slots, hinv.pending, hinv.nonces, hinv.roots⟩
  | insertSlot hinsert =>
    have hslots := slots_of_insert hinsert hinv.slots
    obtain ⟨⟨slots, -, rfl⟩, -⟩ := insertSlot_eq_ok hinsert
    exact ⟨hslots, hinv.pending, hinv.nonces, hinv.roots⟩
  | enroll henroll =>
    obtain ⟨roots, rootKeys, hroots, hkeys, rfl⟩ := enrollInitialRoot_eq_ok henroll
    refine ⟨hinv.slots, hinv.pending, hinv.nonces, fun d root hroot => ?_⟩
    rw [Table.find?_of_insert? hroots] at hroot
    refine (Table.mem_of_insert? hkeys).mpr ?_
    split_ifs at hroot with hd
    · cases hroot
      exact .inl (by rw [hd]; rfl)
    · exact .inr (hinv.roots d root hroot)
  | replace hreplace =>
    obtain ⟨roots, rootKeys, hsets, hkeys, rfl⟩ := replaceRoot_eq_ok hreplace
    obtain ⟨hpending, hnonces⟩ := challenges_of_update _ (fun row => { row with consumedAt := some _ })
      (fun _ => rfl) (fun row _ => ⟨rfl, rfl, rfl, fun _ => rfl⟩) hinv.pending hinv.nonces
    refine ⟨hinv.slots, hpending, hnonces, fun d root hroot => (Table.mem_of_insert? hkeys).mpr ?_⟩
    change roots.find? d = some root at hroot
    rename_i newRoot _ _
    by_cases hd : d = newRoot.deploymentId
    · rw [hd, hsets.self] at hroot
      cases hroot
      exact .inl (by rw [hd, hsets.publicKey])
    · rw [hsets.others d hd] at hroot
      exact .inr (hinv.roots d root hroot)
  | challenges p f hf hstep =>
    obtain ⟨hpending, hnonces⟩ := challenges_of_update p f hf (fun row hp => (hstep row hp).toChallengeStep)
      hinv.pending hinv.nonces
    exact ⟨hinv.slots, hpending, hnonces, hinv.roots⟩
  | allocate row challenges hprior hattempts hreceipt hinsert =>
    obtain ⟨hpending, hnonces⟩ := challenges_of_insert hprior hinsert hinv.pending hinv.nonces
    exact ⟨hinv.slots, hpending, hnonces, hinv.roots⟩
  | attempt attempt =>
    obtain ⟨hpending, hnonces⟩ := challenges_of_update attempt.counts (·.attempted attempt.now) (fun _ => rfl)
      (fun row => attempted_step) hinv.pending hinv.nonces
    exact ⟨hinv.slots, hpending, hnonces, hinv.roots⟩
  | receipt challengeId receipt now =>
    obtain ⟨hpending, hnonces⟩ := challenges_of_update _
      (fun row => { row with consumedAt := some now, receipt := some receipt })
      (fun _ => rfl) (fun row _ => storeReceipt_step receipt now row) hinv.pending hinv.nonces
    exact ⟨hinv.slots, hpending, hnonces, hinv.roots⟩

theorem inv_empty : TablesInv Tables.empty :=
  ⟨fun _ h => absurd h Table.not_mem_empty, fun _ h => absurd h Table.not_mem_empty,
    fun _ h => absurd h Table.not_mem_empty, fun d root h => (by cases h)⟩

/-! ## Finality -/

def StaysRevoked (slot slot' : ControllerSlot) : Prop := slot.status = .revoked → slot'.status = .revoked

theorem revoked_of_change (h : Change allowed tables tables') : tables.slots.Grows StaysRevoked tables'.slots := by
  cases h with
  | slots p f hf hstep =>
    refine Table.grows_update hf (fun _ => id) fun slot hrevoked => ?_
    cases hstatus : (f slot).status with
    | revoked => rfl
    | active => cases ((hstep slot).active hstatus).symm.trans hrevoked
  | insertSlot hinsert =>
    obtain ⟨⟨slots, hslots, rfl⟩, -⟩ := insertSlot_eq_ok hinsert
    exact Table.grows_insert? (fun _ => id) hslots
  | enroll henroll =>
    obtain ⟨roots, rootKeys, -, -, rfl⟩ := enrollInitialRoot_eq_ok henroll
    exact Table.Grows.refl (fun _ => id) _
  | replace hreplace =>
    obtain ⟨roots, rootKeys, -, -, rfl⟩ := replaceRoot_eq_ok hreplace
    exact Table.Grows.refl (fun _ => id) _
  | _ => exact Table.Grows.refl (fun _ => id) _

/-- A key that has been the root and is not any more. -/
structure KeyRetired (d : String) (key : List UInt8) (tables : Tables) : Prop where
  recorded : (d, key) ∈ tables.rootKeys.rows
  unused : ∀ root, tables.roots.find? d = some root → root.recoveryPublicKey ≠ key

/-- The key history grows, and the root of a deployment stays or gets a key that is not in the
history. -/
structure RootStep (tables tables' : Tables) : Prop where
  rootKeys : tables.rootKeys.rows ⊆ tables'.rootKeys.rows
  roots : ∀ d root', tables'.roots.find? d = some root' → tables.roots.find? d = some root'
    ∨ (d, root'.recoveryPublicKey) ∉ tables.rootKeys.rows

theorem not_recorded {key : String × List UInt8}
    {rootKeys : Table (id : String × List UInt8 → String × List UInt8)}
    (h : tables.rootKeys.insert? key = some rootKeys) : key ∉ tables.rootKeys.rows := by
  intro hmem
  have hnone := Table.find?_none_of_insert? h
  rw [Table.find?_of_mem hmem] at hnone
  cases hnone

theorem rootStep_of_change (h : Change allowed tables tables') : RootStep tables tables' := by
  have hsame : ∀ {t : Tables}, t.roots = tables.roots → t.rootKeys = tables.rootKeys → RootStep tables t :=
    fun hroots hkeys => ⟨fun _ h => hkeys ▸ h, fun d root h => .inl (hroots ▸ h)⟩
  cases h with
  | enroll henroll =>
    obtain ⟨roots, rootKeys, hroots, hkeys, rfl⟩ := enrollInitialRoot_eq_ok henroll
    refine ⟨fun key hkey => (Table.mem_of_insert? hkeys).mpr (.inr hkey), fun d root hroot => ?_⟩
    rw [Table.find?_of_insert? hroots] at hroot
    split_ifs at hroot with hd
    · cases hroot
      refine .inr ?_
      rw [hd]
      exact not_recorded hkeys
    · exact .inl hroot
  | replace hreplace =>
    obtain ⟨roots, rootKeys, hsets, hkeys, rfl⟩ := replaceRoot_eq_ok hreplace
    refine ⟨fun key hkey => (Table.mem_of_insert? hkeys).mpr (.inr hkey), fun d root hroot => ?_⟩
    change roots.find? d = some root at hroot
    rename_i newRoot _ _
    by_cases hd : d = newRoot.deploymentId
    · rw [hd, hsets.self] at hroot
      cases hroot
      refine .inr ?_
      rw [hd, hsets.publicKey]
      exact not_recorded hkeys
    · exact .inl (hsets.others d hd ▸ hroot)
  | insertSlot hinsert =>
    obtain ⟨⟨slots, -, rfl⟩, -⟩ := insertSlot_eq_ok hinsert
    exact hsame rfl rfl
  | _ => exact hsame rfl rfl

theorem retired_of_change {d : String} {key : List UInt8} (h : Change allowed tables tables')
    (hretired : KeyRetired d key tables) : KeyRetired d key tables' := by
  have hstep := rootStep_of_change h
  refine ⟨hstep.rootKeys hretired.recorded, fun root hroot hkey => ?_⟩
  rcases hstep.roots d root hroot with hold | hnew
  · exact hretired.unused root hold hkey
  · exact hnew (hkey ▸ hretired.recorded)

theorem challenges_of_change (h : Change allowed tables tables') :
    tables.challenges.Grows ChallengeStep tables'.challenges := by
  have hupdate : ∀ {t : Tables} (p : RecoveryChallenge → Bool) (f : RecoveryChallenge → RecoveryChallenge)
      (hf : ∀ row, (f row).challengeId = row.challengeId), (∀ row, p row = true → ChallengeStep row (f row)) →
      t.challenges.Grows ChallengeStep (t.challenges.update p f hf) := by
    intro t p f hf hstep k row hrow
    refine ⟨_, (Table.find?_update k).trans (congrArg _ hrow), ?_⟩
    dsimp only
    split_ifs with hp
    · exact hstep row hp
    · exact ChallengeStep.refl row
  cases h with
  | challenges p f hf hstep => exact hupdate p f hf fun row hp => (hstep row hp).toChallengeStep
  | attempt attempt => exact hupdate attempt.counts (·.attempted attempt.now) (fun _ => rfl) fun row =>
    attempted_step
  | receipt challengeId receipt now =>
    exact hupdate _ (fun row => { row with consumedAt := some now, receipt := some receipt }) (fun _ => rfl)
      fun row _ => storeReceipt_step receipt now row
  | allocate row challenges hprior hattempts hreceipt hinsert =>
    exact Table.grows_insert? ChallengeStep.refl hinsert
  | replace hreplace =>
    obtain ⟨roots, rootKeys, -, -, rfl⟩ := replaceRoot_eq_ok hreplace
    exact hupdate _ (fun row => { row with consumedAt := some _ }) (fun _ => rfl)
      fun row _ => ⟨rfl, rfl, rfl, fun _ => rfl⟩
  | insertSlot hinsert =>
    obtain ⟨⟨slots, -, rfl⟩, -⟩ := insertSlot_eq_ok hinsert
    exact Table.Grows.refl ChallengeStep.refl _
  | enroll henroll =>
    obtain ⟨roots, rootKeys, -, -, rfl⟩ := enrollInitialRoot_eq_ok henroll
    exact Table.Grows.refl ChallengeStep.refl _
  | slots | approvals => exact Table.Grows.refl ChallengeStep.refl _

/-! ## Signed messages -/

theorem RecoveryProposal.exact_challengeMessage (proposal : RecoveryProposal) (challengeId : String)
    (nonce : List UInt8) : Json.Exact 3 (.obj (proposal.members (challengeMembers challengeId nonce))) := by
  refine Json.exact_obj fun m hm => ?_
  simp only [RecoveryProposal.members, challengeMembers, List.cons_append, List.nil_append, List.mem_cons,
    List.not_mem_nil, or_false] at hm
  rcases hm with rfl | rfl | rfl | rfl | rfl | rfl
  case inr.inr.inr.inl | inr.inr.inr.inr.inr =>
    refine Json.exact_obj fun m hm => ?_
    simp only [List.mem_cons, List.not_mem_nil, or_false] at hm
    rcases hm with rfl | rfl | rfl <;> exact Json.exact_str 0 _
  all_goals exact Json.exact_str 1 _

/-- **What is signed determines the proposal, the challenge and its nonce.** -/
theorem RecoveryProposal.eq_of_challengeMessage {proposal proposal' : RecoveryProposal}
    {challengeId challengeId' : String} {nonce nonce' : List UInt8}
    (h : proposal.challengeMessage challengeId nonce = proposal'.challengeMessage challengeId' nonce') :
    proposal = proposal' ∧ challengeId = challengeId' ∧ nonce = nonce' := by
  have hvalue := Json.value_eq_of_compactBytes (proposal.exact_challengeMessage challengeId nonce)
    (proposal'.exact_challengeMessage challengeId' nonce') h
  have hnodup : ((proposal.members (challengeMembers challengeId nonce)).map (·.1)).Nodup := by
    show ["action", "challenge_id", "nonce", "controller", "deployment_id", "recovery"].Nodup
    decide
  have hmembers := Json.values_eq_of_value_eq hvalue rfl hnodup
  simp only [RecoveryProposal.members, challengeMembers, List.cons_append, List.nil_append, List.map_cons,
    List.map_nil, List.cons.injEq] at hmembers
  obtain ⟨-, hid, hnonce, hcontroller, hdeployment, hrecovery, -⟩ := hmembers
  have hcontroller := Json.values_eq_of_value_eq hcontroller rfl (by decide : ["kid", "label", "public_key"].Nodup)
  have hrecovery := Json.values_eq_of_value_eq hrecovery rfl (by decide : ["kid", "public_key"].Nodup)
  simp only [List.map_cons, List.map_nil, List.cons.injEq, Json.value, Json.str.injEq, base64url_injective.eq_iff]
    at hid hnonce hcontroller hdeployment hrecovery
  cases proposal
  cases proposal'
  simp_all

/-! ## Recoveries -/

/-- What a recovery has needed and what it leaves. -/
structure SafeRecovery (crypto : ControllerCrypto) (before after : Tables)
    (submission : RecoverySubmission) (now : Instant) (commit : RecoveredSlotCommit) : Prop where
  /-- The root has signed the proposal of the challenge, which was not answered before, and the message is of no
  other proposal, challenge or nonce. -/
  signed : ∃ row root, before.challenges.find? submission.challengeId = some row
    ∧ row.deploymentId = submission.deploymentId
    ∧ row.consumedAt = none ∧ before.roots.find? submission.deploymentId = some root
    ∧ crypto.ed25519 root.recoveryPublicKey
        (row.proposal.challengeMessage (uuidText submission.challengeId) row.nonce) submission.signature = true
    ∧ (∀ proposal challengeId nonce, RecoveryProposal.challengeMessage proposal challengeId nonce
        = row.proposal.challengeMessage (uuidText submission.challengeId) row.nonce →
      proposal = row.proposal ∧ challengeId = uuidText submission.challengeId ∧ nonce = row.nonce)
    ∧ commit.slot.kid = row.controllerKid ∧ commit.slot.label = row.controllerLabel
    ∧ commit.slot.publicKey = row.controllerPublicKey
    ∧ ∃ root', after.roots.find? submission.deploymentId = some root'
    ∧ root'.recoveryPublicKey = row.recoveryPublicKey
      ∧ root'.generation = root.generation + 1 ∧ commit.recoveryGeneration = root'.generation
  unadmitted : ∀ slot ∈ before.slots.rows, slot.admits submission.deploymentId now = false
  active : activeSlots after submission.deploymentId = [commit.slot]
  consumed : ∃ row, after.challenges.find? submission.challengeId = some row ∧ row.consumedAt.isSome

theorem active_revokeSlots (tables : Tables) (d : String) (now : Instant) :
    activeSlots (tables.revokeSlots d now) d = [] := by
  refine List.filter_eq_nil_iff.mpr fun slot hslot hactive => ?_
  obtain ⟨slot₀, -, rfl⟩ : ∃ slot₀ ∈ tables.slots.rows, (if slot₀.isActive d then slot₀.revoke now else slot₀)
      = slot := by
    simpa only [Tables.revokeSlots, Table.update, List.mem_map] using hslot
  split_ifs at hactive with hwas
  · simp [ControllerSlot.isActive, ControllerSlot.revoke] at hactive
  · exact hwas hactive

theorem find?_storeReceipt {challengeId : Uuid} (receipt : RecoveryReceipt) (now : Instant)
    (h : tables.challenges.find? challengeId = some row) :
    (tables.storeReceipt challengeId receipt now).challenges.find? challengeId
      = some { row with consumedAt := some now, receipt := some receipt } := by
  simp only [Tables.storeReceipt, Table.find?_update, h, Option.map_some, Table.find?_key h, decide_true, if_true]

theorem challenges_of_changes (h : Changes allowed tables tables') :
    tables.challenges.Grows ChallengeStep tables'.challenges :=
  h.relates (fun t => Table.Grows.refl ChallengeStep.refl t.challenges)
    (fun _ _ _ hab hbc => hab.trans ChallengeStep.trans hbc) fun _ _ => challenges_of_change

theorem safe_of_recovers {submission : RecoverySubmission} {commit : RecoveredSlotCommit}
    (h : Recovers crypto tables tables' submission now commit) :
    SafeRecovery crypto tables tables' submission now commit := by
  obtain ⟨row, root, hrow, hdeployment, hpending, -, hnonce, hroot, hsigned, controllerId, tables₁, tables₂,
    newRoot, receipt, hslot, hreplaced, hgeneration, rfl⟩ := h.challenge
  have hgrows : tables₁.challenges.Grows ChallengeStep tables₂.challenges :=
    challenges_of_change (Change.replace hreplaced : Change anyEffect tables₁ tables₂)
  obtain ⟨⟨slots, hslots, rfl⟩, -, hslotDeployment, hactive, hkid, hlabel, hkey⟩ := insertSlot_eq_ok hslot
  obtain ⟨row₂, hrow₂, -⟩ := hgrows _ row hrow
  obtain ⟨roots, rootKeys, hsets, hkeys, rfl⟩ := replaceRoot_eq_ok hreplaced
  refine ⟨⟨row, root, hrow, hdeployment, hpending, hroot, hnonce ▸ hsigned,
    fun _ _ _ => RecoveryProposal.eq_of_challengeMessage, hkid, hlabel, hkey, newRoot, hsets.self,
    hsets.publicKey, hsets.generation root hroot, hgeneration⟩, h.unadmitted, ?_, ?_⟩
  · -- the other slots were revoked
    have hrows : slots.rows = commit.slot :: (tables.revokeSlots submission.deploymentId now).slots.rows :=
      Table.rows_of_insert? hslots
    show slots.rows.filter (·.isActive submission.deploymentId) = [commit.slot]
    rw [hrows, List.filter_cons_of_pos]
    · exact congrArg (commit.slot :: ·) (active_revokeSlots tables submission.deploymentId now)
    · simp [ControllerSlot.isActive, hslotDeployment, hdeployment, hactive]
  · exact ⟨_, find?_storeReceipt receipt now hrow₂, rfl⟩

/-! ## Runs -/

section Runs

variable {log : List (Call × Outcome)} {registry before after : Registry} {now : Instant}
  {submission : RecoverySubmission} {controllerId : String} {commit : RecoveredSlotCommit}

/-- An event is a recovery by the answer to one of some challenges. -/
def recovers (chosen : Uuid → Bool) (e : Call × Outcome) : Bool :=
  match e.1.request, e.2 with
  | .submit submission _, .submitted (.committed _) => chosen submission.challengeId
  | _, _ => false

variable {chosen : Uuid → Bool} {nonce : List UInt8}

theorem recovers_eq_true {e : Call × Outcome} (h : recovers chosen e = true) :
    ∃ now submission controllerId commit,
    e = (⟨now, .submit submission controllerId⟩, .submitted (.committed commit))
      ∧ chosen submission.challengeId = true := by
  obtain ⟨⟨now, request⟩, outcome⟩ := e
  unfold recovers at h
  split at h
  · rename_i submission controllerId commit hrequest houtcome
    subst hrequest houtcome
    exact ⟨now, submission, controllerId, commit, rfl, h⟩
  · cases h

theorem recovers_of_exec
    (h : execRegistry crypto before ⟨now, .submit submission controllerId⟩
      = (after, .submitted (.committed commit))) :
    Recovers crypto before.tables after.tables submission now commit := by
  simp only [execRegistry, Registry.submit] at h
  split at h
  · rename_i tables' result hok
    obtain ⟨rfl, hresult⟩ := Prod.mk.inj h
    cases hresult
    rcases submit_eq_ok hok with ⟨-, commit', hreceipt⟩ | ⟨commit', hcommitted, hrecovers⟩
    · cases hreceipt
    · cases hcommitted
      exact hrecovers
  all_goals cases (Prod.mk.inj h).2

theorem allocates_of_exec {challenge : NewRecoveryChallenge} {challengeId : Uuid}
    {issued : IssuedRecoveryChallenge}
    (h : execRegistry crypto before ⟨now, .allocate challenge challengeId nonce⟩
    = (after, .challengeIssued issued)) : Allocates crypto before.tables after.tables challenge now := by
  rcases settle_cases h with ⟨error, -, -, houtcome⟩ | ⟨tables', answer, hok, rfl, -⟩
  · cases houtcome
  · exact issueRecoveryChallenge_eq_ok hok

theorem inv_of_run (h : Run (execRegistry crypto) Registry.empty log registry) : TablesInv registry.tables :=
  (changes_of_run h).keeps (fun _ _ => inv_of_change) inv_empty

/-- **One recovery of a challenge.** If two challenges that are chosen are one, there is at most one
recovery by them: the first one consumes the challenge. -/
theorem recovered_once (h : Run (execRegistry crypto) Registry.empty log registry)
    (hchosen : ∀ a b row row', registry.tables.challenges.find? a = some row → registry.tables.challenges.find? b
      = some row' → chosen a = true → chosen b = true → a = b) : log.countP (recovers chosen) ≤ 1 := by
  refine countP_le_one fun newer e older hlog he e' he' => ?_
  by_contra hrecovers
  obtain ⟨now, submission, controllerId, commit, rfl, hchosen₁⟩ := recovers_eq_true he
  obtain ⟨now', submission', controllerId', commit', rfl, hchosen₂⟩ :=
    recovers_eq_true (Bool.not_eq_false _ ▸ hrecovers)
  obtain ⟨mid, oldest, rfl⟩ := List.append_of_mem he'
  subst hlog
  obtain ⟨after, hafter, hnewer⟩ := h.split
  cases hafter with
  | cons hbefore hexec =>
    have hlater := (Run.cons Run.nil hexec).append hnewer
    obtain ⟨after', hafter', hmid⟩ := hbefore.split
    cases hafter' with
    | cons _ hexec' =>
      have hfirst := safe_of_recovers (recovers_of_exec hexec')
      have hsecond := safe_of_recovers (recovers_of_exec hexec)
      obtain ⟨row', hrow', hconsumed'⟩ := hfirst.consumed
      obtain ⟨row, root, hrow, -, hpending, -⟩ := hsecond.signed
      obtain ⟨last, hlast, -⟩ := hsecond.consumed
      -- both challenges are in the final tables, so they are one
      obtain ⟨rowBefore, hrowBefore, hstep⟩ := challenges_of_changes (changes_of_run hmid) _ _ hrow'
      obtain ⟨final', hfinal', -⟩ := challenges_of_changes (changes_of_run hlater) _ _ hrowBefore
      obtain ⟨final, hfinal, -⟩ := challenges_of_changes (changes_of_run hnewer) _ _ hlast
      have hsame := hchosen _ _ _ _ hfinal hfinal' hchosen₁ hchosen₂
      rw [hsame, hrowBefore] at hrow
      cases hrow
      have hconsumed := hstep.consumed hconsumed'
      rw [hpending] at hconsumed
      cases hconsumed

/-- The challenge of a deployment with an allocation nonce. -/
def allocatedWith (tables : Tables) (d : String) (nonce : List UInt8) (challengeId : Uuid) : Bool :=
  (tables.challenges.find? challengeId).any fun row => row.deploymentId = d && row.allocationNonce = nonce

variable {d : String}

theorem allocatedWith_unique (hinv : TablesInv tables) {a b : Uuid} {row row' : RecoveryChallenge}
    (ha : tables.challenges.find? a = some row) (hb : tables.challenges.find? b = some row')
    (hwith : allocatedWith tables d nonce a = true) (hwith' : allocatedWith tables d nonce b = true) : a = b := by
  rw [allocatedWith, ha, Option.any_some, Bool.and_eq_true, decide_eq_true_eq, decide_eq_true_eq] at hwith
  rw [allocatedWith, hb, Option.any_some, Bool.and_eq_true, decide_eq_true_eq, decide_eq_true_eq] at hwith'
  have hsame : row = row' := hinv.nonces row (Table.mem_of_find? ha) row' (Table.mem_of_find? hb)
    ⟨hwith.1.trans hwith'.1.symm, hwith.2.trans hwith'.2.symm⟩
  calc a = row.challengeId := (Table.find?_key ha).symm
    _ = row'.challengeId := by rw [hsame]
    _ = b := Table.find?_key hb

theorem pending_le_one (hinv : TablesInv tables) (d : String) :
    (tables.challenges.rows.filter (·.isPending d)).length ≤ 1 := by
  refine Table.length_filter_le_one fun a ha b hb hpa hpb => hinv.pending a ha b hb ?_
  simp only [RecoveryChallenge.isPending, Bool.and_eq_true, decide_eq_true_eq, Option.isNone_iff_eq_none]
    at hpa hpb
  exact ⟨hpa.1.trans hpb.1.symm, hpa.2, hpb.2⟩

theorem active_le_three (hinv : TablesInv tables) (d : String) : (activeSlots tables d).length ≤ 3 := by
  have hnodup : (activeSlots tables d).Nodup := tables.slots.nodup.of_map.filter _
  have hindices : ((activeSlots tables d).map ControllerSlot.slotIndex).Nodup := by
    refine hnodup.map_on fun a ha b hb hindex => ?_
    obtain ⟨ha, hactive⟩ := List.mem_filter.mp ha
    obtain ⟨hb, hactive'⟩ := List.mem_filter.mp hb
    simp only [ControllerSlot.isActive, Bool.and_eq_true, decide_eq_true_eq] at hactive hactive'
    exact hinv.slots a ha b hb ⟨hactive.1.trans hactive'.1.symm, hactive.2, hactive'.2, hindex⟩
  calc (activeSlots tables d).length = ((activeSlots tables d).map ControllerSlot.slotIndex).length :=
    (List.length_map _).symm
    _ ≤ Fintype.card (Fin 3) := hindices.length_le_card
    _ = 3 := Fintype.card_fin 3

theorem revoked_of_changes (h : Changes allowed tables tables') :
    tables.slots.Grows StaysRevoked tables'.slots := by
  have htrans : ∀ a b c, StaysRevoked a b → StaysRevoked b c → StaysRevoked a c :=
    fun _ _ _ hab hbc ha => hbc (hab ha)
  exact h.relates (fun t => Table.Grows.refl (fun _ => id) t.slots)
    (fun _ _ _ hab hbc => hab.trans htrans hbc) fun _ _ => revoked_of_change

/-- What a history of the registry says about recoveries. -/
structure RecoverySafety (crypto : ControllerCrypto) (log : List (Call × Outcome))
    (registry : Registry) : Prop where
  pending : ∀ d, (registry.tables.challenges.rows.filter (·.isPending d)).length ≤ 1
  once : ∀ challengeId, log.countP (recovers fun other => other = challengeId) ≤ 1
  onceByNonce : ∀ d nonce, log.countP (recovers (allocatedWith registry.tables d nonce)) ≤ 1
  recovery : ∀ newer older before after now submission controllerId commit,
    log = newer ++ (⟨now, .submit submission controllerId⟩, .submitted (.committed commit)) :: older →
    Run (execRegistry crypto) Registry.empty older before →
    execRegistry crypto before ⟨now, .submit submission controllerId⟩ = (after, .submitted (.committed commit)) →
    SafeRecovery crypto before.tables after.tables submission now commit
  allocation : ∀ newer older before now challenge challengeId nonce issued,
    log = newer ++ (⟨now, .allocate challenge challengeId nonce⟩, .challengeIssued issued) :: older →
    Run (execRegistry crypto) Registry.empty older before →
    ∃ root, before.tables.roots.find? challenge.deploymentId = some root
      ∧ crypto.ed25519 root.recoveryPublicKey (challenge.proposal.allocationMessage challenge.allocationNonce)
          challenge.allocationSignature = true
  /-- A key that was the root and is not any more never is it again: not at any later moment, so by the two above
  nothing is authorised with it. -/
  replaced : ∀ newer later between older first second third d root, log = newer ++ (later ++ (between ++ older)) →
    Run (execRegistry crypto) Registry.empty older first →
    Run (execRegistry crypto) Registry.empty (between ++ older) second →
    Run (execRegistry crypto) Registry.empty (later ++ (between ++ older)) third →
    first.tables.roots.find? d = some root →
    (∀ root', second.tables.roots.find? d = some root' → root'.recoveryPublicKey ≠ root.recoveryPublicKey) →
    ∀ root', third.tables.roots.find? d = some root' → root'.recoveryPublicKey ≠ root.recoveryPublicKey
  revoked : ∀ newer older before d controllerId slot, log = newer ++ older →
    Run (execRegistry crypto) Registry.empty older before →
    before.tables.slots.find? (d, controllerId) = some slot →
    slot.status = .revoked → ∃ slot', registry.tables.slots.find? (d, controllerId) = some slot'
      ∧ slot'.status = .revoked
  active : ∀ d, (activeSlots registry.tables d).length ≤ 3

theorem replaced_of_runs {between later older : List (Call × Outcome)}
    {first second third : Registry} {root : RecoveryRoot}
    (h₁ : Run (execRegistry crypto) Registry.empty older first)
    (h₂ : Run (execRegistry crypto) Registry.empty (between ++ older) second)
    (h₃ : Run (execRegistry crypto) Registry.empty (later ++ (between ++ older)) third)
    (hroot : first.tables.roots.find? d = some root)
    (hreplaced : ∀ root', second.tables.roots.find? d = some root' →
    root'.recoveryPublicKey ≠ root.recoveryPublicKey) : KeyRetired d root.recoveryPublicKey third.tables := by
  obtain ⟨first', hfirst, hbetween⟩ := h₂.split
  obtain rfl := h₁.unique hfirst
  obtain ⟨second', hsecond, hlater⟩ := h₃.split
  obtain rfl := h₂.unique hsecond
  have hrecorded : (d, root.recoveryPublicKey) ∈ second.tables.rootKeys.rows := by
    refine (changes_of_run hbetween).keeps
      (fun _ _ hchange hmem => (rootStep_of_change hchange).rootKeys hmem) ?_
    exact (inv_of_run h₁).roots d root hroot
  exact (changes_of_run hlater).keeps (fun _ _ => retired_of_change) ⟨hrecorded, hreplaced⟩

/-- **Recovery is safe and final.** -/
theorem recovery_safe_and_final (h : Run (execRegistry crypto) Registry.empty log registry) :
    RecoverySafety crypto log registry where
  pending := pending_le_one (inv_of_run h)
  once challengeId := recovered_once h fun a b _ _ _ _ ha hb =>
    (of_decide_eq_true ha).trans (of_decide_eq_true hb).symm
  onceByNonce d nonce := recovered_once h fun a b row row' ha hb hwith hwith' =>
    allocatedWith_unique (inv_of_run h) ha hb hwith hwith'
  recovery := fun newer older before after now submission controllerId commit _ _ hexec =>
    safe_of_recovers (recovers_of_exec hexec)
  allocation := by
    intro newer older before now challenge challengeId nonce issued hlog holder
    subst hlog
    obtain ⟨after, hafter, -⟩ := h.split
    cases hafter with
    | cons hbefore hexec =>
      obtain rfl := hbefore.unique holder
      exact (allocates_of_exec hexec).proof
  replaced := fun newer later between older first second third d root _ h₁ h₂ h₃ hroot hreplaced =>
    (replaced_of_runs h₁ h₂ h₃ hroot hreplaced).unused
  revoked := by
    intro newer older before d controllerId slot hlog holder hslot hrevoked
    subst hlog
    obtain ⟨before', hbefore, hnewer⟩ := h.split
    obtain rfl := holder.unique hbefore
    obtain ⟨slot', hslot', hstays⟩ := revoked_of_changes (changes_of_run hnewer) _ slot hslot
    exact ⟨slot', hslot', hstays hrevoked⟩
  active := active_le_three (inv_of_run h)

def plainCrypto : ControllerCrypto where
  sha256 bytes := bytes
  blake3 token := token
  ed25519 key _ signature := key = signature

/-- A deployment is bound, its slot expires, and the holder of the recovery key allocates a
challenge. -/
def lockedOutCalls : List Call :=
  [⟨0, .issueApproval ⟨"site", .bind, "digest"⟩ "token" ⟨true, true⟩⟩,
   ⟨1, .createSlot ⟨"token", .bind, "digest", ⟨"site", "first", "kid-1", [1]⟩, some ⟨"site", "root-1", [7]⟩⟩
     "controller-1" ⟨true, true⟩⟩,
   ⟨seconds 2592001, .allocate ⟨"site", "second", "kid-2", [2], "root-2", [8], [5], [7]⟩ 9 [6]⟩]

def recoveredCalls : List Call :=
  lockedOutCalls ++ [⟨seconds 2592002, .submit ⟨"site", 9, [6], [7]⟩ "controller-2"⟩]

theorem recovery_safe_and_final_lockedOut :
    (execAll (execRegistry plainCrypto) Registry.empty [] recoveredCalls).1.countP (recovers fun _ => true) = 1
      ∧ RecoverySafety plainCrypto (execAll (execRegistry plainCrypto) Registry.empty [] recoveredCalls).1
          (execAll (execRegistry plainCrypto) Registry.empty [] recoveredCalls).2 :=
  ⟨by decide +kernel, recovery_safe_and_final (run_execAll _ _)⟩

end Runs

end NazoAuth.Controller
