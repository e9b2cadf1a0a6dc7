import NazoAuth.Lib.Run
import NazoAuth.Revocation.Store

/-!
# Access-token state — a deactivation is permanent

Epochs only grow, and a deactivation makes the one of its principal grow (`Later`,
`epoch_of_deactivated`). An issuance that holds its locks has the current epochs (`IssuanceInv`),
because an update of a principal waits for the locks. So the token of a committed issuance has
epochs that were current at its commit; after a deactivation they are behind for ever, and the
look-up, which finds the same client and the same user as the issuance (`Tracks`), reports the
token. An issuance whose epochs are behind fails at its lock (`Stale`).
-/

namespace NazoAuth.Revocation

open Lib

variable {f : Formats} {w w' : World} {op : Op} {out : Outcome} {log : Log}

/-! ## What one step does to principals and issuances -/

def Quiet : Outcome → Prop
  | .deactivatedClient _ | .deactivatedUser _ | .authenticated _ _ | .prepared _ _ | .locked | .committed
    _ | .recorded _ => False
  | _ => True

/-- Revocations and cleanups change the facts only. -/
def Action.changesFacts : Action → Bool
  | .revoke .. | .revokeOwner .. | .cleanup _ => true
  | _ => false

inductive Effect (w : World) (op : Op) : World × Outcome → Prop
  | same {out : Outcome} : Quiet out → Effect w op (w, out)
  | facts {revocations} {out : Outcome} : op.action.changesFacts = true →
      (Quiet out ∨ ∃ tokens, out = .recorded tokens) → Effect w op ({ w with revocations := revocations }, out)
  | registeredClient {row clients} : row.accessTokenEpoch = 0 →
      (∀ c ∈ w.clients.rows, c.tenantId = row.tenantId → c.clientId ≠ row.clientId) →
      w.clients.insert? row = some clients → Effect w op ({ w with clients := clients }, .done)
  | registeredUser {row users} : row.accessTokenEpoch = 0 →
      w.users.insert? row = some users → Effect w op ({ w with users := users }, .done)
  | updatedClient {id active c} : w.clients.find? id = some c → w.clientLocked id = false →
      Effect w op ({ w with
        clients := w.clients.update (fun r => r.id = id) (ClientRow.activate active)
          (ClientRow.activate_id active) }, if c.isActive && !active then .deactivatedClient id else .done)
  | updatedUser {id active u} : w.users.find? id = some u → w.userLocked id = false → Effect w op
      ({ w with
        users := w.users.update (fun r => r.id = id) (UserRow.activate active) (UserRow.activate_id active) },
        if u.isActive && !active then .deactivatedUser id else .done)
  | authenticated {c} : c ∈ w.clients.rows → Effect w op
      ({ w with
        issuances := ⟨w.nextIssuance, c.tenantId, c.id, c.clientId, c.accessTokenEpoch, none, none⟩ :: w.issuances
        nextIssuance := w.nextIssuance + 1 }, .authenticated w.nextIssuance c.id)
  | prepared {p s userId subject} : p ∈ w.issuances → p.subject = none →
      snapshot w p.tenantId userId subject = some s →
      Effect w op (w.put { p with subject := some s }, .prepared p.id userId)
  | locked {p s jti} : p ∈ w.issuances → p.subject = some s → p.locked = none →
      lockTokenPrincipals w p.tenantId p.client p.clientEpoch s.userId s.userEpoch = .ok () →
      Effect w op (w.put { p with locked := some jti }, .locked)
  | dropped {issuance} {out : Outcome} : Quiet out → Effect w op (w.drop issuance, out)
  | committed {p s jti bindings} : p ∈ w.issuances →
      p.subject = some s → p.locked = some jti → ensureSubjectBinding w.bindings p.tenantId s = some bindings →
      Effect w op ({ w.drop p.id with bindings := bindings },
        .committed ⟨p.id, p.tenantId, p.client, s.userId, lookupKey p s jti⟩)

theorem effect_none : Effect w op (w, .none) := .same trivial

variable {p : Issuance} {id : Uuid}

theorem effect_prepare (hp : p ∈ w.issuances) (userId : Option Uuid) (subject : String) :
    Effect w op (prepare_ w p userId subject) := by
  unfold prepare_
  split
  · exact effect_none
  rename_i hsub
  split
  · exact .dropped trivial
  · rename_i s hs
    exact .prepared hp hsub hs

theorem effect_lock (hp : p ∈ w.issuances) (jti : String) : Effect w op (lock_ w p jti) := by
  unfold lock_
  split
  · rename_i s hsub hlock
    split
    · exact .dropped trivial
    split
    · exact .dropped trivial
    · rename_i hok
      exact .locked hp hsub hlock hok
  · exact effect_none

theorem effect_commit (hp : p ∈ w.issuances) : Effect w op (commit_ w p) := by
  unfold commit_
  split
  · rename_i s jti hsub hlock
    split
    · exact .dropped trivial
    · rename_i bindings hb
      exact .committed hp hsub hlock hb
  · exact effect_none

theorem effect_issuance {issuance : Nat} {step : Issuance → World × Outcome}
    (hstep : ∀ p ∈ w.issuances, Effect w op (step p)) : Effect w op (withIssuance w issuance step) := by
  unfold withIssuance
  split
  · exact effect_none
  · rename_i p hp
    exact hstep p (List.mem_of_find?_eq_some hp)

variable {active : Bool}

theorem effect_updateClient : Effect w op (updateClient_ w id active) := by
  unfold updateClient_
  split
  · exact effect_none
  rename_i c hc
  split
  · exact effect_none
  · rename_i hwait
    simp only [Bool.or_eq_true, not_or, Bool.not_eq_true] at hwait
    exact .updatedClient hc hwait.1

theorem effect_updateUser : Effect w op (updateUser_ w id active) := by
  unfold updateUser_
  split
  · exact effect_none
  rename_i u hu
  split
  · exact effect_none
  · rename_i hwait
    simp only [Bool.or_eq_true, not_or, Bool.not_eq_true] at hwait
    exact .updatedUser hu hwait.1

/-- **What one step can do.** -/
theorem effect_of_exec (he : exec f w op = (w', out)) : Effect w op (w', out) := by
  rw [← he, exec]
  cases ha : op.action with
  | registerClient id tenantId clientId active =>
    dsimp only
    split_ifs with hpublic
    · exact effect_none
    split
    · exact effect_none
    rename_i clients hins
    refine .registeredClient rfl (fun c hc htenant hid => ?_) hins
    exact hpublic (List.any_eq_true.mpr ⟨c, hc, by simp_all⟩)
  | registerUser id tenantId active =>
    dsimp only
    split
    · exact effect_none
    · rename_i users hins
      exact .registeredUser rfl hins
  | updateClient => exact effect_updateClient
  | updateUser => exact effect_updateUser
  | authenticate tenantId clientId =>
    simp only [authenticate_]
    split
    · exact effect_none
    rename_i c hc
    have hnames := List.find?_some hc
    simp only [Bool.and_eq_true, decide_eq_true_eq] at hnames
    obtain ⟨rfl, rfl⟩ := hnames
    exact .authenticated (List.mem_of_find?_eq_some hc)
  | prepare issuance userId subject => exact effect_issuance fun p hp => effect_prepare hp userId subject
  | lock issuance jti => exact effect_issuance fun p hp => effect_lock hp jti
  | commit => exact effect_issuance fun p hp => effect_commit hp
  | abort => exact .dropped trivial
  | revoke =>
    simp only [revoke_]
    split
    · exact effect_none
    · exact .facts (by rw [ha]; rfl) (.inr ⟨_, rfl⟩)
  | revokeOwner =>
    dsimp only
    split_ifs
    · exact effect_none
    split
    · exact effect_none
    · exact .facts (by rw [ha]; rfl) (.inr ⟨_, rfl⟩)
  | cleanup => exact .facts (by rw [ha]; rfl) (.inl trivial)
  | verify => exact .same trivial

/-! ## Epochs grow -/

/-- The same client, with an epoch that is not smaller. -/
structure ClientRow.Le (c c' : ClientRow) : Prop where
  tenant : c'.tenantId = c.tenantId
  publicId : c'.clientId = c.clientId
  epoch : c.accessTokenEpoch ≤ c'.accessTokenEpoch

structure UserRow.Le (u u' : UserRow) : Prop where
  tenant : u'.tenantId = u.tenantId
  epoch : u.accessTokenEpoch ≤ u'.accessTokenEpoch

theorem ClientRow.Le.refl (c : ClientRow) : c.Le c := ⟨rfl, rfl, le_refl _⟩

theorem UserRow.Le.refl (u : UserRow) : u.Le u := ⟨rfl, le_refl _⟩

theorem ClientRow.Le.trans (a b c : ClientRow) (h : a.Le b) (h' : b.Le c) : a.Le c :=
  ⟨h'.tenant.trans h.tenant, h'.publicId.trans h.publicId, h.epoch.trans h'.epoch⟩

theorem UserRow.Le.trans (a b c : UserRow) (h : a.Le b) (h' : b.Le c) : a.Le c :=
  ⟨h'.tenant.trans h.tenant, h.epoch.trans h'.epoch⟩

theorem le_advance (wasActive isActive : Bool) (epoch : Int) :
    epoch ≤ advanceAccessTokenEpoch wasActive isActive epoch := by
  unfold advanceAccessTokenEpoch
  split_ifs
  · omega
  · exact le_refl _

theorem ClientRow.le_activate (active : Bool) (c : ClientRow) : c.Le (c.activate active) :=
  ⟨rfl, rfl, le_advance _ _ _⟩

theorem UserRow.le_activate (active : Bool) (u : UserRow) : u.Le (u.activate active) := ⟨rfl, le_advance _ _ _⟩

/-- The epoch of a user, zero before its registration. -/
def World.userEpoch (w : World) (id : Uuid) : Int := ((w.users.find? id).map (·.accessTokenEpoch)).getD 0

/-- A later state of the principals. -/
structure Later (w w' : World) : Prop where
  clients : w.clients.Grows ClientRow.Le w'.clients
  users : w.users.Grows UserRow.Le w'.users
  bindings : w.bindings.Grows Eq w'.bindings
  userEpoch : ∀ id, w.userEpoch id ≤ w'.userEpoch id

theorem Later.refl (w : World) : Later w w :=
  ⟨.refl ClientRow.Le.refl _, .refl UserRow.Le.refl _, .refl Eq.refl _, fun _ => le_refl _⟩

theorem Later.trans {w₁ w₂ w₃ : World} (h : Later w₁ w₂) (h' : Later w₂ w₃) : Later w₁ w₃ :=
  ⟨h.clients.trans ClientRow.Le.trans h'.clients, h.users.trans UserRow.Le.trans h'.users,
    h.bindings.trans (fun _ _ _ => Eq.trans) h'.bindings, fun id => (h.userEpoch id).trans (h'.userEpoch id)⟩

theorem later_of_tables (hc : w'.clients = w.clients) (hu : w'.users = w.users)
    (hb : w'.bindings = w.bindings) : Later w w' := by
  refine ⟨hc ▸ .refl ClientRow.Le.refl _, hu ▸ .refl UserRow.Le.refl _, hb ▸ .refl Eq.refl _, fun id => ?_⟩
  rw [World.userEpoch, World.userEpoch, hu]

variable {s : Subject} {bindings : Table SubjectBinding.key} {tenantId k : Uuid}

theorem bindings_of_ensure (h : ensureSubjectBinding w.bindings tenantId s = some bindings) :
    w.bindings.Grows Eq bindings := by
  unfold ensureSubjectBinding at h
  split at h
  · exact Option.some.inj h ▸ .refl Eq.refl _
  split at h
  · exact Option.some.inj h ▸ .refl Eq.refl _
  split at h
  · rename_i hins
    exact Option.some.inj h ▸ Table.grows_insert? Eq.refl hins
  · split at h
    · exact Option.some.inj h ▸ .refl Eq.refl _
    · cases h

theorem later_of_effect (h : Effect w op (w', out)) : Later w w' := by
  cases h with
  | registeredClient _ _ hins =>
    exact ⟨Table.grows_insert? ClientRow.Le.refl hins, .refl UserRow.Le.refl _, .refl Eq.refl _,
      fun _ => le_refl _⟩
  | registeredUser hzero hins =>
    refine ⟨.refl ClientRow.Le.refl _, Table.grows_insert? UserRow.Le.refl hins, .refl Eq.refl _, fun id => ?_⟩
    rw [World.userEpoch, World.userEpoch, Table.find?_of_insert? hins]
    split_ifs with hid
    · rw [hid, Table.find?_none_of_insert? hins]
      simp [hzero]
    · exact le_refl _
  | updatedClient =>
    exact ⟨Table.grows_update (ClientRow.activate_id _) ClientRow.Le.refl (ClientRow.le_activate _),
      .refl UserRow.Le.refl _, .refl Eq.refl _, fun _ => le_refl _⟩
  | @updatedUser id active u =>
    refine ⟨.refl ClientRow.Le.refl _,
      Table.grows_update (UserRow.activate_id _) UserRow.Le.refl (UserRow.le_activate _),
      .refl Eq.refl _, fun k => ?_⟩
    simp only [World.userEpoch, Table.find?_update]
    cases w.users.find? k with
    | none => exact le_refl _
    | some r =>
      simp only [Option.map_some]
      split_ifs
      · exact (UserRow.le_activate active r).epoch
      · exact le_refl _
  | committed _ _ _ hb =>
    exact ⟨.refl ClientRow.Le.refl _, .refl UserRow.Le.refl _, bindings_of_ensure hb, fun _ => le_refl _⟩
  | _ => exact later_of_tables rfl rfl rfl

theorem later_of_run {w₀ : World} (hr : Run (exec f) w₀ log w) : Later w₀ w := by
  refine Run.state_invariant (Later.refl w₀) (fun s o s' r hl he => ?_) hr
  exact hl.trans (later_of_effect (effect_of_exec he))

theorem epoch_of_deactivatedClient (hout : out = .deactivatedClient k) (h : Effect w op (w', out)) :
    ∃ c c', w.clients.find? k = some c ∧ w'.clients.find? k = some c'
      ∧ c.accessTokenEpoch < c'.accessTokenEpoch ∧ w'.issuances = w.issuances := by
  cases h
  case updatedClient id active c hc hfree =>
    split_ifs at hout with hact
    cases hout
    refine ⟨c, c.activate active, hc, by simp [hc, Table.find?_key hc], ?_, rfl⟩
    simp only [ClientRow.activate, advanceAccessTokenEpoch, if_pos hact]
    omega
  case updatedUser => split_ifs at hout
  all_goals simp_all [Quiet]

theorem epoch_of_deactivatedUser (hout : out = .deactivatedUser k) (h : Effect w op (w', out)) :
    w.userEpoch k < w'.userEpoch k ∧ w'.issuances = w.issuances := by
  cases h
  case updatedUser id active u hu hfree =>
    split_ifs at hout with hact
    cases hout
    refine ⟨?_, rfl⟩
    simp only [World.userEpoch, Table.find?_update, hu, Table.find?_key hu, decide_true, if_true, Option.map_some,
      Option.getD_some, UserRow.activate, advanceAccessTokenEpoch, if_pos hact]
    omega
  case updatedClient => split_ifs at hout
  all_goals simp_all [Quiet]

/-! ## Open issuances -/

/-- What an open issuance has read is not ahead of the principals; under its locks it is current. -/
structure IssuanceInv (w : World) (p : Issuance) : Prop where
  client : ∃ c, w.clients.find? p.client = some c ∧ c.tenantId = p.tenantId ∧ c.clientId = p.clientId
    ∧ p.clientEpoch ≤ c.accessTokenEpoch ∧ (p.locked.isSome = true → p.clientEpoch = c.accessTokenEpoch)
  user : ∀ s, p.subject = some s → ∀ u, s.userId = some u → ∃ epoch, s.userEpoch = some epoch
    ∧ epoch ≤ w.userEpoch u
    ∧ (p.locked.isSome = true → ∃ r, w.users.find? u = some r ∧ r.tenantId = p.tenantId
      ∧ r.accessTokenEpoch = epoch)
  bound : ∀ s, p.subject = some s → s.subjectBound = true →
    ∃ b, w.bindings.find? (p.tenantId, s.subject) = some b ∧ s.userId = some b.userId
  subject : p.locked.isSome = true → p.subject.isSome = true

/-- The rows of locked principals are as before. -/
structure Guarded (w w' : World) : Prop where
  client : ∀ id c, w.clientLocked id = true → w.clients.find? id = some c → w'.clients.find? id = some c
  user : ∀ id u, w.userLocked id = true → w.users.find? id = some u → w'.users.find? id = some u

theorem guarded_of_tables (hc : w'.clients = w.clients) (hu : w'.users = w.users) : Guarded w w' :=
  ⟨fun _ _ _ h => hc ▸ h, fun _ _ _ h => hu ▸ h⟩

theorem guarded_of_effect (h : Effect w op (w', out)) : Guarded w w' := by
  cases h with
  | registeredClient _ _ hins =>
    refine ⟨fun k c _ hc => ?_, fun _ _ _ h => h⟩
    obtain ⟨_, hc', rfl⟩ := Table.grows_insert? Eq.refl hins k c hc
    exact hc'
  | registeredUser hzero hins =>
    refine ⟨fun _ _ _ h => h, fun k u _ hu => ?_⟩
    obtain ⟨_, hu', rfl⟩ := Table.grows_insert? Eq.refl hins k u hu
    exact hu'
  | @updatedClient id active c hc hfree =>
    refine ⟨fun k c' hlocked hc' => ?_, fun _ _ _ h => h⟩
    have hne : k ≠ id := by
      rintro rfl
      cases hlocked.symm.trans hfree
    simp [hc', Table.find?_key hc', hne]
  | @updatedUser id active u hu hfree =>
    refine ⟨fun _ _ _ h => h, fun k u' hlocked hu' => ?_⟩
    have hne : k ≠ id := by
      rintro rfl
      cases hlocked.symm.trans hfree
    simp [hu', Table.find?_key hu', hne]
  | _ => exact guarded_of_tables rfl rfl

theorem IssuanceInv.later (hp : p ∈ w.issuances) (hi : IssuanceInv w p) (hl : Later w w')
    (hg : Guarded w w') : IssuanceInv w' p where
  client := by
    obtain ⟨c, hc, htenant, hid, hle, hlocked⟩ := hi.client
    obtain ⟨c', hc', hle'⟩ := hl.clients _ _ hc
    refine ⟨c', hc', hle'.tenant.trans htenant, hle'.publicId.trans hid, hle.trans hle'.epoch, fun hlock => ?_⟩
    have hkept := hg.client p.client c (List.any_eq_true.mpr ⟨p, hp, by simp [hlock]⟩) hc
    rw [Option.some.inj (hc'.symm.trans hkept)]
    exact hlocked hlock
  user s hs u hu := by
    obtain ⟨epoch, hepoch, hle, hlocked⟩ := hi.user s hs u hu
    refine ⟨epoch, hepoch, hle.trans (hl.userEpoch u), fun hlock => ?_⟩
    obtain ⟨r, hr, htenant, heq⟩ := hlocked hlock
    exact ⟨r, hg.user u r (List.any_eq_true.mpr ⟨p, hp, by simp [hlock, hs, hu]⟩) hr, htenant, heq⟩
  bound s hs hbound := by
    obtain ⟨b, hb, huser⟩ := hi.bound s hs hbound
    obtain ⟨b', hb', rfl⟩ := hl.bindings _ _ hb
    exact ⟨b, hb', huser⟩
  subject := hi.subject

def NonNegative (w : World) : Prop := ∀ id, 0 ≤ w.userEpoch id

theorem user?_eq_some {u : UserRow} (h : w.user? tenantId id = some u) :
    w.users.find? id = some u ∧ u.tenantId = tenantId := by
  obtain ⟨hu, ht⟩ := Option.filter_eq_some_iff.mp h
  exact ⟨hu, by simpa using ht⟩

theorem issuanceInv_prepare {userId : Option Uuid} {subject : String} (hn : NonNegative w)
    (hi : IssuanceInv w p) (hsub : p.subject = none) (hs : snapshot w p.tenantId userId subject = some s) :
    s.userId = userId ∧ IssuanceInv w { p with subject := some s } := by
  have hunlocked : p.locked.isSome = false := by
    cases hl : p.locked.isSome with
    | false => rfl
    | true => exact absurd (hi.subject hl) (by simp [hsub])
  unfold snapshot at hs
  split at hs
  · cases hs
    refine ⟨rfl, hi.client, fun s' hs' u hu => ?_, fun s' hs' hbound => ?_, fun hl => by simp [hunlocked] at hl⟩
    · cases hs'
      cases hu
    · cases hs'
      cases hbound
  · rename_i id
    dsimp only at hs
    generalize hlook : (if subject = uuidText id then none else w.bindings.find? (p.tenantId, subject))
      = bound at hs
    split at hs
    · cases hs
    rename_i hown
    cases hs
    refine ⟨rfl, hi.client, fun s' hs' u hu => ?_, fun s' hs' hbound => ?_, fun hl => by simp [hunlocked] at hl⟩
    · cases hs'
      cases hu
      refine ⟨_, rfl, ?_, fun hl => by simp [hunlocked] at hl⟩
      cases hu' : w.user? p.tenantId id with
      | none => simpa using hn id
      | some => simp [World.userEpoch, (user?_eq_some hu').1]
    · cases hs'
      obtain ⟨b, rfl⟩ := Option.isSome_iff_exists.mp hbound
      simp only [Option.any_some, decide_eq_true_eq, Decidable.not_not] at hown
      split at hlook
      · cases hlook
      · exact ⟨b, hlook, by rw [hown]⟩

theorem issuanceInv_lock {jti : String} (hi : IssuanceInv w p) (hsub : p.subject = some s)
    (hok : lockTokenPrincipals w p.tenantId p.client p.clientEpoch s.userId s.userEpoch = .ok ()) :
    IssuanceInv w { p with locked := some jti } := by
  unfold lockTokenPrincipals at hok
  split at hok
  · cases hok
  rename_i hclient
  refine ⟨?_, fun s' hs' u hu => ?_, hi.bound, fun _ => by simp [hsub]⟩
  · obtain ⟨c, hc, htenant, hid, hle, -⟩ := hi.client
    refine ⟨c, hc, htenant, hid, hle, fun _ => ?_⟩
    simp only [World.client?, hc, Option.filter, htenant, if_true, Option.any_some, Bool.not_eq_true',
      Bool.not_eq_false, Bool.and_eq_true, decide_eq_true_eq] at hclient
    exact hclient.2.symm
  · cases hsub.symm.trans hs'
    obtain ⟨epoch, hepoch, hle, -⟩ := hi.user s hsub u hu
    refine ⟨epoch, hepoch, hle, fun _ => ?_⟩
    simp only [hu] at hok
    split at hok
    · rename_i huser
      obtain ⟨r, hr, hcur⟩ := Option.any_eq_true _ _ |>.mp huser
      obtain ⟨hfind, htenant⟩ := user?_eq_some hr
      simp only [Bool.and_eq_true, decide_eq_true_eq] at hcur
      exact ⟨r, hfind, htenant, Option.some.inj (hcur.2.trans hepoch)⟩
    · cases hok

/-! ## The invariant of the principals -/

def PublicIds (w : World) : Prop :=
  ∀ c ∈ w.clients.rows, ∀ c' ∈ w.clients.rows, c.tenantId = c'.tenantId → c.clientId = c'.clientId → c = c'

structure PrincipalsInv (log : Log) (w : World) : Prop where
  publicIds : PublicIds w
  nonNegative : NonNegative w
  numbered : ∀ p ∈ w.issuances, p.id < w.nextIssuance
  numbers : ∀ p ∈ w.issuances, ∀ q ∈ w.issuances, p.id = q.id → p = q
  issuance : ∀ p ∈ w.issuances, IssuanceInv w p
  /-- The issuance of an authentication is one of its client. -/
  authenticated : ∀ e ∈ log, ∀ i client, e.2 = .authenticated i client →
    i < w.nextIssuance ∧ ∀ p ∈ w.issuances, p.id = i → p.client = client
  prepared : ∀ e ∈ log, ∀ i userId, e.2 = .prepared i userId →
    i < w.nextIssuance ∧ ∀ p ∈ w.issuances, p.id = i → ∃ s, p.subject = some s ∧ s.userId = userId

theorem principalsInv_initial : PrincipalsInv [] World.initial where
  publicIds := fun _ hc => absurd hc List.not_mem_nil
  nonNegative := fun _ => le_refl _
  numbered := fun _ hp => absurd hp List.not_mem_nil
  numbers := fun _ hp => absurd hp List.not_mem_nil
  issuance := fun _ hp => absurd hp List.not_mem_nil
  authenticated := by simp
  prepared := by simp

theorem publicIds_of_effect (hp : PublicIds w) (h : Effect w op (w', out)) : PublicIds w' := by
  cases h with
  | registeredClient hzero hnew hins =>
    intro c hc c' hc' htenant hid
    rcases (Table.mem_of_insert? hins).mp hc with rfl | hold
    · rcases (Table.mem_of_insert? hins).mp hc' with rfl | hold'
      · rfl
      · exact absurd hid.symm (hnew c' hold' htenant.symm)
    · rcases (Table.mem_of_insert? hins).mp hc' with rfl | hold'
      · exact absurd hid (hnew c hold htenant)
      · exact hp c hold c' hold' htenant hid
  | updatedClient =>
    intro c hc c' hc' htenant hid
    obtain ⟨r, hr, rfl⟩ := List.mem_map.mp hc
    obtain ⟨r', hr', rfl⟩ := List.mem_map.mp hc'
    have hsame : r = r' := by
      refine hp r hr r' hr' ?_ ?_
      · split_ifs at htenant <;> exact htenant
      · split_ifs at hid <;> exact hid
    rw [hsame]
  | _ => exact hp

/-- The issuances after a step, each with the one it was before. -/
inductive IssuancesEffect (w : World) : World × Outcome → Prop
  | subset {w' : World} {out : Outcome} : (∀ p ∈ w'.issuances, p ∈ w.issuances) →
      w'.nextIssuance = w.nextIssuance →
      (∀ i client, out ≠ .authenticated i client) → (∀ i userId, out ≠ .prepared i userId) →
      IssuancesEffect w (w', out)
  | started {w' : World} {p : Issuance} : w'.issuances = p :: w.issuances → p.id = w.nextIssuance →
      w'.nextIssuance = w.nextIssuance + 1 → IssuanceInv w' p → p.subject = none →
      IssuancesEffect w (w', .authenticated p.id p.client)
  | replaced {p q : Issuance} {out : Outcome} : p ∈ w.issuances → q.id = p.id → q.client = p.client →
      q.clientEpoch = p.clientEpoch → (p.subject.isSome = true → q.subject = p.subject) →
      IssuanceInv w q → (∀ i client, out ≠ .authenticated i client) →
      (∀ i userId, out = .prepared i userId → i = p.id ∧ ∃ s, q.subject = some s ∧ s.userId = userId) →
      IssuancesEffect w (w.put q, out)

theorem issuancesEffect_of_effect (hi : PrincipalsInv log w) (h : Effect w op (w', out)) :
    IssuancesEffect w (w', out) := by
  have hquiet : Quiet out → (∀ i client, out ≠ .authenticated i client)
      ∧ ∀ i userId, out ≠ .prepared i userId := by
    intro hq
    constructor
    · rintro i client rfl
      exact hq
    · rintro i userId rfl
      exact hq
  cases h with
  | same hq => exact .subset (fun _ hp => hp) rfl (hquiet hq).1 (hquiet hq).2
  | registeredClient | registeredUser => exact .subset (fun _ hp => hp) rfl (by simp) (by simp)
  | facts _ hout =>
    rcases hout with hq | ⟨tokens, rfl⟩
    · exact .subset (fun _ hp => hp) rfl (hquiet hq).1 (hquiet hq).2
    · exact .subset (fun _ hp => hp) rfl nofun nofun
  | updatedClient | updatedUser =>
    exact .subset (fun _ hp => hp) rfl (fun _ _ h => by split_ifs at h) fun _ _ h => by split_ifs at h
  | @authenticated c hc =>
    refine .started (p := ⟨w.nextIssuance, c.tenantId, c.id, c.clientId, c.accessTokenEpoch, none, none⟩)
      rfl rfl rfl ⟨⟨c, Table.find?_of_mem hc, rfl, rfl, le_refl _, fun h => by cases h⟩, ?_, ?_, ?_⟩ rfl
    · exact fun s hs => by cases hs
    · exact fun s hs => by cases hs
    · exact fun h => by cases h
  | @prepared p s userId subject hp hsub hs =>
    obtain ⟨huser, hinv⟩ := issuanceInv_prepare hi.nonNegative (hi.issuance p hp) hsub hs
    refine .replaced hp rfl rfl rfl (fun h => by simp [hsub] at h) hinv (by simp) fun i userId' h => ?_
    cases h
    exact ⟨rfl, s, rfl, huser⟩
  | locked hp hsub hfree hok =>
    exact .replaced hp rfl rfl rfl (fun _ => rfl) (issuanceInv_lock (hi.issuance _ hp) hsub hok)
      (by simp) (by simp)
  | dropped hq => exact .subset (fun p hp => (List.mem_filter.mp hp).1) rfl (hquiet hq).1 (hquiet hq).2
  | committed => exact .subset (fun p hp => (List.mem_filter.mp hp).1) rfl (by simp) (by simp)

theorem mem_put {q r : Issuance} (hr : r ∈ (w.put q).issuances) : r = q ∨ r ∈ w.issuances ∧ r.id ≠ q.id := by
  obtain ⟨p, hp, rfl⟩ := List.mem_map.mp hr
  split_ifs with hid
  · exact .inl rfl
  · exact .inr ⟨hp, hid⟩

/-- An issuance that is open after a step was open before, or it has a new number. -/
theorem origin_of_issuances (h : IssuancesEffect w (w', out)) : w.nextIssuance ≤ w'.nextIssuance
    ∧ ∀ p ∈ w'.issuances, p.id < w.nextIssuance → ∃ q ∈ w.issuances, p.id = q.id ∧ p.client = q.client
      ∧ p.clientEpoch = q.clientEpoch ∧ (q.subject.isSome = true → p.subject = q.subject) := by
  cases h with
  | subset hsub hnext => exact ⟨hnext.ge, fun p hp _ => ⟨p, hsub p hp, rfl, rfl, rfl, fun _ => rfl⟩⟩
  | started hiss hid hnext =>
    refine ⟨by omega, fun p hp hlt => ?_⟩
    rcases List.mem_cons.mp (hiss ▸ hp) with rfl | hp
    · omega
    · exact ⟨p, hp, rfl, rfl, rfl, fun _ => rfl⟩
  | replaced hq hid hclient hepoch hkept =>
    refine ⟨le_refl _, fun p hp _ => ?_⟩
    rcases mem_put hp with rfl | ⟨hp, -⟩
    · exact ⟨_, hq, hid, hclient, hepoch, hkept⟩
    · exact ⟨p, hp, rfl, rfl, rfl, fun _ => rfl⟩

theorem principalsInv_step (hi : PrincipalsInv log w) (h : Effect w op (w', out)) :
    PrincipalsInv ((op, out) :: log) w' := by
  have hl := later_of_effect h
  have hn : NonNegative w' := fun id => (hi.nonNegative id).trans (hl.userEpoch id)
  have hpub := publicIds_of_effect hi.publicIds h
  have hkeep : ∀ p ∈ w.issuances, IssuanceInv w' p :=
    fun p hp => (hi.issuance p hp).later hp hl (guarded_of_effect h)
  have heffect := issuancesEffect_of_effect hi h
  -- what the log says of an issuance stays
  obtain ⟨hle, horigin⟩ := origin_of_issuances heffect
  have hauthenticated : ∀ e ∈ log, ∀ i client, e.2 = .authenticated i client →
      i < w'.nextIssuance ∧ ∀ p ∈ w'.issuances, p.id = i → p.client = client := by
    intro e he i client hout
    obtain ⟨hlt, hall⟩ := hi.authenticated e he i client hout
    refine ⟨by omega, fun p hp heq => ?_⟩
    obtain ⟨q, hq, hid, hclient, -⟩ := horigin p hp (heq ▸ hlt)
    exact hclient.trans (hall q hq (hid.symm.trans heq))
  have hprepared : ∀ e ∈ log, ∀ i userId, e.2 = .prepared i userId →
      i < w'.nextIssuance ∧ ∀ p ∈ w'.issuances, p.id = i → ∃ s, p.subject = some s ∧ s.userId = userId := by
    intro e he i userId hout
    obtain ⟨hlt, hall⟩ := hi.prepared e he i userId hout
    refine ⟨by omega, fun p hp heq => ?_⟩
    obtain ⟨q, hq, hid, -, -, hkept⟩ := horigin p hp (heq ▸ hlt)
    obtain ⟨s, hs, huser⟩ := hall q hq (hid.symm.trans heq)
    exact ⟨s, (hkept (by simp [hs])).trans hs, huser⟩
  cases heffect with
  | subset hsub hnext hnoa hnop =>
    exact ⟨hpub, hn, fun p hp => hnext ▸ hi.numbered p (hsub p hp),
      fun p hp q hq => hi.numbers p (hsub p hp) q (hsub q hq), fun p hp => hkeep p (hsub p hp),
      List.forall_mem_cons.mpr ⟨fun i client hout => absurd hout (hnoa i client), hauthenticated⟩,
      List.forall_mem_cons.mpr ⟨fun i userId hout => absurd hout (hnop i userId), hprepared⟩⟩
  | @started _ p₀ hiss hid hnext hinv hsub =>
    have hold : ∀ p ∈ w'.issuances, p = p₀ ∨ p ∈ w.issuances ∧ p.id < p₀.id := fun p hp =>
      (List.mem_cons.mp (hiss ▸ hp)).imp_right fun hp => ⟨hp, hid ▸ hi.numbered p hp⟩
    refine ⟨hpub, hn, fun p hp => ?_, fun p hp q hq heq => ?_, fun p hp => ?_,
      List.forall_mem_cons.mpr ⟨fun i client hout => ?_, hauthenticated⟩,
      List.forall_mem_cons.mpr ⟨fun i userId hout => (by cases hout), hprepared⟩⟩
    · rcases hold p hp with rfl | ⟨-, hlt⟩ <;> omega
    · rcases hold p hp with rfl | ⟨hp, hlt⟩
      · rcases hold q hq with rfl | ⟨-, hlt⟩
        · rfl
        · omega
      · rcases hold q hq with rfl | ⟨hq, -⟩
        · omega
        · exact hi.numbers p hp q hq heq
    · rcases hold p hp with rfl | ⟨hp, -⟩
      · exact hinv
      · exact hkeep p hp
    · cases hout
      refine ⟨by omega, fun p hp heq => ?_⟩
      rcases hold p hp with rfl | ⟨-, hlt⟩
      · rfl
      · omega
  | @replaced p q _ hp hid hclient hepoch hkept hinv hnoa hprep =>
    refine ⟨hpub, hn, fun r hr => ?_, fun r hr r' hr' heq => ?_, fun r hr => ?_,
      List.forall_mem_cons.mpr ⟨fun i client hout => absurd hout (hnoa i client), hauthenticated⟩,
      List.forall_mem_cons.mpr ⟨fun i userId hout => ?_, hprepared⟩⟩
    · rcases mem_put hr with rfl | ⟨hr, -⟩
      · exact hid ▸ hi.numbered p hp
      · exact hi.numbered r hr
    · rcases mem_put hr with rfl | ⟨hr, hne⟩
      · rcases mem_put hr' with rfl | ⟨-, hne⟩
        · rfl
        · exact absurd heq.symm hne
      · rcases mem_put hr' with rfl | ⟨hr', -⟩
        · exact absurd heq hne
        · exact hi.numbers r hr r' hr' heq
    · rcases mem_put hr with rfl | ⟨hr, -⟩
      · exact ⟨hinv.client, hinv.user, hinv.bound, hinv.subject⟩
      · exact hkeep r hr
    · obtain ⟨rfl, s, hs, huser⟩ := hprep i userId hout
      refine ⟨hi.numbered p hp, fun r hr heq => ?_⟩
      rcases mem_put hr with rfl | ⟨-, hne⟩
      · exact ⟨s, hs, huser⟩
      · exact absurd (heq.trans hid.symm) hne

theorem principalsInv_of_run (hr : Run (exec f) World.initial log w) : PrincipalsInv log w :=
  Run.invariant (fun _ _ _ => trivial) principalsInv_initial
    (fun _ _ _ _ _ _ _ hi he => principalsInv_step hi (effect_of_exec he)) hr trivial

/-! ## Tokens -/

/-- The principals of a token are those that its look-up finds, with epochs that are not behind the
token's. -/
structure Tracks (w : World) (token : IssuedToken) : Prop where
  tenant : token.key.tenantId = uuidText token.tenantId
  client : ∃ c epoch, w.clients.find? token.client = some c ∧ c.tenantId = token.tenantId
    ∧ c.clientId = token.key.clientId ∧ token.key.clientEpoch = some epoch ∧ epoch ≤ c.accessTokenEpoch
  user : ∀ u, token.userId = some u → token.key.subjectType = some "user"
    ∧ ∃ epoch, token.key.userEpoch = some epoch ∧ epoch ≤ w.userEpoch u
  named : ∀ u, token.userId = some u → token.key.userId = some (uuidText u) ∨ (token.key.userId = none
    ∧ ∃ b, w.bindings.find? (token.tenantId, token.key.subject) = some b ∧ b.userId = u)

/-- A principal of the token has left its epoch behind. -/
def Outdated (w : World) (token : IssuedToken) : Prop :=
  (∃ c epoch, w.clients.find? token.client = some c ∧ token.key.clientEpoch = some epoch
    ∧ epoch < c.accessTokenEpoch)
    ∨ ∃ u epoch, token.userId = some u ∧ token.key.userEpoch = some epoch ∧ epoch < w.userEpoch u

variable {token : IssuedToken}

theorem Tracks.later (h : Tracks w token) (hl : Later w w') : Tracks w' token where
  tenant := h.tenant
  client := by
    obtain ⟨c, epoch, hc, htenant, hid, hepoch, hle⟩ := h.client
    obtain ⟨c', hc', hle'⟩ := hl.clients _ _ hc
    exact ⟨c', epoch, hc', hle'.tenant.trans htenant, hle'.publicId.trans hid, hepoch, hle.trans hle'.epoch⟩
  user u hu := by
    obtain ⟨hty, epoch, hepoch, hle⟩ := h.user u hu
    exact ⟨hty, epoch, hepoch, hle.trans (hl.userEpoch u)⟩
  named u hu := by
    refine (h.named u hu).imp_right ?_
    rintro ⟨hnone, b, hb, huser⟩
    obtain ⟨b', hb', rfl⟩ := hl.bindings _ _ hb
    exact ⟨hnone, b, hb', huser⟩

theorem Outdated.later (h : Outdated w token) (hl : Later w w') : Outdated w' token := by
  rcases h with ⟨c, epoch, hc, hepoch, hlt⟩ | ⟨u, epoch, hu, hepoch, hlt⟩
  · obtain ⟨c', hc', hle'⟩ := hl.clients _ _ hc
    exact .inl ⟨c', epoch, hc', hepoch, lt_of_lt_of_le hlt hle'.epoch⟩
  · exact .inr ⟨u, epoch, hu, hepoch, lt_of_lt_of_le hlt (hl.userEpoch u)⟩

theorem binding_of_ensure {u : Uuid} (hi : IssuanceInv w p) (hs : p.subject = some s)
    (hu : s.userId = some u) (hprivate : s.subject ≠ uuidText u)
    (h : ensureSubjectBinding w.bindings p.tenantId s = some bindings) :
    ∃ b, bindings.find? (p.tenantId, s.subject) = some b ∧ b.userId = u := by
  simp only [ensureSubjectBinding, hu] at h
  split at h
  · rename_i hown
    cases h
    obtain ⟨b, hb, huser⟩ := hi.bound s hs (by simpa [hprivate] using hown)
    exact ⟨b, hb, Option.some.inj (huser.symm.trans hu)⟩
  split at h
  · rename_i hins
    cases h
    exact ⟨⟨p.tenantId, s.subject, u⟩, by rw [Table.find?_of_insert? hins]; exact if_pos rfl, rfl⟩
  · split at h
    · rename_i hany
      cases h
      obtain ⟨b, hb, huser⟩ := (Option.any_eq_true _ _).mp hany
      exact ⟨b, hb, of_decide_eq_true huser⟩
    · cases h

theorem tracks_of_committed (hi : PrincipalsInv log w) (hout : out = .committed token)
    (h : Effect w op (w', out)) : Tracks w' token := by
  cases h
  case committed p s jti bindings hp hs hlock hb =>
    cases hout
    have hinv := hi.issuance p hp
    obtain ⟨c, hc, htenant, hid, hle, -⟩ := hinv.client
    refine ⟨rfl, ⟨c, p.clientEpoch, hc, htenant, hid, rfl, hle⟩, fun u hu => ?_, fun u hu => ?_⟩
    · obtain ⟨epoch, hepoch, hle', -⟩ := hinv.user s hs u hu
      have hsome : s.userId = some u := hu
      exact ⟨by simp [lookupKey, hsome], epoch, hepoch, hle'⟩
    · have hsome : s.userId = some u := hu
      by_cases hprivate : s.subject = uuidText u
      · exact .inl (by simp [lookupKey, hsome, hprivate])
      · exact .inr ⟨by simp [lookupKey, hsome, Ne.symm hprivate], binding_of_ensure hinv hs hsome hprivate hb⟩
  case updatedClient | updatedUser => split_ifs at hout
  all_goals simp_all [Quiet]

/-- The look-up finds the principals of the token, and they are no longer current. -/
theorem revoked_of_outdated (hp : PublicIds w) (ht : Tracks w token) (ho : Outdated w token) :
    accessTokenStateRevoked f w token.tenantId token.key = true := by
  obtain ⟨c, epoch, hc, htenant, hid, hepoch, hle⟩ := ht.client
  -- whatever row the look-up takes for the client, it is `c`
  have hcurrent : ∀ userId, (∀ u, token.userId = some u → w.tokenUser? token.tenantId userId token.key.subject
      = w.user? token.tenantId u) → w.principalsCurrent token.tenantId userId epoch token.key = false := by
    intro userId huser
    rw [World.principalsCurrent, List.any_eq_false]
    intro c' hc' hall
    simp only [Bool.and_eq_true, decide_eq_true_eq] at hall
    obtain ⟨⟨⟨⟨htenant', hid'⟩, hactive⟩, hsame⟩, hsub⟩ := hall
    obtain rfl : c' = c := hp c' hc' c (Table.mem_of_find? hc) (htenant'.trans htenant.symm) (hid'.trans hid.symm)
    rcases ho with ⟨c₂, epoch₂, hc₂, hepoch₂, hlt⟩ | ⟨u, epoch₂, hu, hepoch₂, hlt⟩
    · cases hc.symm.trans hc₂
      cases hepoch.symm.trans hepoch₂
      omega
    · obtain ⟨hty, -⟩ := ht.user u hu
      rw [hty, huser u hu] at hsub
      simp only [Option.some.injEq, Bool.or_eq_true, Bool.and_eq_true, decide_eq_true_eq] at hsub
      rcases hsub with ⟨⟨hty', -⟩, -⟩ | ⟨-, hany⟩
      · exact absurd hty' (by decide)
      obtain ⟨r, hr, hcur⟩ := (Option.any_eq_true _ _).mp hany
      simp only [Bool.and_eq_true, decide_eq_true_eq] at hcur
      have hequal : epoch₂ = r.accessTokenEpoch := Option.some.inj (hepoch₂.symm.trans hcur.2.symm)
      simp only [World.userEpoch, (user?_eq_some hr).1, Option.map_some, Option.getD_some] at hlt
      omega
  unfold accessTokenStateRevoked
  rw [hepoch]
  dsimp only
  split_ifs
  · rfl
  cases hkey : token.key.userId with
  | none =>
    have hnone : w.principalsCurrent token.tenantId none epoch token.key = false := by
      refine hcurrent none fun u hu => ?_
      rcases ht.named u hu with hsome | ⟨-, b, hb, huser⟩
      · cases hkey.symm.trans hsome
      · simp [World.tokenUser?, hb, huser]
    simp [hnone]
  | some text =>
    cases hparse : f.parse text with
    | none => simp [hparse]
    | some id =>
      have hsome : w.principalsCurrent token.tenantId (some id) epoch token.key = false := by
        refine hcurrent (some id) fun u hu => ?_
        rcases ht.named u hu with heq | ⟨hnone, -⟩
        · cases hkey.symm.trans heq
          cases hparse.symm.trans (f.parse_text u)
          simp [World.tokenUser?]
        · cases hkey.symm.trans hnone
      simp [hparse, hsome]

/-- The deactivation is one of a principal of the token. -/
def Deactivates (out : Outcome) (token : IssuedToken) : Prop :=
  out = .deactivatedClient token.client ∨ ∃ u, token.userId = some u ∧ out = .deactivatedUser u

theorem outdated_of_deactivated (ht : Tracks w token) (hd : Deactivates out token)
    (h : Effect w op (w', out)) : Outdated w' token := by
  rcases hd with hout | ⟨u, hu, hout⟩
  · obtain ⟨c, c', hc, hc', hlt, -⟩ := epoch_of_deactivatedClient hout h
    obtain ⟨c₀, epoch, hc₀, -, -, hepoch, hle⟩ := ht.client
    cases hc.symm.trans hc₀
    exact .inl ⟨c', epoch, hc', hepoch, lt_of_le_of_lt hle hlt⟩
  · obtain ⟨hlt, -⟩ := epoch_of_deactivatedUser hout h
    obtain ⟨-, epoch, hepoch, hle⟩ := ht.user u hu
    exact .inr ⟨u, epoch, hu, hepoch, lt_of_le_of_lt hle hlt⟩

theorem tracks_of_run (hr : Run (exec f) World.initial log w) {e : Op × Outcome} (he : e ∈ log)
    (hout : e.2 = .committed token) : Tracks w token := by
  obtain ⟨newer, older, rfl⟩ := List.append_of_mem he
  obtain ⟨w₁, hr₁, hrest⟩ := hr.split
  cases hr₁ with
  | cons hr₀ hexec =>
    exact (tracks_of_committed (principalsInv_of_run hr₀) hout (effect_of_exec hexec)).later (later_of_run hrest)

/-! ## Issuances behind a deactivation -/

/-- The issuance, as far as it is still open, has an epoch that is behind. -/
structure Stale (i : Nat) (w : World) : Prop where
  numbered : i < w.nextIssuance
  behind : ∀ p ∈ w.issuances, p.id = i →
    (∃ c, w.clients.find? p.client = some c ∧ p.clientEpoch < c.accessTokenEpoch)
      ∨ ∃ s u epoch, p.subject = some s ∧ s.userId = some u ∧ s.userEpoch = some epoch ∧ epoch < w.userEpoch u

variable {i : Nat}

theorem stale_step (hi : PrincipalsInv log w) (hs : Stale i w) (h : Effect w op (w', out)) : Stale i w' := by
  have hl := later_of_effect h
  have hlt := hs.numbered
  obtain ⟨hle, horigin⟩ := origin_of_issuances (issuancesEffect_of_effect hi h)
  refine ⟨by omega, fun p hp heq => ?_⟩
  obtain ⟨q, hq, hid, hclient, hepoch, hkept⟩ := horigin p hp (heq ▸ hlt)
  rw [hclient, hepoch]
  rcases hs.behind q hq (hid.symm.trans heq) with ⟨c, hc, hlt⟩ | ⟨s, u, epoch, hsub, hu, hread, hlt⟩
  · obtain ⟨c', hc', hle⟩ := hl.clients _ _ hc
    exact .inl ⟨c', hc', lt_of_lt_of_le hlt hle.epoch⟩
  · exact .inr ⟨s, u, epoch, (hkept (by simp [hsub])).trans hsub, hu, hread, lt_of_lt_of_le hlt (hl.userEpoch u)⟩

/-- A stale issuance is not committed: under its locks it would be current. -/
theorem not_committed_of_stale (hi : PrincipalsInv log w) (hs : Stale i w)
    (h : Effect w op (w', out)) (hout : out = .committed token) : token.issuance ≠ i := by
  cases h
  case committed p s jti bindings hp hsub hlock hb =>
    cases hout
    intro heq
    have hinv := hi.issuance p hp
    have hlocked : p.locked.isSome = true := by simp [hlock]
    rcases hs.behind p hp heq with ⟨c, hc, hlt⟩ | ⟨s', u, epoch, hsub', hu, hepoch, hlt⟩
    · obtain ⟨c', hc', -, -, -, hcur⟩ := hinv.client
      cases hc.symm.trans hc'
      exact absurd (hcur hlocked) (ne_of_lt hlt)
    · obtain ⟨epoch', hepoch', -, hcur⟩ := hinv.user s' hsub' u hu
      obtain ⟨r, hr, -, hcur⟩ := hcur hlocked
      cases hepoch.symm.trans hepoch'
      simp only [World.userEpoch, hr, Option.map_some, hcur] at hlt
      exact absurd hlt (lt_irrefl _)
  case updatedClient | updatedUser => split_ifs at hout
  all_goals simp_all [Quiet]

/-- An issuance that is stale at a point of a history is not committed after it. -/
theorem fenced_of_stale {newer older : Log} (hr : Run (exec f) World.initial (newer ++ older) w)
    (hstale : ∀ w₁, Run (exec f) World.initial older w₁ → Stale i w₁) :
    Stale i w ∧ ∀ e ∈ newer, ∀ token, e.2 = .committed token → token.issuance ≠ i := by
  induction newer generalizing w with
  | nil => exact ⟨hstale w hr, by simp⟩
  | cons e newer ih =>
    cases hr with
    | cons hr₀ hexec =>
      obtain ⟨hs, hall⟩ := ih hr₀
      have hi := principalsInv_of_run hr₀
      have heff := effect_of_exec hexec
      refine ⟨stale_step hi hs heff, fun e' he' token hout => ?_⟩
      rcases List.mem_cons.mp he' with rfl | he'
      · exact not_committed_of_stale hi hs heff hout
      · exact hall e' he' token hout

/-! ## Result -/

/-- Deactivations are permanent, in the history `log` that ends in `w`. -/
structure DeactivationPermanent (f : Formats) (log : Log) (w : World) : Prop where
  /-- A token whose issuance was committed before a deactivation of its client or user is reported revoked. -/
  revoked : ∀ newer d older, log = newer ++ d :: older → ∀ e ∈ older, ∀ token, e.2 = .committed token →
    Deactivates d.2 token → isRevoked f w token.key = some true
  /-- An issuance that read the epoch of its client before a deactivation of it is not committed after it. -/
  clientFence : ∀ newer d older, log = newer ++ d :: older → ∀ e ∈ older, ∀ i client, e.2 = .authenticated i client
    → d.2 = .deactivatedClient client → ∀ e' ∈ newer, ∀ token, e'.2 = .committed token → token.issuance ≠ i
  /-- The same for the epoch of its user. -/
  userFence : ∀ newer d older, log = newer ++ d :: older → ∀ e ∈ older, ∀ i user, e.2 = .prepared i (some user) →
    d.2 = .deactivatedUser user → ∀ e' ∈ newer, ∀ token, e'.2 = .committed token → token.issuance ≠ i

/-- **A deactivation is permanent**, in every history of issuances, deactivations and
reactivations. -/
theorem deactivation_permanent (f : Formats) (log : Log) (w : World)
    (hr : Run (exec f) World.initial log w) : DeactivationPermanent f log w where
  revoked := by
    rintro newer d older rfl e hmem token hout hd
    obtain ⟨w₁, hr₁, hrest⟩ := hr.split
    cases hr₁ with
    | cons hr₀ hexec =>
      have htracks := tracks_of_run hr₀ hmem hout
      have heff := effect_of_exec hexec
      have hlater := (later_of_effect heff).trans (later_of_run hrest)
      have houtdated := (outdated_of_deactivated htracks hd heff).later (later_of_run hrest)
      rw [isRevoked, htracks.tenant, f.parse_text, Option.map_some,
        revoked_of_outdated (principalsInv_of_run hr).publicIds (htracks.later hlater) houtdated]
  clientFence := by
    rintro newer d older rfl e hmem i client hout hd
    refine (fenced_of_stale hr fun w₁ hr₁ => ?_).2
    cases hr₁ with
    | cons hr₀ hexec =>
      have hi := principalsInv_of_run hr₀
      obtain ⟨hlt, hclient⟩ := hi.authenticated e hmem i client hout
      have heff := effect_of_exec hexec
      obtain ⟨c, c', hc, hc', hepoch, hsame⟩ := epoch_of_deactivatedClient hd heff
      refine ⟨lt_of_lt_of_le hlt (origin_of_issuances (issuancesEffect_of_effect hi heff)).1,
        fun p hp hid => .inl ⟨c', ?_⟩⟩
      rw [hsame] at hp
      obtain rfl := hclient p hp hid
      obtain ⟨c₀, hc₀, -, -, hle, -⟩ := (hi.issuance p hp).client
      cases hc.symm.trans hc₀
      exact ⟨hc', lt_of_le_of_lt hle hepoch⟩
  userFence := by
    rintro newer d older rfl e hmem i user hout hd
    refine (fenced_of_stale hr fun w₁ hr₁ => ?_).2
    cases hr₁ with
    | cons hr₀ hexec =>
      have hi := principalsInv_of_run hr₀
      obtain ⟨hlt, hsubject⟩ := hi.prepared e hmem i (some user) hout
      have heff := effect_of_exec hexec
      obtain ⟨hepoch, hsame⟩ := epoch_of_deactivatedUser hd heff
      refine ⟨lt_of_lt_of_le hlt (origin_of_issuances (issuancesEffect_of_effect hi heff)).1,
        fun p hp hid => .inr ?_⟩
      rw [hsame] at hp
      obtain ⟨s, hs, hu⟩ := hsubject p hp hid
      obtain ⟨epoch, hread, hle, -⟩ := (hi.issuance p hp).user s hs user hu
      exact ⟨s, user, epoch, hs, hu, hread, lt_of_le_of_lt hle hepoch⟩

/-! ## A deactivation between two issuances -/

def pauseFormats : Formats where
  blake3 := fun s => BitVec.ofNat 256 s.length
  parse := parseUuid
  parse_text := parseUuid_uuidText

/-- The first issuance is committed before the user is deactivated, the second is open then. Both
meet the reactivated user, and a third one is committed. -/
def pauseOps : List Op :=
  [.registerClient 7 1 "web" true, .registerUser 5 1 true,
    .authenticate 1 "web", .prepare 0 (some 5) (uuidText 5), .lock 0 "first", .commit 0,
    .authenticate 1 "web", .prepare 1 (some 5) (uuidText 5),
    .updateUser 5 false, .updateUser 5 true, .lock 1 "second", .commit 1,
    .authenticate 1 "web", .prepare 2 (some 5) "pairwise", .lock 2 "third", .commit 2].map fun action =>
      ⟨action, 0⟩

def pause : Log × World := execAll (exec pauseFormats) World.initial [] pauseOps

/-- The numbers of the committed issuances with the answers for their tokens, newest first. -/
def pauseAnswers : List (Nat × Option Bool) :=
  pause.1.filterMap fun e => match e.2 with
    | .committed token => some (token.issuance, isRevoked pauseFormats pause.2 token.key)
    | _ => none

theorem deactivation_permanent_pause :
    DeactivationPermanent pauseFormats pause.1 pause.2 ∧ pauseAnswers = [(2, some false), (0, some true)] :=
  ⟨deactivation_permanent pauseFormats pause.1 pause.2 (run_execAll _ _), by decide +kernel⟩

end NazoAuth.Revocation
