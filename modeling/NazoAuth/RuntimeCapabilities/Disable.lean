import NazoAuth.RuntimeCapabilities.Drain
import NazoAuth.RuntimeCapabilities.Registry

/-!
# Runtime capabilities — a disable waits for the leases

The reconciliation of a module publishes snapshots that differ from the current one in that module
only (`MayIssue`), so the reconciliations of other modules and the callers keep the module in the
sets where it is, and take no lease of it when it is in none (`Rely`). A disable closes the
admission, waits for the leases, and admits nothing until it returns.
-/

namespace NazoAuth.RuntimeCapabilities

open Lib
open Prog hiding pure

/-! ## What the others do -/

section Others

variable {m m' : ModuleId} {store store' store'' : SnapshotStore}

/-- The snapshots have the same modules, except for one. -/
def SameExcept (m : ModuleId) (current next : ActiveModuleSnapshot) : Prop :=
  ∀ module, module ≠ m → (module ∈ next.accepting ↔ module ∈ current.accepting)
    ∧ (module ∈ next.draining ↔ module ∈ current.draining)

/-- What the reconciliation of a module may issue: a publication that succeeds is about that
module. -/
def MayIssue (m : ModuleId) (c : Command) (store : SnapshotStore) : Prop :=
  ∀ expected next, c = .compareAndPublish expected next → store.current.revision = expected →
    SameExcept m store.current next

/-- What the reconciliation of a module relies on. -/
structure Kept (m : ModuleId) (store store' : SnapshotStore) : Prop where
  inv : Inv store'
  published : store.published <:+ store'.published
  accepting : m ∈ store'.current.accepting ↔ m ∈ store.current.accepting
  draining : m ∈ store'.current.draining ↔ m ∈ store.current.draining
  gone : Gone m store → Gone m store'

def Rely (m : ModuleId) (store store' : SnapshotStore) : Prop := Inv store → Kept m store store'

theorem rely_refl (store : SnapshotStore) : Rely m store store :=
  fun hinv => ⟨hinv, List.suffix_rfl, Iff.rfl, Iff.rfl, id⟩

theorem rely_trans (store store' store'' : SnapshotStore) (h : Rely m store store')
    (h' : Rely m store' store'') : Rely m store store'' := by
  intro hinv
  have hkept := h hinv
  have hkept' := h' hkept.inv
  exact ⟨hkept'.inv, hkept.published.trans hkept'.published, hkept'.accepting.trans hkept.accepting,
    hkept'.draining.trans hkept.draining, fun hgone => hkept'.gone (hkept.gone hgone)⟩

theorem rely_of_exec {op : Op} {out : Outcome} (he : exec store op = (store', out))
    (hpublish : ∀ expected next, op = .publish expected next → store.current.revision = expected →
      (m ∈ next.accepting ↔ m ∈ store.current.accepting)
    ∧ (m ∈ next.draining ↔ m ∈ store.current.draining)) : Rely m store store' := by
  intro hinv
  have hsame : store.published <:+ store'.published ∧ (m ∈ store'.current.accepting ↔ m ∈ store.current.accepting)
      ∧ (m ∈ store'.current.draining ↔ m ∈ store.current.draining) := by
    rcases published_of_exec hinv he with ⟨hpublished, hcurrent⟩ | ⟨expected, next, rfl, rfl, h⟩
    · rw [hpublished, hcurrent]
      exact ⟨List.suffix_rfl, Iff.rfl, Iff.rfl⟩
    · rw [h.store']
      exact ⟨List.suffix_cons next store.published, hpublish expected next rfl h.expected⟩
  obtain ⟨hpublished, haccepting, hdraining⟩ := hsame
  refine ⟨inv_of_exec hinv he, hpublished, haccepting, hdraining, fun hgone => gone_of_exec hinv he hgone ?_⟩
  exact ⟨fun hmem => hgone.1.1 (haccepting.mp hmem), fun hmem => hgone.1.2 (hdraining.mp hmem)⟩

variable {E : Type} {c : Command}

theorem rely_of_handle {a : Answers E} (hmay : MayIssue m' c store) (hne : m ≠ m') :
    Rely m store (handle store c a).1 := by
  cases c with
  | compareAndPublish expected next =>
    refine rely_of_exec (show exec store (.publish expected next) = _ from rfl) fun expected' next' hop hcurrent =>
      ?_
    cases hop
    exact hmay expected next rfl hcurrent m hne
  | waitUntilIdle module => exact rely_of_exec (show exec store (.wait a.waker module) = _ from rfl) nofun
  | _ => exact rely_refl store

theorem rely_of_pending {a : Answers E} (h : handle store c a = (store', none)) : Rely m store store' := by
  cases c with
  | waitUntilIdle module =>
    obtain ⟨rfl, -⟩ := Prod.mk.inj h
    exact rely_of_exec (show exec store (.wait a.waker module) = _ from rfl) nofun
  | _ => exact absurd (congrArg Prod.snd h) nofun

end Others

/-! ## Specifications -/

section Specs

variable {E : Type} {m : ModuleId} {α β : Type} {P Q : SnapshotStore → Prop} {registry : Registry}

/-- What holds of a reconciliation of the module, from a precondition on, in all interleavings. -/
abbrev Holds (m : ModuleId) (P : SnapshotStore → Prop) (task : Prog Command (Reply E) β α)
    (Q : Except β α → SnapshotStore → Prop) : Prop :=
  Triple (fun store c (a : Answers E) => handle store c a) (Rely m) (MayIssue m) P task Q

/-- An assertion of reachable stores that the others keep. -/
structure Kind (m : ModuleId) (P : SnapshotStore → Prop) : Prop where
  inv : ∀ store, P store → Inv store
  stable : Stable (Rely m) P

def Out (m : ModuleId) (store : SnapshotStore) : Prop := Inv store ∧ store.current.Excludes m

/-- Unless the policy is to disable at once, the module is gone. -/
def Waited (registry : Registry) (m : ModuleId) (store : SnapshotStore) : Prop :=
  Inv store ∧ (registry.policy m ≠ .immediate → Gone m store)

def Post (registry : Registry) (m : ModuleId) (r : Except (RegistryError E) ReconcileOutcome)
    (store : SnapshotStore) : Prop :=
  Inv store ∧ (r = .ok .disabled → registry.policy m ≠ .immediate → Gone m store)

theorem kind_inv : Kind m Inv := ⟨fun _ h => h, fun _ _ hrely hinv => (hrely hinv).inv⟩

theorem kind_out : Kind m (Out m) where
  inv _ h := h.1
  stable store store' hrely h := by
    have hkept := hrely h.1
    exact ⟨hkept.inv, fun hmem => h.2.1 (hkept.accepting.mp hmem), fun hmem => h.2.2 (hkept.draining.mp hmem)⟩

theorem kind_post (r : Except (RegistryError E) ReconcileOutcome) : Kind m (Post registry m r) where
  inv _ h := h.1
  stable store store' hrely h := by
    have hkept := hrely h.1
    exact ⟨hkept.inv, fun hr hpolicy => hkept.gone (h.2 hr hpolicy)⟩

theorem kind_waited : Kind m (Waited registry m) where
  inv _ h := h.1
  stable store store' hrely h := by
    have hkept := hrely h.1
    exact ⟨hkept.inv, fun hpolicy => hkept.gone (h.2 hpolicy)⟩

variable {store : SnapshotStore}

theorem post_error (hP : Kind m P) (e : RegistryError E) (h : P store) : Post registry m (.error e) store :=
  ⟨hP.inv store h, fun heq => by cases heq⟩

variable {outcome : ReconcileOutcome}

theorem post_other (hP : Kind m P) (hne : outcome ≠ .disabled) (h : P store) :
    Post registry m (.ok outcome : Except (RegistryError E) ReconcileOutcome) store :=
  ⟨hP.inv store h, fun heq => absurd (Except.ok.inj heq) hne⟩

/-- What a disable returns with. -/
def Stopped (registry : Registry) (m : ModuleId) (r : Except (RegistryError E) ReconcileOutcome)
    (store : SnapshotStore) : Prop :=
  Post registry m r store ∧ r ≠ .ok .enabled

theorem stopped_error (hP : Kind m P) (e : RegistryError E) (store : SnapshotStore) (h : P store) :
    Stopped registry m (.error e) store :=
  ⟨post_error hP e h, fun heq => by cases heq⟩

theorem stopped_other (hP : Kind m P) (hne : outcome ≠ .disabled ∧ outcome ≠ .enabled) (h : P store) :
    Stopped registry m (.ok outcome : Except (RegistryError E) ReconcileOutcome) store :=
  ⟨post_other hP hne.1 h, fun heq => hne.2 (Except.ok.inj heq)⟩

/-! ### Commands -/

def Command.isExternal : Command → Bool
  | .compareAndPublish _ _ => false
  | .waitUntilIdle _ => false
  | _ => true

/-- A task that issues no other commands. -/
abbrev QuietTask (m : ModuleId) (task : Prog Command (Reply E) β α) : Prop :=
  Quiet (fun store c (a : Answers E) => handle store c a) (MayIssue m) task

theorem quiet_perform {c : Command} (hc : c.isExternal = true) : QuietTask m (perform c : Task E (Reply E c)) := by
  cases c with
  | compareAndPublish | waitUntilIdle => cases hc
  | _ => exact ⟨⟨fun _ => nofun, fun _ _ => rfl⟩, fun _ => trivial⟩

theorem quiet_ofExcept {x : Except β α} : QuietTask m (.ofExcept x : Prog Command (Reply E) β α) := by
  cases x <;> trivial

theorem quiet_repository (x : Except E α) : QuietTask m (repository x) := quiet_ofExcept

theorem quiet_revisionIsCurrent : QuietTask m (Registry.revisionIsCurrent m revision : Task E Bool) :=
  quiet_bind (quiet_perform rfl) quiet_repository

theorem quiet_persistState : QuietTask m (registry.persistState module revision w : Task E _) :=
  quiet_bind (quiet_perform rfl) fun _ => quiet_bind (quiet_perform rfl) quiet_repository

theorem quiet_discardStale : QuietTask m (registry.discardStale module revision observed : Task E Unit) :=
  quiet_bind (quiet_perform rfl) fun _ => quiet_bind (quiet_perform rfl) quiet_repository

theorem quiet_firstAmong : QuietTask m (Registry.firstAmong hit modules : Task E _) := by
  unfold Registry.firstAmong
  split
  · trivial
  · exact quiet_bind (quiet_perform rfl) fun _ => quiet_bind (quiet_perform rfl) fun _ =>
      quiet_bind (quiet_repository _) fun _ => quiet_ofExcept

theorem quiet_drainDeadline : QuietTask m (registry.drainDeadline module revision current : Task E _) := by
  unfold Registry.drainDeadline
  split
  · split
    · trivial
    · exact quiet_bind (quiet_perform rfl) fun _ => trivial
  · trivial

theorem quiet_drainStored : QuietTask m (registry.drainStored module revision deadline : Task E _) := by
  unfold Registry.drainStored
  split
  · refine quiet_bind (quiet_perform rfl) fun _ => quiet_bind (quiet_perform rfl) fun answer => ?_
    rcases answer with code | _ | _ <;> trivial
  · trivial

theorem quiet_runtimeReady : QuietTask m
    (registry.runtimeReady module canRestore completedEnable : Task E Bool) := by
  unfold Registry.runtimeReady
  split
  · exact quiet_bind (quiet_perform rfl) fun _ => quiet_bind (quiet_repository _) fun _ => trivial
  · trivial

theorem quiet_dependenciesReady : QuietTask m (registry.dependenciesReady module wanted : Task E Bool) := by
  unfold Registry.dependenciesReady
  split
  · exact quiet_bind quiet_firstAmong fun _ => trivial
  · trivial

theorem quiet_persistFailure : QuietTask m (registry.persistFailure current code : Task E Bool) := by
  refine quiet_bind quiet_persistState fun outcome => ?_
  cases outcome <;> trivial

variable {task : Prog Command (Reply E) β α} {γ : Type} {m : ModuleId} {set : Finset ModuleId}

theorem holds_after (hP : Kind m P) {f : α → Prog Command (Reply E) β γ}
    {R : Except β γ → SnapshotStore → Prop} (hquiet : QuietTask m task)
    (herror : ∀ e store, P store → R (.error e) store) (hf : ∀ a, Holds m P (f a) R) :
    Holds m P (task >>= f) R := by
  refine triple_bind rely_refl (fun _ => P) (triple_post (triple_quiet hP.stable hquiet) fun r store h => ?_) hf
  cases r with
  | ok => exact h
  | error e => exact herror e store h

/-! ### Publications and waits -/

theorem mem_setMembership {module : ModuleId} {present : Bool} (hne : module ≠ m) :
    module ∈ setMembership set m present ↔ module ∈ set := by
  unfold setMembership
  cases present <;> simp [hne]

theorem notMem_setMembership : m ∉ setMembership set m false := by
  simp [setMembership]

theorem sameExcept_nextSnapshot (current : ActiveModuleSnapshot) (accepting draining : Bool) :
    SameExcept m current (nextSnapshot current m accepting draining) :=
  fun _ hne => ⟨mem_setMembership hne, mem_setMembership hne⟩

theorem excludes_nextSnapshot (current : ActiveModuleSnapshot) : (nextSnapshot current m false false).Excludes m :=
  ⟨notMem_setMembership, notMem_setMembership⟩

/-- A publication of a snapshot with a later revision fails only when another one is current. -/
theorem published_of_current {next : ActiveModuleSnapshot} (hlater : store.current.revision < next.revision) :
    (exec store (.publish store.current.revision next)).2 = .published := by
  simp [exec, SnapshotStore.compareAndPublish, Nat.not_le.mpr hlater]

/-- What holds after an attempt that succeeded, and after one that did not. -/
def Attempted (P Q : SnapshotStore → Prop) : Bool → SnapshotStore → Prop
  | true => Q
  | false => P

variable {accepting draining : Bool}

theorem holds_published (hP : Kind m P) (hQ : Kind m Q) {done : Bool} {store' : SnapshotStore}
    {current : ActiveModuleSnapshot} {a : Answers E}
    (hpublish : ∀ store store', P store →
      Publishes store store.current.revision (nextSnapshot store.current m accepting draining) store' → Q store')
    (R : RegistryError E → SnapshotStore → Prop) (hstore : P store) (hloaded : current ∈ store.published)
    (he : handle store (.compareAndPublish current.revision (nextSnapshot current m accepting draining)) a
    = (store', some done)) : Ensures (fun store c (a : Answers E) => handle store c a) (Rely m)
      (MayIssue m) (fun (r : Except (RegistryError E) Bool) store => match r with
        | .ok done => Attempted P Q done store
        | .error e => R e store) (.pure done) store' := by
  have hinv := hP.inv store hstore
  obtain ⟨rfl, hdone⟩ := Prod.mk.inj he
  cases hdone
  by_cases hrevision : current.revision = store.current.revision
  · obtain rfl := hinv.eq_current hloaded hrevision
    have hout : (exec store (.publish store.current.revision (nextSnapshot store.current m accepting draining))).2
        = .published :=
      published_of_current (Nat.lt_succ_self _)
    rw [decide_eq_true hout]
    refine triple_pure hQ.stable (fun _ h => h) _ (hpublish store _ hstore (publishes_of_exec hinv ?_))
    exact Prod.ext rfl hout
  · have hout : (exec store (.publish current.revision (nextSnapshot current m accepting draining))).2
        ≠ .published := by
      intro hout
      have hpublishes := publishes_of_exec hinv (Prod.ext rfl hout)
      exact hrevision hpublishes.expected.symm
    rw [decide_eq_false hout]
    have hexec : exec store (.publish current.revision (nextSnapshot current m accepting draining)) = (_, _) := rfl
    refine triple_pure hP.stable (fun _ h => h) _
      (hP.stable store _ (rely_of_exec hexec fun expected next hop hcurrent => ?_) hstore)
    cases hop
    exact absurd hcurrent.symm hrevision

/-- Why a publication fails: its rounds are used up, or the revisions are. -/
def Unpublished (e : RegistryError E) (store : SnapshotStore) : Prop := e = .unfinished
      ∨ 2 ^ 64 ≤ store.current.revision + 1

/-- **The loop of a publication.** The snapshot that is published follows the one that it replaces:
a round in which another one has come in between publishes nothing. -/
theorem holds_publishLoop (hP : Kind m P) (hQ : Kind m Q) (hpublish : ∀ store store', P store →
      Publishes store store.current.revision (nextSnapshot store.current m accepting draining) store' → Q store')
    (rounds : Nat) :
    Holds m P (publishLoop m accepting draining rounds : Task E Unit) fun r store => match r with
      | .ok _ => Q store
      | .error e => P store ∧ Unpublished e store := by
  induction rounds with
  | zero => exact triple_throw hP.stable fun _ h => ⟨h, .inl rfl⟩
  | succ rounds ih =>
    -- the snapshot that was loaded stays among the published ones
    have hloaded : ∀ current, Kind m fun store => P store ∧ current ∈ store.published := fun current =>
      ⟨fun store h => hP.inv store h.1, fun store store' hrely h =>
        ⟨hP.stable store store' hrely h.1, (hrely (hP.inv store h.1)).published.subset h.2⟩⟩
    refine triple_bind rely_refl (fun current store => P store ∧ current ∈ store.published) ?_ fun current => ?_
    · refine triple_call hP.stable (fun _ _ => nofun) fun store h a store' current he => ?_
      obtain ⟨rfl, hcurrent⟩ := Prod.mk.inj he
      cases hcurrent
      exact triple_pure (hloaded _).stable (fun _ h => h) store ⟨h, List.mem_cons_self⟩
    · by_cases hlast : current.revision + 1 < 2 ^ 64
      · rw [if_pos hlast]
        refine triple_bind rely_refl (Attempted P Q) ?_ fun done => ?_
        · refine triple_call (hloaded current).stable (fun store h expected next hc hrevision => ?_)
            fun store h a store' done he => ?_
          · cases hc
            rw [(hP.inv store h.1 |>.eq_current h.2 hrevision.symm)]
            exact sameExcept_nextSnapshot _ _ _
          · exact holds_published hP hQ hpublish (fun e store => P store ∧ Unpublished e store) h.1 h.2 he
        · cases done with
          | true => exact triple_pure hQ.stable fun _ h => h
          | false => exact ih
      · rw [if_neg hlast]
        refine triple_throw (hloaded current).stable fun store h => ⟨h.1, .inr ?_⟩
        have hle := (hP.inv store h.1).revision_le h.2
        omega

/-- The module accepts work only if it was asked for. -/
def AcceptsAs (m : ModuleId) (accepting : Bool) (store : SnapshotStore) : Prop :=
  Inv store ∧ (m ∈ store.current.accepting → accepting = true)

theorem kind_acceptsAs (accepting : Bool) : Kind m (AcceptsAs m accepting) where
  inv _ h := h.1
  stable store store' hrely h := by
    have hkept := hrely h.1
    exact ⟨hkept.inv, fun hmem => h.2 (hkept.accepting.mp hmem)⟩

theorem Kind.and (hP : Kind m P) (hQ : Kind m Q) : Kind m fun store => P store ∧ Q store where
  inv store h := hP.inv store h.1
  stable store store' hrely h := ⟨hP.stable store store' hrely h.1, hQ.stable store store' hrely h.2⟩

/-- A publication that keeps an assertion. -/
def Publishable (E : Type) (registry : Registry) (m : ModuleId) (P : SnapshotStore → Prop)
    (accepting draining : Bool) : Prop :=
  Holds m P (registry.publish m accepting draining : Task E Unit) fun r store => P store ∧ match r with
    | .ok _ => AcceptsAs m accepting store
    | .error e => Unpublished e store

theorem publishable_of_publishes (hP : Kind m P)
    (h : ∀ store store', P store → Publishes store store.current.revision (nextSnapshot store.current m
      (registry.catalog.effectiveEnabled m accepting) (draining && registry.catalog.isAvailable m))
    store' → P store') : Publishable E registry m P accepting draining := by
  refine triple_post (holds_publishLoop hP (hP.and (kind_acceptsAs accepting))
    (fun store store' hstore hpublishes => ?_) registry.rounds) fun r store h => ?_
  · refine ⟨h store store' hstore hpublishes, inv_of_publishes (hP.inv store hstore) hpublishes, fun hmem => ?_⟩
    rw [hpublishes.store'] at hmem
    by_contra hclosed
    rw [Bool.not_eq_true] at hclosed
    subst hclosed
    exact notMem_setMembership hmem
  · cases r with
    | ok | error => exact h

theorem publishable_inv (accepting draining : Bool) : Publishable E registry m Inv accepting draining :=
  publishable_of_publishes kind_inv fun _ _ hinv h => inv_of_publishes hinv h

theorem holds_publish (accepting draining : Bool) :
    Holds m Inv (registry.publish m accepting draining : Task E Unit) fun _ => Inv :=
  triple_post (publishable_inv accepting draining) fun _ _ h => h.1

theorem holds_publish_out : Holds m Inv (registry.publish m false false : Task E Unit) fun r store => match r with
    | .ok _ => Out m store
    | .error e => Inv store ∧ Unpublished e store := by
  refine holds_publishLoop kind_inv kind_out (fun store store' hinv h => ⟨inv_of_publishes hinv h, ?_⟩)
    registry.rounds
  rw [h.store']
  exact excludes_nextSnapshot store.current

/-- After a disable the module is published in no set. -/
theorem publishable_post {r : Except (RegistryError E) ReconcileOutcome}
    (hclosed : r = .ok .disabled → accepting = false ∧ draining = false) :
    Publishable E registry m (Post registry m r) accepting draining := by
  refine publishable_of_publishes (kind_post r) fun store store' hpost h =>
    ⟨inv_of_publishes hpost.1 h, fun hr hpolicy => ?_⟩
  obtain ⟨rfl, rfl⟩ := hclosed hr
  rw [h.store']
  exact ⟨excludes_nextSnapshot store.current, (hpost.2 hr hpolicy).2⟩

theorem holds_wait {R : Except (RegistryError E) Unit → SnapshotStore → Prop}
    (hR : ∀ store, Waited registry m store → R (.ok ()) store) :
    Holds m (Out m) (perform (.waitUntilIdle m) : Task E Unit) R := by
  refine triple_call kind_out.stable (fun _ _ => nofun) fun store h a store' reply he => ?_
  obtain ⟨rfl, hreply⟩ := Prod.mk.inj he
  have hidle : (exec store (.wait a.waker m)).2 = .idle := by
    by_contra hbusy
    rw [if_neg hbusy] at hreply
    cases hreply
  have hexec : exec store (.wait a.waker m) = (_, .idle) := Prod.ext rfl hidle
  obtain ⟨hnone, hcurrent⟩ := idle_of_report h.1 hexec ⟨a.waker, rfl⟩
  refine triple_pure kind_waited.stable hR _ ⟨inv_of_exec h.1 hexec, fun _ => ⟨?_, hnone⟩⟩
  exact hcurrent ▸ h.2

/-! ### Transitions -/

variable {revision : Nat}

theorem holds_whenCurrent (hP : Kind m P) {observed : Option InstanceStateRecord}
    {rest : Task E ReconcileOutcome} (hrest : Holds m P rest (Stopped registry m)) :
    Holds m P (registry.whenCurrent m revision observed rest) (Stopped registry m) := by
  refine holds_after hP quiet_revisionIsCurrent (stopped_error hP) fun current => ?_
  cases current with
  | true => exact hrest
  | false =>
    refine holds_after hP quiet_discardStale (stopped_error hP) fun _ => ?_
    exact triple_pure hP.stable fun _ h => stopped_other hP (by decide) h

theorem holds_whenApplied (hP : Kind m P) {w : Registry.Persisted}
    {rest : InstanceStateRecord → Task E ReconcileOutcome}
    (hrest : ∀ record, Holds m P (rest record) (Stopped registry m)) :
    Holds m P (Registry.whenApplied (registry.persistState m revision w) rest) (Stopped registry m) := by
  refine holds_after hP quiet_persistState (stopped_error hP) fun outcome => ?_
  cases outcome with
  | applied record => exact hrest record
  | stale => exact triple_pure hP.stable fun _ h => stopped_other hP (by decide) h

theorem holds_failWith (hP : Kind m P) (current : InstanceStateRecord) (code : String) :
    Holds m P (registry.failWith current code : Task E ReconcileOutcome) (Stopped registry m) := by
  refine holds_after hP quiet_persistFailure (stopped_error hP) fun failed => ?_
  cases failed <;> exact triple_pure hP.stable fun _ h => stopped_other hP (by decide) h

theorem holds_close (outcome : ReconcileOutcome) (hne : outcome ≠ .enabled) :
    Holds m (Waited registry m) (do registry.publish m false false; pure outcome : Task E ReconcileOutcome)
    (Stopped registry m) := by
  have hpublish : Publishable E registry m (Post registry m (.ok .disabled)) false false :=
    publishable_post fun _ => ⟨rfl, rfl⟩
  refine triple_bind rely_refl (fun _ => Waited registry m)
    (triple_mono hpublish (fun store h => ⟨h.1, fun _ => h.2⟩) fun r store h => ?_) fun _ =>
      triple_pure kind_waited.stable fun _ h => ⟨⟨h.1, fun _ => h.2⟩, fun heq => hne (Except.ok.inj heq)⟩
  cases r with
  | ok => exact ⟨h.1.1, h.1.2 rfl⟩
  | error e => exact stopped_error (kind_post _) e store h.1

variable (revision : Nat)

theorem holds_completeDisable :
    Holds m (Waited registry m) (registry.completeDisable m revision : Task E ReconcileOutcome)
    (Stopped registry m) := by
  refine holds_after kind_waited quiet_persistState (stopped_error kind_waited) fun completed => ?_
  cases completed with
  | stale => exact holds_close .staleDiscarded (by decide)
  | applied =>
    refine holds_after kind_waited quiet_revisionIsCurrent (stopped_error kind_waited) fun current => ?_
    cases current with
    | true => exact holds_close .disabled (by decide)
    | false => exact holds_close .staleDiscarded (by decide)

theorem holds_closed_then {rest : Task E ReconcileOutcome} (hrest : Holds m (Out m) rest (Stopped registry m)) :
    Holds m Inv (do registry.publish m false false; rest) (Stopped registry m) := by
  refine triple_bind rely_refl (fun _ => Out m) (triple_post holds_publish_out fun r store h => ?_) fun _ => hrest
  cases r with
  | ok => exact h
  | error e => exact stopped_error kind_inv e store h.1

variable (current : Option InstanceStateRecord)

theorem holds_disableStopped :
    Holds m Inv (registry.disableStopped m revision current : Task E ReconcileOutcome) (Stopped registry m) := by
  refine holds_closed_then (triple_bind rely_refl (fun _ => Waited registry m) ?_ fun _ => ?_)
  · unfold Registry.waitUnlessImmediate
    by_cases hpolicy : registry.policy m = .immediate
    · rw [if_pos hpolicy]
      exact triple_pure kind_out.stable fun store h => ⟨h.1, fun hne => absurd hpolicy hne⟩
    · rw [if_neg hpolicy]
      exact holds_wait fun _ h => h
  refine holds_whenCurrent kind_waited ?_
  refine holds_after kind_waited quiet_persistState (stopped_error kind_waited) fun completed => ?_
  cases completed with
  | stale => exact triple_pure kind_waited.stable fun _ h => stopped_other kind_waited (by decide) h
  | applied =>
    refine holds_after kind_waited quiet_revisionIsCurrent (stopped_error kind_waited) fun stillCurrent => ?_
    cases stillCurrent with
    | true => exact holds_close .disabled (by decide)
    | false => exact triple_pure kind_waited.stable fun _ h => stopped_other kind_waited (by decide) h

theorem holds_finishDrain (deadline : Option Nat) (draining : InstanceStateRecord) :
    Holds m Inv (registry.finishDrain m revision deadline draining : Task E ReconcileOutcome)
    (Stopped registry m) := by
  refine holds_closed_then (triple_bind rely_refl (fun _ => Waited registry m) (holds_wait fun _ h => h)
    fun _ => ?_)
  exact holds_whenCurrent kind_waited (holds_whenApplied kind_waited fun _ =>
    holds_whenCurrent kind_waited (holds_completeDisable revision))

theorem holds_drain (deadline : Option Nat) (draining : InstanceStateRecord) :
    Holds m Inv (registry.drain m revision deadline draining : Task E ReconcileOutcome) (Stopped registry m) := by
  unfold Registry.drain
  by_cases hpolicy : registry.policy m = .immediate
  · -- nothing is waited for, and nothing is promised
    rw [if_pos hpolicy]
    exact triple_pre (holds_completeDisable revision) fun store h => ⟨h, fun hne => absurd hpolicy hne⟩
  · rw [if_neg hpolicy]
    refine holds_whenApplied kind_inv fun _ => ?_
    refine holds_after kind_inv quiet_drainStored (stopped_error kind_inv) fun failure => ?_
    cases failure with
    | some code => exact holds_failWith kind_inv draining code
    | none => exact holds_finishDrain revision deadline draining

theorem holds_disableRunning :
    Holds m Inv (registry.disableRunning m revision current : Task E ReconcileOutcome) (Stopped registry m) := by
  refine holds_after kind_inv quiet_drainDeadline (stopped_error kind_inv) fun deadline => ?_
  refine holds_whenApplied kind_inv fun draining => ?_
  refine holds_after kind_inv quiet_firstAmong (stopped_error kind_inv) fun dependent => ?_
  by_cases hdependent : dependent.isSome = true
  · rw [if_pos hdependent]
    exact holds_failWith kind_inv draining _
  rw [if_neg hdependent]
  refine holds_whenCurrent kind_inv ?_
  refine triple_bind rely_refl (fun _ => Inv) (triple_post (holds_publish _ _) fun r store h => ?_) fun _ =>
    holds_whenCurrent kind_inv (holds_drain revision deadline draining)
  cases r with
  | ok => exact h
  | error e => exact stopped_error kind_inv e store h

/-- **A disable waits for the leases**, from any state of the store and of the instance. -/
theorem holds_disableTransition :
    Holds m Inv (registry.disableTransition m revision current : Task E ReconcileOutcome)
    (Stopped registry m) := by
  unfold Registry.disableTransition
  split
  · exact holds_disableStopped revision current
  · exact holds_disableRunning revision current

theorem holds_inv_of_quiet {task : Task E α} (h : QuietTask m task) : Holds m Inv task fun _ => Inv :=
  triple_quiet kind_inv.stable h

theorem holds_persistState (w : Registry.Persisted) :
    Holds m Inv (registry.persistState m revision w : Task E _) fun r store =>
      Inv store ∧ ∀ record, r = .ok (.applied record) → record.module = m := by
  refine holds_after kind_inv (quiet_perform rfl) (fun e store h => ⟨h, fun _ hok => by cases hok⟩) fun now => ?_
  refine triple_bind rely_refl
    (fun stored store => Inv store ∧ ∀ record, stored = .ok (.applied record) → record.module = m) ?_
    fun stored => ?_
  · refine triple_call kind_inv.stable (fun _ _ => nofun) fun store h a store' stored he => ?_
    obtain ⟨rfl, hstored⟩ := Prod.mk.inj he
    cases hstored
    refine triple_pure kind_inv.stable (fun store h => ⟨h, fun record hrecord => ?_⟩) store h
    rcases hanswer : a.stored with e | _ | _
    · rw [hanswer] at hrecord
      cases hrecord
    · rw [hanswer] at hrecord
      cases hrecord
      rfl
    · rw [hanswer] at hrecord
      cases hrecord
  · rintro store ⟨h, hrecord⟩
    refine (?_ : Holds m Inv _ _) store h
    cases stored with
    | error => exact triple_throw kind_inv.stable fun _ h => ⟨h, fun _ hok => by cases hok⟩
    | ok =>
      exact triple_pure kind_inv.stable fun _ h =>
        ⟨h, fun record hok => hrecord record (congrArg Except.ok (Except.ok.inj hok))⟩

end Specs

end NazoAuth.RuntimeCapabilities
