import NazoAuth.Lib.Traces
import NazoAuth.RuntimeCapabilities.Disable

/-!
# Runtime capabilities — reconciliation fails closed, and a disabled module has no lease

A module that accepts work when its reconciliation returns was found fit for it during that call.
What a call has been answered is recorded beside the registry (`Recorder`), which leaves the
registry as it is; the alignment at the end of every transition publishes the module only on what it
has just read, and every failure before that closes the module. After a disable the alignment
publishes it in no set, so that the leases which were waited for are the last ones.
-/

namespace NazoAuth.RuntimeCapabilities

open Lib
open Prog hiding pure

/-! ## Observations -/

/-- A command with its reply. -/
abbrev Answered (E : Type) := Sigma (Reply E)

/-- The store, and what a call has been answered. -/
abbrev Noted (E : Type) := SnapshotStore × List (Answered E)

section Observations

variable {E : Type} (registry : Registry) (m : ModuleId) (trace : List (Answered E))

def EnabledRead : Prop :=
  ∃ desired, (⟨.readDesired m, .ok (some desired)⟩ : Answered E) ∈ trace
    ∧ registry.catalog.effectiveEnabled m desired.mode.isEnabled = true

/-- The dependencies were all found enabled and admitted, by one snapshot and one reading of the
desired states. -/
def DependenciesObserved : Prop :=
  registry.catalog.dependencies m = [] ∨ ∃ snapshot desired,
    (⟨.loadSnapshot, snapshot⟩ : Answered E) ∈ trace ∧ (⟨.readAllDesired, .ok desired⟩ : Answered E) ∈ trace
      ∧ ∀ dependency ∈ registry.catalog.dependencies m, ∃ record,
        desired.find? (fun record => decide (record.module = dependency)) = some record
          ∧ Registry.isUnavailable registry.catalog snapshot dependency record.mode = false

/-- The state of this instance was read, or written, as one that serves the module. -/
def ServingObserved : Prop :=
  (∃ record, (⟨.readInstance registry.instanceId m, .ok (some record)⟩ : Answered E) ∈ trace
    ∧ record.state.isServing = true)
    ∨ ∃ mutation record, (⟨.compareAndSetInstance mutation, .ok (.applied record)⟩ : Answered E) ∈ trace
      ∧ mutation.next.instanceId = registry.instanceId ∧ mutation.next.module = m
      ∧ mutation.next.state.isServing = true

/-- What a call has to have observed before the module accepts work. -/
structure Observed : Prop where
  enabled : EnabledRead registry m trace
  dependencies : DependenciesObserved registry m trace
  serving : ServingObserved registry m trace

end Observations

section Growth

variable {E : Type} {registry : Registry} {m : ModuleId}

theorem growing_dependencies : Growing (DependenciesObserved (E := E) registry m) := by
  rintro e t (hnone | ⟨snapshot, desired, hsnapshot, hdesired, hall⟩)
  · exact .inl hnone
  · exact .inr ⟨snapshot, desired, .tail e hsnapshot, .tail e hdesired, hall⟩

theorem growing_serving : Growing (ServingObserved (E := E) registry m) := by
  rintro e t (⟨record, hmem, hserving⟩ | ⟨mutation, record, hmem, hmutation⟩)
  · exact .inl ⟨record, .tail e hmem, hserving⟩
  · exact .inr ⟨mutation, record, .tail e hmem, hmutation⟩

end Growth

/-! ## What the replies say about results -/

section Results

variable {E : Type} {registry : Registry} {m : ModuleId} {α β : Type} {t : List (Answered E)}

theorem available_of_firstHit {desired : List DesiredStateRecord}
    {hit : ModuleId → DesiredMode → Bool} {modules : List ModuleId}
    (h : (Registry.firstHit desired hit modules : Except (RegistryError E) _) = .ok none) :
    ∀ module ∈ modules, ∃ record, desired.find? (fun record => decide (record.module = module)) = some record
      ∧ hit module record.mode = false := by
  induction modules with
  | nil => exact nofun
  | cons first rest ih =>
    rw [Registry.firstHit] at h
    split at h
    · cases h
    rename_i record hfind
    split at h
    · cases h
    rename_i hmiss
    intro module hmem
    rcases List.mem_cons.mp hmem with rfl | hmem
    · exact ⟨record, hfind, Bool.not_eq_true _ ▸ hmiss⟩
    · exact ih h module hmem

theorem yields_firstUnavailableDependency : (registry.firstUnavailableDependency m : Task E _).Yields
      (fun r t => r = .ok none → DependenciesObserved registry m t) t := by
  unfold Registry.firstUnavailableDependency Registry.firstAmong
  split
  · rename_i hnone
    exact fun _ => .inl (List.isEmpty_iff.mp hnone)
  intro snapshot answer
  cases answer with
  | error => exact nofun
  | ok desired =>
    show Yields _ (.ofExcept (Registry.firstHit desired (Registry.isUnavailable registry.catalog snapshot) _)) _
    cases hhit : (Registry.firstHit desired (Registry.isUnavailable registry.catalog snapshot)
        (registry.catalog.dependencies m)) with
    | error => exact nofun
    | ok =>
      intro hfound
      cases hfound
      exact .inr ⟨snapshot, desired, .tail _ (.head _), (.head _), available_of_firstHit hhit⟩

theorem yields_dependenciesReady (wanted : Bool) : (registry.dependenciesReady m wanted : Task E Bool).Yields
      (fun r t => r = .ok true → DependenciesObserved registry m t) t := by
  unfold Registry.dependenciesReady
  split
  · refine yields_bind (yields_mono (fun r t h => ?_) yields_firstUnavailableDependency)
    cases r with
    | error => exact nofun
    | ok =>
      intro hready
      exact h (congrArg Except.ok (Option.isNone_iff_eq_none.mp (Except.ok.inj hready)))
  · exact nofun

theorem yields_runtimeReady {canRestore completedEnable : Bool}
    (ht : canRestore = true → completedEnable = true → ServingObserved registry m t) :
    (registry.runtimeReady m canRestore completedEnable : Task E Bool).Yields
      (fun r t => (canRestore = false → r = .ok false) ∧ (r = .ok true → ServingObserved registry m t)) t := by
  cases canRestore with
  | false => exact ⟨fun _ => rfl, fun hready => by cases hready⟩
  | true =>
    unfold Registry.runtimeReady
    split
    · rintro (e | _ | record)
      · exact ⟨nofun, nofun⟩
      · exact ⟨nofun, nofun⟩
      · exact ⟨nofun, fun hready => .inl ⟨record, List.mem_cons_self, Except.ok.inj hready⟩⟩
    · rename_i hknown
      exact ⟨nofun, fun _ => ht rfl (by simpa using hknown)⟩

theorem yields_persistState (revision : Nat) (w : Registry.Persisted) :
    (registry.persistState m revision w : Task E _).Yields
      (fun r t => ∀ record, r = .ok (.applied record) → w.state.isServing = true → ServingObserved registry m t)
      t := by
  intro now stored
  cases stored with
  | error => exact fun _ hrecord => by cases hrecord
  | ok =>
    intro record hrecord hserving
    cases hrecord
    exact .inr ⟨_, record, List.mem_cons_self, rfl, rfl, hserving⟩

end Results

/-! ## Admission -/

/-- A result of the source: no loop of the program has used up its rounds. -/
def RegistryError.isFinished {E : Type} : RegistryError E → Bool
  | .unfinished => false
  | .compensation first second => first.isFinished && second.isFinished
  | _ => true

def isFinished {E α : Type} : Except (RegistryError E) α → Bool
  | .ok _ => true
  | .error e => e.isFinished

section Admission

variable {E : Type} {registry : Registry} {m : ModuleId} {α β : Type} {P : SnapshotStore → Prop}
  {F : List (Answered E) → Prop}

/-- A task of the module on the store with the record of its call. -/
abbrev Records (m : ModuleId) (A : Noted E → Prop) (task : Prog Command (Reply E) β α)
    (B : Except β α → Noted E → Prop) : Prop :=
  Recorded (fun store c (a : Answers E) => handle store c a) (Rely m) (MayIssue m) A task B

/-- While revisions are left, the module accepts work only on what the call has observed. -/
def Closes (registry : Registry) (m : ModuleId) (r : Except (RegistryError E) α) (s : Noted E) : Prop :=
  Inv s.1 ∧ (isFinished r = true → s.1.current.revision + 1 < 2 ^ 64 → m ∈ s.1.current.accepting →
    Observed registry m s.2)

variable {s : Noted E} {B : Except (RegistryError E) β → Noted E → Prop}

variable {r : Except (RegistryError E) α} {A : Noted E → Prop} {c : Command}

theorem closes_of_unpublished {e : RegistryError E} (h : Inv s.1 ∧ Unpublished e s.1) :
    Closes registry m (.error e : Except _ α) s := by
  refine ⟨h.1, fun hfinished hroom _ => ?_⟩
  rcases h.2 with rfl | hexhausted
  · cases hfinished
  · exact absurd hroom (Nat.not_lt.mpr hexhausted)

theorem closes_combine [DecidableEq E] {result : Except (RegistryError E) ReconcileOutcome}
    {compensation : Except (RegistryError E) Unit} (h : Closes registry m compensation s) :
    Closes registry m (Registry.combine result compensation) s := by
  refine ⟨h.1, fun hfinished => h.2 ?_⟩
  cases compensation with
  | ok => rfl
  | error e =>
    cases result with
    | ok => exact hfinished
    | error operation =>
      rw [Registry.combine] at hfinished
      split at hfinished
      · rename_i hexhausted
        simp only [Bool.and_eq_true, decide_eq_true_eq] at hexhausted
        rw [hexhausted.2]
        rfl
      · exact (Bool.and_eq_true_iff.mp hfinished).2

/-! ### Rules -/

theorem records_bind {task : Prog Command (Reply E) β α} {γ : Type}
    {f : α → Prog Command (Reply E) β γ} {B : Except β γ → Noted E → Prop}
    (M : α → Noted E → Prop) (h : Records m A task fun r s => match r with
      | .ok a => M a s
      | .error e => B (.error e) s)
    (hf : ∀ a, Records m (M a) (f a) B) : Records m A (task >>= f) B := by
  refine triple_bind (recordingRely_refl rely_refl) M (triple_post h fun r s h => ?_) hf
  cases r with
  | ok | error => exact h

theorem records_reply (hP : Kind m P) (hF : Growing F) (hc : c.isExternal = true) {Z : Reply E c → Prop}
    (hZ : ∀ store (a : Answers E) reply, (handle store c a).2 = some reply → Z reply) {f : Reply E c → Task E β}
    (hf : ∀ reply, Z reply → Records m (fun s => P s.1 ∧ F s.2 ∧ ⟨c, reply⟩ ∈ s.2) (f reply) B) :
    Records m (fun s => P s.1 ∧ F s.2) (perform c >>= f) B := by
  have hperform : ∀ t, (perform c : Task E (Reply E c)).Yields
      (fun r t => ∃ reply, r = .ok reply ∧ ⟨c, reply⟩ ∈ t) t :=
    fun _ reply => ⟨reply, rfl, List.mem_cons_self⟩
  obtain ⟨⟨hmay, hsame⟩, -⟩ : QuietTask m (perform c) := quiet_perform hc
  have hholds : Holds m P (perform c) fun r store => P store ∧ ∀ reply, r = .ok reply → Z reply := by
    refine triple_call hP.stable (fun store _ => hmay store) fun store h a store' reply he => ?_
    obtain rfl : store' = store := (congrArg Prod.fst he).symm.trans (hsame store a)
    refine triple_pure hP.stable (fun _ h => ⟨h, fun reply' hok => ?_⟩) store' h
    cases hok
    exact hZ store' a reply (congrArg Prod.snd he)
  refine records_bind (fun reply s => Z reply ∧ P s.1 ∧ F s.2 ∧ ⟨c, reply⟩ ∈ s.2)
    (triple_post (triple_recording hF hholds fun t _ => hperform t) fun r s h => ?_) fun reply s h =>
    hf reply h.1 s h.2
  obtain ⟨⟨hstore, hreply⟩, htrace, reply, rfl, hmem⟩ := h
  exact ⟨hreply reply rfl, hstore, htrace, hmem⟩

theorem records_perform (hP : Kind m P) (hF : Growing F) (hc : c.isExternal = true) {f : Reply E c → Task E β}
    (hf : ∀ reply, Records m (fun s => P s.1 ∧ F s.2 ∧ ⟨c, reply⟩ ∈ s.2) (f reply) B) :
    Records m (fun s => P s.1 ∧ F s.2) (perform c >>= f) B :=
  records_reply hP hF hc (fun _ _ _ _ => trivial) fun reply _ => hf reply

/-- What a task that keeps an assertion has been answered does not matter. -/
theorem records_then {task : Prog Command (Reply E) β α} {γ : Type} {f : α → Prog Command (Reply E) β γ}
    {B : Except β γ → Noted E → Prop} (hF : Growing F) (htask : Holds m P task fun _ => P)
    (herror : ∀ e s, P s.1 → B (.error e) s) (hf : ∀ a, Records m (fun s => P s.1 ∧ F s.2) (f a) B) :
    Records m (fun s => P s.1 ∧ F s.2) (task >>= f) B := by
  refine records_bind (fun _ s => P s.1 ∧ F s.2) (triple_post (triple_recording hF htask fun t _ => yields_true _)
    fun r s h => ?_) hf
  cases r with
  | ok => exact ⟨h.1, h.2.1⟩
  | error e => exact herror e s h.1

theorem records_attempt (hP : Kind m P) (hF : Growing F) {task : Task E α} (hquiet : QuietTask m task)
    {S : Except (RegistryError E) α → List (Answered E) → Prop} (hy : ∀ t, F t → task.Yields S t)
    {f : Except (RegistryError E) α → Task E β}
    (hf : ∀ r, Records m (fun s => P s.1 ∧ F s.2 ∧ S r s.2) (f r) B) :
    Records m (fun s => P s.1 ∧ F s.2) (task.attempt >>= f) B :=
  records_bind (fun r s => P s.1 ∧ F s.2 ∧ S r s.2)
    (triple_attempt (triple_recording hF (triple_quiet hP.stable hquiet) hy)) hf

theorem holds_loadSnapshot : Holds m Inv (perform .loadSnapshot : Task E ActiveModuleSnapshot) fun r store =>
      ∀ snapshot, r = .ok snapshot → AcceptsAs m (snapshot.admits m) store := by
  refine triple_call kind_inv.stable (fun _ _ => nofun) fun store h a store' snapshot he => ?_
  obtain ⟨rfl, hsnapshot⟩ := Prod.mk.inj he
  cases hsnapshot
  refine triple_pure (kind_acceptsAs (store.current.admits m)).stable (fun store' h snapshot hok => ?_) store
    ⟨h, fun hmem => decide_eq_true hmem⟩
  cases hok
  exact h

theorem records_loadSnapshot (hF : Growing F) {f : ActiveModuleSnapshot → Task E β}
    (hf : ∀ snapshot, Records m (fun s => AcceptsAs m (snapshot.admits m) s.1 ∧ F s.2) (f snapshot) B) :
    Records m (fun s => Inv s.1 ∧ F s.2) (perform .loadSnapshot >>= f) B := by
  have hperform : ∀ t, (perform .loadSnapshot : Task E ActiveModuleSnapshot).Yields
      (fun r _ => ∃ snapshot, r = .ok snapshot) t :=
    fun _ snapshot => ⟨snapshot, rfl⟩
  refine records_bind (fun snapshot s => AcceptsAs m (snapshot.admits m) s.1 ∧ F s.2)
    (triple_post (triple_recording hF holds_loadSnapshot fun t _ => hperform t) fun r s h => ?_) hf
  obtain ⟨haccepts, htrace, snapshot, rfl⟩ := h
  exact ⟨haccepts snapshot rfl, htrace⟩

variable {accepting draining : Bool}

theorem records_publish (hP : Kind m P) (hF : Growing F) (hpublish : Publishable E registry m P accepting draining)
    {f : Unit → Task E β} (hB : ∀ e s, P s.1 → Closes registry m (.error e : Except _ β) s → B (.error e) s)
    (hf : Records m (fun s => (P s.1 ∧ AcceptsAs m accepting s.1) ∧ F s.2) (f ()) B) :
    Records m (fun s => P s.1 ∧ F s.2) (registry.publish m accepting draining >>= f) B := by
  refine records_bind (fun _ s => (P s.1 ∧ AcceptsAs m accepting s.1) ∧ F s.2)
    (triple_post (triple_recording hF hpublish fun t _ => yields_true _) fun r s h => ?_) fun _ => hf
  cases r with
  | ok => exact ⟨h.1, h.2.1⟩
  | error e => exact hB e s h.1.1 (closes_of_unpublished ⟨hP.inv s.1 h.1.1, h.1.2⟩)

theorem closes_of_closed (h : AcceptsAs m false s.1) : Closes registry m r s :=
  ⟨h.1, fun _ _ hmem => absurd (h.2 hmem) (by decide)⟩

theorem records_closeAndThrow (hP : Kind m P) (hpublish : Publishable E registry m P false false)
    (error : RegistryError E)
    (hB : ∀ e s, P s.1 → Closes registry m (.error e : Except _ β) s → B (.error e) s)
    (hA : ∀ s, A s → P s.1) : Records m A (registry.closeAndThrow m error : Task E β) B := by
  refine triple_pre (P := fun s => P s.1 ∧ True) ?_ fun s h => ⟨hA s h, trivial⟩
  refine records_publish hP growing_true hpublish hB ?_
  exact triple_throw (stable_recording (hP.and (kind_acceptsAs false)).stable fun _ => True) fun s h =>
    hB error s h.1.1 (closes_of_closed h.1.2)

/-! ### The alignment -/

/-- A module that a transition has enabled is known to be served. -/
def RestoreKnown (registry : Registry) (m : ModuleId) (canRestore completedEnable : Bool)
    (t : List (Answered E)) : Prop :=
  canRestore = true → completedEnable = true → ServingObserved registry m t

theorem growing_restoreKnown {canRestore completedEnable : Bool} :
    Growing (RestoreKnown (E := E) registry m canRestore completedEnable) :=
  growing_serving.imp.imp

/-- What the alignment has read when it publishes. -/
structure Aligned (registry : Registry) (m : ModuleId) (desired : DesiredStateRecord)
    (ready dependencies : Bool) (t : List (Answered E)) : Prop where
  desired : (⟨.readDesired m, .ok (some desired)⟩ : Answered E) ∈ t
  ready : ready = true → ServingObserved registry m t
  dependencies : dependencies = true → DependenciesObserved registry m t

variable {dependencies ready : Bool} {desired : DesiredStateRecord}

theorem growing_aligned : Growing (Aligned (E := E) registry m desired ready dependencies) :=
  fun e t h => ⟨.tail e h.desired, fun hready => growing_serving e t (h.ready hready),
    fun hdependencies => growing_dependencies e t (h.dependencies hdependencies)⟩

theorem closes_of_aligned {r : Except (RegistryError E) Unit}
    (haccepts : AcceptsAs m (ready && registry.catalog.effectiveEnabled m desired.mode.isEnabled && dependencies)
    s.1) (h : Aligned registry m desired ready dependencies s.2) : Closes registry m r s := by
  refine ⟨haccepts.1, fun _ _ hmem => ?_⟩
  obtain ⟨hready, hdependencies⟩ := Bool.and_eq_true_iff.mp (haccepts.2 hmem)
  obtain ⟨hready, henabled⟩ := Bool.and_eq_true_iff.mp hready
  exact ⟨⟨desired, h.desired, henabled⟩, h.dependencies hdependencies, h.ready hready⟩

/-- **The alignment publishes what it has read**, and nothing if the admission cannot be
restored. -/
theorem records_align (hP : Kind m P) {canRestore : Bool} (completedEnable : Bool)
    (hpublish : ∀ accepting draining, (canRestore = false → accepting = false ∧ draining = false) →
      Publishable E registry m P accepting draining) (rounds : Nat) :
    Records m (fun s => P s.1 ∧ RestoreKnown registry m canRestore completedEnable s.2)
      (registry.alignAdmissionWithCurrentIntent m canRestore completedEnable rounds : Task E Unit)
      fun r s => P s.1 ∧ Closes registry m r s := by
  have hclose : ∀ (error : RegistryError E) {A : Noted E → Prop}, (∀ s, A s → P s.1) →
      Records m A (registry.closeAndThrow m error : Task E Unit) fun r s => P s.1 ∧ Closes registry m r s :=
    fun error _ hA =>
    records_closeAndThrow hP (hpublish false false fun _ => ⟨rfl, rfl⟩) error
      (fun _ _ h hcloses => ⟨h, hcloses⟩) hA
  induction rounds with
  | zero =>
    exact triple_throw (stable_recording hP.stable (RestoreKnown registry m canRestore completedEnable)) fun s h =>
      ⟨h.1, hP.inv s.1 h.1, fun hfinished => by cases hfinished⟩
  | succ rounds ih =>
    refine records_perform hP growing_restoreKnown rfl fun answer => ?_
    rcases answer with error | _ | desired
    · exact hclose _ fun _ h => h.1
    · exact hclose _ fun _ h => h.1
    have hread : Growing fun t => RestoreKnown registry m canRestore completedEnable t
        ∧ (⟨.readDesired m, .ok (some desired)⟩ : Answered E) ∈ t := growing_restoreKnown.and (growing_mem _)
    refine records_attempt hP hread quiet_runtimeReady
      (fun t h => yields_runtimeReady h.1) fun ready => ?_
    cases ready with
    | error => exact hclose _ fun _ h => h.1
    | ok ready =>
      have hready : Growing fun t : List (Answered E) =>
        (canRestore = false → (.ok ready : Except (RegistryError E) Bool) = .ok false)
          ∧ ((.ok ready : Except (RegistryError E) Bool) = .ok true → ServingObserved registry m t) :=
        fun e t h => ⟨h.1, growing_serving.imp e t h.2⟩
      refine records_attempt hP (hread.and hready) quiet_dependenciesReady
        (fun t _ => yields_dependenciesReady _) fun dependencies => ?_
      cases dependencies with
      | error => exact hclose _ fun _ h => h.1
      | ok dependencies =>
        have haligned : Growing fun t : List (Answered E) => RestoreKnown registry m canRestore completedEnable t
            ∧ Aligned registry m desired ready dependencies t := growing_restoreKnown.and growing_aligned
        rintro s ⟨hs, ⟨⟨hknown, hdesired⟩, hrestore, hready⟩, hdependencies⟩
        refine records_publish hP haligned (hpublish _ _ fun hclosed => ?_) (fun _ _ h hcloses => ⟨h, hcloses⟩) ?_
          s ⟨hs, hknown, hdesired, fun h => hready (h ▸ rfl), fun h => hdependencies (h ▸ rfl)⟩
        · cases hrestore hclosed
          exact ⟨rfl, rfl⟩
        refine records_attempt (hP.and (kind_acceptsAs _)) haligned quiet_revisionIsCurrent
          (fun t _ => yields_true _) fun current => ?_
        rcases current with error | _ | _
        · exact hclose _ fun _ h => h.1.1
        · exact triple_pre ih fun s h => ⟨h.1.1, h.2.1.1⟩
        · refine triple_pure ?_ fun s h => ⟨h.1.1, closes_of_aligned h.1.2 h.2.1.2⟩
          exact stable_recording (hP.and (kind_acceptsAs _)).stable fun t =>
            (RestoreKnown registry m canRestore completedEnable t
              ∧ Aligned registry m desired ready dependencies t) ∧ True

/-! ### Transitions -/

theorem records_failDependencyLoss {current : InstanceStateRecord} (hmodule : current.module = m) :
    Records m (fun s => Inv s.1 ∧ True) (registry.failDependencyLoss current : Task E ReconcileOutcome) fun r s =>
      Closes registry m r s ∧ ∀ outcome, r = .ok outcome → outcome ≠ .disabled ∧ outcome ≠ .enabled := by
  subst hmodule
  refine records_publish kind_inv growing_true (publishable_inv false false)
    (fun _ _ _ hcloses => ⟨hcloses, nofun⟩) ?_
  have hkind := kind_inv.and (kind_acceptsAs (m := current.module) false)
  refine records_then growing_true (triple_quiet hkind.stable quiet_persistFailure)
    (fun _ _ h => ⟨closes_of_closed h.2, nofun⟩) fun failed => ?_
  cases failed with
  | true | false =>
    refine triple_pure (stable_recording hkind.stable fun _ => True) fun s h =>
      ⟨closes_of_closed h.1.2, fun outcome hok => ?_⟩
    cases hok
    decide

/-- An enable that reports the module enabled has written that. -/
def Started (registry : Registry) (m : ModuleId)
    (r : Except (Bool × RegistryError E) (Bool × ReconcileOutcome)) (s : Noted E) : Prop :=
  Inv s.1 ∧ ∀ flag outcome, r = .ok (flag, outcome) → outcome ≠ .disabled
    ∧ (outcome = .enabled → ServingObserved registry m s.2)

theorem started_error (e : Bool × RegistryError E) (s : Noted E) (h : Inv s.1) :
    Started registry m (.error e) s := ⟨h, nofun⟩

variable {flag : Bool} {outcome : ReconcileOutcome} {revision : Nat} {starting : InstanceStateRecord}

theorem records_started (hne : outcome ≠ .disabled ∧ outcome ≠ .enabled) :
    Records m (fun s => Inv s.1 ∧ True) (pure (flag, outcome) : Registry.FlaggedTask E (Bool × ReconcileOutcome))
      (Started registry m) := by
  refine triple_pure (stable_recording kind_inv.stable fun _ => True) fun s h => ⟨h.1, fun flag outcome hok => ?_⟩
  cases hok
  exact ⟨hne.1, fun henabled => absurd henabled hne.2⟩

/-- A step of an enable before its admission is written. -/
theorem started_then {task : Task E α} {f : α → Registry.FlaggedTask E (Bool × ReconcileOutcome)}
    (htask : Holds m Inv task fun _ => Inv)
    (hf : ∀ a, Records m (fun s => Inv s.1 ∧ True) (f a) (Started registry m)) :
    Records m (fun s => Inv s.1 ∧ True) (Registry.flagged flag task >>= f) (Started registry m) :=
  records_then growing_true (triple_mapError htask) started_error hf

theorem records_lost (hmodule : starting.module = m) : Records m (fun s => Inv s.1 ∧ True) (do
      let outcome ← Registry.flagged flag (registry.failDependencyLoss starting)
      pure (false, outcome) : Registry.FlaggedTask E _) (Started registry m) := by
  refine records_bind (fun outcome s => Inv s.1 ∧ outcome ≠ .disabled ∧ outcome ≠ .enabled)
    (triple_mapError (triple_post (records_failDependencyLoss hmodule) fun r s h => ?_))
    fun outcome s h => records_started h.2 s ⟨h.1, trivial⟩
  cases r with
  | ok outcome => exact ⟨h.1.1, h.2 outcome rfl⟩
  | error => exact started_error _ s h.1.1

/-- A write of an enable, after which the state is known to serve the module if it is written so. -/
theorem started_persist {w : Registry.Persisted}
    {f : CasOutcome InstanceStateRecord → Registry.FlaggedTask E (Bool × ReconcileOutcome)}
    (hstale : ∀ current, Records m (fun s => Inv s.1 ∧ True) (f (.stale current)) (Started registry m))
    (happlied : ∀ record, record.module = m →
      Records m (fun s => Inv s.1 ∧ (w.state.isServing = true → ServingObserved registry m s.2))
      (f (.applied record)) (Started registry m)) :
    Records m (fun s => Inv s.1 ∧ True) (Registry.flagged flag (registry.persistState m revision w) >>= f)
    (Started registry m) := by
  refine records_bind (fun outcome s => Inv s.1 ∧ ∀ record, outcome = .applied record →
      record.module = m ∧ (w.state.isServing = true → ServingObserved registry m s.2))
    (triple_mapError (triple_post (triple_recording growing_true (holds_persistState revision w) fun t _ =>
      yields_persistState revision w) fun r s h => ?_)) fun outcome => ?_
  · cases r with
    | ok =>
      refine ⟨h.1.1, fun record hrecord => ?_⟩
      cases hrecord
      exact ⟨h.1.2 record rfl, h.2.2 record rfl⟩
    | error => exact started_error _ s h.1.1
  · cases outcome with
    | applied record => exact fun s h => happlied record (h.2 record rfl).1 s ⟨h.1, (h.2 record rfl).2⟩
    | stale current => exact fun s h => hstale current s ⟨h.1, trivial⟩

theorem records_enableAdmission (hmodule : starting.module = m) :
    Records m (fun s => Inv s.1 ∧ True) (registry.enableAdmission m revision starting : Registry.FlaggedTask E _)
      (Started registry m) := by
  refine started_then (holds_publish true false) fun _ => started_then (holds_inv_of_quiet quiet_firstAmong)
    fun dependency => ?_
  by_cases hdependency : dependency.isSome = true
  · rw [if_pos hdependency]
    exact started_then (holds_publish false false) fun _ => records_lost hmodule
  rw [if_neg hdependency]
  refine started_then (holds_inv_of_quiet quiet_revisionIsCurrent) fun current => ?_
  cases current with
  | true =>
    refine started_persist (fun _ => started_then (holds_publish false false) fun _ => records_started (by decide))
      fun record _ => ?_
    refine triple_pure (stable_recording kind_inv.stable fun t => _ → ServingObserved registry m t) fun s h =>
      ⟨h.1, fun flag outcome hok => ?_⟩
    cases hok
    exact ⟨by decide, fun _ => h.2 rfl⟩
  | false =>
    exact started_then (holds_publish false false) fun _ =>
        started_then (holds_inv_of_quiet quiet_discardStale) fun _ =>
      records_started (by decide)

theorem records_enableTransition (revision : Nat) (current : Option InstanceStateRecord) :
    Records m (fun s => Inv s.1 ∧ True) (registry.enableTransition m revision current : Registry.FlaggedTask E _)
      (Started registry m) := by
  refine started_persist (fun _ => records_started (by decide)) fun starting hmodule => ?_
  refine triple_pre (P := fun s => Inv s.1 ∧ True) ?_ fun s h => ⟨h.1, trivial⟩
  refine started_then (holds_inv_of_quiet quiet_firstAmong) fun dependency => ?_
  by_cases hdependency : dependency.isSome = true
  · rw [if_pos hdependency]
    exact records_lost hmodule
  rw [if_neg hdependency]
  refine started_then (holds_inv_of_quiet quiet_revisionIsCurrent) fun current => ?_
  cases current with
  | true => exact records_enableAdmission hmodule
  | false => exact started_then (holds_inv_of_quiet quiet_discardStale) fun _ => records_started (by decide)

/-! ### Reconciliations -/

theorem stable_closes (r : Except (RegistryError E) α) :
    Stable (recordingRely (Rely m)) (Closes registry m r) := by
  rintro ⟨store, t⟩ ⟨store', t'⟩ ⟨hrely, rfl⟩ ⟨hinv, h⟩
  have hkept := hrely hinv
  refine ⟨hkept.inv, fun hfinished hroom hmem => h hfinished ?_ (hkept.accepting.mp hmem)⟩
  have hle := hkept.inv.revision_le (hkept.published.subset (.head _))
  exact Nat.lt_of_le_of_lt (Nat.succ_le_succ hle) hroom

/-- What a reconciliation returns with, unless there is an active dependent. -/
def Reconciled (registry : Registry) (m : ModuleId) (r : Except (RegistryError E) ReconcileOutcome)
    (s : Noted E) : Prop :=
  Post registry m r s.1 ∧ Closes registry m r s

theorem records_ofExcept (r : Except (RegistryError E) ReconcileOutcome) :
    Records m (Reconciled registry m r) (.ofExcept r : Task E ReconcileOutcome) (Reconciled registry m) := by
  have hstable : Stable (recordingRely (Rely m)) (Reconciled registry m r) := fun s s' hrely h =>
    ⟨(kind_post r).stable s.1 s'.1 hrely.1 h.1, stable_closes r s s' hrely h.2⟩
  cases r with
  | ok => exact triple_pure hstable fun _ h => h
  | error => exact triple_throw hstable fun _ h => h

variable [DecidableEq E]

theorem combine_disabled {result : Except (RegistryError E) ReconcileOutcome}
    {compensation : Except (RegistryError E) Unit}
    (h : Registry.combine result compensation = .ok .disabled) : result = .ok .disabled := by
  rcases result with e | outcome <;> rcases compensation with e' | ⟨⟩
  · rw [Registry.combine] at h
    split at h <;> cases h
  · cases h
  · cases h
  · exact h

theorem records_finishAdmission (canRestore : Bool) (result : Except (RegistryError E) ReconcileOutcome) :
    Records m (fun s => Post registry m result s.1
      ∧ (Registry.isOutcome .enabled result = true → ServingObserved registry m s.2))
      (registry.finishAdmission m canRestore result) (Reconciled registry m) := by
  refine records_bind (fun compensation s => Post registry m result s.1 ∧ Closes registry m compensation s)
    (triple_attempt (triple_pre (records_align (kind_post result) _ (fun accepting draining hclosed => ?_)
      registry.rounds) fun s h => ⟨h.1, fun _ henabled => h.2 henabled⟩)) fun compensation => ?_
  · -- the admission is not restored after a disable, so the module stays gone
    refine publishable_post fun hdisabled => hclosed ?_
    rw [hdisabled]
    simp [Registry.isOutcome]
  · refine triple_pre (records_ofExcept _) fun s h => ⟨⟨h.1.1, fun hdisabled => ?_⟩, closes_combine h.2⟩
    exact h.1.2 (combine_disabled hdisabled)

theorem records_enable (revision : Nat) (current : Option InstanceStateRecord) :
    Records m (fun s => Inv s.1 ∧ True) (registry.enable m revision current : Task E ReconcileOutcome)
    (Reconciled registry m) := by
  refine records_bind (fun result s => Started registry m result s)
    (triple_attempt (records_enableTransition revision current)) fun result => ?_
  rcases result with ⟨canRestore, e⟩ | ⟨canRestore, outcome⟩
  · exact triple_pre (records_finishAdmission canRestore (.error e)) fun s h => ⟨post_error kind_inv e h.1, nofun⟩
  · refine triple_pre (records_finishAdmission canRestore (.ok outcome)) fun s h => ?_
    obtain ⟨hne, hwritten⟩ := h.2 canRestore outcome rfl
    exact ⟨post_other kind_inv hne h.1, fun henabled => hwritten (of_decide_eq_true henabled)⟩

theorem records_disable (revision : Nat) (current : Option InstanceStateRecord) :
    Records m (fun s => Inv s.1 ∧ True) (registry.disable m revision current : Task E ReconcileOutcome)
    (Reconciled registry m) := by
  have hstopped : Holds m Inv (registry.disableTransition m revision current : Task E ReconcileOutcome)
      (Stopped registry m) :=
    holds_disableTransition revision current
  have htransition := triple_recording growing_true hstopped fun t _ => yields_true _
  refine records_bind (fun result s => Stopped registry m result s.1)
    (triple_attempt (triple_post htransition fun r s h => h.1)) fun result => ?_
  refine triple_pre (records_finishAdmission _ result) fun s h => ⟨h.1, fun henabled => absurd ?_ h.2⟩
  cases result with
  | ok => rw [of_decide_eq_true henabled]
  | error => cases henabled

/-- What is known of a module when its transition is chosen. -/
structure Checked (registry : Registry) (m : ModuleId) (enabled : Bool)
    (current : Option InstanceStateRecord) (t : List (Answered E)) : Prop where
  enabled : enabled = true → EnabledRead registry m t ∧ DependenciesObserved registry m t
  current : (⟨.readInstance registry.instanceId m, .ok current⟩ : Answered E) ∈ t

variable {current : Option InstanceStateRecord}

omit [DecidableEq E] in
theorem growing_checked {enabled : Bool} : Growing (Checked (E := E) registry m enabled current) := by
  intro e t h
  refine ⟨fun henabled => ?_, .tail e h.current⟩
  obtain ⟨⟨desired, hread, heffective⟩, hdependencies⟩ := h.enabled henabled
  exact ⟨⟨desired, .tail e hread, heffective⟩, growing_dependencies e t hdependencies⟩

theorem records_reconcileTo (desired : DesiredStateRecord) (enabled : Bool)
    (current : Option InstanceStateRecord) : Records m (fun s => Inv s.1 ∧ Checked registry m enabled current s.2)
      (registry.reconcileTo m desired enabled current : Task E ReconcileOutcome) (Reconciled registry m) := by
  refine records_loadSnapshot growing_checked fun snapshot => ?_
  split
  · rename_i hunchanged
    refine triple_pure (stable_recording (kind_acceptsAs _).stable (Checked registry m enabled current))
      fun s h => ?_
    refine ⟨post_other kind_inv (by decide) h.1.1, h.1.1, fun _ _ hmem => ?_⟩
    -- an unchanged module that is admitted is enabled, and the state that was read says so
    rw [Bool.and_eq_true, Bool.and_eq_true, h.1.2 hmem] at hunchanged
    obtain ⟨⟨henabled, -⟩, happlied⟩ := hunchanged
    have henabled : enabled = true := (beq_iff_eq.mp henabled).symm
    obtain ⟨hread, hdependencies⟩ := h.2.enabled henabled
    refine ⟨hread, hdependencies, .inl ?_⟩
    obtain ⟨record, hcurrent, hrecord⟩ := (Option.any_eq_true _ _).mp happlied
    refine ⟨record, hcurrent ▸ h.2.current, ?_⟩
    subst henabled
    have hstate : record.state = .enabled := by
      simp only [Registry.isApplied, Bool.true_and, Bool.not_true, Bool.false_and, Bool.or_false, Bool.and_eq_true,
        decide_eq_true_eq] at hrecord
      exact hrecord.2
    rw [hstate]
    rfl
  · split
    · exact triple_pre (records_enable desired.revision current) fun s h => ⟨h.1.1, trivial⟩
    · exact triple_pre (records_disable desired.revision current) fun s h => ⟨h.1.1, trivial⟩

omit [DecidableEq E] in
theorem records_loseDependency (dependency : ModuleId) (desired : DesiredStateRecord)
    (hmodule : ∀ record, current = some record → record.module = m) :
    Records m (fun s => Inv s.1 ∧ True)
    (registry.loseDependency m dependency desired current : Task E ReconcileOutcome)
      (Reconciled registry m) := by
  refine records_loadSnapshot growing_true fun snapshot => ?_
  -- whether it was admitted or not, the module is closed now
  have hclosed : ∀ {task : Task E ReconcileOutcome}, Records m (fun s => AcceptsAs m false s.1 ∧ True) task
      (Reconciled registry m) → Records m (fun s => AcceptsAs m (snapshot.admits m) s.1 ∧ True)
        (registry.closeIf m (snapshot.admits m) >>= fun _ => task) (Reconciled registry m) := by
    intro task htask
    cases hadmits : snapshot.admits m with
    | true =>
      refine triple_pre (records_publish kind_inv growing_true (publishable_inv false false)
        (fun e _ h hcloses => ⟨post_error kind_inv e h, hcloses⟩) ?_) fun s h => ⟨h.1.1, trivial⟩
      exact triple_pre htask fun s h => ⟨h.1.2, h.2⟩
    | false => exact htask
  cases hfilter : current.filter fun record => decide (record.transitionRevision = desired.revision) with
  | some record =>
    exact hclosed (triple_mono (records_failDependencyLoss (hmodule record (Option.eq_some_of_filter_eq_some
      hfilter))) (fun s h => ⟨h.1.1, trivial⟩) fun r s h => ⟨⟨h.1.1, fun hr => absurd rfl (h.2 _ hr).1⟩, h.1⟩)
  | none =>
    exact hclosed (triple_throw (stable_recording (kind_acceptsAs false).stable fun _ => True) fun s h =>
      ⟨post_error kind_inv _ h.1.1, closes_of_closed h.1⟩)

def FailsClosed (registry : Registry) (m : ModuleId) (r : Except (RegistryError E) ReconcileOutcome)
    (s : Noted E) : Prop :=
  Post registry m r s.1 ∧ ((∀ dependent, r ≠ .error (.activeDependent m dependent)) → Closes registry m r s)

/-- **A reconciliation closes the module unless it has found it fit**; an enabled dependent is
reported first. One that reports the module disabled leaves no lease of it, unless the policy is to
disable at once. -/
theorem records_reconcileOnceSerialized :
    Records m (fun s => Inv s.1 ∧ True) (registry.reconcileOnceSerialized m : Task E ReconcileOutcome)
    (FailsClosed registry m) := by
  have hclosed : ∀ {A : Noted E → Prop} {task : Task E ReconcileOutcome},
      Records m A task (Reconciled registry m) → Records m A task (FailsClosed registry m) :=
    fun h => triple_post h fun _ _ h => ⟨h.1, fun _ => h.2⟩
  have hclose : ∀ (error : RegistryError E) {A : Noted E → Prop}, (∀ s, A s → Inv s.1) →
      Records m A (registry.closeAndThrow m error : Task E ReconcileOutcome) (FailsClosed registry m) :=
    fun error _ hA =>
    records_closeAndThrow kind_inv (publishable_inv false false) error
      (fun e _ h hcloses => ⟨post_error kind_inv e h, fun _ => hcloses⟩) hA
  refine records_perform kind_inv growing_true rfl fun answer => ?_
  rcases answer with error | _ | desired
  · exact hclose _ fun _ h => h.1
  · exact hclose _ fun _ h => h.1
  have hread : Growing fun t => True ∧ (⟨.readDesired m, .ok (some desired)⟩ : Answered E) ∈ t :=
    growing_true.and (growing_mem _)
  refine records_reply kind_inv hread rfl
    (Z := fun answer : Except E (Option InstanceStateRecord) => ∀ record, answer = .ok (some record) →
    record.module = m) (fun store a answer he record hrecord => ?_) fun answer hmodule => ?_
  · cases he
    rcases hstate : a.instanceState with e | _ | _
    · rw [hstate] at hrecord
      cases hrecord
    · rw [hstate] at hrecord
      cases hrecord
    · rw [hstate] at hrecord
      cases hrecord
      rfl
  · have hboth := hread.and (growing_mem (⟨.readInstance registry.instanceId m, answer⟩ : Answered E))
    cases answer with
    | error => exact hclose _ fun _ h => h.1
    | ok current =>
      dsimp only
      by_cases henabled : registry.catalog.effectiveEnabled m desired.mode.isEnabled = true
      · rw [if_pos henabled]
        refine records_attempt kind_inv hboth quiet_firstAmong (fun t _ => yields_firstUnavailableDependency)
          fun answer => ?_
        rcases answer with error | _ | dependency
        · exact hclose _ fun _ h => h.1
        · refine hclosed (triple_pre (records_reconcileTo desired _ current) fun s h => ⟨h.1, ?_, h.2.1.2⟩)
          exact fun _ => ⟨⟨desired, h.2.1.1.2, henabled⟩, h.2.2 rfl⟩
        · exact hclosed (triple_pre (records_loseDependency dependency desired fun record hrecord =>
            hmodule record (congrArg Except.ok hrecord)) fun s h => ⟨h.1, trivial⟩)
      · rw [if_neg henabled]
        refine records_attempt kind_inv hboth quiet_firstAmong (fun t _ => yields_true _) fun answer => ?_
        rcases answer with error | _ | dependent
        · exact hclose _ fun _ h => h.1
        · exact hclosed (triple_pre (records_reconcileTo desired _ current)
            fun s h => ⟨h.1, fun h' => absurd h' henabled, h.2.1.2⟩)
        · refine triple_pre (triple_throw (stable_recording kind_inv.stable fun _ => True)
            fun s h => ⟨post_error kind_inv _ h.1, fun hne => absurd rfl (hne dependent)⟩) fun s h =>
              ⟨h.1, trivial⟩

end Admission

/-! ## Recorded runs -/

/-- The registry, with what the current or last call for each module has been answered. -/
structure Recorder (E : Type) where
  system : System E
  trace : ModuleId → List (Answered E)

section Runs

variable {E : Type}

/-- The record after an operation: a call starts with an empty one, and a reply is added to that of
its call. -/
def Recorder.note (recorder : Recorder E) : SystemOp E → ModuleId → List (Answered E)
  | .reconcile module =>
    if (recorder.system.running module).isNone then Function.update recorder.trace module [] else recorder.trace
  | .poll module answers =>
    match recorder.system.running module with
    | some (.call c _) =>
      match (handle recorder.system.store c answers).2 with
      | some reply => Function.update recorder.trace module (⟨c, reply⟩ :: recorder.trace module)
      | none => recorder.trace
    | _ => recorder.trace
  | _ => recorder.trace

variable {registry : Registry} {initial : ActiveModuleSnapshot} {recorder recorder' : Recorder E}
  {m : ModuleId} {log : List (SystemOp E × SystemOutcome E)}

/-- A reconciliation ensures what it returns with, from the current store and its record on. -/
abbrev Ensured (registry : Registry) (m : ModuleId) (task : Task E ReconcileOutcome) (s : Noted E) : Prop :=
  Ensures (recording fun store c (a : Answers E) => handle store c a) (recordingRely (Rely m))
    (fun c s => MayIssue m c s.1) (FailsClosed registry m) task s

structure RecorderInv (registry : Registry) (recorder : Recorder E) : Prop where
  store : Inv recorder.system.store
  running : ∀ m task, recorder.system.running m = some task →
    Ensured registry m task (recorder.system.store, recorder.trace m)

variable {t : List (Answered E)} {store : SnapshotStore} {task : Option (Task E ReconcileOutcome)}
  {out : SystemOutcome E}

theorem inv_of_handle (hinv : Inv store) (c : Command) (a : Answers E) : Inv (handle store c a).1 := by
  cases c with
  | compareAndPublish expected next =>
    exact inv_of_exec hinv (show exec store (.publish expected next) = (_, _) from rfl)
  | waitUntilIdle module => exact inv_of_exec hinv (show exec store (.wait a.waker module) = (_, _) from rfl)
  | _ => exact hinv

theorem ensured_of_rely {task : Task E ReconcileOutcome} {store' : SnapshotStore} (hrely : Rely m store store')
    (h : Ensured registry m task (store, t)) : Ensured registry m task (store', t) :=
  ensures_stable (recordingRely_trans rely_trans) (store, t) (store', t) ⟨hrely, rfl⟩ h

theorem recorderInv_store (h : RecorderInv registry recorder) (hinv : Inv store)
    (hrely : ∀ m, Rely m recorder.system.store store) :
    RecorderInv registry ⟨{ recorder.system with store := store }, recorder.trace⟩ :=
  ⟨hinv, fun m task hrunning => ensured_of_rely (hrely m) (h.running m task hrunning)⟩

theorem recorderInv_update {system : System E} {trace : ModuleId → List (Answered E)}
    (hinv : Inv system.store) (hothers : ∀ m' task, m' ≠ m → system.running m' = some task →
      Ensured registry m' task (system.store, trace m'))
    (htask : ∀ p, task = some p → Ensured registry m p (system.store, t)) :
    RecorderInv registry ⟨system.setRunning m task, Function.update trace m t⟩ := by
  refine ⟨hinv, fun m' task' hrunning => ?_⟩
  simp only [System.setRunning] at hrunning ⊢
  by_cases hm : m' = m
  · subst hm
    rw [Function.update_self] at hrunning ⊢
    exact htask task' hrunning
  · rw [Function.update_of_ne hm] at hrunning ⊢
    exact hothers m' task' hm hrunning

/-- The reconciliation of a module ends, or starts, and the record of the others is theirs. -/
theorem recorderInv_setRunning (h : RecorderInv registry recorder)
    (htask : ∀ p, task = some p → Ensured registry m p (recorder.system.store, t)) :
    RecorderInv registry ⟨recorder.system.setRunning m task, Function.update recorder.trace m t⟩ :=
  recorderInv_update h.store (fun m' p _ hrunning => h.running m' p hrunning) htask

theorem recorderInv_release (h : RecorderInv registry recorder) (m : ModuleId) :
    RecorderInv registry ⟨recorder.system.setRunning m none, recorder.trace⟩ := by
  have hreleased := recorderInv_setRunning h (m := m) (t := recorder.trace m)
    (show ∀ p, (none : Option (Task E ReconcileOutcome)) = some p → _ from nofun)
  rwa [Function.update_eq_self] at hreleased

variable [DecidableEq E]

def Registry.record (registry : Registry) (recorder : Recorder E) (op : SystemOp E) :
    Recorder E × SystemOutcome E :=
  (⟨(registry.step recorder.system op).1, recorder.note op⟩, (registry.step recorder.system op).2)

def Registry.startRecording (registry : Registry) (initial : ActiveModuleSnapshot) : Recorder E :=
  ⟨registry.start initial, fun _ => []⟩

theorem recorderInv_of_poll {answers : Answers E} (h : RecorderInv registry recorder)
    (he : registry.record recorder (.poll m answers) = (recorder', out)) :
    RecorderInv registry recorder' ∧ ∀ result, out = .returned result →
      FailsClosed registry m result (recorder'.system.store, recorder'.trace m) := by
  cases he
  simp only [Registry.step, System.poll, Recorder.note]
  cases hrunning : recorder.system.running m with
  | none => exact ⟨h, fun result hout => by cases hout⟩
  | some task =>
    have hensured := h.running m task hrunning
    cases task with
    | pure | throw =>
      refine ⟨recorderInv_release h m, fun result hout => ?_⟩
      cases hout
      exact hensured _ (recordingRely_refl rely_refl _)
    | call c =>
      have hinv := inv_of_handle h.store c answers
      rcases hhandle : handle recorder.system.store c answers with ⟨store, _ | reply⟩
      · simp only [hhandle] at hinv ⊢
        exact ⟨recorderInv_store h hinv fun m => rely_of_pending hhandle, fun result hout => by cases hout⟩
      simp only [hhandle] at hinv ⊢
      obtain ⟨hmay, hnext⟩ := ensures_next (recordingRely_refl rely_refl) hensured
      refine ⟨recorderInv_update hinv (fun m' task hm htask => ?_) fun p hp => ?_,
        fun result hout => by cases hout⟩
      · -- another reconciliation has relied on this command
        have hrely : Rely m' recorder.system.store (handle recorder.system.store c answers).1 :=
          rely_of_handle hmay hm
        rw [hhandle] at hrely
        exact ensured_of_rely hrely (h.running m' task htask)
      · cases hp
        refine hnext answers _ reply ?_
        simp only [recording, hhandle]

theorem recorderInv_of_step {op : SystemOp E} (h : RecorderInv registry recorder)
    (he : registry.record recorder op = (recorder', out)) : RecorderInv registry recorder' := by
  cases op with
  | poll => exact (recorderInv_of_poll h he).1
  | store op =>
    cases he
    simp only [Registry.step]
    split
    · exact h
    rename_i hpublication
    have hexec : exec recorder.system.store op = (_, _) := rfl
    refine recorderInv_store h (inv_of_exec h.store hexec) fun m => rely_of_exec hexec ?_
    rintro expected next rfl
    exact absurd rfl hpublication
  | reconcile module =>
    cases he
    simp only [Registry.step, Recorder.note]
    cases hrunning : recorder.system.running module with
    | some => exact h
    | none =>
      refine recorderInv_setRunning h fun p hp => ?_
      cases hp
      exact records_reconcileOnceSerialized (recorder.system.store, []) ⟨h.store, trivial⟩
  | cancel module =>
    cases he
    exact recorderInv_release h module

theorem recorderInv_of_run (hrun : Run registry.record (registry.startRecording initial) log recorder) :
    RecorderInv registry recorder :=
  hrun.state_invariant ⟨Inv.new _, fun _ _ h => by simp [Registry.startRecording, Registry.start] at h⟩
    fun _ _ _ _ h he => recorderInv_of_step h he

/-- **Reconciliation fails closed.** In every interleaving and for all answers of the repository: if
a module accepts work when its reconciliation returns with anything but an active dependent, and
revisions are left, the call has read an effectively enabled desired state, found the dependencies
available, and read or written the state of this instance as enabled or draining. Where a result is
not finished, a loop of the source goes on. -/
theorem reconciliation_fails_closed (registry : Registry) (initial : ActiveModuleSnapshot)
    (log : List (SystemOp E × SystemOutcome E)) (recorder : Recorder E) (m : ModuleId)
    (answers : Answers E) (result : Except (RegistryError E) ReconcileOutcome)
    (hrun : Run registry.record (registry.startRecording initial)
      ((.poll m answers, .returned result) :: log) recorder)
    (hfinished : isFinished result = true)
    (hdependent : ∀ dependent, result ≠ .error (.activeDependent m dependent))
    (hroom : recorder.system.store.current.revision + 1 < 2 ^ 64)
    (haccepting : m ∈ recorder.system.store.current.accepting) : Observed registry m (recorder.trace m) := by
  cases hrun with
  | cons hrun he =>
    obtain ⟨-, hreturned⟩ := recorderInv_of_poll (recorderInv_of_run hrun) he
    obtain ⟨-, hcloses⟩ := hreturned result rfl
    exact (hcloses hdependent).2 hfinished hroom haccepting

/-! A module with a dependency is enabled, and its reconciliation has seen what it needs. -/

def ssoRegistry : Registry :=
  ⟨⟨fun module => ⟨if module = .nativeSso then {.tokenExchange} else ∅, .finishExecutingRequests⟩, ∅, ∅⟩,
    "instance", 2⟩

/-- Both modules are to be enabled, and every command succeeds. -/
def ssoAnswers : Answers Unit where
  desired := .ok (some ⟨.nativeSso, .enabled, 2⟩)
  allDesired := .ok [⟨.tokenExchange, .enabled, 1⟩, ⟨.nativeSso, .enabled, 2⟩]
  instanceState := .ok none
  valid := .ok true
  stored := .ok (.applied ⟨"instance", .nativeSso, .starting, 2, none, none, none, 0⟩)
  observed := .ok ()
  drained := .ok true
  clock := 5
  waker := 0

def ssoRun : List (SystemOp Unit × SystemOutcome Unit) × Recorder Unit :=
  execAll ssoRegistry.record (ssoRegistry.startRecording ⟨1, {.tokenExchange}, ∅⟩) []
    (.reconcile .nativeSso :: List.replicate 23 (.poll .nativeSso ssoAnswers))

theorem reconciliation_fails_closed_sso :
    (ssoRegistry.record ssoRun.2 (.poll .nativeSso ssoAnswers)).2 = .returned (.ok .enabled)
      ∧ ModuleId.nativeSso ∈ (ssoRegistry.record ssoRun.2
        (.poll .nativeSso ssoAnswers)).1.system.store.current.accepting
      ∧ Observed ssoRegistry .nativeSso
      ((ssoRegistry.record ssoRun.2 (.poll .nativeSso ssoAnswers)).1.trace .nativeSso) := by
  have hreturned : (ssoRegistry.record ssoRun.2 (.poll .nativeSso ssoAnswers)).2 = .returned (.ok .enabled) := by
    decide +kernel
  have haccepting : ModuleId.nativeSso ∈
      (ssoRegistry.record ssoRun.2 (.poll .nativeSso ssoAnswers)).1.system.store.current.accepting := by
    decide +kernel
  exact ⟨hreturned, haccepting, reconciliation_fails_closed ssoRegistry ⟨1, {.tokenExchange}, ∅⟩ ssoRun.1 _
    .nativeSso ssoAnswers
    (.ok .enabled) (Run.cons (run_execAll _ _) (Prod.ext rfl hreturned)) rfl nofun (by decide +kernel) haccepting⟩

/-- The record leaves the registry as it is. -/
theorem recorded_of_run {system : System E} (hrun : Run registry.step (registry.start initial) log system) :
    ∃ trace, Run registry.record (registry.startRecording initial) log ⟨system, trace⟩ := by
  induction hrun with
  | nil => exact ⟨fun _ => [], .nil⟩
  | @cons log system system' op out _ he ih =>
    obtain ⟨trace, hrun⟩ := ih
    refine ⟨(⟨system, trace⟩ : Recorder E).note op, .cons hrun ?_⟩
    simp only [Registry.record, he]

omit [DecidableEq E] in
/-- **Module leases drain cleanly.** In every interleaving, a removed module is closed for all older
snapshots, the counters are those of the live leases, and what is drained stays so; and a
reconciliation that reports its module disabled returns without a live lease of it, unless the
policy is to disable at once. -/
theorem module_leases_drain :
    (∀ (initial : ActiveModuleSnapshot) (log : List (Op × Outcome)) (store : SnapshotStore),
        Run exec (.new initial) log store → DrainsCleanly initial log store)
      ∧ ∀ (E : Type) [DecidableEq E] (registry : Registry) (initial : ActiveModuleSnapshot)
          (log : List (SystemOp E × SystemOutcome E)) (system : System E) (m : ModuleId) (answers : Answers E),
        Run registry.step (registry.start initial) ((.poll m answers, .returned (.ok .disabled)) :: log) system →
        registry.policy m ≠ .immediate → ∀ lease ∈ system.store.live, lease.key.1 ≠ m := by
  refine ⟨fun initial log store hrun => drains_of_run hrun, ?_⟩
  intro E _ registry initial log system m answers hrun hpolicy
  obtain ⟨trace, hrun⟩ := recorded_of_run hrun
  cases hrun with
  | cons hrun he =>
    obtain ⟨-, hreturned⟩ := recorderInv_of_poll (recorderInv_of_run hrun) he
    exact ((hreturned (.ok .disabled) rfl).1.2 rfl hpolicy).2

/-! A module is disabled while a request has a lease of it. -/

def scimSnapshot : ActiveModuleSnapshot := ⟨1, {.scim}, ∅⟩

def scimRegistry : Registry := ⟨⟨fun _ => ⟨∅, .finishExecutingRequests⟩, ∅, ∅⟩, "instance", 2⟩

/-- The module is to be disabled, and every command succeeds. -/
def scimAnswers : Answers Unit where
  desired := .ok (some ⟨.scim, .disabled, 2⟩)
  allDesired := .ok []
  instanceState := .ok (some ⟨"instance", .scim, .enabled, 1, some 1, none, none, 0⟩)
  valid := .ok true
  stored := .ok (.applied ⟨"instance", .scim, .enabled, 1, some 1, none, none, 0⟩)
  observed := .ok ()
  drained := .ok true
  clock := 5
  waker := 0

def scimPolls : List (SystemOp Unit) := List.replicate 14 (.poll .scim scimAnswers)

/-- The reconciliation waits for the request, which drops its lease, and is about to return. -/
def scimRun : List (SystemOp Unit × SystemOutcome Unit) × System Unit :=
  execAll scimRegistry.step (scimRegistry.start scimSnapshot) []
    (.store (.acquire scimSnapshot .scim .newRequest) :: .reconcile .scim
      :: (scimPolls ++ .store (.drop 0) :: scimPolls))

/-- The lease is taken and dropped, and the module published without it before the wait. -/
def scimStore : List (Op × Outcome) × SnapshotStore :=
  execAll exec (.new scimSnapshot) []
    [.acquire scimSnapshot .scim .newRequest, .publish 1 ⟨2, ∅, ∅⟩, .wait 0 .scim, .drop 0, .wait 0 .scim,
      .acquire scimSnapshot .scim .newRequest]

theorem module_leases_drain_scim : (SystemOutcome.pending ∈ scimRun.1.map Prod.snd
        ∧ (scimRegistry.step scimRun.2 (.poll .scim scimAnswers)).2 = .returned (.ok .disabled)
        ∧ ∀ lease ∈ (scimRegistry.step scimRun.2 (.poll .scim scimAnswers)).1.store.live, lease.key.1 ≠ .scim)
      ∧ scimStore.1.map Prod.snd = [.refused, .idle, .dropped ⟨0, (.scim, 1), none⟩ [0], .pending, .published,
      .leased ⟨0, (.scim, 1), none⟩] ∧ DrainsCleanly scimSnapshot scimStore.1 scimStore.2 := by
  have hreturned : (scimRegistry.step scimRun.2 (.poll .scim scimAnswers)).2 = .returned (.ok .disabled) := by
    decide +kernel
  have hrun : Run scimRegistry.step (scimRegistry.start scimSnapshot)
      ((.poll .scim scimAnswers, .returned (.ok .disabled)) :: scimRun.1)
      (scimRegistry.step scimRun.2 (.poll .scim scimAnswers)).1 :=
    Run.cons (run_execAll _ _) (Prod.ext rfl hreturned)
  exact ⟨⟨by decide +kernel, hreturned, module_leases_drain.2 Unit scimRegistry scimSnapshot _ _ .scim scimAnswers
    hrun (by decide +kernel)⟩, by decide +kernel, module_leases_drain.1 scimSnapshot _ _ (run_execAll _ _)⟩

end Runs

end NazoAuth.RuntimeCapabilities
