import Mathlib.Algebra.Group.Nat.Defs
import NazoAuth.Lib.Threads
import NazoAuth.RuntimeCapabilities.Leases

/-!
# Runtime capabilities — the registry

A reconciliation of a module is a thread: it reads the repository, writes the state of its instance,
publishes snapshots and waits for leases, and other threads run between its commands. The repository
answers a command as it likes, with a record or an error, so that every failure and every change of
the desired state is covered.

The loops of the source have no bound. In a program they have `rounds` many, and one that has used
them up is `unfinished`; results hold for every number of rounds.
-/

namespace NazoAuth.RuntimeCapabilities

open Lib

/-! ## Catalog -/

inductive DisablePolicy
  | immediate
  | finishExecutingRequests
  | drainStoredTransactions (maxDuration : Nat)
  | notRuntimeDisableable
  deriving DecidableEq

def DisablePolicy.drainsStored : DisablePolicy → Bool
  | .drainStoredTransactions _ => true
  | _ => false

structure ModuleSpec where
  dependencies : Finset ModuleId
  disablePolicy : DisablePolicy

structure ModuleCatalog where
  specs : ModuleId → ModuleSpec
  runtimeDisableBlocked : Finset ModuleId
  unavailable : Finset ModuleId

namespace ModuleCatalog

variable (catalog : ModuleCatalog) (module : ModuleId)

def isAvailable : Bool := !decide (module ∈ catalog.unavailable)

def effectiveEnabled (desiredEnabled : Bool) : Bool :=
  desiredEnabled && catalog.isAvailable module

def effectiveDisablePolicy : DisablePolicy :=
  if !catalog.isAvailable module then .immediate
  else if module ∈ catalog.runtimeDisableBlocked then .notRuntimeDisableable
  else (catalog.specs module).disablePolicy

/-- The dependencies of a module, in the order of the catalog. -/
def dependencies : List ModuleId :=
  ModuleId.all.filter fun candidate => decide (candidate ∈ (catalog.specs module).dependencies)

/-- The modules that depend on a module, in the order of the catalog. -/
def dependents : List ModuleId :=
  ModuleId.all.filter fun candidate => decide (module ∈ (catalog.specs candidate).dependencies)

end ModuleCatalog

/-! ## Records -/

inductive DesiredMode
  | enabled
  | disabled
  deriving DecidableEq

def DesiredMode.isEnabled : DesiredMode → Bool
  | .enabled => true
  | .disabled => false

inductive ModuleState
  | disabled
  | starting
  | enabled
  | draining
  | failed
  deriving DecidableEq

/-- The instance serves the module, or still serves its stored transactions. -/
def ModuleState.isServing : ModuleState → Bool
  | .enabled => true
  | .draining => true
  | _ => false

inductive ModuleEventType
  | desiredStateChanged
  | transitionStarted
  | transitionCompleted
  | transitionFailed
  | drainStarted
  | drainCompleted
  | staleTransitionDiscarded

structure DesiredStateRecord where
  module : ModuleId
  mode : DesiredMode
  revision : Nat
  deriving DecidableEq

structure InstanceStateRecord where
  instanceId : String
  module : ModuleId
  state : ModuleState
  transitionRevision : Nat
  appliedRevision : Option Nat
  drainDeadline : Option Nat
  errorCode : Option String
  updatedAt : Nat

structure ModuleEventRecord where
  module : ModuleId
  eventType : ModuleEventType
  revision : Nat
  instanceId : Option String
  before : Option ModuleState
  after : Option ModuleState
  outcomeCode : Option String
  occurredAt : Nat

/-- A write of the instance's state with its event. -/
structure InstanceStateMutation where
  expectedRevision : Option Nat
  next : InstanceStateRecord
  event : ModuleEventRecord

inductive CasOutcome (α : Type)
  | applied (value : α)
  | stale (current : Option α)
  deriving DecidableEq

inductive ReconcileOutcome
  | noChange
  | enabled
  | disabled
  | staleDiscarded
  | failed
  deriving DecidableEq

/-- Errors of the registry; `E` are those of the repository. -/
inductive RegistryError (E : Type)
  | repository (error : E)
  | compensation (operation compensation : RegistryError E)
  | missingDesiredState (module : ModuleId)
  | activeDependent (module dependent : ModuleId)
  | dependencyUnavailable (module dependency : ModuleId)
  | snapshotRevisionExhausted
  | runtimeDisableBlocked (module : ModuleId)
  | serviceNotConstructed (module : ModuleId)
  | revisionExhausted (module : ModuleId)
  /-- A loop has used up its rounds. -/
  | unfinished
  deriving DecidableEq

/-! ## Commands -/

inductive Command
  | loadSnapshot
  | compareAndPublish (expected : Nat) (next : ActiveModuleSnapshot)
  | waitUntilIdle (module : ModuleId)
  | readDesired (module : ModuleId)
  | readAllDesired
  | readInstance (instanceId : String) (module : ModuleId)
  | validateRevision (module : ModuleId) (revision : Nat)
  | compareAndSetInstance (mutation : InstanceStateMutation)
  | recordInstanceObservation (event : ModuleEventRecord)
  | drainStoredTransactions (module : ModuleId) (revision : Nat) (remainingDuration : Nat)
  | now

/-- What a command replies. -/
@[reducible] def Reply (E : Type) : Command → Type
  | .loadSnapshot => ActiveModuleSnapshot
  | .compareAndPublish _ _ => Bool
  | .waitUntilIdle _ => Unit
  | .readDesired _ => Except E (Option DesiredStateRecord)
  | .readAllDesired => Except E (List DesiredStateRecord)
  | .readInstance _ _ => Except E (Option InstanceStateRecord)
  | .validateRevision _ _ => Except E Bool
  | .compareAndSetInstance _ => Except E (CasOutcome InstanceStateRecord)
  | .recordInstanceObservation _ => Except E Unit
  | .drainStoredTransactions _ _ _ => Except String Bool
  | .now => Nat

/-- The answers of the repository, the lifecycle and the clock to the next command, and the waker of
its task. -/
structure Answers (E : Type) where
  desired : Except E (Option DesiredStateRecord)
  allDesired : Except E (List DesiredStateRecord)
  instanceState : Except E (Option InstanceStateRecord)
  valid : Except E Bool
  stored : Except E (CasOutcome InstanceStateRecord)
  observed : Except E Unit
  drained : Except String Bool
  clock : Nat
  waker : Nat

/-- The row that a key finds has that key. -/
def InstanceStateRecord.keyed (instanceId : String) (module : ModuleId)
    (record : InstanceStateRecord) : InstanceStateRecord :=
  { record with instanceId := instanceId, module := module }

/-- A write that is applied answers with the record that was written. -/
def InstanceStateMutation.outcome (mutation : InstanceStateMutation) :
    CasOutcome InstanceStateRecord → CasOutcome InstanceStateRecord
  | .applied _ => .applied mutation.next
  | .stale current => .stale (current.map
    (InstanceStateRecord.keyed mutation.next.instanceId mutation.next.module))

def handle {E : Type} (store : SnapshotStore) (c : Command) (a : Answers E) : SnapshotStore × Option (Reply E c) :=
  match c with
  | .loadSnapshot => (store, some store.current)
  | .compareAndPublish expected next =>
    let result := exec store (.publish expected next)
    (result.1, some (decide (result.2 = .published)))
  | .waitUntilIdle module =>
    let result := exec store (.wait a.waker module)
    (result.1, if result.2 = .idle then some () else none)
  | .readDesired _ => (store, some a.desired)
  | .readAllDesired => (store, some a.allDesired)
  | .readInstance instanceId module =>
    (store, some (a.instanceState.map (Option.map (InstanceStateRecord.keyed instanceId module))))
  | .validateRevision _ _ => (store, some a.valid)
  | .compareAndSetInstance mutation => (store, some (a.stored.map mutation.outcome))
  | .recordInstanceObservation _ => (store, some a.observed)
  | .drainStoredTransactions _ _ _ => (store, some a.drained)
  | .now => (store, some a.clock)

/-! ## Programs -/

structure Registry where
  catalog : ModuleCatalog
  instanceId : String
  /-- The rounds of a loop. -/
  rounds : Nat

section Programs

variable {E : Type}

abbrev Task (E α : Type) := Prog Command (Reply E) (RegistryError E) α

def perform (c : Command) : Task E (Reply E c) := .call c .pure

/-- An answer of the repository. -/
def repository {α : Type} (x : Except E α) : Task E α := .ofExcept (x.mapError .repository)

def setMembership (set : Finset ModuleId) (module : ModuleId) (present : Bool) : Finset ModuleId :=
  if present then insert module set else set.erase module

/-- The snapshot after the current one, with the module in the given sets. -/
def nextSnapshot (current : ActiveModuleSnapshot) (module : ModuleId) (accepting draining : Bool) :
    ActiveModuleSnapshot :=
  ⟨current.revision + 1, setMembership current.accepting module accepting,
    setMembership current.draining module draining⟩

def publishLoop (module : ModuleId) (accepting draining : Bool) : Nat → Task E Unit
  | 0 => .throw .unfinished
  | rounds + 1 => do
    let current : ActiveModuleSnapshot ← perform .loadSnapshot
    if current.revision + 1 < 2 ^ 64 then
      let done : Bool ← perform (.compareAndPublish current.revision
        (nextSnapshot current module accepting draining))
      if done then pure () else publishLoop module accepting draining rounds
    else .throw .snapshotRevisionExhausted

namespace Registry

variable (registry : Registry) (module : ModuleId) (revision : Nat)

def publish (accepting draining : Bool) : Task E Unit :=
  publishLoop module (registry.catalog.effectiveEnabled module accepting)
    (draining && registry.catalog.isAvailable module) registry.rounds

def policy : DisablePolicy := registry.catalog.effectiveDisablePolicy module

def revisionIsCurrent : Task E Bool := do
  let valid : Except E Bool ← perform (.validateRevision module revision)
  repository valid

/-- What a transition writes besides its module and revision. -/
structure Persisted where
  expectedRevision : Option Nat
  state : ModuleState
  appliedRevision : Option Nat
  eventType : ModuleEventType
  before : Option ModuleState
  drainDeadline : Option Nat
  outcomeCode : Option String

def persistState (w : Persisted) : Task E (CasOutcome InstanceStateRecord) := do
  let now : Nat ← perform .now
  let next : InstanceStateRecord :=
    ⟨registry.instanceId, module, w.state, revision, w.appliedRevision, w.drainDeadline, w.outcomeCode, now⟩
  let event : ModuleEventRecord :=
    ⟨module, w.eventType, revision, some registry.instanceId, w.before, some w.state, w.outcomeCode, now⟩
  let stored : Except E (CasOutcome InstanceStateRecord) ← perform
    (.compareAndSetInstance ⟨w.expectedRevision, next, event⟩)
  repository stored

def discardStale (observed : Option InstanceStateRecord) : Task E Unit := do
  let now : Nat ← perform .now
  let state := observed.map InstanceStateRecord.state
  let recorded : Except E Unit ← perform (.recordInstanceObservation
    ⟨module, .staleTransitionDiscarded, revision, some registry.instanceId, state, state,
      some "revision_changed", now⟩)
  repository recorded

variable (current : InstanceStateRecord)

def persistFailure (code : String) : Task E Bool := do
  let outcome ← registry.persistState current.module current.transitionRevision
    ⟨some current.transitionRevision, .failed, none, .transitionFailed, some current.state,
      current.drainDeadline, some code⟩
  match outcome with
  | .applied _ => pure true
  | .stale _ => pure false

/-! ### Dependencies -/

/-- The first module of a list for which the desired states give a hit; one without a desired state
is an error. -/
def firstHit (desired : List DesiredStateRecord) (hit : ModuleId → DesiredMode → Bool) :
    List ModuleId → Except (RegistryError E) (Option ModuleId)
  | [] => .ok none
  | module :: rest =>
    match desired.find? fun record => decide (record.module = module) with
    | none => .error (.missingDesiredState module)
    | some record => if hit module record.mode then .ok (some module) else firstHit desired hit rest

/-- The dependency is not to run, or is not admitted. -/
def isUnavailable (catalog : ModuleCatalog) (snapshot : ActiveModuleSnapshot) (module : ModuleId)
    (mode : DesiredMode) : Bool :=
  !catalog.effectiveEnabled module mode.isEnabled || !snapshot.admits module

/-- The dependent is to run, or is admitted or drains. -/
def isActive (catalog : ModuleCatalog) (snapshot : ActiveModuleSnapshot) (module : ModuleId)
    (mode : DesiredMode) : Bool :=
  catalog.effectiveEnabled module mode.isEnabled || snapshot.admits module || decide (module ∈ snapshot.draining)

/-- The first hit among some modules, by one snapshot and one reading of the desired states. -/
def firstAmong (hit : ActiveModuleSnapshot → ModuleId → DesiredMode → Bool)
    (modules : List ModuleId) : Task E (Option ModuleId) :=
  if modules.isEmpty then pure none
  else do
    let snapshot : ActiveModuleSnapshot ← perform .loadSnapshot
    let answer : Except E (List DesiredStateRecord) ← perform .readAllDesired
    let desired ← repository answer
    .ofExcept (firstHit desired (hit snapshot) modules)

def firstUnavailableDependency : Task E (Option ModuleId) :=
  firstAmong (isUnavailable registry.catalog) (registry.catalog.dependencies module)

def firstEnabledDependent : Task E (Option ModuleId) :=
  firstAmong (isActive registry.catalog) (registry.catalog.dependents module)

/-- The failure is written, or the transition was stale. -/
def failWith (code : String) : Task E ReconcileOutcome := do
  let failed ← registry.persistFailure current code
  if failed then pure .failed else pure .staleDiscarded

def failDependencyLoss : Task E ReconcileOutcome := do
  registry.publish current.module false false
  registry.failWith current "dependency_unavailable"

/-! ### Transitions -/

/-- Goes on while the revision is current, and discards the work otherwise. -/
def whenCurrent (observed : Option InstanceStateRecord) (rest : Task E ReconcileOutcome) :
    Task E ReconcileOutcome := do
  let current ← revisionIsCurrent module revision
  if current then rest
  else do
    registry.discardStale module revision observed
    pure .staleDiscarded

/-- Goes on with the record that was written, and not after a stale write. -/
def whenApplied (write : Task E (CasOutcome InstanceStateRecord))
    (rest : InstanceStateRecord → Task E ReconcileOutcome) : Task E ReconcileOutcome := do
  let outcome ← write
  match outcome with
  | .applied record => rest record
  | .stale _ => pure .staleDiscarded

/-- The end of a disable: the state is written, and no request is admitted. -/
def completeDisable : Task E ReconcileOutcome := do
  let completed ← registry.persistState module revision
    ⟨some revision, .disabled, some revision, .transitionCompleted, some .draining, none, none⟩
  match completed with
  | .applied _ => do
    let current ← revisionIsCurrent module revision
    registry.publish module false false
    if current then pure .disabled else pure .staleDiscarded
  | .stale _ => do
    registry.publish module false false
    pure .staleDiscarded

def waitUnlessImmediate : Task E Unit :=
  if registry.policy module = .immediate then pure () else perform (.waitUntilIdle module)

variable (current : Option InstanceStateRecord)

/-- The disable of a module that the instance does not run. -/
def disableStopped : Task E ReconcileOutcome := do
  registry.publish module false false
  registry.waitUnlessImmediate module
  registry.whenCurrent module revision current (do
    let completed ← registry.persistState module revision
      ⟨current.map InstanceStateRecord.transitionRevision, .disabled, some revision, .transitionCompleted,
        current.map InstanceStateRecord.state, none, none⟩
    match completed with
    | .applied _ => do
      let stillCurrent ← revisionIsCurrent module revision
      if stillCurrent then do
        registry.publish module false false
        pure .disabled
      else pure .staleDiscarded
    | .stale _ => pure .staleDiscarded)

/-- The last representable time, in nanoseconds. -/
def maxSystemTime : Nat := 2 ^ 63 * 1000000000

/-- The deadline of a drain: the one it has already, or the duration of the policy from now. -/
def drainDeadline : Task E (Option Nat) :=
  match registry.policy module with
  | .drainStoredTransactions maxDuration =>
    match (current.filter fun record =>
        decide (record.state = .draining) && decide (record.transitionRevision = revision)).bind
            InstanceStateRecord.drainDeadline with
    | some deadline => pure (some deadline)
    | none => do
      let now : Nat ← perform .now
      pure (if now + maxDuration < maxSystemTime then some (now + maxDuration) else none)
  | _ => pure none

/-- The stored transactions of the module are drained; a failure has its code. -/
def drainStored (deadline : Option Nat) : Task E (Option String) :=
  if (registry.policy module).drainsStored then do
    let now : Nat ← perform .now
    let answer : Except String Bool ← perform (.drainStoredTransactions module revision ((deadline.getD 0) - now))
    match answer with
    | .ok true => pure none
    | .ok false => pure (some "drain_deadline_elapsed")
    | .error code => pure (some code)
  else pure none

/-- The leases of the module are waited for, after its admission has been closed. -/
def finishDrain (deadline : Option Nat) (draining : InstanceStateRecord) :
    Task E ReconcileOutcome := do
  registry.publish module false false
  perform (.waitUntilIdle module)
  registry.whenCurrent module revision (some draining)
    (whenApplied (registry.persistState module revision
        ⟨some revision, .draining, none, .drainCompleted, some .draining, deadline, none⟩) fun _ =>
      registry.whenCurrent module revision (some draining) (registry.completeDisable module revision))

def drain (deadline : Option Nat) (draining : InstanceStateRecord) : Task E ReconcileOutcome :=
  if registry.policy module = .immediate then registry.completeDisable module revision
  else whenApplied (registry.persistState module revision
      ⟨some revision, .draining, none, .drainStarted, some .draining, deadline, none⟩) fun _ => do
    let failure ← registry.drainStored module revision deadline
    match failure with
    | some code => registry.failWith draining code
    | none => registry.finishDrain module revision deadline draining

/-- The disable of a module that the instance runs or has run. -/
def disableRunning : Task E ReconcileOutcome := do
  let deadline ← registry.drainDeadline module revision current
  whenApplied (registry.persistState module revision
      ⟨current.map InstanceStateRecord.transitionRevision, .draining, none, .transitionStarted,
        current.map InstanceStateRecord.state, deadline, none⟩) fun draining => do
    let dependent ← registry.firstEnabledDependent module
    if dependent.isSome then registry.failWith draining "active_dependent"
    else registry.whenCurrent module revision (some draining) (do
      registry.publish module false (registry.policy module).drainsStored
      registry.whenCurrent module revision (some draining) (registry.drain module revision deadline draining))

def disableTransition : Task E ReconcileOutcome :=
  if current.all fun record => decide (record.state = .disabled)
    then registry.disableStopped module revision current
  else registry.disableRunning module revision current

/-- An enable returns, or fails, with the flag whether its admission can be restored. -/
abbrev FlaggedTask (E α : Type) := Prog Command (Reply E) (Bool × RegistryError E) α

/-- A part of an enable during which the flag has a value. -/
def flagged {α : Type} (canRestore : Bool) (task : Task E α) : FlaggedTask E α :=
  task.mapError fun e => (canRestore, e)

/-- The enable from its admission on. -/
def enableAdmission (starting : InstanceStateRecord) :
    FlaggedTask E (Bool × ReconcileOutcome) := do
  flagged true (registry.publish module true false)
  let dependency ← flagged true (registry.firstUnavailableDependency module)
  if dependency.isSome then do
    flagged true (registry.publish module false false)
    let outcome ← flagged false (registry.failDependencyLoss starting)
    pure (false, outcome)
  else do
    let current ← flagged true (revisionIsCurrent module revision)
    if current then do
      let completed ← flagged true (registry.persistState module revision
        ⟨some revision, .enabled, some revision, .transitionCompleted, some .starting, none, none⟩)
      match completed with
      | .applied _ => pure (true, .enabled)
      | .stale _ => do
        flagged true (registry.publish module false false)
        pure (true, .staleDiscarded)
    else do
      flagged true (registry.publish module false false)
      flagged true (registry.discardStale module revision (some starting))
      pure (true, .staleDiscarded)

def enableTransition (current : Option InstanceStateRecord) :
    FlaggedTask E (Bool × ReconcileOutcome) := do
  let outcome ← flagged false (registry.persistState module revision
    ⟨current.map InstanceStateRecord.transitionRevision, .starting, none, .transitionStarted,
      current.map InstanceStateRecord.state, none, none⟩)
  match outcome with
  | .stale _ => pure (false, .staleDiscarded)
  | .applied starting => do
    let dependency ← flagged false (registry.firstUnavailableDependency module)
    if dependency.isSome then do
      let outcome ← flagged false (registry.failDependencyLoss starting)
      pure (false, outcome)
    else do
      let current ← flagged true (revisionIsCurrent module revision)
      if current then registry.enableAdmission module revision starting
      else do
        flagged true (registry.discardStale module revision (some starting))
        pure (true, .staleDiscarded)

/-! ### Admission after a transition -/

/-- The module is closed before the error is returned. -/
def closeAndThrow {α : Type} (module : ModuleId) (error : RegistryError E) : Task E α := do
  registry.publish module false false
  .throw error

/-- The instance serves the module, by what the transition knows or by the stored state. -/
def runtimeReady (canRestore completedEnable : Bool) : Task E Bool :=
  if canRestore && !completedEnable then do
    let answer : Except E (Option InstanceStateRecord) ← perform (.readInstance registry.instanceId module)
    let state ← repository answer
    pure (state.any fun record => record.state.isServing)
  else pure canRestore

def dependenciesReady (wanted : Bool) : Task E Bool :=
  if wanted then do
    let dependency ← registry.firstUnavailableDependency module
    pure dependency.isNone
  else pure false

def alignAdmissionWithCurrentIntent (canRestore completedEnable : Bool) : Nat → Task E Unit
  | 0 => .throw .unfinished
  | rounds + 1 => do
    let answer : Except E (Option DesiredStateRecord) ← perform (.readDesired module)
    match answer with
    | .error error => registry.closeAndThrow module (.repository error)
    | .ok none => registry.closeAndThrow module (.missingDesiredState module)
    | .ok (some desired) => do
      let enabled := registry.catalog.effectiveEnabled module desired.mode.isEnabled
      let ready ← (registry.runtimeReady module canRestore completedEnable).attempt
      match ready with
      | .error error => registry.closeAndThrow module error
      | .ok ready => do
        let dependencies ← (registry.dependenciesReady module (ready && enabled)).attempt
        match dependencies with
        | .error error => registry.closeAndThrow module error
        | .ok dependencies => do
          registry.publish module (ready && enabled && dependencies)
            (ready && !enabled && registry.catalog.isAvailable module && (registry.policy module).drainsStored)
          let current ← (revisionIsCurrent module desired.revision).attempt
          match current with
          | .error error => registry.closeAndThrow module error
          | .ok true => pure ()
          | .ok false => alignAdmissionWithCurrentIntent canRestore completedEnable rounds

/-- The result of a transition and of the alignment after it. -/
def combine [DecidableEq E] : Except (RegistryError E) ReconcileOutcome →
    Except (RegistryError E) Unit → Except (RegistryError E) ReconcileOutcome
  | .ok outcome, .ok () => .ok outcome
  | .error error, .ok () => .error error
  | .ok _, .error error => .error error
  | .error operation, .error compensation =>
    if operation = .snapshotRevisionExhausted && compensation = .snapshotRevisionExhausted then .error operation
    else .error (.compensation operation compensation)

def isOutcome (outcome : ReconcileOutcome) : Except (RegistryError E) ReconcileOutcome → Bool
  | .ok o => decide (o = outcome)
  | .error _ => false

def finishAdmission [DecidableEq E] (module : ModuleId) (canRestore : Bool)
    (result : Except (RegistryError E) ReconcileOutcome) : Task E ReconcileOutcome := do
  let compensation ← (registry.alignAdmissionWithCurrentIntent module
    (canRestore && !isOutcome .disabled result) (isOutcome .enabled result) registry.rounds).attempt
  .ofExcept (combine result compensation)

def enable [DecidableEq E] (module : ModuleId) (revision : Nat)
    (current : Option InstanceStateRecord) : Task E ReconcileOutcome := do
  let result ← (registry.enableTransition module revision current).attempt
  match result with
  | .ok (canRestore, outcome) => registry.finishAdmission module canRestore (.ok outcome)
  | .error (canRestore, error) => registry.finishAdmission module canRestore (.error error)

def disable [DecidableEq E] (module : ModuleId) (revision : Nat)
    (current : Option InstanceStateRecord) : Task E ReconcileOutcome := do
  let result ← (registry.disableTransition module revision current).attempt
  registry.finishAdmission module (current.any fun record => record.state.isServing) result

/-! ### Reconciliation -/

/-- The record has the revision applied, in the state that is wanted. -/
def isApplied (enabled : Bool) (revision : Nat) (record : InstanceStateRecord) : Bool :=
  decide (record.appliedRevision = some revision)
    && ((enabled && decide (record.state = .enabled)) || (!enabled && decide (record.state = .disabled)))

/-- The transition of a module whose dependencies allow it. -/
def reconcileTo [DecidableEq E] (module : ModuleId) (desired : DesiredStateRecord) (enabled : Bool)
    (current : Option InstanceStateRecord) : Task E ReconcileOutcome := do
  let snapshot : ActiveModuleSnapshot ← perform .loadSnapshot
  if snapshot.admits module == enabled && !decide (module ∈ snapshot.draining)
      && current.any (isApplied enabled desired.revision) then
    pure .noChange
  else if enabled then registry.enable module desired.revision current
  else registry.disable module desired.revision current

def closeIf (admitted : Bool) : Task E Unit :=
  if admitted then registry.publish module false false else pure ()

/-- A module that is to run without a dependency. -/
def loseDependency (dependency : ModuleId) (desired : DesiredStateRecord)
    (current : Option InstanceStateRecord) : Task E ReconcileOutcome := do
  let snapshot : ActiveModuleSnapshot ← perform .loadSnapshot
  registry.closeIf module (snapshot.admits module)
  match current.filter fun record => decide (record.transitionRevision = desired.revision) with
  | some record => registry.failDependencyLoss record
  | none => .throw (.dependencyUnavailable module dependency)

def reconcileOnceSerialized [DecidableEq E] (module : ModuleId) : Task E ReconcileOutcome := do
  let answer : Except E (Option DesiredStateRecord) ← perform (.readDesired module)
  match answer with
  | .error error => registry.closeAndThrow module (.repository error)
  | .ok none => registry.closeAndThrow module (.missingDesiredState module)
  | .ok (some desired) => do
    let enabled := registry.catalog.effectiveEnabled module desired.mode.isEnabled
    let answer : Except E (Option InstanceStateRecord) ← perform (.readInstance registry.instanceId module)
    match answer with
    | .error error => registry.closeAndThrow module (.repository error)
    | .ok current =>
      if enabled then do
        let dependency ← (registry.firstUnavailableDependency module).attempt
        match dependency with
        | .error error => registry.closeAndThrow module error
        | .ok (some dependency) => registry.loseDependency module dependency desired current
        | .ok none => registry.reconcileTo module desired enabled current
      else do
        let dependent ← (registry.firstEnabledDependent module).attempt
        match dependent with
        | .error error => registry.closeAndThrow module error
        | .ok (some dependent) => .throw (.activeDependent module dependent)
        | .ok none => registry.reconcileTo module desired enabled current

end Registry

end Programs

/-! ## The system -/

/-- The store and the reconciliation that holds the lock of each module. -/
structure System (E : Type) where
  store : SnapshotStore
  running : ModuleId → Option (Task E ReconcileOutcome)

inductive SystemOp (E : Type)
  /-- A step of a caller that is no publication: only the registry publishes. -/
  | store (op : Op)
  /-- A reconciliation takes the lock of its module. -/
  | reconcile (module : ModuleId)
  /-- The reconciliation of a module issues its next command, or returns. -/
  | poll (module : ModuleId) (answers : Answers E)
  /-- The future of the reconciliation is dropped, and with it the lock. -/
  | cancel (module : ModuleId)

inductive SystemOutcome (E : Type)
  | store (out : Outcome)
  | refused
  | started
  | issued
  | pending
  | returned (result : Except (RegistryError E) ReconcileOutcome)
  | cancelled
  deriving DecidableEq

namespace System

variable {E : Type}

def setRunning (system : System E) (module : ModuleId) (task : Option (Task E ReconcileOutcome)) : System E :=
  { system with running := Function.update system.running module task }

/-- The reconciliation of a module issues its next command, or returns and releases the lock. -/
def poll (system : System E) (module : ModuleId) (answers : Answers E) : System E × SystemOutcome E :=
  match system.running module with
  | none => (system, .refused)
  | some (.pure outcome) => (system.setRunning module none, .returned (.ok outcome))
  | some (.throw error) => (system.setRunning module none, .returned (.error error))
  | some (.call c next) =>
    match handle system.store c answers with
    | (store, none) => ({ system with store := store }, .pending)
    | (store, some reply) => ({ system with store := store }.setRunning module (some (next reply)), .issued)

end System

def Op.isPublication : Op → Bool
  | .publish _ _ => true
  | _ => false

namespace Registry

variable {E : Type} [DecidableEq E]

/-- The store of a new registry: modules without a constructed service are in no set. -/
def initialStore (registry : Registry) (initial : ActiveModuleSnapshot) : SnapshotStore :=
  .new { initial with
    accepting := initial.accepting.filter fun module => registry.catalog.isAvailable module = true
    draining := initial.draining.filter fun module => registry.catalog.isAvailable module = true }

def start (registry : Registry) (initial : ActiveModuleSnapshot) : System E :=
  ⟨registry.initialStore initial, fun _ => none⟩

def step (registry : Registry) (system : System E) : SystemOp E → System E × SystemOutcome E
  | .store op =>
    if op.isPublication then (system, .refused)
    else ({ system with store := (exec system.store op).1 }, .store (exec system.store op).2)
  | .reconcile module =>
    match system.running module with
    | some _ => (system, .refused)
    | none => (system.setRunning module (some (registry.reconcileOnceSerialized module)), .started)
  | .poll module answers => system.poll module answers
  | .cancel module => (system.setRunning module none, .cancelled)

end Registry

end NazoAuth.RuntimeCapabilities
