import Mathlib.Data.Finset.Basic
import NazoAuth.Lib.Counters
import NazoAuth.Lib.Run

/-!
# Runtime capabilities — snapshots and leases

Requests are admitted to a module by the snapshot that they hold and take a lease of the module's
generation, which is the revision of that snapshot. The tracker counts the leases of each generation
and remembers through which generation a module is closed; a publication closes the generations of
the modules that it removes under the same lock.

`exec` is the machine of these atomic steps. Snapshots that are no longer current stay with the
callers that loaded them (`older`), and a lease value lives until it is dropped (`live`).
-/

namespace NazoAuth.RuntimeCapabilities

open Lib
open Function (update)

/-! ## Modules and snapshots -/

inductive ModuleId
  | deviceAuthorization
  | tokenExchange
  | jwtBearerGrant
  | ciba
  | dynamicClientRegistration
  | requestObjects
  | jarm
  | authorizationDetails
  | httpMessageSignatures
  | scim
  | scimSecurityEvents
  | nativeSso
  | frontchannelLogout
  | sessionManagement
  | openid4vciIssuer
  | openid4vpVerifier
  deriving DecidableEq

def ModuleId.all : List ModuleId :=
  [.deviceAuthorization, .tokenExchange, .jwtBearerGrant, .ciba, .dynamicClientRegistration,
    .requestObjects, .jarm,
    .authorizationDetails, .httpMessageSignatures, .scim, .scimSecurityEvents, .nativeSso,
    .frontchannelLogout, .sessionManagement, .openid4vciIssuer, .openid4vpVerifier]

theorem ModuleId.mem_all (module : ModuleId) : module ∈ ModuleId.all := by
  cases module <;> decide

inductive CapabilityAdmission
  | newRequest
  | existingTransaction
  deriving DecidableEq

structure ActiveModuleSnapshot where
  revision : Nat
  accepting : Finset ModuleId
  draining : Finset ModuleId
  deriving DecidableEq

namespace ActiveModuleSnapshot

variable (snapshot : ActiveModuleSnapshot)

def admits (module : ModuleId) : Bool := decide (module ∈ snapshot.accepting)

def permits (module : ModuleId) (admission : CapabilityAdmission) : Bool :=
  snapshot.admits module || (decide (admission = .existingTransaction) && decide (module ∈ snapshot.draining))

/-- The module is in neither set. -/
def Excludes (module : ModuleId) : Prop :=
  module ∉ snapshot.accepting ∧ module ∉ snapshot.draining

instance (snapshot : ActiveModuleSnapshot) (module : ModuleId) : Decidable (snapshot.Excludes module) :=
  inferInstanceAs (Decidable (_ ∧ _))

variable {admission : CapabilityAdmission} {module : ModuleId} {snapshot : ActiveModuleSnapshot}

theorem not_permits_of_excludes (h : snapshot.Excludes module) : snapshot.permits module admission = false := by
  simp [permits, admits, h.1, h.2]

theorem mem_of_permits (h : snapshot.permits module admission = true) :
    module ∈ snapshot.accepting ∨ module ∈ snapshot.draining := by
  by_contra hnone
  rw [not_permits_of_excludes (not_or.mp hnone)] at h
  cases h

end ActiveModuleSnapshot

/-! ## The tracker -/

/-- A module at a revision. -/
abbrev GenerationKey := ModuleId × Nat

structure LeaseState where
  active : List (GenerationKey × Nat)
  waiters : ModuleId → List Nat
  closedThrough : ModuleId → Option Nat

namespace LeaseState

def default : LeaseState := ⟨[], fun _ => [], fun _ => none⟩

variable (state : LeaseState)

def closeGeneration (module : ModuleId) (generation : Nat) : LeaseState :=
  { state with
    closedThrough := update state.closedThrough module
      (some (match state.closedThrough module with
      | some closed => max closed generation
      | none => generation)) }

/-- The module leaves one of the sets. -/
def removes (current next : ActiveModuleSnapshot) (module : ModuleId) : Bool :=
  (current.admits module && !next.admits module)
    || (decide (module ∈ current.draining) && !decide (module ∈ next.draining))

def closeRemovedGenerations (current next : ActiveModuleSnapshot) : LeaseState :=
  ModuleId.all.foldl
    (fun state module => if removes current next module then state.closeGeneration module current.revision
      else state) state

/-- The generation is at or below the one through which the module is closed. -/
def isClosed (module : ModuleId) (generation : Nat) : Bool :=
  (state.closedThrough module).any fun closed => decide (generation ≤ closed)

/-- The number of active leases of a generation. -/
def activeLeases (module : ModuleId) (generation : Nat) : Nat := countOf (module, generation) state.active

/-- No generation of the module has an active lease. -/
def isIdle (module : ModuleId) : Bool :=
  !(keysOf state.active).any fun key => decide (key.1 = module)

/-- One poll of the future that waits until the module has no lease. -/
def pollZero (waker : Nat) (module : ModuleId) : LeaseState × Bool :=
  if state.isIdle module then (state, true)
  else if waker ∈ state.waiters module then (state, false)
  else ({ state with waiters := update state.waiters module (state.waiters module ++ [waker]) }, false)

variable {generation g : Nat} {module m : ModuleId} {state : LeaseState}

theorem isClosed_closeGeneration : (state.closeGeneration module generation).isClosed m g
      = (state.isClosed m g || (decide (m = module) && decide (g ≤ generation))) := by
  by_cases hm : m = module
  · subst hm
    simp only [isClosed, closeGeneration]
    cases state.closedThrough m with
    | none | some => simp
  · simp [isClosed, closeGeneration, hm]

/-- **What a publication closes**: the modules that it removes, through the generation that it
replaces. -/
theorem isClosed_closeRemovedGenerations {current next : ActiveModuleSnapshot} :
    (state.closeRemovedGenerations current next).isClosed m g
      = (state.isClosed m g || (removes current next m && decide (g ≤ current.revision))) := by
  -- the same for the modules of any list, of which the loop has all
  have hloop : ∀ (modules : List ModuleId) (state : LeaseState),
      (modules.foldl (fun state module =>
          if removes current next module then state.closeGeneration module current.revision
            else state) state).isClosed m g
        = (state.isClosed m g || (decide (m ∈ modules)
            && (removes current next m && decide (g ≤ current.revision)))) := by
    intro modules
    induction modules with
    | nil => simp
    | cons module rest ih =>
      intro state
      rw [List.foldl_cons, ih]
      by_cases hremoved : removes current next module = true
      · rw [if_pos hremoved, isClosed_closeGeneration]
        by_cases hm : m = module
        · subst hm
          cases state.isClosed m g <;> simp [hremoved]
        · simp [hm]
      · rw [if_neg hremoved]
        by_cases hm : m = module
        · subst hm
          simp [hremoved]
        · simp [hm]
  rw [closeRemovedGenerations, hloop, decide_eq_true (ModuleId.mem_all m), Bool.true_and]

theorem closeRemovedGenerations_frame (state : LeaseState) (current next : ActiveModuleSnapshot) :
    (state.closeRemovedGenerations current next).active = state.active
      ∧ (state.closeRemovedGenerations current next).waiters = state.waiters := by
  unfold closeRemovedGenerations
  generalize ModuleId.all = modules
  induction modules generalizing state with
  | nil => exact ⟨rfl, rfl⟩
  | cons module rest ih =>
    rw [List.foldl_cons]
    split
    · exact ih (state.closeGeneration module current.revision)
    · exact ih state

end LeaseState

/-! ## The store -/

/-- A lease value; `view` is the request view that retains it. -/
structure RequestLease where
  id : Nat
  key : GenerationKey
  view : Option Nat
  deriving DecidableEq

/-- A request view: the snapshot it was made with and the modules it has leases of. -/
structure RequestSnapshot where
  snapshot : ActiveModuleSnapshot
  leases : List ModuleId

structure SnapshotStore where
  current : ActiveModuleSnapshot
  /-- The snapshots that were current before, latest first. -/
  older : List ActiveModuleSnapshot
  leases : LeaseState
  /-- The lease values that have not been dropped. -/
  live : List RequestLease
  nextLease : Nat
  views : Nat → Option RequestSnapshot

inductive StaleTransition
  | revisionChanged (expected current : Nat)
  | nonMonotonicPublication (expected attempted : Nat)
  deriving DecidableEq

namespace SnapshotStore

def new (initial : ActiveModuleSnapshot) : SnapshotStore := ⟨initial, [], .default, [], 0, fun _ => none⟩

variable (store : SnapshotStore)

/-- The snapshots that a caller can hold. -/
def published : List ActiveModuleSnapshot := store.current :: store.older

def acquireFor (snapshot : ActiveModuleSnapshot) (module : ModuleId)
    (admission : CapabilityAdmission) (view : Option Nat) : Option (RequestLease × SnapshotStore) :=
  if !snapshot.permits module admission then none
  else if store.leases.isClosed module snapshot.revision then none
  else
    let lease : RequestLease := ⟨store.nextLease, (module, snapshot.revision), view⟩
    some (lease, { store with
      leases := { store.leases with active := increment lease.key store.leases.active }
      live := lease :: store.live
      nextLease := store.nextLease + 1 })

def compareAndPublish (expected : Nat) (next : ActiveModuleSnapshot) :
    Except StaleTransition SnapshotStore :=
  if next.revision ≤ expected then .error (.nonMonotonicPublication expected next.revision)
  else if store.current.revision ≠ expected then .error (.revisionChanged expected store.current.revision)
  else .ok { store with
    leases := store.leases.closeRemovedGenerations store.current next
    current := next
    older := store.current :: store.older }

/-- Dropping a lease value. The last one of its generation wakes all that wait for the module; a
lease without a counter would panic. -/
def dropLease (lease : RequestLease) : Option (SnapshotStore × List Nat) :=
  if countOf lease.key store.leases.active = 0 then none
  else
    let active := decrement lease.key store.leases.active
    let live := store.live.erase lease
    if countOf lease.key active = 0 then
      some ({ store with
        live := live
        leases := { store.leases with
          active := active, waiters := update store.leases.waiters lease.key.1 [] } },
        store.leases.waiters lease.key.1)
    else some ({ store with live := live, leases := { store.leases with active := active } }, [])

end SnapshotStore

/-! ## The machine -/

inductive Op
  /-- A lease through a snapshot that the caller holds. -/
  | acquire (snapshot : ActiveModuleSnapshot) (module : ModuleId) (admission : CapabilityAdmission)
  /-- A new request view. -/
  | request (view : Nat)
  /-- A check of a request view, which retains the lease. -/
  | permits (view : Nat) (module : ModuleId) (admission : CapabilityAdmission)
  /-- The end of a request view; its leases are dropped one after the other. -/
  | finish (view : Nat)
  | drop (lease : Nat)
  | wait (waker : Nat) (module : ModuleId)
  | publish (expected : Nat) (next : ActiveModuleSnapshot)

inductive Outcome
  | leased (lease : RequestLease)
  /-- The view has a lease of the module. -/
  | retained
  | refused
  /-- The caller has no such snapshot, view or lease. -/
  | absent
  | viewed
  | finished
  | dropped (lease : RequestLease) (woken : List Nat)
  | panicked
  | idle
  | pending
  | published
  | stale (error : StaleTransition)
  deriving DecidableEq

def exec (store : SnapshotStore) : Op → SnapshotStore × Outcome
  | .acquire snapshot module admission =>
    if snapshot ∈ store.published then
      match store.acquireFor snapshot module admission none with
      | none => (store, .refused)
      | some (lease, store') => (store', .leased lease)
    else (store, .absent)
  | .request view =>
    match store.views view with
    | some _ => (store, .absent)
    | none => ({ store with views := update store.views view (some ⟨store.current, []⟩) }, .viewed)
  | .permits view module admission =>
    match store.views view with
    | none => (store, .absent)
    | some v =>
      if !v.snapshot.permits module admission then (store, .refused)
      else if module ∈ v.leases then (store, .retained)
      else match store.acquireFor v.snapshot module admission (some view) with
        | none => (store, .refused)
        | some (lease, store') =>
          ({ store' with
            views := update store'.views view (some { v with leases := v.leases ++ [module] }) },
            .leased lease)
  | .finish view =>
    match store.views view with
    | none => (store, .absent)
    | some _ => ({ store with views := update store.views view none }, .finished)
  | .drop id =>
    match store.live.find? fun lease => decide (lease.id = id) with
    | none => (store, .absent)
    | some lease =>
      if lease.view.any fun view => (store.views view).isSome then (store, .absent)
      else match store.dropLease lease with
        | none => (store, .panicked)
        | some (store', woken) => (store', .dropped lease woken)
  | .wait waker module =>
    let polled := store.leases.pollZero waker module
    ({ store with leases := polled.1 }, if polled.2 then .idle else .pending)
  | .publish expected next =>
    match store.compareAndPublish expected next with
    | .error error => (store, .stale error)
    | .ok store' => (store', .published)

end NazoAuth.RuntimeCapabilities
