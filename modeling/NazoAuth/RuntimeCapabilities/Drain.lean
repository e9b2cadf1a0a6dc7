import NazoAuth.RuntimeCapabilities.Leases

/-!
# Runtime capabilities — leases drain

Every published snapshot with a module is closed for it, or the module is still there (`Inv`). So a
module that the current snapshot excludes takes no new lease through any snapshot (`gone_of_exec`),
and a generation that is closed and without a lease stays so (`drained_of_exec`).
-/

namespace NazoAuth.RuntimeCapabilities

open Lib

/-! ## What a step does -/

section Steps

variable {store store' : SnapshotStore} {op : Op} {out : Outcome}

/-- The views after a step have the snapshots of views before it, or the current one. -/
def ViewsFrom (store store' : SnapshotStore) : Prop :=
  ∀ v view, store'.views v = some view →
    view.snapshot = store.current ∨ ∃ v' view', store.views v' = some view' ∧ view'.snapshot = view.snapshot

/-- A step that publishes nothing. -/
structure SameSnapshots (store store' : SnapshotStore) : Prop where
  views : ViewsFrom store store'
  current : store'.current = store.current
  older : store'.older = store.older
  closed : store'.leases.closedThrough = store.leases.closedThrough

/-- The store after a lease has been taken. -/
structure Leased (store : SnapshotStore) (lease : RequestLease) (store' : SnapshotStore) :
    Prop extends SameSnapshots store store' where
  /-- The snapshot through which the lease was taken permits the module. -/
  permitted : ∃ snapshot ∈ store.published, snapshot.revision = lease.key.2
    ∧ (lease.key.1 ∈ snapshot.accepting ∨ lease.key.1 ∈ snapshot.draining)
  opened : store.leases.isClosed lease.key.1 lease.key.2 = false
  waiters : store'.leases.waiters = store.leases.waiters
  active : store'.leases.active = increment lease.key store.leases.active
  live : store'.live = lease :: store.live

/-- The store after a lease has been dropped. -/
structure Dropped (store : SnapshotStore) (lease : RequestLease) (store' : SnapshotStore) :
    Prop extends SameSnapshots store store' where
  mem : lease ∈ store.live
  active : store'.leases.active = decrement lease.key store.leases.active
  live : store'.live = store.live.erase lease
  waiters : ∀ module, store'.leases.waiters module ≠ [] → store'.leases.waiters module
    = store.leases.waiters module ∧ (module = lease.key.1 → lease.key ∈ keysOf store'.leases.active)

/-- A publication. -/
structure Publishes (store : SnapshotStore) (expected : Nat) (next : ActiveModuleSnapshot)
    (store' : SnapshotStore) : Prop where
  expected : store.current.revision = expected
  later : store.current.revision < next.revision
  store' : store' = { store with
    leases := store.leases.closeRemovedGenerations store.current next
    current := next
    older := store.current :: store.older }

/-- The store after a step that is about no lease and publishes nothing. -/
structure Idles (store : SnapshotStore) (store' : SnapshotStore) : Prop extends SameSnapshots store store' where
  active : store'.leases.active = store.leases.active
  live : store'.live = store.live
  waiters : ∀ module, store'.leases.waiters module ≠ store.leases.waiters module →
    store.leases.isIdle module = false

/-- The outcomes of steps that take or drop no lease and publish nothing. -/
def Outcome.isQuiet : Outcome → Bool
  | .leased _ => false
  | .dropped _ _ => false
  | .published => false
  | _ => true

inductive Effect (store : SnapshotStore) : Op → SnapshotStore × Outcome → Prop
  | quiet {op : Op} {store' : SnapshotStore} {out : Outcome} (h : Idles store store') (hout : out.isQuiet = true)
      (hidle : ∀ waker module, op = .wait waker module → out = .idle → store.leases.isIdle module = true) :
      Effect store op (store', out)
  | leased {op : Op} {store' : SnapshotStore} {lease} (h : Leased store lease store') :
      Effect store op (store', .leased lease)
  | dropped {op : Op} {store' : SnapshotStore} {lease woken} (h : Dropped store lease store') :
      Effect store op (store', .dropped lease woken)
  | published {store' : SnapshotStore} {expected next} (h : Publishes store expected next store') :
      Effect store (.publish expected next) (store', .published)

theorem viewsFrom_of_eq (h : store'.views = store.views) : ViewsFrom store store' :=
  fun v view hview => .inr ⟨v, view, h ▸ hview, rfl⟩

theorem viewsFrom_update {v : Nat} {view : Option RequestSnapshot}
    (h : store'.views = Function.update store.views v view)
    (hview : ∀ new, view = some new → new.snapshot = store.current
      ∨ ∃ v' view', store.views v' = some view' ∧ view'.snapshot = new.snapshot) : ViewsFrom store store' := by
  intro v' view' hview'
  rw [h] at hview'
  by_cases hv : v' = v
  · rw [hv, Function.update_self] at hview'
    exact hview view' hview'
  · rw [Function.update_of_ne hv] at hview'
    exact .inr ⟨v', view', hview', rfl⟩

theorem Idles.refl (store : SnapshotStore) : Idles store store :=
  ⟨⟨viewsFrom_of_eq rfl, rfl, rfl, rfl⟩, rfl, rfl, fun _ h => absurd rfl h⟩

theorem effect_same (hout : out.isQuiet = true) (hop : ∀ waker module, op ≠ .wait waker module) :
    Effect store op (store, out) :=
  .quiet (Idles.refl store) hout fun waker module h => absurd h (hop waker module)

variable {lease : RequestLease} {admission : CapabilityAdmission} {module : ModuleId}
  {snapshot : ActiveModuleSnapshot} {view : Option Nat}

theorem leased_of_acquireFor (hmem : snapshot ∈ store.published)
    (h : store.acquireFor snapshot module admission view = some (lease, store')) : Leased store lease store' := by
  unfold SnapshotStore.acquireFor at h
  by_cases hpermits : snapshot.permits module admission = true
  · rw [if_neg (by simp [hpermits])] at h
    by_cases hclosed : store.leases.isClosed module snapshot.revision = true
    · rw [if_pos hclosed] at h
      cases h
    rw [if_neg hclosed] at h
    cases h
    exact ⟨⟨viewsFrom_of_eq rfl, rfl, rfl, rfl⟩,
      ⟨snapshot, hmem, rfl, ActiveModuleSnapshot.mem_of_permits hpermits⟩,
      Bool.eq_false_iff.mpr hclosed, rfl, rfl, rfl⟩
  · rw [if_pos (by simp [hpermits])] at h
    cases h

theorem frame_of_acquireFor (h : store.acquireFor snapshot module admission view = some (lease, store')) :
    lease.key = (module, snapshot.revision) ∧ store'.views = store.views := by
  unfold SnapshotStore.acquireFor at h
  split at h
  · cases h
  split at h
  · cases h
  · cases h
    exact ⟨rfl, rfl⟩

theorem dropped_of_dropLease {woken : List Nat} (hmem : lease ∈ store.live)
    (h : store.dropLease lease = some (store', woken)) : Dropped store lease store' := by
  unfold SnapshotStore.dropLease at h
  split at h
  · cases h
  dsimp only at h
  split at h
  · cases h
    refine ⟨⟨viewsFrom_of_eq rfl, rfl, rfl, rfl⟩, hmem, rfl, rfl, fun module hwaiters => ?_⟩
    -- nobody waits for the module after its generation has gone
    by_cases hmodule : module = lease.key.1
    · simp [hmodule] at hwaiters
    · exact ⟨by simp [hmodule], fun h => absurd h hmodule⟩
  · rename_i hleft
    cases h
    refine ⟨⟨viewsFrom_of_eq rfl, rfl, rfl, rfl⟩, hmem, rfl, rfl, fun module hwaiters => ⟨rfl, fun _ => ?_⟩⟩
    by_contra hnone
    exact hleft (countOf_of_notMem hnone)

theorem idles_of_pollZero (waker : Nat) (module : ModuleId) :
    Idles store { store with leases := (store.leases.pollZero waker module).1 } := by
  unfold LeaseState.pollZero
  split
  · exact Idles.refl store
  rename_i hbusy
  split
  · exact Idles.refl store
  refine ⟨⟨viewsFrom_of_eq rfl, rfl, rfl, rfl⟩, rfl, rfl, fun m hm => ?_⟩
  by_cases hmodule : m = module
  · rw [hmodule]
    exact Bool.eq_false_iff.mpr hbusy
  · exact absurd (by simp [hmodule]) hm

/-- **What a step does.** -/
theorem effect_of_exec (hviews : ∀ v view, store.views v = some view → view.snapshot ∈ store.published)
    (he : exec store op = (store', out)) : Effect store op (store', out) := by
  rw [← he]
  cases op with
  | acquire snapshot module admission =>
    simp only [exec]
    split
    · rename_i hmem
      split
      · exact effect_same rfl nofun
      · rename_i lease store₁ hacquire
        exact .leased (leased_of_acquireFor hmem hacquire)
    · exact effect_same rfl nofun
  | request =>
    simp only [exec]
    split
    · exact effect_same rfl nofun
    refine .quiet ⟨⟨viewsFrom_update rfl fun new hnew => .inl ?_, rfl, rfl, rfl⟩, rfl, rfl,
      fun _ h => absurd rfl h⟩ rfl nofun
    cases hnew
    rfl
  | permits view module admission =>
    simp only [exec]
    split
    · exact effect_same rfl nofun
    rename_i v hview
    split_ifs
    · exact effect_same rfl nofun
    · exact effect_same rfl nofun
    split
    · exact effect_same rfl nofun
    rename_i lease store₁ hacquire
    have h := leased_of_acquireFor (hviews view v hview) hacquire
    obtain ⟨-, hsame⟩ := frame_of_acquireFor hacquire
    refine .leased ⟨⟨?_, h.current, h.older, h.closed⟩, h.permitted, h.opened, h.waiters, h.active, h.live⟩
    refine viewsFrom_update (congrArg (Function.update · view _) hsame) fun new hnew => .inr ⟨view, v, hview, ?_⟩
    cases hnew
    rfl
  | finish =>
    simp only [exec]
    split
    · exact effect_same rfl nofun
    · exact .quiet ⟨⟨viewsFrom_update rfl nofun, rfl, rfl, rfl⟩, rfl, rfl, fun _ h => absurd rfl h⟩ rfl nofun
  | drop id =>
    simp only [exec]
    split
    · exact effect_same rfl nofun
    rename_i lease hfind
    split
    · exact effect_same rfl nofun
    split
    · exact effect_same rfl nofun
    · rename_i store₁ woken hdrop
      exact .dropped (dropped_of_dropLease (List.mem_of_find?_eq_some hfind) hdrop)
  | wait waker module =>
    refine .quiet (idles_of_pollZero waker module) (by split <;> rfl) fun waker' module' hop hidle => ?_
    cases hop
    unfold LeaseState.pollZero at hidle
    by_contra hbusy
    rw [if_neg hbusy] at hidle
    split at hidle <;> cases hidle
  | publish expected next =>
    simp only [exec, SnapshotStore.compareAndPublish]
    by_cases hlater : next.revision ≤ expected
    · rw [if_pos hlater]
      exact effect_same rfl nofun
    rw [if_neg hlater]
    by_cases hcurrent : store.current.revision = expected
    · rw [if_neg (not_not.mpr hcurrent)]
      exact .published ⟨hcurrent, by omega, rfl⟩
    · rw [if_pos hcurrent]
      exact effect_same rfl nofun

end Steps

/-! ## The invariant -/

section Invariant

variable {store store' : SnapshotStore} {op : Op} {out : Outcome} {m : ModuleId} {g : Nat}

/-- A module that a published snapshot has in a set is in that set of the current one, or closed
through that snapshot. -/
def Covered (set : ActiveModuleSnapshot → Finset ModuleId) (store : SnapshotStore) : Prop :=
  ∀ snapshot ∈ store.published, ∀ module ∈ set snapshot,
    module ∈ set store.current ∨ store.leases.isClosed module snapshot.revision = true

structure Inv (store : SnapshotStore) : Prop where
  views : ∀ v view, store.views v = some view → view.snapshot ∈ store.published
  ordered : store.published.Pairwise fun newer older => older.revision < newer.revision
  accepting : Covered ActiveModuleSnapshot.accepting store
  draining : Covered ActiveModuleSnapshot.draining store
  tallied : Tallies store.leases.active (store.live.map RequestLease.key)
  /-- Nobody waits for a module without a lease. -/
  waiting : ∀ module, store.leases.waiters module ≠ [] → store.leases.isIdle module = false

theorem Inv.new (initial : ActiveModuleSnapshot) : Inv (.new initial) where
  views _ _ h := by cases h
  ordered := List.pairwise_singleton _ _
  accepting snapshot h module hmem := .inl (by rwa [List.mem_singleton.mp h] at hmem)
  draining snapshot h module hmem := .inl (by rwa [List.mem_singleton.mp h] at hmem)
  tallied := Tallies.nil
  waiting _ h := absurd rfl h

theorem Inv.isIdle_iff (h : Inv store) : store.leases.isIdle m = true ↔ ∀ lease ∈ store.live, lease.key.1 ≠ m := by
  simp only [LeaseState.isIdle, Bool.not_eq_true', List.any_eq_false, decide_eq_true_eq]
  constructor
  · intro hidle lease hlease
    exact hidle lease.key (h.tallied.mem_keys.mpr (List.mem_map_of_mem hlease))
  · intro hnone key hkey
    obtain ⟨lease, hlease, rfl⟩ := List.mem_map.mp (h.tallied.mem_keys.mp hkey)
    exact hnone lease hlease

variable {snapshot : ActiveModuleSnapshot}

theorem Inv.revision_le (h : Inv store) (hmem : snapshot ∈ store.published) :
    snapshot.revision ≤ store.current.revision := by
  rcases List.mem_cons.mp hmem with rfl | hmem
  · exact Nat.le_refl _
  · exact Nat.le_of_lt (List.rel_of_pairwise_cons h.ordered hmem)

theorem Inv.eq_current (h : Inv store) (hmem : snapshot ∈ store.published)
    (hrevision : snapshot.revision = store.current.revision) : snapshot = store.current := by
  rcases List.mem_cons.mp hmem with rfl | hmem
  · rfl
  · have := List.rel_of_pairwise_cons h.ordered hmem
    omega

/-- The module is closed for every snapshot that has it, while the current one has not. -/
theorem Inv.closed_of_excludes (h : Inv store) (hexcludes : store.current.Excludes m)
    (hmem : snapshot ∈ store.published) (hset : m ∈ snapshot.accepting ∨ m ∈ snapshot.draining) :
    store.leases.isClosed m snapshot.revision = true := by
  rcases hset with hset | hset
  · exact (h.accepting snapshot hmem m hset).resolve_left hexcludes.1
  · exact (h.draining snapshot hmem m hset).resolve_left hexcludes.2

theorem isClosed_congr {state state' : LeaseState} (h : state'.closedThrough = state.closedThrough)
    (m : ModuleId) (g : Nat) : state'.isClosed m g = state.isClosed m g := by
  unfold LeaseState.isClosed
  rw [h]

variable {set : ActiveModuleSnapshot → Finset ModuleId} {next : ActiveModuleSnapshot} {lease : RequestLease}

theorem SameSnapshots.published (h : SameSnapshots store store') : store'.published = store.published := by
  rw [SnapshotStore.published, SnapshotStore.published, h.current, h.older]

theorem SameSnapshots.covered (h : SameSnapshots store store') (hcovered : Covered set store) :
    Covered set store' := by
  intro snapshot hmem module hset
  rw [h.current, isClosed_congr h.closed]
  exact hcovered snapshot (h.published ▸ hmem) module hset

section

variable (hinv : Inv store)

include hinv

/-- A step that publishes nothing keeps the invariant, if it keeps the count of the leases and who
waits. -/
theorem inv_of_same (h : SameSnapshots store store')
    (htallied : Tallies store'.leases.active (store'.live.map RequestLease.key))
    (hwaiting : ∀ module, store'.leases.waiters module ≠ [] → store'.leases.isIdle module = false) :
    Inv store' := by
  refine ⟨fun v view hview => ?_, h.published ▸ hinv.ordered, h.covered hinv.accepting, h.covered hinv.draining,
    htallied, hwaiting⟩
  rw [h.published]
  rcases h.views v view hview with hcurrent | ⟨v', view', hview', hsame⟩
  · rw [hcurrent]
    exact .head _
  · rw [← hsame]
    exact hinv.views v' view' hview'

/-- A publication covers the snapshots before it: a module that leaves the set is closed through the
snapshot that is replaced, which is the latest of them. -/
theorem covered_of_publication
    (hset : ∀ module, module ∈ set store.current → module ∉ set next →
    LeaseState.removes store.current next module = true) (h : Covered set store) :
    Covered set { store with
      leases := store.leases.closeRemovedGenerations store.current next
      current := next
      older := store.current :: store.older } := by
  intro snapshot hmem module hmodule
  by_cases hnext : module ∈ set next
  · exact .inl hnext
  rcases List.mem_cons.mp hmem with rfl | hmem
  · exact absurd hmodule hnext
  refine .inr (LeaseState.isClosed_closeRemovedGenerations.trans ?_)
  rcases h snapshot hmem module hmodule with hcurrent | hclosed
  · rw [hset module hcurrent hnext, decide_eq_true (hinv.revision_le hmem), Bool.and_self, Bool.or_true]
  · rw [hclosed, Bool.true_or]

theorem inv_of_idles (h : Idles store store') : Inv store' := by
  refine inv_of_same hinv h.toSameSnapshots ?_ ?_
  · rw [h.active, h.live]
    exact hinv.tallied
  · intro module hwaiters
    have hidle : store'.leases.isIdle module = store.leases.isIdle module := by
      rw [LeaseState.isIdle, LeaseState.isIdle, h.active]
    rw [hidle]
    by_cases hsame : store'.leases.waiters module = store.leases.waiters module
    · exact hinv.waiting module (hsame ▸ hwaiters)
    · exact h.waiters module hsame

theorem inv_of_leased (h : Leased store lease store') : Inv store' := by
  refine inv_of_same hinv h.toSameSnapshots ?_ ?_
  · rw [h.active, h.live]
    exact hinv.tallied.increment
  · intro module hwaiters
    have hbusy := hinv.waiting module (h.waiters ▸ hwaiters)
    simp only [LeaseState.isIdle, Bool.not_eq_false', List.any_eq_true] at hbusy ⊢
    obtain ⟨key, hkey, hmodule⟩ := hbusy
    exact ⟨key, h.active ▸ mem_keysOf_increment.mpr (.inr hkey), hmodule⟩

theorem inv_of_dropped (h : Dropped store lease store') : Inv store' := by
  refine inv_of_same hinv h.toSameSnapshots ?_ ?_
  · rw [h.active, h.live]
    exact hinv.tallied.erase h.mem
  · intro module hwaiters
    obtain ⟨hsame, hleft⟩ := h.waiters module hwaiters
    simp only [LeaseState.isIdle, Bool.not_eq_false', List.any_eq_true, decide_eq_true_eq]
    by_cases hmodule : module = lease.key.1
    · exact ⟨lease.key, hleft hmodule, hmodule.symm⟩
    -- the leases of other modules stay
    have hbusy := hinv.waiting module (hsame ▸ hwaiters)
    simp only [LeaseState.isIdle, Bool.not_eq_false', List.any_eq_true, decide_eq_true_eq] at hbusy
    obtain ⟨key, hkey, rfl⟩ := hbusy
    refine ⟨key, ?_, rfl⟩
    have hne : key ≠ lease.key := fun heq => hmodule (congrArg Prod.fst heq)
    have hpos := hinv.tallied.positive.mem_keysOf.mp hkey
    have hcount : countOf key store'.leases.active = countOf key store.leases.active := by
      rw [h.active, countOf_decrement hinv.tallied.nodup, if_neg hne, Nat.sub_zero]
    refine Positive.mem_keysOf ?_ |>.mpr (hcount ▸ hpos)
    rw [h.active]
    exact hinv.tallied.positive.decrement

theorem inv_of_publishes {expected : Nat} (h : Publishes store expected next store') : Inv store' := by
  obtain ⟨-, hlater, rfl⟩ := h
  obtain ⟨hactive, hwaiters⟩ := store.leases.closeRemovedGenerations_frame store.current next
  refine ⟨fun v view hview => .tail _ (hinv.views v view hview), List.pairwise_cons.mpr ⟨?_, hinv.ordered⟩,
    covered_of_publication hinv ?_ hinv.accepting, covered_of_publication hinv ?_ hinv.draining, ?_, ?_⟩
  · intro snapshot hmem
    exact Nat.lt_of_le_of_lt (hinv.revision_le hmem) hlater
  · intro module hcurrent hnext
    simp [LeaseState.removes, ActiveModuleSnapshot.admits, hcurrent, hnext]
  · intro module hcurrent hnext
    simp [LeaseState.removes, hcurrent, hnext]
  · rw [hactive]
    exact hinv.tallied
  intro module hmodule
  have hwaiting := hinv.waiting module (by rwa [← hwaiters])
  show (!(keysOf (store.leases.closeRemovedGenerations store.current next).active).any _) = false
  rw [hactive]
  exact hwaiting

theorem inv_of_exec (he : exec store op = (store', out)) : Inv store' := by
  cases effect_of_exec hinv.views he with
  | quiet h => exact inv_of_idles hinv h
  | leased h => exact inv_of_leased hinv h
  | dropped h => exact inv_of_dropped hinv h
  | published h => exact inv_of_publishes hinv h

end

theorem inv_of_run {initial : ActiveModuleSnapshot} {log : List (Op × Outcome)}
    (hrun : Run exec (.new initial) log store) : Inv store :=
  hrun.state_invariant (Inv.new initial) fun _ _ _ _ hinv he => inv_of_exec hinv he

end Invariant

/-! ## Modules without leases -/

section Gone

variable {store store' : SnapshotStore} {op : Op} {out : Outcome} {m : ModuleId} {g r : Nat}

/-- No snapshot admits the module any more, and it has no lease. -/
def Gone (m : ModuleId) (store : SnapshotStore) : Prop :=
  store.current.Excludes m ∧ ∀ lease ∈ store.live, lease.key.1 ≠ m

def Drained (m : ModuleId) (g : Nat) (store : SnapshotStore) : Prop :=
  store.leases.isClosed m g = true ∧ ∀ lease ∈ store.live, lease.key ≠ (m, g)

/-- The module is closed for all snapshots through a revision that has been published. -/
def Fenced (m : ModuleId) (r : Nat) (store : SnapshotStore) : Prop :=
  r ≤ store.current.revision ∧ ∀ snapshot ∈ store.published, snapshot.revision ≤ r →
    m ∈ snapshot.accepting ∨ m ∈ snapshot.draining → store.leases.isClosed m snapshot.revision = true

variable {lease : RequestLease} {expected : Nat} {next : ActiveModuleSnapshot}

section

variable (hinv : Inv store)

include hinv

section

variable (he : exec store op = (store', out))

include he

theorem mem_live_of_exec (hlease : lease ∈ store'.live) : lease ∈ store.live ∨ Leased store lease store' := by
  cases effect_of_exec hinv.views he with
  | quiet h => exact .inl (h.live ▸ hlease)
  | leased h =>
    rw [h.live] at hlease
    rcases List.mem_cons.mp hlease with rfl | hlease
    · exact .inr h
    · exact .inl hlease
  | dropped h => exact .inl (List.mem_of_mem_erase (h.live ▸ hlease))
  | published h =>
    rw [h.store'] at hlease
    exact .inl hlease

theorem isClosed_of_exec (hclosed : store.leases.isClosed m g = true) : store'.leases.isClosed m g = true := by
  cases effect_of_exec hinv.views he with
  | quiet h | leased h | dropped h => exact (isClosed_congr h.closed m g).trans hclosed
  | published h =>
    rw [h.store']
    refine LeaseState.isClosed_closeRemovedGenerations.trans ?_
    rw [hclosed, Bool.true_or]

theorem published_of_exec : (store'.published = store.published ∧ store'.current = store.current)
      ∨ ∃ expected next, op = .publish expected next ∧ out = .published
      ∧ Publishes store expected next store' := by
  cases effect_of_exec hinv.views he with
  | quiet h | leased h | dropped h => exact .inl ⟨h.published, h.current⟩
  | published h => exact .inr ⟨_, _, rfl, rfl, h⟩

end

theorem publishes_of_exec (he : exec store (.publish expected next) = (store', .published)) :
    Publishes store expected next store' := by
  cases effect_of_exec hinv.views he with
  | quiet h hout => cases hout
  | published h => exact h

/-- A module that the current snapshot excludes takes no lease, through whatever snapshot. -/
theorem no_lease_of_excludes (hexcludes : store.current.Excludes m)
    (h : Leased store lease store') : lease.key.1 ≠ m := by
  rintro rfl
  obtain ⟨snapshot, hmem, hrevision, hset⟩ := h.permitted
  have hclosed := hinv.closed_of_excludes hexcludes hmem hset
  rw [hrevision, h.opened] at hclosed
  cases hclosed

section

variable (he : exec store op = (store', out))

include he

/-- **A module that is gone stays gone**, until a publication has it again. -/
theorem gone_of_exec (hgone : Gone m store) (hexcludes : store'.current.Excludes m) : Gone m store' := by
  refine ⟨hexcludes, fun lease hlease => ?_⟩
  rcases mem_live_of_exec hinv he hlease with hlive | hleased
  · exact hgone.2 lease hlive
  · exact no_lease_of_excludes hinv hgone.1 hleased

/-- **A generation that is drained stays so.** -/
theorem drained_of_exec (hdrained : Drained m g store) : Drained m g store' := by
  refine ⟨isClosed_of_exec hinv he hdrained.1, fun lease hlease hkey => ?_⟩
  rcases mem_live_of_exec hinv he hlease with hlive | hleased
  · exact hdrained.2 lease hlive hkey
  · have hopened := hleased.opened
    rw [hkey, hdrained.1] at hopened
    cases hopened

theorem fenced_of_exec (hfenced : Fenced m r store) : Fenced m r store' := by
  rcases published_of_exec hinv he with ⟨hpublished, hcurrent⟩ | ⟨expected, next, -, -, h⟩
  · refine ⟨hcurrent ▸ hfenced.1, fun snapshot hmem hle hset => ?_⟩
    exact isClosed_of_exec hinv he (hfenced.2 snapshot (hpublished ▸ hmem) hle hset)
  have hlater := h.later
  have hfirst := hfenced.1
  have hcurrent : store'.current = next := by rw [h.store']
  have hpublished : store'.published = next :: store.published := by
    rw [h.store']
    rfl
  refine ⟨by rw [hcurrent]; omega, fun snapshot hmem hle hset => ?_⟩
  rw [hpublished] at hmem
  rcases List.mem_cons.mp hmem with rfl | hmem
  · omega
  · exact isClosed_of_exec hinv he (hfenced.2 snapshot hmem hle hset)

end

theorem fenced_of_publishes
    (h : Publishes store expected next store') (hexcludes : next.Excludes m) : Fenced m next.revision store' := by
  have hinv' := inv_of_publishes hinv h
  have hcurrent : store'.current = next := by rw [h.store']
  refine ⟨hcurrent ▸ Nat.le_refl _, fun snapshot hmem _ hset => ?_⟩
  exact hinv'.closed_of_excludes (hcurrent ▸ hexcludes) hmem hset

end

end Gone

/-! ## Draining -/

section Drains

variable {initial : ActiveModuleSnapshot} {log : List (Op × Outcome)} {store : SnapshotStore}

def Removes (m : ModuleId) (e : Op × Outcome) (revision : Nat) : Prop :=
  ∃ expected next, e = (.publish expected next, .published) ∧ next.Excludes m ∧ next.revision = revision

/-- A publication that has the module in one of its sets. -/
def Readmits (m : ModuleId) (e : Op × Outcome) : Prop :=
  ∃ expected next, e = (.publish expected next, .published) ∧ ¬next.Excludes m

/-- A wait for the module has reported that it has no lease. -/
def ReportsIdle (m : ModuleId) (e : Op × Outcome) : Prop := ∃ waker, e = (.wait waker m, .idle)

structure DrainsCleanly (initial : ActiveModuleSnapshot) (log : List (Op × Outcome))
    (store : SnapshotStore) : Prop where
  /-- After a publication without the module, no snapshot that was published until then gives a lease of it. -/
  closed : ∀ m newer removal older revision, log = newer ++ removal :: older → Removes m removal revision →
    ∀ snapshot ∈ store.published, snapshot.revision ≤ revision → ∀ admission view,
      store.acquireFor snapshot m admission view = none
  /-- The counters are those of the live leases. -/
  counted : ∀ m g, store.leases.activeLeases m g = store.live.countP fun lease => decide (lease.key = (m, g))
  /-- A generation that was closed when the wait reported zero has no lease ever after. -/
  drained : ∀ m newer report older store₁ g, log = newer ++ report :: older → ReportsIdle m report →
    Run exec (.new initial) older store₁ → store₁.leases.isClosed m g = true →
    ∀ lease ∈ store.live, lease.key ≠ (m, g)
  /-- A module that was removed before the wait reported zero has no lease until it is admitted again. -/
  gone : ∀ m newer report middle removal older revision, log = newer ++ report :: (middle ++ removal :: older) →
    ReportsIdle m report → Removes m removal revision → (∀ e ∈ newer ++ middle, ¬Readmits m e) →
    ∀ lease ∈ store.live, lease.key.1 ≠ m

variable {m : ModuleId} {store₁ : SnapshotStore}

theorem idle_of_report {store₂ : SnapshotStore} {op : Op} {out : Outcome} (hinv : Inv store₁)
    (he : exec store₁ op = (store₂, out)) (hreport : ReportsIdle m (op, out)) :
    (∀ lease ∈ store₂.live, lease.key.1 ≠ m) ∧ store₂.current = store₁.current := by
  obtain ⟨waker, heq⟩ := hreport
  cases heq
  cases effect_of_exec hinv.views he with
  | quiet h _ hidle =>
    rw [h.live]
    exact ⟨hinv.isIdle_iff.mp (hidle waker m rfl rfl), h.current⟩

theorem excludes_of_exec {store₂ : SnapshotStore} {op : Op} {out : Outcome} (hinv : Inv store₁)
    (he : exec store₁ op = (store₂, out)) (hexcludes : store₁.current.Excludes m)
    (hnone : ¬Readmits m (op, out)) : store₂.current.Excludes m := by
  rcases published_of_exec hinv he with ⟨-, hcurrent⟩ | ⟨expected, next, rfl, rfl, h⟩
  · rw [hcurrent]
    exact hexcludes
  · rw [h.store']
    by_contra hadmits
    exact hnone ⟨expected, next, rfl, hadmits⟩

/-- The current snapshot is the one of the latest publication that is about the module's sets. -/
theorem excludes_of_run (hinv : Inv store₁) (hrun : Run exec store₁ log store)
    (hexcludes : store₁.current.Excludes m) (hnone : ∀ e ∈ log, ¬Readmits m e) : store.current.Excludes m := by
  refine (hrun.invariant (I := fun _ s => Inv s ∧ s.current.Excludes m) (G := fun log => ∀ e ∈ log, ¬Readmits m e)
    (fun e log h e' he' => h e' (.tail e he')) ⟨hinv, hexcludes⟩ ?_ hnone).2
  intro log s op s' out _ hg ⟨hinv, hexcludes⟩ he
  exact ⟨inv_of_exec hinv he, excludes_of_exec hinv he hexcludes (hg _ (.head _))⟩

theorem gone_of_run (hinv : Inv store₁) (hrun : Run exec store₁ log store)
    (hgone : Gone m store₁) (hnone : ∀ e ∈ log, ¬Readmits m e) : Gone m store := by
  refine (hrun.invariant (I := fun _ s => Inv s ∧ Gone m s) (G := fun log => ∀ e ∈ log, ¬Readmits m e)
    (fun e log h e' he' => h e' (.tail e he')) ⟨hinv, hgone⟩ ?_ hnone).2
  intro log s op s' out _ hg ⟨hinv, hgone⟩ he
  exact ⟨inv_of_exec hinv he, gone_of_exec hinv he hgone (excludes_of_exec hinv he hgone.1 (hg _ (.head _)))⟩

/-- **Leases drain**, in every interleaving of publications, acquisitions, drops and waits. -/
theorem drains_of_run (hrun : Run exec (.new initial) log store) : DrainsCleanly initial log store where
  closed := by
    rintro m newer removal older _ rfl ⟨expected, next, rfl, hexcludes, rfl⟩ snapshot hmem hle admission view
    obtain ⟨store₁, hrun₁, hrun₂⟩ := hrun.split
    cases hrun₁ with
    | cons hrun₀ he =>
      have hinv₀ := inv_of_run hrun₀
      -- the fence stands after the publication, and at every later time
      have hfenced : Inv store ∧ Fenced m next.revision store := by
        refine hrun₂.state_invariant (I := fun s => Inv s ∧ Fenced m next.revision s) ⟨inv_of_exec hinv₀ he, ?_⟩
          fun s op s' out ⟨hinv, hfenced⟩ he => ⟨inv_of_exec hinv he, fenced_of_exec hinv he hfenced⟩
        exact fenced_of_publishes hinv₀ (publishes_of_exec hinv₀ he) hexcludes
      cases hacquire : store.acquireFor snapshot m admission view with
      | none => rfl
      | some =>
        obtain ⟨snapshot', hmem', hrevision, hset⟩ := (leased_of_acquireFor hmem hacquire).permitted
        have hopened := (leased_of_acquireFor hmem hacquire).opened
        obtain ⟨hkey, -⟩ := frame_of_acquireFor hacquire
        rw [hkey] at hrevision hset hopened
        have hclosed := hfenced.2.2 snapshot' hmem' (hrevision ▸ hle) hset
        rw [hrevision] at hclosed
        cases hopened.symm.trans hclosed
  counted m g := by
    exact (inv_of_run hrun).tallied.countOf_eq (m, g)
  drained := by
    rintro m newer ⟨op, out⟩ older store₁ g rfl hreport hrun₁ hclosed
    obtain ⟨store₂, hrun₂, hrun₃⟩ := hrun.split
    cases hrun₂ with
    | cons hrun₁' he =>
      obtain rfl := hrun₁.unique hrun₁'
      have hinv₁ := inv_of_run hrun₁
      obtain ⟨hidle, -⟩ := idle_of_report hinv₁ he hreport
      have hdrained : Drained m g store₂ :=
        ⟨isClosed_of_exec hinv₁ he hclosed, fun lease hlease hkey => hidle lease hlease (congrArg Prod.fst hkey)⟩
      exact (hrun₃.state_invariant (I := fun s => Inv s ∧ Drained m g s) ⟨inv_of_exec hinv₁ he, hdrained⟩
        fun s op s' out ⟨hinv, hdrained⟩ he => ⟨inv_of_exec hinv he, drained_of_exec hinv he hdrained⟩).2.2
  gone := by
    rintro m newer ⟨op, out⟩ middle removal older _ rfl hreport ⟨expected, next, rfl, hexcludes, rfl⟩ hnone
    obtain ⟨store₃, hrun₃, hrun₄⟩ := hrun.split
    cases hrun₃ with
    | cons hrun₂ he =>
      have hinv₂ := inv_of_run hrun₂
      obtain ⟨store₁, hrun₁, hmiddle⟩ := hrun₂.split
      have hcurrent₁ : store₁.current.Excludes m := by
        cases hrun₁ with
        | cons hrun₀ hpublish =>
          rw [(publishes_of_exec (inv_of_run hrun₀) hpublish).store']
          exact hexcludes
      have hexcludes₂ := excludes_of_run (inv_of_run hrun₁) hmiddle hcurrent₁
        fun e he => hnone e (List.mem_append_right newer he)
      obtain ⟨hidle, hcurrent⟩ := idle_of_report hinv₂ he hreport
      exact (gone_of_run (inv_of_exec hinv₂ he) hrun₄ ⟨hcurrent ▸ hexcludes₂, hidle⟩
        fun e he => hnone e (List.mem_append_left middle he)).2

end Drains

end NazoAuth.RuntimeCapabilities
