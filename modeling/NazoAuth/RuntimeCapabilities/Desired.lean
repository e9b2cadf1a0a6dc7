import NazoAuth.Lib.Except
import NazoAuth.Lib.Versioned
import NazoAuth.RuntimeCapabilities.Registry

/-!
# Runtime capabilities — desired modes

An instance changes the desired mode of a module in two steps: it reads all desired states and
checks the dependencies of the module, or its dependents; then it writes, in one transaction that
locks the row of the module and the rows it has relied on and compares their revisions. Other
instances write in between.

The rows stay closed under dependencies (`desired_closed`): a revision that has not moved is a mode
that has not changed.
-/

namespace NazoAuth.RuntimeCapabilities

open Lib

/-! ## The decision of an instance -/

structure DesiredRevisionGuard where
  module : ModuleId
  expectedRevision : Option Nat
  deriving DecidableEq

structure DesiredStateChange where
  expectedRevision : Option Nat
  next : DesiredStateRecord
  deriving DecidableEq

/-- A change that was checked, with the rows it relies on, or a revision that is not the expected
one. -/
inductive DesiredDecision where
  | stale (current : DesiredStateRecord)
  | change (change : DesiredStateChange) (required : List DesiredRevisionGuard)

section Decision

variable {E : Type}

/-- The revisions of some modules, none of which may give a hit. -/
def guardsOf (desired : List DesiredStateRecord) (hit : ModuleId → DesiredMode → Bool)
    (failure : ModuleId → RegistryError E) : List ModuleId → Except (RegistryError E) (List DesiredRevisionGuard)
  | [] => .ok []
  | candidate :: rest =>
    match desired.find? fun record => decide (record.module = candidate) with
    | none => .error (.missingDesiredState candidate)
    | some record =>
      if hit candidate record.mode then .error (failure candidate)
      else do
        let guards ← guardsOf desired hit failure rest
        .ok (⟨candidate, some record.revision⟩ :: guards)

def requiredRevisions (catalog : ModuleCatalog) (snapshot : ActiveModuleSnapshot)
    (desired : List DesiredStateRecord) (module : ModuleId) (mode : DesiredMode) :
    Except (RegistryError E) (List DesiredRevisionGuard) :=
  match mode with
  | .enabled => guardsOf desired (Registry.isUnavailable catalog snapshot) (.dependencyUnavailable module)
    (catalog.dependencies module)
  | .disabled => guardsOf desired (Registry.isActive catalog snapshot) (.activeDependent module)
    (catalog.dependents module)

def setDesiredMode (catalog : ModuleCatalog) (snapshot : ActiveModuleSnapshot)
    (desired : List DesiredStateRecord) (module : ModuleId) (mode : DesiredMode)
    (expectedRevision : Option Nat) : Except (RegistryError E) DesiredDecision :=
  if mode.isEnabled && !catalog.isAvailable module then .error (.serviceNotConstructed module)
  else if !mode.isEnabled && catalog.effectiveDisablePolicy module = .notRuntimeDisableable
    then .error (.runtimeDisableBlocked module)
  else do
    let required ← requiredRevisions catalog snapshot desired module mode
    match desired.find? fun record => decide (record.module = module) with
    | none => .error (.missingDesiredState module)
    | some current =>
      if some current.revision ≠ expectedRevision then .ok (.stale current)
      else if current.revision + 1 < 2 ^ 64
        then .ok (.change ⟨expectedRevision, ⟨module, mode, current.revision + 1⟩⟩ required)
      else .error (.revisionExhausted module)

end Decision

/-! ## The write -/

inductive RepositoryError where
  | consistency (text : String)
  | unexpected (text : String)
  deriving DecidableEq

abbrev DesiredRows := Table DesiredStateRecord.module

def nextDesiredRevision : Option Nat → Except RepositoryError Nat
  | none => .ok 1
  | some revision => if revision + 1 < 2 ^ 64 then .ok (revision + 1)
    else .error (.consistency "desired revision space is exhausted")

def guardsMatch (rows : DesiredRows) (required : List DesiredRevisionGuard) : Bool :=
  required.all fun g => (rows.find? g.module).map DesiredStateRecord.revision = g.expectedRevision

def writeDesired (rows : DesiredRows) (next : DesiredStateRecord) : DesiredRows :=
  rows.update (fun record => record.module = next.module) (fun record => ⟨record.module, next.mode, next.revision⟩)
    fun _ => rfl

def compareAndSetDesired (rows : DesiredRows) (change : DesiredStateChange)
    (required : List DesiredRevisionGuard) :
    Except RepositoryError (DesiredRows × CasOutcome DesiredStateRecord) := do
  let expectedNext ← nextDesiredRevision change.expectedRevision
  match rows.find? change.next.module with
  | none => .error (.consistency "runtime desired state is missing")
  | some current =>
    if some current.revision ≠ change.expectedRevision || !guardsMatch rows required
      then .ok (rows, .stale (some current))
    else if current.mode = change.next.mode then .ok (rows, .applied current)
    else if change.next.revision ≠ expectedNext
      then .error (.consistency ("desired revision must advance to " ++ toString expectedNext))
    else if 2 ^ 63 ≤ change.next.revision then .error (.unexpected "runtime revision exceeds PostgreSQL BIGINT")
    else .ok (writeDesired rows change.next, .applied change.next)

/-! ## The instances of a tenant -/

/-- The rows, and the changes that some instance has decided on and not written yet. -/
structure DesiredSystem where
  rows : DesiredRows
  decided : List (DesiredStateChange × List DesiredRevisionGuard)

inductive DesiredOp where
  /-- An instance with a snapshot of its own reads the rows and decides. -/
  | decide (snapshot : ActiveModuleSnapshot) (module : ModuleId) (mode : DesiredMode)
      (expectedRevision : Option Nat)
  /-- A decided change is written. -/
  | write (change : DesiredStateChange) (required : List DesiredRevisionGuard)

inductive DesiredAnswer where
  | refused (error : RegistryError RepositoryError)
  | stale (current : DesiredStateRecord)
  | decided (change : DesiredStateChange) (required : List DesiredRevisionGuard)
  | outcome (outcome : CasOutcome DesiredStateRecord)
  | failed (error : RepositoryError)
  | idle
  deriving DecidableEq

def DesiredSystem.decide (catalog : ModuleCatalog) (system : DesiredSystem) (snapshot : ActiveModuleSnapshot)
    (module : ModuleId) (mode : DesiredMode) (expectedRevision : Option Nat) : DesiredSystem × DesiredAnswer :=
  match setDesiredMode catalog snapshot system.rows.rows module mode expectedRevision with
  | .error error => (system, .refused error)
  | .ok (.stale current) => (system, .stale current)
  | .ok (.change change required) =>
    ({ system with decided := (change, required) :: system.decided }, .decided change required)

def DesiredSystem.write (system : DesiredSystem) (change : DesiredStateChange)
    (required : List DesiredRevisionGuard) : DesiredSystem × DesiredAnswer :=
  if (change, required) ∈ system.decided then
    match compareAndSetDesired system.rows change required with
    | .error error => ({ system with decided := system.decided.erase (change, required) }, .failed error)
    | .ok (rows, outcome) => (⟨rows, system.decided.erase (change, required)⟩, .outcome outcome)
  else (system, .idle)

def execDesired (catalog : ModuleCatalog) (system : DesiredSystem) : DesiredOp → DesiredSystem × DesiredAnswer
  | .decide snapshot module mode expectedRevision => system.decide catalog snapshot module mode expectedRevision
  | .write change required => system.write change required

/-! ## Closure -/

variable {catalog : ModuleCatalog} {rows rows' : DesiredRows} {system system' : DesiredSystem}

def runs (catalog : ModuleCatalog) (record : DesiredStateRecord) : Bool :=
  catalog.effectiveEnabled record.module record.mode.isEnabled

/-- Every module that is to run has dependencies that are to run. -/
def DesiredClosed (catalog : ModuleCatalog) (rows : DesiredRows) : Prop :=
  ∀ module record, rows.find? module = some record → runs catalog record = true →
    ∀ dependency ∈ (catalog.specs module).dependencies,
    ∃ record', rows.find? dependency = some record' ∧ runs catalog record' = true

variable {module : ModuleId}

theorem mem_dependencies {dependency : ModuleId} (h : dependency ∈ (catalog.specs module).dependencies) :
    dependency ∈ catalog.dependencies module :=
  List.mem_filter.mpr ⟨ModuleId.mem_all dependency, decide_eq_true h⟩

theorem mem_dependents {dependent : ModuleId}
    (h : module ∈ (catalog.specs dependent).dependencies) : dependent ∈ catalog.dependents module :=
  List.mem_filter.mpr ⟨ModuleId.mem_all dependent, decide_eq_true h⟩

/-- What the change of a mode needs of a guarded module: a dependency is to run, a dependent is
not. -/
def Needed (catalog : ModuleCatalog) (mode : DesiredMode) (record : DesiredStateRecord) : Prop :=
  runs catalog record = mode.isEnabled

def reliesOn (catalog : ModuleCatalog) (module : ModuleId) : DesiredMode → List ModuleId
  | .enabled => catalog.dependencies module
  | .disabled => catalog.dependents module

/-- A decided change: what was read of the modules it relies on holds while their revisions
stand. -/
structure Decided (catalog : ModuleCatalog) (rows : DesiredRows) (change : DesiredStateChange)
    (required : List DesiredRevisionGuard) : Prop where
  advances : ∀ revision, change.expectedRevision = some revision → revision < change.next.revision
  relies : ∀ candidate ∈ reliesOn catalog change.next.module change.next.mode, ∃ revision,
    ⟨candidate, some revision⟩ ∈ required
      ∧ Table.Observed DesiredStateRecord.revision (Needed catalog change.next.mode) candidate revision rows

/-- The guards hold each candidate with the revision that was read, and no candidate gives a hit. -/
theorem guardsOf_eq_ok {E : Type} {hit : ModuleId → DesiredMode → Bool}
    {failure : ModuleId → RegistryError E} {candidates : List ModuleId}
    {guards : List DesiredRevisionGuard} (h : guardsOf rows.rows hit failure candidates = .ok guards) :
    ∀ candidate ∈ candidates, ∃ record, rows.find? candidate = some record
      ∧ hit candidate record.mode = false ∧ ⟨candidate, some record.revision⟩ ∈ guards := by
  induction candidates generalizing guards with
  | nil => simp
  | cons first rest ih =>
    unfold guardsOf at h
    split at h
    · cases h
    rename_i record hrecord
    split at h
    · cases h
    rename_i hhit
    obtain ⟨guards', hrest, h⟩ := of_bind h
    cases h
    intro candidate hmem
    rcases List.mem_cons.mp hmem with rfl | hmem
    · exact ⟨record, hrecord, Bool.eq_false_iff.mpr hhit, List.mem_cons_self⟩
    · obtain ⟨record', hrecord', hhit', hguard⟩ := ih hrest candidate hmem
      exact ⟨record', hrecord', hhit', .tail _ hguard⟩

variable {change : DesiredStateChange} {required : List DesiredRevisionGuard} {E : Type}
  {snapshot : ActiveModuleSnapshot} {mode : DesiredMode} {expectedRevision : Option Nat}

/-- The module has a service to run, or may be disabled. -/
def Permitted (catalog : ModuleCatalog) (module : ModuleId) : DesiredMode → Prop
  | .enabled => catalog.isAvailable module = true
  | .disabled => catalog.effectiveDisablePolicy module ≠ .notRuntimeDisableable

/-- **When a change is decided on.** -/
theorem setDesiredMode_eq_change :
    (setDesiredMode catalog snapshot rows.rows module mode expectedRevision : Except (RegistryError E) _) = .ok
    (.change change required) ↔
      Permitted catalog module mode ∧
      (requiredRevisions catalog snapshot rows.rows module mode : Except (RegistryError E) _) = .ok required
        ∧ ∃ current, rows.find? module = some current ∧ some current.revision = expectedRevision
          ∧ current.revision + 1 < 2 ^ 64 ∧ change = ⟨expectedRevision, ⟨module, mode, current.revision + 1⟩⟩ := by
  have hpermitted : Permitted catalog module mode ↔ ¬(mode.isEnabled && !catalog.isAvailable module) = true
      ∧ ¬(!mode.isEnabled && catalog.effectiveDisablePolicy module = .notRuntimeDisableable) = true := by
    cases mode <;> simp [Permitted, DesiredMode.isEnabled]
  rw [hpermitted]
  unfold setDesiredMode
  constructor
  · intro h
    split at h
    · cases h
    rename_i havailable
    split at h
    · cases h
    rename_i hpolicy
    obtain ⟨guards, hguards, h⟩ := of_bind h
    split at h
    · cases h
    rename_i current hcurrent
    split_ifs at h with hstale hspace
    · cases h
    cases h
    exact ⟨⟨havailable, hpolicy⟩, hguards, current, hcurrent, Decidable.not_not.mp hstale, hspace, rfl⟩
  · rintro ⟨⟨havailable, hpolicy⟩, hguards, current, hcurrent, rfl, hspace, rfl⟩
    rw [if_neg havailable, if_neg hpolicy]
    refine bind_eq_ok.mpr ⟨required, hguards, ?_⟩
    rw [show rows.rows.find? (fun record => decide (record.module = module)) = some current from hcurrent]
    exact (if_neg (not_not.mpr rfl)).trans (if_pos hspace)

theorem isUnavailable_eq_false : Registry.isUnavailable catalog snapshot module mode = false ↔
    catalog.effectiveEnabled module mode.isEnabled = true ∧ snapshot.admits module = true := by
  simp [Registry.isUnavailable]

theorem isActive_eq_false : Registry.isActive catalog snapshot module mode = false ↔
    catalog.effectiveEnabled module mode.isEnabled = false
      ∧ ¬(snapshot.admits module = true ∨ module ∈ snapshot.draining) := by
  simp [Registry.isActive, and_assoc]

theorem decided_of_setDesiredMode
    (h : (setDesiredMode catalog snapshot rows.rows module mode expectedRevision : Except (RegistryError E) _)
    = .ok (.change change required)) : Decided catalog rows change required := by
  obtain ⟨-, hguards, current, -, hexpected, -, rfl⟩ := setDesiredMode_eq_change.mp h
  refine ⟨fun revision hrevision => ?_, fun candidate hcandidate => ?_⟩
  · cases hexpected.trans hrevision
    exact Nat.lt_succ_self _
  cases mode with
  | enabled | disabled =>
    obtain ⟨record, hrecord, hhit, hguard⟩ := guardsOf_eq_ok hguards candidate hcandidate
    obtain rfl : record.module = candidate := Table.find?_key hrecord
    refine ⟨record.revision, hguard, Table.observed_of_find? hrecord ?_⟩
    first | exact (isUnavailable_eq_false.mp hhit).1 | exact (isActive_eq_false.mp hhit).1

/-- A write that has an effect: the revisions stand, and the next one fits its column. -/
structure Writes (rows : DesiredRows) (change : DesiredStateChange)
    (required : List DesiredRevisionGuard) (rows' : DesiredRows) : Prop where
  current : ∃ record, rows.find? change.next.module = some record
    ∧ some record.revision = change.expectedRevision ∧ record.mode ≠ change.next.mode
  guards : guardsMatch rows required = true
  room : change.next.revision < 2 ^ 63
  written : rows' = writeDesired rows change.next

/-- The rows stay, and what is answered as applied is a row; or the change is written. -/
theorem compareAndSetDesired_eq_ok {outcome : CasOutcome DesiredStateRecord}
    (h : compareAndSetDesired rows change required = .ok (rows', outcome)) :
    (rows' = rows ∧ ∀ record, outcome = .applied record → rows.find? change.next.module = some record)
      ∨ Writes rows change required rows' := by
  obtain ⟨expectedNext, -, h⟩ := of_bind h
  split at h
  · cases h
  rename_i record hrecord
  split_ifs at h with hstale hsame hnext hrange
  · obtain ⟨rfl, rfl⟩ := Prod.mk.inj (Except.ok.inj h)
    exact .inl ⟨rfl, fun _ h => by cases h⟩
  · obtain ⟨rfl, rfl⟩ := Prod.mk.inj (Except.ok.inj h)
    exact .inl ⟨rfl, fun _ h => by cases h; exact hrecord⟩
  · simp only [Bool.or_eq_true, decide_eq_true_eq, not_or, not_not, Bool.not_eq_true', Bool.not_eq_false] at hstale
    exact .inr ⟨⟨record, hrecord, hstale.1, hsame⟩, hstale.2, Nat.not_le.mp hrange,
      (Prod.mk.inj (Except.ok.inj h)).1.symm⟩

theorem find?_writeDesired (rows : DesiredRows) (next : DesiredStateRecord) (module : ModuleId) :
    (writeDesired rows next).find? module
      = (rows.find? module).map fun record => if module = next.module then ⟨module, next.mode, next.revision⟩
      else record := by
  simp only [writeDesired, Table.find?_update, decide_eq_true_eq]
  cases hrecord : rows.find? module with
  | none => rfl
  | some record =>
    obtain rfl : record.module = module := Table.find?_key hrecord
    rfl

section

variable (hdecided : Decided catalog rows change required)

include hdecided

theorem ahead_of_writes (h : Writes rows change required rows') :
    Table.Ahead DesiredStateRecord.revision rows rows' := by
  obtain ⟨record, hrecord, hexpected, -⟩ := h.current
  rw [h.written]
  refine Table.ahead_update _ fun other hother hmodule => ?_
  have hsame : some other = some record := by
    rw [← Table.find?_of_mem hother, of_decide_eq_true hmodule, hrecord]
  obtain rfl := Option.some.inj hsame
  exact hdecided.advances other.revision hexpected.symm

theorem needed_of_guards (hguards : guardsMatch rows required = true) {candidate : ModuleId}
    (hcandidate : candidate ∈ reliesOn catalog change.next.module change.next.mode) :
    ∃ record, rows.find? candidate = some record ∧ runs catalog record = change.next.mode.isEnabled := by
  obtain ⟨revision, hguard, hobserved⟩ := hdecided.relies candidate hcandidate
  have hmatch := List.all_eq_true.mp hguards _ hguard
  obtain ⟨record, hrecord, hrevision⟩ := Option.map_eq_some_iff.mp (of_decide_eq_true hmatch)
  exact ⟨record, hrecord, (hobserved record hrecord).2 hrevision⟩

/-- **A write keeps the rows closed.** -/
theorem closed_of_writes (h : Writes rows change required rows')
    (hclosed : DesiredClosed catalog rows) : DesiredClosed catalog rows' := by
  have hfind := find?_writeDesired rows change.next
  rw [← h.written] at hfind
  -- a module that runs before the write runs after it, unless the write disables it
  have hkeeps : ∀ module record, rows.find? module = some record → runs catalog record = true →
      (module = change.next.module → change.next.mode = .enabled) →
        ∃ record', rows'.find? module = some record' ∧ runs catalog record' = true := by
    intro module record hrecord hruns hmode
    refine ⟨_, (hfind module).trans (congrArg _ hrecord), ?_⟩
    obtain rfl : record.module = module := Table.find?_key hrecord
    split_ifs with hsame
    · simp only [runs, ModuleCatalog.effectiveEnabled, Bool.and_eq_true] at hruns ⊢
      exact ⟨by rw [hmode hsame]; rfl, hruns.2⟩
    · exact hruns
  intro module record' hrecord' hruns' dependency hdependency
  rw [hfind module, Option.map_eq_some_iff] at hrecord'
  obtain ⟨record, hrecord, rfl⟩ := hrecord'
  cases hmode : change.next.mode with
  | enabled =>
    -- the dependencies of the module are to run: as read for the module that is enabled, by the closure for others
    have hdependencyRuns : ∃ record', rows.find? dependency = some record' ∧ runs catalog record' = true := by
      by_cases hsame : module = change.next.module
      · subst hsame
        have hrelies : dependency ∈ reliesOn catalog change.next.module change.next.mode := by
          rw [hmode]
          exact mem_dependencies hdependency
        obtain ⟨record', hrecord', hneeded⟩ := needed_of_guards hdecided h.guards hrelies
        exact ⟨record', hrecord', by rw [hneeded, hmode]; rfl⟩
      · rw [if_neg hsame] at hruns'
        exact hclosed module record hrecord hruns' dependency hdependency
    obtain ⟨record', hrecord', hruns⟩ := hdependencyRuns
    exact hkeeps dependency record' hrecord' hruns fun _ => hmode
  | disabled =>
    have hother : module ≠ change.next.module := by
      rintro rfl
      rw [if_pos rfl, hmode] at hruns'
      cases hruns'
    rw [if_neg hother] at hruns'
    obtain ⟨record', hrecord', hruns⟩ := hclosed module record hrecord hruns' dependency hdependency
    refine hkeeps dependency record' hrecord' hruns fun hsame => ?_
    -- a dependent of the module that is disabled is not to run
    have hrelies : module ∈ reliesOn catalog change.next.module change.next.mode := by
      rw [hmode]
      exact mem_dependents (hsame ▸ hdependency)
    obtain ⟨record'', hrecord'', hneeded⟩ := needed_of_guards hdecided h.guards hrelies
    cases hrecord.symm.trans hrecord''
    rw [hneeded, hmode] at hruns'
    cases hruns'

end

/-! ## Runs -/

structure DesiredInv (catalog : ModuleCatalog) (system : DesiredSystem) : Prop where
  closed : DesiredClosed catalog system.rows
  decided : ∀ change required, (change, required) ∈ system.decided → Decided catalog system.rows change required

theorem Decided.ahead (h : Decided catalog rows change required)
    (hahead : Table.Ahead DesiredStateRecord.revision rows rows') : Decided catalog rows' change required := by
  refine ⟨h.advances, fun candidate hcandidate => ?_⟩
  obtain ⟨revision, hguard, hobserved⟩ := h.relies candidate hcandidate
  exact ⟨revision, hguard, hobserved.ahead hahead⟩

theorem desiredInv_step {op : DesiredOp} {answer : DesiredAnswer} (hinv : DesiredInv catalog system)
    (h : execDesired catalog system op = (system', answer)) : DesiredInv catalog system' := by
  cases op with
  | decide snapshot module mode expectedRevision =>
    simp only [execDesired, DesiredSystem.decide] at h
    split at h
    · cases h
      exact hinv
    · cases h
      exact hinv
    rename_i change required hdecided
    cases h
    refine ⟨hinv.closed, fun change' required' hmem => ?_⟩
    rcases List.mem_cons.mp hmem with heq | hold
    · cases heq
      exact decided_of_setDesiredMode hdecided
    · exact hinv.decided change' required' hold
  | write change required =>
    simp only [execDesired, DesiredSystem.write] at h
    split_ifs at h with hmem
    · have hdecided := hinv.decided change required hmem
      split at h
      · cases h
        exact ⟨hinv.closed, fun change' required' hmem' =>
          hinv.decided change' required' (List.mem_of_mem_erase hmem')⟩
      rename_i rows outcome hok
      cases h
      rcases compareAndSetDesired_eq_ok hok with ⟨rfl, -⟩ | hwrites
      · exact ⟨hinv.closed, fun change' required' hmem' =>
          hinv.decided change' required' (List.mem_of_mem_erase hmem')⟩
      · refine ⟨closed_of_writes hdecided hwrites hinv.closed, fun change' required' hmem' => ?_⟩
        exact (hinv.decided change' required' (List.mem_of_mem_erase hmem')).ahead
          (ahead_of_writes hdecided hwrites)
    · cases h
      exact hinv

/-- **Desired states stay closed under dependencies**, whatever the instances decide and in any
order of writes. -/
theorem desired_closed {log : List (DesiredOp × DesiredAnswer)} (hclosed : DesiredClosed catalog rows)
    (h : Run (execDesired catalog) ⟨rows, []⟩ log system) : DesiredClosed catalog system.rows := by
  have hinv : DesiredInv catalog system := h.state_invariant
    ⟨hclosed, by simp⟩ fun _ _ _ _ hinv hexec => desiredInv_step hinv hexec
  exact hinv.closed

def ssoCatalog : ModuleCatalog where
  specs module := ⟨if module = .nativeSso then {.tokenExchange} else ∅, .immediate⟩
  runtimeDisableBlocked := ∅
  unavailable := ∅

def exchangeEnabled : DesiredRows := ⟨[⟨.tokenExchange, .enabled, 1⟩, ⟨.nativeSso, .disabled, 1⟩], by decide⟩

/-- One instance decides to enable native SSO and another to disable token exchange, before either
has written. -/
def skewedOps : List DesiredOp :=
  [.decide ⟨0, {.tokenExchange}, ∅⟩ .nativeSso .enabled (some 1),
    .decide ⟨0, {.tokenExchange}, ∅⟩ .tokenExchange .disabled (some 1),
   .write ⟨some 1, ⟨.nativeSso, .enabled, 2⟩⟩ [⟨.tokenExchange, some 1⟩],
   .write ⟨some 1, ⟨.tokenExchange, .disabled, 2⟩⟩ [⟨.nativeSso, some 1⟩]]

theorem desired_closed_skewed :
    (execAll (execDesired ssoCatalog) ⟨exchangeEnabled, []⟩ [] skewedOps).1.map Prod.snd
        = [.outcome (.stale (some ⟨.tokenExchange, .enabled, 1⟩)), .outcome (.applied ⟨.nativeSso, .enabled, 2⟩),
            .decided ⟨some 1, ⟨.tokenExchange, .disabled, 2⟩⟩ [⟨.nativeSso, some 1⟩],
            .decided ⟨some 1, ⟨.nativeSso, .enabled, 2⟩⟩ [⟨.tokenExchange, some 1⟩]]
      ∧ DesiredClosed ssoCatalog (execAll (execDesired ssoCatalog) ⟨exchangeEnabled, []⟩ [] skewedOps).2.rows := by
  refine ⟨by decide +kernel, desired_closed ?_ (run_execAll _ _)⟩
  intro module record hrecord hruns dependency hdependency
  cases module with
  | nativeSso =>
    cases hrecord
    cases hruns
  | _ => cases hdependency

/-! ## Offered actions -/

/-- The modes that the view of a module offers: by its desired mode and the snapshot. -/
def allowedActions (catalog : ModuleCatalog) (module : ModuleId) (mode : DesiredMode)
    (snapshot : ActiveModuleSnapshot) : List DesiredMode :=
  (if catalog.isAvailable module && decide (mode ≠ .enabled) && (catalog.dependencies module).all snapshot.admits
    then [.enabled] else [])
    ++ if decide (mode ≠ .disabled) && decide (catalog.effectiveDisablePolicy module ≠ .notRuntimeDisableable)
          && !(catalog.dependents module).any fun candidate =>
            catalog.isAvailable candidate && (snapshot.admits candidate || decide (candidate ∈ snapshot.draining))
              then [.disabled] else []

/-- A change that is decided on and written, with nothing in between. -/
def changeDesired (catalog : ModuleCatalog) (snapshot : ActiveModuleSnapshot) (rows : DesiredRows)
    (module : ModuleId) (mode : DesiredMode) (expectedRevision : Option Nat) :
    Except (RegistryError RepositoryError) (DesiredRows × CasOutcome DesiredStateRecord) :=
  match setDesiredMode catalog snapshot rows.rows module mode expectedRevision with
  | .error error => .error error
  | .ok (.stale current) => .ok (rows, .stale (some current))
  | .ok (.change change required) => (compareAndSetDesired rows change required).mapError .repository

/-- The modules that a change relies on are as it needs them: each has a row, a dependency is to run
and a dependent is not; and no dependent without a service is admitted or drains. -/
structure InStep (catalog : ModuleCatalog) (snapshot : ActiveModuleSnapshot) (rows : DesiredRows)
    (module : ModuleId) (mode : DesiredMode) : Prop where
  relies : ∀ candidate ∈ reliesOn catalog module mode, ∃ record, rows.find? candidate = some record
    ∧ Needed catalog mode record
  unavailable : mode = .disabled → ∀ dependent ∈ catalog.dependents module, catalog.isAvailable dependent = false →
    ¬(snapshot.admits dependent = true ∨ dependent ∈ snapshot.draining)

theorem mem_allowedActions {current : DesiredMode} : mode ∈ allowedActions catalog module current snapshot ↔
    current ≠ mode ∧ Permitted catalog module mode ∧ match mode with
      | .enabled => ∀ dependency ∈ catalog.dependencies module, snapshot.admits dependency = true
      | .disabled => ∀ dependent ∈ catalog.dependents module, catalog.isAvailable dependent = true →
          ¬(snapshot.admits dependent = true ∨ dependent ∈ snapshot.draining) := by
  cases mode <;> simp [allowedActions, Permitted] <;> tauto

/-- The guards of modules without a hit are there, and stand. -/
theorem guardsOf_of_misses {hit : ModuleId → DesiredMode → Bool}
    {failure : ModuleId → RegistryError E} {candidates : List ModuleId}
    (h : ∀ candidate ∈ candidates, ∃ record, rows.find? candidate = some record
      ∧ hit candidate record.mode = false) :
    ∃ guards, guardsOf rows.rows hit failure candidates = .ok guards ∧ guardsMatch rows guards = true := by
  induction candidates with
  | nil => exact ⟨[], rfl, rfl⟩
  | cons first rest ih =>
    obtain ⟨guards, hguards, hmatch⟩ := ih fun candidate hmem => h candidate (.tail _ hmem)
    obtain ⟨record, hrecord, hhit⟩ := h first (.head _)
    refine ⟨⟨first, some record.revision⟩ :: guards, ?_, ?_⟩
    · rw [guardsOf, show rows.rows.find? (fun record => decide (record.module = first)) = some record from hrecord]
      simp [hhit, hguards, bind, Except.bind]
    · simp [guardsMatch, hrecord] at hmatch ⊢
      exact hmatch

/-- What a change that is offered is checked for: the rows of its dependencies or dependents. -/
theorem requiredRevisions_eq_ok
    (hshown : match mode with
      | .enabled => ∀ dependency ∈ catalog.dependencies module, snapshot.admits dependency = true
      | .disabled => ∀ dependent ∈ catalog.dependents module, catalog.isAvailable dependent = true →
          ¬(snapshot.admits dependent = true ∨ dependent ∈ snapshot.draining)) :
    (∃ required, (requiredRevisions catalog snapshot rows.rows module mode : Except (RegistryError E) _)
        = .ok required ∧ guardsMatch rows required = true)
      ↔ InStep catalog snapshot rows module mode := by
  cases mode with
  | enabled =>
    constructor
    · rintro ⟨required, hrequired, -⟩
      refine ⟨fun dependency hdependency => ?_, fun h => nomatch h⟩
      obtain ⟨record, hrecord, hhit, -⟩ := guardsOf_eq_ok hrequired dependency hdependency
      obtain rfl : record.module = dependency := Table.find?_key hrecord
      exact ⟨record, hrecord, (isUnavailable_eq_false.mp hhit).1⟩
    · intro hstep
      refine guardsOf_of_misses fun dependency hdependency => ?_
      obtain ⟨record, hrecord, hneeded⟩ := hstep.relies dependency hdependency
      obtain rfl : record.module = dependency := Table.find?_key hrecord
      exact ⟨record, hrecord, isUnavailable_eq_false.mpr ⟨hneeded, hshown _ hdependency⟩⟩
  | disabled =>
    constructor
    · rintro ⟨required, hrequired, -⟩
      refine ⟨fun dependent hdependent => ?_, fun _ dependent hdependent _ => ?_⟩
      · obtain ⟨record, hrecord, hhit, -⟩ := guardsOf_eq_ok hrequired dependent hdependent
        obtain rfl : record.module = dependent := Table.find?_key hrecord
        exact ⟨record, hrecord, (isActive_eq_false.mp hhit).1⟩
      · obtain ⟨record, -, hhit, -⟩ := guardsOf_eq_ok hrequired dependent hdependent
        exact (isActive_eq_false.mp hhit).2
    · intro hstep
      refine guardsOf_of_misses fun dependent hdependent => ?_
      obtain ⟨record, hrecord, hneeded⟩ := hstep.relies dependent hdependent
      obtain rfl : record.module = dependent := Table.find?_key hrecord
      refine ⟨record, hrecord, isActive_eq_false.mpr ⟨hneeded, ?_⟩⟩
      cases havailable : catalog.isAvailable record.module with
      | false => exact hstep.unavailable rfl _ hdependent havailable
      | true => exact hshown _ hdependent havailable

/-- A change that is answered as applied: it was decided on, and written unless its row was
there. -/
theorem changeDesired_applied {record written : DesiredStateRecord} (hrecord : rows.find? module = some record)
    (h : changeDesired catalog snapshot rows module mode expectedRevision = .ok (rows', .applied written)) :
    Permitted catalog module mode ∧ ∃ required,
      (requiredRevisions catalog snapshot rows.rows module mode : Except (RegistryError RepositoryError) _)
      = .ok required ∧ ((rows' = rows ∧ written = record)
        ∨ Writes rows ⟨expectedRevision, ⟨module, mode, record.revision + 1⟩⟩ required rows') := by
  unfold changeDesired at h
  split at h
  · cases h
  · cases h
  rename_i change required hdecided
  obtain ⟨hpermitted, hguards, current, hcurrent, -, -, rfl⟩ := setDesiredMode_eq_change.mp hdecided
  cases hrecord.symm.trans hcurrent
  refine ⟨hpermitted, required, hguards,
    (compareAndSetDesired_eq_ok (mapError_eq_ok.mp h)).imp_left fun hkept => ?_⟩
  exact ⟨hkept.1, (Option.some.inj (hrecord.symm.trans (hkept.2 written rfl))).symm⟩

/-- **Offered actions.** A change that is accepted and has an effect is offered. What is offered is
accepted with the revision that is shown exactly when the rows it relies on are in step and a
revision is left. -/
theorem offered_actions (catalog : ModuleCatalog) (snapshot : ActiveModuleSnapshot)
    (rows : DesiredRows) (module : ModuleId) (record : DesiredStateRecord) (mode : DesiredMode)
    (hrecord : rows.find? module = some record) : (∀ expectedRevision rows' written,
        changeDesired catalog snapshot rows module mode expectedRevision = .ok (rows', .applied written) →
        rows' ≠ rows → mode ∈ allowedActions catalog module record.mode snapshot)
      ∧ (mode ∈ allowedActions catalog module record.mode snapshot →
        ((∃ rows', changeDesired catalog snapshot rows module mode (some record.revision)
            = .ok (rows', .applied ⟨module, mode, record.revision + 1⟩))
          ↔ InStep catalog snapshot rows module mode ∧ record.revision + 1 < 2 ^ 63)) := by
  constructor
  · intro expectedRevision rows' written h hchanged
    obtain ⟨hpermitted, required, hguards, houtcome⟩ := changeDesired_applied hrecord h
    obtain ⟨record', hrecord', -, hmode⟩ := (houtcome.resolve_left fun h => hchanged h.1).current
    cases hrecord.symm.trans hrecord'
    refine mem_allowedActions.mpr ⟨hmode, hpermitted, ?_⟩
    cases mode with
    | enabled =>
      intro dependency hdependency
      obtain ⟨record, -, hhit, -⟩ := guardsOf_eq_ok hguards dependency hdependency
      exact (isUnavailable_eq_false.mp hhit).2
    | disabled =>
      intro dependent hdependent _
      obtain ⟨record, -, hhit, -⟩ := guardsOf_eq_ok hguards dependent hdependent
      exact (isActive_eq_false.mp hhit).2
  · intro hoffered
    obtain ⟨hmode, hpermitted, hshown⟩ := mem_allowedActions.mp hoffered
    rw [← requiredRevisions_eq_ok (E := RepositoryError) hshown]
    constructor
    · rintro ⟨rows', h⟩
      obtain ⟨-, required, hguards, ⟨-, hkept⟩ | hwrites⟩ := changeDesired_applied hrecord h
      · exact absurd (congrArg DesiredStateRecord.revision hkept) (Nat.succ_ne_self _)
      · exact ⟨⟨required, hguards, hwrites.guards⟩, hwrites.room⟩
    · rintro ⟨⟨required, hrequired, hmatch⟩, hroom⟩
      have hdecided := setDesiredMode_eq_change.mpr
        ⟨hpermitted, hrequired, record, hrecord, rfl, Nat.lt_trans hroom (by decide), rfl⟩
      refine ⟨writeDesired rows ⟨module, mode, record.revision + 1⟩, ?_⟩
      rw [changeDesired, hdecided]
      refine mapError_eq_ok.mpr (bind_eq_ok.mpr ⟨_, if_pos (Nat.lt_trans hroom (by decide)), ?_⟩)
      rw [hrecord]
      simp only [hmatch, ne_eq, not_true_eq_false, decide_false, Bool.not_true, Bool.or_self, Bool.false_eq_true,
        if_false, if_neg hmode, if_neg (Nat.not_le.mpr hroom)]

/-- Token exchange has the given mode, all other modules are to be disabled. -/
def exchangeRows (mode : DesiredMode) : DesiredRows :=
  ⟨ModuleId.all.map fun module =>
    ⟨module, if module = .tokenExchange then mode else .disabled, 1⟩, by cases mode <;> decide⟩

/-- Token exchange is to be disabled and has not been reconciled: native SSO is offered, and
refused. -/
theorem offered_refused : DesiredMode.enabled
    ∈ allowedActions ssoCatalog .nativeSso .disabled ⟨0, {.tokenExchange}, ∅⟩
    ∧ changeDesired ssoCatalog ⟨0, {.tokenExchange}, ∅⟩ (exchangeRows .disabled) .nativeSso .enabled (some 1)
      = .error (.dependencyUnavailable .nativeSso .tokenExchange) :=
  ⟨by decide +kernel, rfl⟩

theorem offered_actions_sso :
    ∃ rows', changeDesired ssoCatalog ⟨0, {.tokenExchange}, ∅⟩ (exchangeRows .enabled) .nativeSso .enabled (some 1)
      = .ok (rows', .applied ⟨.nativeSso, .enabled, 2⟩) := by
  refine ((offered_actions ssoCatalog ⟨0, {.tokenExchange}, ∅⟩ (exchangeRows .enabled) .nativeSso
    ⟨.nativeSso, .disabled, 1⟩ .enabled rfl).2 (by decide +kernel)).mpr
      ⟨⟨fun dependency hdependency => ?_, ?_⟩, by decide⟩
  · obtain rfl : dependency = .tokenExchange := by revert dependency; decide +kernel
    exact ⟨_, rfl, rfl⟩
  · exact fun h => nomatch h

end NazoAuth.RuntimeCapabilities
