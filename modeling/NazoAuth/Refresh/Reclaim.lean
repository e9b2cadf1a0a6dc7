import Mathlib.Logic.Function.Basic
import NazoAuth.Basic
import NazoAuth.Lib.RowLock
import NazoAuth.Lib.Run

/-!
# Refresh families — contracts are not reclaimed under use

The transactions that create a family (`nazo_create_refresh_family`) and the sweep of orphan
contracts, statement by statement. A creator locks its contract with `FOR KEY SHARE` or inserts it,
and the sweep deletes contracts that it has locked with `FOR UPDATE`; both keep their locks until
they end.

What a statement sees is its snapshot, which may be older than the locks that it waits for: a
look-up may miss a contract that is there, and the sweep may lock one that has a family by now. The
foreign key of a family is left out; it refuses statements, and nothing here rests on it.
-/

namespace NazoAuth.Refresh.Reclaim

open Lib

/-- The tenant and the digest of a contract. -/
abbrev ContractKey := Uuid × Digest

/-- What a family row says of its contract. -/
structure FamilyReference where
  tokenFamilyId : Uuid
  contract : ContractKey
  deriving DecidableEq

/-- Where a transaction stands, with what it has written. -/
inductive Work
  /-- `nazo_oauth_refresh_contract_ensure`, with its attempts left. -/
  | ensuring (key : ContractKey) (attempts : Nat)
  /-- The look-up of the attempt has found no contract. -/
  | missing (key : ContractKey) (attempts : Nat)
  | ensured (key : ContractKey) (inserted : Bool)
  | created (family : FamilyReference) (inserted : Bool)
  /-- `delete_orphan_refresh_contracts` locks its page. -/
  | scanning
  /-- The deletion has its snapshot, in which these contracts have no family. -/
  | deleting (due : List ContractKey)
  | swept (due : List ContractKey)
  deriving DecidableEq

/-- The committed rows, the locks, and the transactions. -/
structure Database where
  contracts : List ContractKey
  families : List FamilyReference
  locks : List (RowLock ContractKey)
  work : Nat → Option Work

def Database.empty : Database := ⟨[], [], [], fun _ => none⟩

inductive Op
  | create (t : Nat) (key : ContractKey)
  /-- The look-up of the contract, which its snapshot has or not. -/
  | lookUp (t : Nat) (seen : Bool)
  | insertContract (t : Nat)
  | insertFamily (t : Nat) (tokenFamilyId : Uuid)
  | sweep (t : Nat)
  /-- A contract of the page is locked, or skipped. -/
  | lockContract (t : Nat) (key : ContractKey)
  /-- The deletion takes its snapshot. -/
  | snapshot (t : Nat)
  | delete (t : Nat)
  | commit (t : Nat)
  | abort (t : Nat)
  /-- A family is deleted by its own maintenance. -/
  | dropFamily (tokenFamilyId : Uuid)

namespace Database

def become (db : Database) (t : Nat) (work : Work) : Database :=
  { db with work := Function.update db.work t (some work) }

def finish (db : Database) (t : Nat) : Database :=
  { db with locks := release db.locks t, work := Function.update db.work t none }

/-- The contracts that the transaction has locked and that have no family. -/
def orphans (db : Database) (t : Nat) : List ContractKey :=
  (db.locks.filter fun l => l.holder = t && l.mode = .update && db.families.all fun family => family.contract
    ≠ l.row).map RowLock.row

end Database

/-- One statement; there is none while it waits, and for a transaction that does not stand where it
is issued. -/
def step? (db : Database) : Op → Option Database
  | .create t key => if db.work t = none then some (db.become t (.ensuring key 3)) else none
  | .lookUp t seen =>
    match db.work t with
    | some (.ensuring key attempts) =>
      if seen && db.contracts.contains key then
        (lock? db.locks t key .keyShare).map fun locks => { db with locks := locks }.become t (.ensured key false)
      else some (db.become t (.missing key attempts))
    | _ => none
  | .insertContract t =>
    match db.work t with
    | some (.missing key attempts) =>
      -- a committed row conflicts; one that is not committed yet is waited for
      if db.contracts.contains key then
        some (if attempts ≤ 1 then db.finish t else db.become t (.ensuring key (attempts - 1)))
      else (lock? db.locks t key .update).map fun locks => { db with locks := locks }.become t (.ensured key true)
    | _ => none
  | .insertFamily t tokenFamilyId =>
    match db.work t with
    | some (.ensured key inserted) => some (db.become t (.created ⟨tokenFamilyId, key⟩ inserted))
    | _ => none
  | .sweep t => if db.work t = none then some (db.become t .scanning) else none
  | .lockContract t key =>
    if db.work t = some .scanning && db.contracts.contains key then
      (lock? db.locks t key .update).map fun locks => { db with locks := locks }
    else none
  | .snapshot t => if db.work t = some .scanning then some (db.become t (.deleting (db.orphans t))) else none
  | .delete t =>
    match db.work t with
    | some (.deleting due) => some (db.become t (.swept due))
    | _ => none
  | .commit t =>
    match db.work t with
    | some (.created family inserted) =>
      some { db.finish t with
        contracts := if inserted then family.contract :: db.contracts else db.contracts
        families := family :: db.families }
    | some (.swept due) => some { db.finish t with contracts := db.contracts.filter fun key => key ∉ due }
    | _ => none
  | .abort t => some (db.finish t)
  | .dropFamily tokenFamilyId =>
    some { db with families := db.families.filter fun family => family.tokenFamilyId ≠ tokenFamilyId }

/-- The outcome is whether the statement was executed. -/
def exec (db : Database) (op : Op) : Database × Bool := ((step? db op).getD db, (step? db op).isSome)

/-! ## What the locks protect -/

variable {db db' : Database} {t t' : Nat} {key : ContractKey} {op : Op} {inserted : Bool}

/-- The transaction may refer to the contract: it has inserted it, or has it locked. -/
def Guarded (db : Database) (t : Nat) (key : ContractKey) (inserted : Bool) : Prop :=
  ⟨t, key, if inserted then .update else .keyShare⟩ ∈ db.locks

/-- The transaction has the contracts to itself, and no family refers to them. -/
def Orphaned (db : Database) (t : Nat) (due : List ContractKey) : Prop :=
  ∀ key ∈ due, ⟨t, key, .update⟩ ∈ db.locks ∧ ∀ family ∈ db.families, family.contract ≠ key

/-- What a transaction needs where it stands. -/
def Sound (db : Database) (t : Nat) : Work → Prop
  | .ensured key inserted => Guarded db t key inserted
  | .created family inserted => Guarded db t family.contract inserted
  | .deleting due => Orphaned db t due
  | .swept due => Orphaned db t due
  | _ => True

structure ReclaimInv (db : Database) : Prop where
  exclusive : Exclusive db.locks
  shared : ∀ t key, ⟨t, key, .keyShare⟩ ∈ db.locks → key ∈ db.contracts
  work : ∀ t work, db.work t = some work → Sound db t work
  families : ∀ family ∈ db.families, family.contract ∈ db.contracts

/-- A transaction keeps what it needs while it has its locks and no family comes that refers to what
it deletes. -/
theorem sound_mono {work : Work} (h : Sound db t work) (hlocks : ∀ l ∈ db.locks, l.holder = t → l ∈ db'.locks)
    (hfamilies : ∀ family ∈ db'.families, family ∈ db.families ∨ ⟨t, family.contract, .update⟩ ∉ db.locks) :
    Sound db' t work := by
  have horphaned : ∀ {due}, Orphaned db t due → Orphaned db' t due := by
    intro due h key hkey
    obtain ⟨hlock, hnone⟩ := h key hkey
    refine ⟨hlocks _ hlock rfl, fun family hfamily heq => ?_⟩
    rcases hfamilies family hfamily with hold | hfree
    · exact hnone family hold heq
    · exact hfree (heq ▸ hlock)
  cases work with
  | ensured | created => exact hlocks _ h rfl
  | deleting | swept => exact horphaned h
  | ensuring | missing | scanning => trivial

theorem inv_become (hinv : ReclaimInv db) {work : Work} (hsound : Sound db t work) :
    ReclaimInv (db.become t work) := by
  refine ⟨hinv.exclusive, hinv.shared, fun t' work' h => ?_, hinv.families⟩
  have hold : Sound db t' work' := by
    by_cases ht : t' = t
    · subst ht
      obtain rfl : work = work' := by simpa [Database.become] using h
      exact hsound
    · exact hinv.work t' work' (by simpa [Database.become, ht] using h)
  exact sound_mono hold (fun _ hl _ => hl) fun _ hfamily => .inl hfamily

theorem inv_lock (hinv : ReclaimInv db) {mode : LockMode} {locks : List (RowLock ContractKey)}
    (h : lock? db.locks t key mode = some locks) (hmode : mode = .keyShare → key ∈ db.contracts) :
    ReclaimInv { db with locks := locks } ∧ ⟨t, key, mode⟩ ∈ locks := by
  have hexclusive := exclusive_lock? hinv.exclusive h
  obtain rfl := eq_of_lock? h
  refine ⟨⟨hexclusive, fun t' key' hmem => ?_, fun t' work hwork => ?_, hinv.families⟩, .head _⟩
  · rcases List.mem_cons.mp hmem with heq | hmem
    · cases heq
      exact hmode rfl
    · exact hinv.shared t' key' hmem
  · exact sound_mono (hinv.work t' work hwork) (fun _ hl _ => .tail _ hl) fun _ hfamily => .inl hfamily

/-- The transaction ends, and leaves the contracts that others have locked and the families that
they delete no contract of. -/
theorem inv_finish (hinv : ReclaimInv db) {contracts : List ContractKey} {families : List FamilyReference}
    (hshared : ∀ t' key, t' ≠ t → ⟨t', key, .keyShare⟩ ∈ db.locks → key ∈ contracts)
    (hnew : ∀ family ∈ families, family ∈ db.families ∨ ∀ t', t' ≠ t → ⟨t', family.contract, .update⟩ ∉ db.locks)
    (hfamilies : ∀ family ∈ families, family.contract ∈ contracts) :
    ReclaimInv { db.finish t with contracts := contracts, families := families } := by
  refine ⟨exclusive_release hinv.exclusive t, fun t' key h => ?_, fun t' work h => ?_, hfamilies⟩
  · obtain ⟨hmem, hne⟩ := mem_release.mp h
    exact hshared t' key hne hmem
  have hne : t' ≠ t := by
    rintro rfl
    simp [Database.finish] at h
  have hwork : db.work t' = some work := by simpa [Database.finish, hne] using h
  refine sound_mono (hinv.work t' work hwork) (fun l hl hholder => mem_release.mpr ⟨hl, hholder ▸ hne⟩)
    fun family hfamily => ?_
  exact (hnew family hfamily).imp_right fun hfree => hfree t' hne

/-- A contract that a transaction may refer to is locked for an update by no other one. -/
theorem ReclaimInv.holder (hinv : ReclaimInv db) (hguarded : Guarded db t key inserted)
    (hne : t' ≠ t) : ⟨t', key, .update⟩ ∉ db.locks :=
  fun hlock => hne (hinv.exclusive _ hlock _ hguarded rfl (LockMode.update_conflicts _))

theorem orphaned_orphans (db : Database) (t : Nat) : Orphaned db t (db.orphans t) := by
  intro key hkey
  obtain ⟨⟨holder, row, mode⟩, hl, rfl⟩ := List.mem_map.mp hkey
  obtain ⟨hmem, hl⟩ := List.mem_filter.mp hl
  simp only [Bool.and_eq_true, decide_eq_true_eq, List.all_eq_true] at hl
  obtain ⟨⟨rfl, rfl⟩, hnone⟩ := hl
  exact ⟨hmem, fun family hfamily => hnone family hfamily⟩

theorem inv_step (hinv : ReclaimInv db) (he : step? db op = some db') : ReclaimInv db' := by
  have hfinish : ∀ t, ReclaimInv (db.finish t) := fun t =>
    inv_finish hinv (fun t' key _ h => hinv.shared t' key h) (fun _ hfamily => .inl hfamily) hinv.families
  cases op <;> simp only [step?] at he
  case create | sweep =>
    split_ifs at he
    cases he
    exact inv_become hinv trivial
  case lookUp =>
    split at he
    · split_ifs at he with hseen
      · obtain ⟨locks, hlock, rfl⟩ := Option.map_eq_some_iff.mp he
        obtain ⟨hinv', hlocked⟩ := inv_lock hinv hlock fun _ =>
          List.contains_iff_mem.mp (Bool.and_eq_true_iff.mp hseen).2
        exact inv_become hinv' hlocked
      · cases he
        exact inv_become hinv trivial
    · cases he
  case insertContract t =>
    split at he
    · split_ifs at he
      · cases he
        exact hfinish t
      · cases he
        exact inv_become hinv trivial
      · obtain ⟨locks, hlock, rfl⟩ := Option.map_eq_some_iff.mp he
        obtain ⟨hinv', hlocked⟩ := inv_lock hinv hlock nofun
        exact inv_become hinv' hlocked
    · cases he
  case insertFamily t _ =>
    split at he
    · rename_i key inserted hwork
      cases he
      have hguarded : Guarded db t key inserted := hinv.work t _ hwork
      exact inv_become hinv hguarded
    · cases he
  case lockContract =>
    split_ifs at he
    obtain ⟨locks, hlock, rfl⟩ := Option.map_eq_some_iff.mp he
    exact (inv_lock hinv hlock nofun).1
  case snapshot t =>
    split_ifs at he
    cases he
    exact inv_become hinv (orphaned_orphans db t)
  case delete t =>
    split at he
    · rename_i due hwork
      cases he
      have horphaned : Orphaned db t due := hinv.work t _ hwork
      exact inv_become hinv horphaned
    · cases he
  case commit t =>
    split at he
    · rename_i family inserted hwork
      cases he
      have hguarded : Guarded db t family.contract inserted := hinv.work t _ hwork
      have hkept : ∀ key ∈ db.contracts,
          key ∈ (if inserted then family.contract :: db.contracts else db.contracts) := by
        intro key hkey
        split_ifs
        · exact .tail _ hkey
        · exact hkey
      refine inv_finish hinv (fun t' key _ h => hkept key (hinv.shared t' key h)) (fun f hf => ?_) fun f hf => ?_
      · rcases List.mem_cons.mp hf with rfl | hf
        · exact .inr fun t' hne => hinv.holder hguarded hne
        · exact .inl hf
      · rcases List.mem_cons.mp hf with rfl | hf
        · cases inserted with
          | true => exact .head _
          | false => exact hinv.shared t _ hguarded
        · exact hkept _ (hinv.families f hf)
    · rename_i due hwork
      cases he
      have horphaned : Orphaned db t due := hinv.work t _ hwork
      refine inv_finish hinv (fun t' key hne h => ?_) (fun f hf => .inl hf) fun f hf => ?_
      · -- what another transaction has locked is not among the contracts that go
        refine List.mem_filter.mpr ⟨hinv.shared t' key h, decide_eq_true fun hdue => ?_⟩
        have hguarded : Guarded db t' key false := h
        exact hinv.holder hguarded hne.symm (horphaned key hdue).1
      · exact List.mem_filter.mpr ⟨hinv.families f hf, decide_eq_true fun hdue => (horphaned _ hdue).2 f hf rfl⟩
    · cases he
  case abort t =>
    cases he
    exact hfinish t
  case dropFamily =>
    cases he
    refine ⟨hinv.exclusive, hinv.shared, fun t work hwork => ?_,
      fun f hf => hinv.families f (List.mem_filter.mp hf).1⟩
    exact sound_mono (hinv.work t work hwork) (fun _ hl _ => hl) fun f hf => .inl (List.mem_filter.mp hf).1

theorem inv_of_run {log : List (Op × Bool)} (hrun : Run exec .empty log db) : ReclaimInv db := by
  refine hrun.state_invariant ?_ fun db op db' out hinv he => ?_
  · constructor <;> simp [Database.empty, Exclusive]
  cases he
  cases hstep : step? db op with
  | none => exact hinv
  | some => exact inv_step hinv hstep

/-- What a commit takes away is a sweep's, and no family refers to it. -/
theorem unreferenced_of_commit (hinv : ReclaimInv db) (hstep : step? db (.commit t) = some db')
    (hkey : key ∈ db.contracts) (hgone : key ∉ db'.contracts) :
    (∃ due, db.work t = some (.swept due))
      ∧ (∀ family ∈ db'.families, family.contract ≠ key)
      ∧ ∀ t' family inserted, db'.work t' = some (.created family inserted) → family.contract ≠ key := by
  simp only [step?] at hstep
  split at hstep
  · cases hstep
    refine absurd ?_ hgone
    split_ifs
    · exact .tail _ hkey
    · exact hkey
  · rename_i due hwork
    cases hstep
    have horphaned : Orphaned db t due := hinv.work t _ hwork
    obtain ⟨hlock, hnone⟩ := horphaned key (by simpa [hkey] using hgone)
    refine ⟨⟨due, hwork⟩, hnone, ?_⟩
    rintro t' family inserted hwork' rfl
    have hne : t ≠ t' := by
      rintro rfl
      simp [Database.finish] at hwork'
    have hguarded : Guarded db t' family.contract inserted :=
      hinv.work t' (.created family inserted) (by simpa [Database.finish, hne.symm] using hwork')
    exact hinv.holder hguarded hne hlock
  · cases hstep

/-- **Contracts are not reclaimed under use.** In every interleaving, the contract of a family is
there, also of one that is not committed, unless its own transaction has inserted it. A sweep takes
away only contracts to which no family refers when it commits, committed or not. -/
theorem contracts_not_reclaimed {log : List (Op × Bool)} (hrun : Run exec .empty log db) :
    (∀ family ∈ db.families, family.contract ∈ db.contracts)
      ∧ (∀ t family, db.work t = some (.created family false) → family.contract ∈ db.contracts)
      ∧ ∀ t db' key, step? db (.commit t) = some db' → key ∈ db.contracts → key ∉ db'.contracts →
        (∃ due, db.work t = some (.swept due)) ∧ (∀ family ∈ db'.families, family.contract ≠ key)
          ∧ ∀ t' family inserted, db'.work t' = some (.created family inserted) → family.contract ≠ key := by
  have hinv := inv_of_run hrun
  refine ⟨hinv.families, fun t family hwork => ?_, fun t db' key hstep => unreferenced_of_commit hinv hstep⟩
  have hguarded : Guarded db t family.contract false := hinv.work t _ hwork
  exact hinv.shared t _ hguarded

/-! A family goes, a sweep locks its contract, and a creator waits for it and has to insert the
contract again. -/

def sweptUnderway : List (Op × Bool) × Database :=
  execAll exec .empty [] [.create 1 (1, 1), .lookUp 1 true, .insertContract 1, .insertFamily 1 7, .commit 1,
    .dropFamily 7, .sweep 2,
    .lockContract 2 (1, 1), .create 3 (1, 1), .lookUp 3 true, .snapshot 2, .delete 2, .commit 2,
    .lookUp 3 true, .insertContract 3, .insertFamily 3 8, .commit 3]

theorem contracts_not_reclaimed_sweptUnderway : sweptUnderway.1.map Prod.snd
      = [true, true, true, true, true, true, true, false, true, true, true, true, true, true, true, true, true]
    ∧ sweptUnderway.2.families = [⟨8, (1, 1)⟩]
    ∧ ∀ family ∈ sweptUnderway.2.families, family.contract ∈ sweptUnderway.2.contracts :=
  ⟨by decide +kernel, by decide +kernel, (contracts_not_reclaimed (run_execAll Database.empty _)).1⟩

end NazoAuth.Refresh.Reclaim
