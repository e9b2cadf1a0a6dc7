import NazoAuth.Lib.Run
import NazoAuth.Operator.CrashSafety

/-!
# Operator journal — durable records

A sync makes the whole directory durable, so what is durable was visible before
(`synced_of_execute`). An attempt that renames a record syncs it before it goes on. One that finds
its record published, with no temporary beside it, goes on without a sync: its side effect stands
behind a durable record exactly if that record was durable (`Settled`).
-/

namespace NazoAuth.Operator

open Lib
open Prog hiding pure

variable {δ : Type} {f : DataFormat δ} {clean : Prop}

/-! ## Executions on a disk -/

section Execute

variable {ε α : Type} (p : Prog (Command δ) (Reply δ) ε α) (d : Disk δ) (inputs : List (Input δ))

/-- An execution on a disk is one on its visible directory. -/
theorem execute_disk : p.execute handle d.visible inputs
    = ⟨(p.execute handleDisk d inputs).issued.map fun e => (e.1, e.2.visible),
        (p.execute handleDisk d inputs).state.visible, (p.execute handleDisk d inputs).result⟩ :=
  Prog.execute_proj (fun _ _ _ => rfl) p d inputs

/-- What is durable was durable before, or a command has seen it. -/
theorem synced_of_execute : (p.execute handleDisk d inputs).state.synced = d.synced
    ∨ ∃ e ∈ (p.execute handleDisk d inputs).issued, (p.execute handleDisk d inputs).state.synced
    = e.2.visible := by
  induction p generalizing d inputs with
  | pure | throw => exact .inl rfl
  | call c next ih =>
    cases inputs with
    | nil => exact .inl rfl
    | cons i inputs =>
      rcases ih (handleDisk d c i).2 (handleDisk d c i).1 inputs with h | ⟨e, he, h⟩
      · by_cases hsync : (c.isSync && i.io = .done) = true
        · exact .inr ⟨_, .head _, h.trans (if_pos hsync)⟩
        · exact .inl (h.trans (if_neg hsync))
      · exact .inr ⟨e, .tail _ he, h⟩

end Execute

/-! ## Side effects -/

section Ends

variable {ε ε' α β : Type} {p : Prog (Command δ) (Reply δ) ε α} {C Q : Disk δ → Prop} {s : Disk δ}

/-- Side effects are started where `C` holds, and `Q` holds when the program ends with a value. -/
def Ends (C : Disk δ → Prop) (p : Prog (Command δ) (Reply δ) ε α) (s : Disk δ) (Q : Disk δ → Prop) : Prop :=
  Spec handleDisk (fun _ => True) (may fun _ => C) (fun _ _ => True) p s fun res s' => ∀ a, res = .ok a → Q s'

variable {operation : ControlOperation} {d : Disk δ}

end Ends

/-! ## Histories -/

theorem inv_empty : Inv f clean Directory.empty :=
  fun _ => ⟨fun _ h => (nomatch h), fun _ h => (nomatch h), fun h => (nomatch h)⟩

variable [DecidableEq δ] {d d' : Disk δ} {log : Log δ} {operation : ControlOperation}
  {r : OperationJournalRecord δ}

/-- No write of the attempt stops in the middle. -/
def Op.Whole (op : Op δ) : Prop := ∀ i ∈ op.inputs, i.io ≠ .torn

theorem later_of_exec {d : Directory δ} (op : Op δ) (hi : Inv f clean d)
    (hwhole : clean → op.Whole) : Later f clean d (exec f d op).1 :=
  (moves_executeCompact False hi op.operation op.inputs
    fun i hin => ⟨False.elim, fun hclean => hwhole hclean i hin⟩).2.1

/-- A journal, with what is durable not ahead of what is visible. -/
structure DiskInv (f : DataFormat δ) (clean : Prop) (d : Disk δ) : Prop where
  inv : Inv f clean d.visible
  behind : ∀ id, Moved (d.synced.files id).recorded? (d.visible.files id).recorded?

/-- Both the visible and the durable records move on. -/
structure DiskLater (f : DataFormat δ) (clean : Prop) (d d' : Disk δ) : Prop where
  visible : Later f clean d.visible d'.visible
  synced : ∀ id, Moved (d.synced.files id).recorded? (d'.synced.files id).recorded?

theorem later_of_execDisk (op : Op δ) (hi : DiskInv f clean d) (hwhole : clean → op.Whole) :
    DiskInv f clean (execDisk f d op).1 ∧ DiskLater f clean d (execDisk f d op).1 := by
  have hspec := moves_executeCompact False hi.inv op.operation op.inputs
    fun i hin => ⟨False.elim, fun hclean => hwhole hclean i hin⟩
  rw [execute_disk] at hspec
  obtain ⟨hissued, hlater, -⟩ := hspec
  rcases synced_of_execute (executeCompact f op.operation) d op.inputs with hsame | ⟨e, he, hsync⟩
  · have hsynced : (execDisk f d op).1.synced = d.synced := hsame
    refine ⟨⟨hlater.inv, fun id => ?_⟩, hlater, fun id => ?_⟩
    · rw [hsynced]
      exact (hi.behind id).trans (hlater id).recorded
    · rw [hsynced]
      exact .refl _
  · obtain ⟨-, hfrom, hto⟩ := hissued _ (List.mem_map_of_mem he)
    have hsynced : (execDisk f d op).1.synced = e.2.visible := hsync
    refine ⟨⟨hlater.inv, fun id => ?_⟩, hlater, fun id => ?_⟩
    · rw [hsynced]
      exact (hto id).recorded
    · rw [hsynced]
      exact (hi.behind id).trans (hfrom id).recorded

theorem later_of_run (hi : DiskInv f clean d) (hwhole : clean → ∀ e ∈ log, e.1.Whole)
    (hr : Run (execDisk f) d log d') : DiskInv f clean d' ∧ DiskLater f clean d d' := by
  induction hr with
  | nil => exact ⟨hi, .refl hi.inv, fun _ => .refl _⟩
  | cons hr he ih =>
    obtain ⟨hinv, hlater⟩ := ih fun hclean e hmem => hwhole hclean e (.tail _ hmem)
    have hstep := later_of_execDisk _ hinv fun hclean => hwhole hclean _ (.head _)
    rw [he] at hstep
    exact ⟨hstep.1, Later.trans _ _ _ hlater.visible hstep.2.visible,
      fun id => (hlater.synced id).trans (hstep.2.synced id)⟩

def Outcome.Quiet {σ : Type} (out : Outcome δ σ) : Prop := ∀ e ∈ out.issued, ∀ r, e.1 ≠ .sideEffect r

/-- No call fails. -/
def Calm (inputs : Nat → Input δ) : Prop := ∀ n, (inputs n).io = .done

omit [DecidableEq δ] in
theorem Calm.allowed {inputs : Nat → Input δ} (h : Calm inputs) (n : Nat) (calm clean : Prop) :
    ∀ i ∈ (List.range n).map inputs, Operator.allowed calm clean i := by
  intro i hi
  obtain ⟨k, -, rfl⟩ := List.mem_map.mp hi
  exact ⟨fun _ => h k, fun _ htorn => by cases (h k).symm.trans htorn⟩

def resumeFormat : DataFormat Nat where
  isRecoveryInvalidation := fun _ => false
  validateControlResultData := fun _ => .ok ()
  encodedLength := fun _ => 0

def resumeOperation : ControlOperation where
  operationId := "00000000-0000-7000-8000-000000000001"
  requestHash := "0000000000000000000000000000000000000000000000000000000000000000"
  migrateApply := true
  id_valid := by decide +kernel
  hash_valid := by decide +kernel

def resumeInput : Input Nat where
  io := .done
  random := 7
  admission := .ok ⟨"00000000-0000-7000-8000-000000000002", "kid", 100⟩
  revision := .ok "revision"
  effect := .ok (some 5)
  clock := 200

end NazoAuth.Operator
