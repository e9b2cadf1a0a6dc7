import Mathlib.Logic.Basic

/-!
# Computations that may fail

A chain of fallible steps succeeds exactly when each step does (`bind_eq_ok`); `of_bind` takes such
a chain apart one step at a time. A loop that succeeds has passed every element (`forM_eq_ok`), has
computed what its steps compute (`foldl_of_foldlM`), and keeps what they keep (`foldlM_invariant`).
-/

namespace NazoAuth.Lib

variable {ε α β : Type} {x : Except ε α} {a : α} {l : List α} {step : β → α → Except ε β}

theorem bind_eq_ok {f : α → Except ε β} {b : β} : (x >>= f) = .ok b ↔ ∃ a, x = .ok a ∧ f a = .ok b := by
  cases x with
  | error | ok => simp [bind, Except.bind]

theorem of_bind {f : α → Except ε β} {b : β} (h : (x >>= f) = .ok b) : ∃ a, x = .ok a ∧ f a = .ok b :=
  bind_eq_ok.mp h

theorem pure_eq_ok {b : α} : (pure a : Except ε α) = .ok b ↔ a = b := by
  simp [pure, Except.pure]

theorem mapError_ok {ε' : Type} {f : ε → ε'} : (.ok a : Except ε α).mapError f = .ok a := rfl

theorem mapError_eq_ok {ε' : Type} {f : ε → ε'} : x.mapError f = .ok a ↔ x = .ok a := by
  cases x with
  | error => constructor <;> intro h <;> cases h
  | ok => simp only [mapError_ok, Except.ok.injEq]

theorem toOption_eq_some : x.toOption = some a ↔ x = .ok a := by
  cases x with
  | error | ok => simp [Except.toOption]

theorem forM_eq_ok {f : α → Except ε Unit} (h : l.forM f = .ok ()) : ∀ x ∈ l, f x = .ok () := by
  induction l with
  | nil => simp
  | cons y rest ih =>
    obtain ⟨⟨⟩, hy, hrest⟩ := of_bind h
    intro x hx
    rcases List.mem_cons.mp hx with rfl | hx
    · exact hy
    · exact ih hrest x hx

theorem foldl_of_foldlM {next : β → α → β} (hstep : ∀ {acc x r}, step acc x = .ok r → r = next acc x) :
    ∀ {acc r : β}, l.foldlM step acc = .ok r → r = l.foldl next acc := by
  induction l with
  | nil => exact fun h => (pure_eq_ok.mp h).symm
  | cons x rest ih =>
    intro acc r h
    obtain ⟨acc', hx, hrest⟩ := of_bind h
    rw [List.foldl_cons, ← hstep hx]
    exact ih hrest

/-- A loop that succeeds keeps what each of its steps keeps. -/
theorem foldlM_invariant {I : β → Prop} {init r : β} (h0 : I init)
    (hstep : ∀ acc x acc', x ∈ l → I acc → step acc x = .ok acc' → I acc')
    (h : l.foldlM step init = .ok r) : I r := by
  induction l generalizing init with
  | nil =>
    obtain rfl := pure_eq_ok.mp h
    exact h0
  | cons x rest ih =>
    obtain ⟨acc, hx, hrest⟩ := of_bind h
    exact ih (hstep init x acc (.head _) h0 hx) (fun acc y acc' hy => hstep acc y acc' (.tail x hy)) hrest

end NazoAuth.Lib
