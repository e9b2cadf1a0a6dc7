import Mathlib.Logic.Basic

/-!
# Programs that may crash

A program issues commands and goes on with their replies. The environment answers each command: an
input decides what the command does to the state and what it replies, and when the inputs run out
the program has crashed before its next command. So a list of inputs is one execution, and the lists
of all lengths are all crash points.
-/

namespace NazoAuth.Lib

/-- A program that issues commands `c : κ`, gets replies in `ρ c`, and ends with a value or an
error. -/
inductive Prog (κ : Type) (ρ : κ → Type) (ε α : Type) : Type
  | pure (a : α)
  | throw (e : ε)
  | call (c : κ) (next : ρ c → Prog κ ρ ε α)

namespace Prog

variable {κ : Type} {ρ : κ → Type} {ε ε' α β σ ι : Type}

protected def bind : Prog κ ρ ε α → (α → Prog κ ρ ε β) → Prog κ ρ ε β
  | .pure a, f => f a
  | .throw e, _ => .throw e
  | .call c next, f => .call c fun r => (next r).bind f

instance : Monad (Prog κ ρ ε) where
  pure := Prog.pure
  bind := Prog.bind

/-- The same program with other errors. -/
def mapError (g : ε → ε') : Prog κ ρ ε α → Prog κ ρ ε' α
  | .pure a => .pure a
  | .throw e => .throw (g e)
  | .call c next => .call c fun r => (next r).mapError g

/-- A value or an error that has been computed. -/
def ofExcept : Except ε α → Prog κ ρ ε α
  | .ok a => .pure a
  | .error e => .throw e

/-! ## Executions -/

structure Execution (κ σ ε α : Type) where
  /-- The commands, each with the state that it was issued in. -/
  issued : List (κ × σ)
  state : σ
  /-- The result, or nothing when the program crashed. -/
  result : Option (Except ε α)

section Execute

variable (handle : σ → (c : κ) → ι → σ × ρ c)

def execute : Prog κ ρ ε α → σ → List ι → Execution κ σ ε α
  | .pure a, s, _ => ⟨[], s, some (.ok a)⟩
  | .throw e, s, _ => ⟨[], s, some (.error e)⟩
  | .call _ _, s, [] => ⟨[], s, none⟩
  | .call c next, s, i :: inputs =>
    let rest := execute (next (handle s c i).2) (handle s c i).1 inputs
    ⟨(c, s) :: rest.issued, rest.state, rest.result⟩

/-- In every execution under allowed inputs, commands are issued where they may be, the states of
the execution are related by `R` in their order, and the result and its state are in `Q`. -/
def Spec (allowed : ι → Prop) (may : κ → σ → Prop) (R : σ → σ → Prop) (p : Prog κ ρ ε α) (s : σ)
    (Q : Except ε α → σ → Prop) : Prop :=
  ∀ inputs : List ι, (∀ i ∈ inputs, allowed i) →
    (∀ e ∈ (p.execute handle s inputs).issued, may e.1 e.2 ∧ R s e.2 ∧ R e.2 (p.execute handle s inputs).state)
      ∧ R s (p.execute handle s inputs).state
      ∧ ∀ r, (p.execute handle s inputs).result = some r → Q r (p.execute handle s inputs).state

end Execute

section Rules

variable {handle : σ → (c : κ) → ι → σ × ρ c} {allowed : ι → Prop} {may : κ → σ → Prop}
  {R R' : σ → σ → Prop} {s : σ} {Q : Except ε α → σ → Prop} {p : Prog κ ρ ε α}

theorem spec_pure {a : α} (hR : R s s) (hQ : Q (.ok a) s) :
    Spec handle allowed may R (.pure a : Prog κ ρ ε α) s Q := by
  intro inputs _
  refine ⟨fun e he => absurd he List.not_mem_nil, hR, fun r hr => ?_⟩
  cases hr
  exact hQ

theorem spec_throw {e : ε} (hR : R s s) (hQ : Q (.error e) s) :
    Spec handle allowed may R (.throw e : Prog κ ρ ε α) s Q := by
  intro inputs _
  refine ⟨fun e he => absurd he List.not_mem_nil, hR, fun r hr => ?_⟩
  cases hr
  exact hQ

theorem spec_ofExcept {x : Except ε α} (hR : R s s) (hQ : Q x s) :
    Spec handle allowed may R (ofExcept x : Prog κ ρ ε α) s Q := by
  cases x with
  | ok => exact spec_pure hR hQ
  | error => exact spec_throw hR hQ

/-- One command: it may be issued, and its reply leads on. -/
theorem spec_call (htrans : ∀ s₁ s₂ s₃, R s₁ s₂ → R s₂ s₃ → R s₁ s₃) {c : κ}
    {next : ρ c → Prog κ ρ ε α} (hR : R s s) (hmay : may c s)
    (hnext : ∀ i, allowed i → R s (handle s c i).1
      ∧ Spec handle allowed may R (next (handle s c i).2) (handle s c i).1 Q) :
    Spec handle allowed may R (.call c next) s Q := by
  intro inputs hall
  cases inputs with
  | nil => exact ⟨fun e he => absurd he List.not_mem_nil, hR, fun r hr => nomatch hr⟩
  | cons i inputs =>
    obtain ⟨hstep, hrest⟩ := hnext i (hall i (.head _))
    obtain ⟨hissued, hstate, hresult⟩ := hrest inputs fun j hj => hall j (.tail i hj)
    have hend := htrans _ _ _ hstep hstate
    refine ⟨fun e he => ?_, hend, hresult⟩
    rcases List.mem_cons.mp he with rfl | he
    · exact ⟨hmay, hR, hend⟩
    · obtain ⟨hmay', hfrom, hto⟩ := hissued e he
      exact ⟨hmay', htrans _ _ _ hstep hfrom, hto⟩

theorem spec_mono {Q' : Except ε α → σ → Prop} (h : Spec handle allowed may R p s Q)
    (hR : ∀ s₁ s₂, R s₁ s₂ → R' s₁ s₂) (hQ : ∀ r s', R s s' → Q r s' → Q' r s') :
    Spec handle allowed may R' p s Q' := by
  intro inputs hall
  obtain ⟨hissued, hstate, hresult⟩ := h inputs hall
  refine ⟨fun e he => ?_, hR _ _ hstate, fun r hr => hQ r _ hstate (hresult r hr)⟩
  obtain ⟨hmay, hfrom, hto⟩ := hissued e he
  exact ⟨hmay, hR _ _ hfrom, hR _ _ hto⟩

/-- An execution of a sequence is one of its first program, which ends or is stopped, then one of
the rest. -/
theorem execute_bind (handle : σ → (c : κ) → ι → σ × ρ c) (p : Prog κ ρ ε α) (f : α → Prog κ ρ ε β)
    (s : σ) (inputs : List ι) :
    (∃ before after a, inputs = before ++ after ∧ (p.execute handle s before).result = some (.ok a)
        ∧ (p.bind f).execute handle s inputs
          = ⟨(p.execute handle s before).issued
            ++ ((f a).execute handle (p.execute handle s before).state after).issued,
              ((f a).execute handle (p.execute handle s before).state after).state,
              ((f a).execute handle (p.execute handle s before).state after).result⟩)
      ∨ ((p.bind f).execute handle s inputs).issued = (p.execute handle s inputs).issued
        ∧ ((p.bind f).execute handle s inputs).state = (p.execute handle s inputs).state
        ∧ (((p.bind f).execute handle s inputs).result = none
          ∨ ∃ e, (p.execute handle s inputs).result = some (.error e)
            ∧ ((p.bind f).execute handle s inputs).result = some (.error e)) := by
  induction p generalizing s inputs with
  | pure a => exact .inl ⟨[], inputs, a, rfl, rfl, rfl⟩
  | throw e => exact .inr ⟨rfl, rfl, .inr ⟨e, rfl, rfl⟩⟩
  | call c next ih =>
    cases inputs with
    | nil => exact .inr ⟨rfl, rfl, .inl rfl⟩
    | cons i inputs =>
      rcases ih (handle s c i).2 (handle s c i).1
        inputs with ⟨before, after, a, rfl, hres, heq⟩ | ⟨hissued, hstate, hres⟩
      · refine .inl ⟨i :: before, after, a, rfl, hres, ?_⟩
        simp only [Prog.bind, execute, heq, List.cons_append]
      · refine .inr ⟨?_, hstate, hres⟩
        simp only [Prog.bind, execute, hissued]

/-- A sequence: the first program establishes what the second one starts from. -/
theorem spec_bind (htrans : ∀ s₁ s₂ s₃, R s₁ s₂ → R s₂ s₃ → R s₁ s₃) {f : α → Prog κ ρ ε β}
    {Q : Except ε β → σ → Prop} (h : Spec handle allowed may R p s fun r s' => match r with
      | .ok a => Spec handle allowed may R (f a) s' Q
      | .error e => Q (.error e) s') :
    Spec handle allowed may R (p >>= f) s Q := by
  intro inputs hall
  rcases execute_bind handle p f s inputs with ⟨before, after, a, rfl, hres, heq⟩ | ⟨hissued, hstate, hres⟩
  · obtain ⟨hmay, hR, hq⟩ := h before fun i hi => hall i (List.mem_append_left after hi)
    obtain ⟨hmay', hR', hq'⟩ := hq _ hres after fun i hi => hall i (List.mem_append_right before hi)
    have hexec : (p >>= f).execute handle s (before ++ after) = _ := heq
    rw [hexec]
    refine ⟨fun e he => ?_, htrans _ _ _ hR hR', hq'⟩
    rcases List.mem_append.mp he with he | he
    · obtain ⟨hmay, hfrom, hto⟩ := hmay e he
      exact ⟨hmay, hfrom, htrans _ _ _ hto hR'⟩
    · obtain ⟨hmay, hfrom, hto⟩ := hmay' e he
      exact ⟨hmay, htrans _ _ _ hR hfrom, hto⟩
  · obtain ⟨hmay, hR, hq⟩ := h inputs hall
    have hissued' : ((p >>= f).execute handle s inputs).issued = _ := hissued
    have hstate' : ((p >>= f).execute handle s inputs).state = _ := hstate
    rw [hissued', hstate']
    refine ⟨hmay, hR, fun r hr => ?_⟩
    rcases hres with hnone | ⟨e, hres, hres'⟩
    · cases hr.symm.trans hnone
    · cases hr.symm.trans hres'
      exact hq _ hres

theorem execute_mapError (g : ε → ε') (p : Prog κ ρ ε α) (s : σ) (inputs : List ι) :
    (p.mapError g).execute handle s inputs
      = ⟨(p.execute handle s inputs).issued, (p.execute handle s inputs).state,
          (p.execute handle s inputs).result.map (Except.mapError g)⟩ := by
  induction p generalizing s inputs with
  | pure | throw => rfl
  | call c next ih =>
    cases inputs with
    | nil => rfl
    | cons => simp only [mapError, execute, ih]

theorem spec_mapError {g : ε → ε'} {Q : Except ε' α → σ → Prop}
    (h : Spec handle allowed may R p s fun r s' => Q (r.mapError g) s') :
    Spec handle allowed may R (p.mapError g) s Q := by
  intro inputs hall
  obtain ⟨hissued, hstate, hresult⟩ := h inputs hall
  rw [execute_mapError]
  refine ⟨hissued, hstate, fun r hr => ?_⟩
  obtain ⟨r', hr', rfl⟩ := Option.map_eq_some_iff.mp hr
  exact hresult r' hr'

end Rules

/-- A handler that keeps more than another one issues the same commands, with the same replies. -/
theorem execute_proj {τ : Type} {handle : σ → (c : κ) → ι → σ × ρ c} {handle' : τ → (c : κ) → ι → τ × ρ c}
    {proj : τ → σ} (h : ∀ t c i, handle (proj t) c i = (proj (handle' t c i).1, (handle' t c i).2))
    (p : Prog κ ρ ε α) (t : τ) (inputs : List ι) :
    p.execute handle (proj t) inputs = ⟨(p.execute handle' t inputs).issued.map fun e => (e.1, proj e.2),
      proj (p.execute handle' t inputs).state, (p.execute handle' t inputs).result⟩ := by
  induction p generalizing t inputs with
  | pure | throw => rfl
  | call c next ih =>
    cases inputs with
    | nil => rfl
    | cons => simp only [execute, h, ih, List.map_cons]

end Prog

end NazoAuth.Lib
