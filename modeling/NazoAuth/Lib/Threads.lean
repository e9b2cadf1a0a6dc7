import NazoAuth.Lib.Program

/-!
# Threads — programs on a state that others change

A thread is a program (`Prog`) on a shared state. Between its commands the other threads and the
environment take steps; what they may do to the state is a relation `rely`, and what the thread does
to it with a command is bounded by `may`, on which the others rely in turn. A command may be
pending: then nothing is replied and the thread issues it again.
-/

namespace NazoAuth.Lib.Prog

variable {κ : Type} {ρ : κ → Type} {ε ε' α β σ ι : Type}

/-- The program with its error as a value. -/
def attempt : Prog κ ρ ε α → Prog κ ρ ε' (Except ε α)
  | .pure a => .pure (.ok a)
  | .throw e => .pure (.error e)
  | .call c next => .call c fun r => (next r).attempt

/-! ## What a thread ensures -/

section Ensures

variable (handle : σ → (c : κ) → ι → σ × Option (ρ c)) (rely : σ → σ → Prop) (may : κ → σ → Prop)

def Ensures (Q : Except ε α → σ → Prop) : Prog κ ρ ε α → σ → Prop
  | .pure a, s => ∀ s', rely s s' → Q (.ok a) s'
  | .throw e, s => ∀ s', rely s s' → Q (.error e) s'
  | .call c next, s => ∀ s', rely s s' → may c s' ∧ ∀ i s'' r, handle s' c i = (s'', some r) →
    (next r).Ensures Q s''

/-- An assertion that the others keep. -/
def Stable (P : σ → Prop) : Prop := ∀ s s', rely s s' → P s → P s'

/-- From every state of the precondition the thread ensures the postcondition. -/
def Triple (P : σ → Prop) (p : Prog κ ρ ε α) (Q : Except ε α → σ → Prop) : Prop :=
  ∀ s, P s → p.Ensures handle rely may Q s

end Ensures

section Rules

variable {handle : σ → (c : κ) → ι → σ × Option (ρ c)} {rely : σ → σ → Prop} {may : κ → σ → Prop}
  {Q : Except ε α → σ → Prop} {p : Prog κ ρ ε α} {s : σ}

theorem ensures_stable (htrans : ∀ s₁ s₂ s₃, rely s₁ s₂ → rely s₂ s₃ → rely s₁ s₃)
    : Stable rely (p.Ensures handle rely may Q) := by
  intro s s' hrely h
  cases p with
  | pure | throw | call => exact fun s'' hs'' => h s'' (htrans _ _ _ hrely hs'')

/-- The thread takes its step: it may, and ensures the same afterwards. -/
theorem ensures_next (hrefl : ∀ s, rely s s) {c : κ} {next : ρ c → Prog κ ρ ε α}
    (h : (call c next : Prog κ ρ ε α).Ensures handle rely may Q s) :
    may c s ∧ ∀ i s' r, handle s c i = (s', some r) → (next r).Ensures handle rely may Q s' :=
  h s (hrefl s)

theorem ensures_mono {Q' : Except ε α → σ → Prop} (hQ : ∀ r s, Q r s → Q' r s)
    (h : p.Ensures handle rely may Q s) : p.Ensures handle rely may Q' s := by
  induction p generalizing s with
  | pure | throw => exact fun s' hs' => hQ _ _ (h s' hs')
  | call c next ih =>
    intro s' hs'
    obtain ⟨hmay, hnext⟩ := h s' hs'
    exact ⟨hmay, fun i s'' r he => ih r (hnext i s'' r he)⟩

theorem ensures_bind (hrefl : ∀ s, rely s s) {f : α → Prog κ ρ ε β} {Q : Except ε β → σ → Prop}
    (h : p.Ensures handle rely may (fun r s' => match r with
      | .ok a => (f a).Ensures handle rely may Q s'
      | .error e => Q (.error e) s') s) :
    (p >>= f).Ensures handle rely may Q s := by
  induction p generalizing s with
  | pure => exact h s (hrefl s)
  | throw => exact h
  | call c next ih =>
    intro s' hs'
    obtain ⟨hmay, hnext⟩ := h s' hs'
    exact ⟨hmay, fun i s'' r he => ih r (hnext i s'' r he)⟩

theorem ensures_attempt {Q : Except ε' (Except ε α) → σ → Prop}
    (h : p.Ensures handle rely may (fun r => Q (.ok r)) s) : (attempt p).Ensures handle rely may Q s := by
  induction p generalizing s with
  | pure | throw => exact h
  | call c next ih =>
    intro s' hs'
    obtain ⟨hmay, hnext⟩ := h s' hs'
    exact ⟨hmay, fun i s'' r he => ih r (hnext i s'' r he)⟩

theorem ensures_mapError {g : ε → ε'} {Q : Except ε' α → σ → Prop}
    (h : p.Ensures handle rely may (fun r => Q (r.mapError g)) s) :
    (p.mapError g).Ensures handle rely may Q s := by
  induction p generalizing s with
  | pure | throw => exact h
  | call c next ih =>
    intro s' hs'
    obtain ⟨hmay, hnext⟩ := h s' hs'
    exact ⟨hmay, fun i s'' r he => ih r (hnext i s'' r he)⟩

variable {P P' : σ → Prop}

theorem triple_pure {a : α} (hP : Stable rely P) (hQ : ∀ s, P s → Q (.ok a) s) :
    Triple handle rely may P (pure a : Prog κ ρ ε α) Q :=
  fun s hs s' hs' => hQ s' (hP s s' hs' hs)

theorem triple_throw {e : ε} (hP : Stable rely P) (hQ : ∀ s, P s → Q (.error e) s) :
    Triple handle rely may P (.throw e : Prog κ ρ ε α) Q :=
  fun s hs s' hs' => hQ s' (hP s s' hs' hs)

/-- One command: it may be issued, and its reply leads on. -/
theorem triple_call {c : κ} {next : ρ c → Prog κ ρ ε α} (hP : Stable rely P) (hmay : ∀ s, P s → may c s)
    (hnext : ∀ s, P s → ∀ i s' r, handle s c i = (s', some r) → (next r).Ensures handle rely may Q s') :
    Triple handle rely may P (.call c next) Q :=
  fun s hs s' hs' => ⟨hmay s' (hP s s' hs' hs), hnext s' (hP s s' hs' hs)⟩

theorem triple_bind (hrefl : ∀ s, rely s s) {f : α → Prog κ ρ ε β} {Q : Except ε β → σ → Prop}
    (M : α → σ → Prop) (h : Triple handle rely may P p fun r s => match r with
      | .ok a => M a s
      | .error e => Q (.error e) s)
    (hf : ∀ a, Triple handle rely may (M a) (f a) Q) : Triple handle rely may P (p >>= f) Q := by
  intro s hs
  refine ensures_bind hrefl (ensures_mono (fun r s' hr => ?_) (h s hs))
  cases r with
  | ok a => exact hf a s' hr
  | error => exact hr

theorem triple_attempt {Q : Except ε' (Except ε α) → σ → Prop}
    (h : Triple handle rely may P p fun r => Q (.ok r)) : Triple handle rely may P (attempt p) Q :=
  fun s hs => ensures_attempt (h s hs)

theorem triple_mapError {g : ε → ε'} {Q : Except ε' α → σ → Prop}
    (h : Triple handle rely may P p fun r => Q (r.mapError g)) : Triple handle rely may P (p.mapError g) Q :=
  fun s hs => ensures_mapError (h s hs)

theorem triple_mono {Q' : Except ε α → σ → Prop} (h : Triple handle rely may P p Q)
    (hP : ∀ s, P' s → P s) (hQ : ∀ r s, Q r s → Q' r s) : Triple handle rely may P' p Q' :=
  fun s hs => ensures_mono hQ (h s (hP s hs))

theorem triple_pre (h : Triple handle rely may P p Q) (hP : ∀ s, P' s → P s) : Triple handle rely may P' p Q :=
  fun s hs => h s (hP s hs)

theorem triple_post {Q' : Except ε α → σ → Prop} (h : Triple handle rely may P p Q)
    (hQ : ∀ r s, Q r s → Q' r s) : Triple handle rely may P p Q' :=
  triple_mono h (fun _ hs => hs) hQ

end Rules

/-! ## Commands that leave the state alone -/

section Quiet

variable (handle : σ → (c : κ) → ι → σ × Option (ρ c)) (may : κ → σ → Prop)

/-- The command may always be issued and changes nothing. -/
def QuietCommand (c : κ) : Prop := (∀ s, may c s) ∧ ∀ s i, (handle s c i).1 = s

/-- A program of such commands only. -/
def Quiet : Prog κ ρ ε α → Prop
  | .pure _ => True
  | .throw _ => True
  | .call c next => QuietCommand handle may c ∧ ∀ r, (next r).Quiet

variable {handle may} {rely : σ → σ → Prop}

theorem quiet_bind {p : Prog κ ρ ε α} {f : α → Prog κ ρ ε β} (h : p.Quiet handle may)
    (hf : ∀ a, (f a).Quiet handle may) : (p >>= f).Quiet handle may := by
  induction p with
  | pure a => exact hf a
  | throw => trivial
  | call c next ih => exact ⟨h.1, fun r => ih r (h.2 r)⟩

/-- It keeps every stable assertion. -/
theorem triple_quiet {P : σ → Prop} (hP : Stable rely P) {p : Prog κ ρ ε α}
    (h : p.Quiet handle may) : Triple handle rely may P p fun _ => P := by
  induction p with
  | pure => exact triple_pure hP fun s hs => hs
  | throw => exact triple_throw hP fun s hs => hs
  | call c next ih =>
    obtain ⟨⟨hmay, hsame⟩, hnext⟩ := h
    refine triple_call hP (fun s _ => hmay s) fun s hs i s' r he => ih r (hnext r) s' ?_
    have hs' : s' = s := (congrArg Prod.fst he).symm.trans (hsame s i)
    rw [hs']
    exact hs

end Quiet

end NazoAuth.Lib.Prog
