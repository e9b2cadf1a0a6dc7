import NazoAuth.Lib.Threads

/-!
# Traces — what a thread has been answered

A recording keeps, beside the state, the commands of a thread with their replies, newest first.
-/

namespace NazoAuth.Lib.Prog

variable {κ : Type} {ρ : κ → Type} {ε ε' α β σ ι : Type}

/-! ## Results and traces -/

def Yields (R : Except ε α → List (Sigma ρ) → Prop) : Prog κ ρ ε α → List (Sigma ρ) → Prop
  | .pure a, t => R (.ok a) t
  | .throw e, t => R (.error e) t
  | .call c next, t => ∀ r, (next r).Yields R (⟨c, r⟩ :: t)

section Yields

variable {R R' : Except ε α → List (Sigma ρ) → Prop} {t : List (Sigma ρ)} {p : Prog κ ρ ε α}
  {S : Except ε β → List (Sigma ρ) → Prop} {f : α → Prog κ ρ ε β}

theorem yields_mono (hR : ∀ r t, R r t → R' r t) (h : p.Yields R t) : p.Yields R' t := by
  induction p generalizing t with
  | pure | throw => exact hR _ _ h
  | call c next ih => exact fun r => ih r (h r)

theorem yields_true (p : Prog κ ρ ε α) : p.Yields (fun _ _ => True) t := by
  induction p generalizing t with
  | pure | throw => trivial
  | call c next ih => exact fun r => ih r

theorem yields_bind (h : p.Yields (fun r t => match r with
      | .ok a => (f a).Yields S t
      | .error e => S (.error e) t) t) : (p >>= f).Yields S t := by
  induction p generalizing t with
  | pure | throw => exact h
  | call c next ih => exact fun r => ih r (h r)

end Yields

/-! ## Recordings -/

section Recording

variable (handle : σ → (c : κ) → ι → σ × Option (ρ c)) (rely : σ → σ → Prop) (may : κ → σ → Prop)

/-- A reply is recorded with its command; a pending command is not. -/
def recording (s : σ × List (Sigma ρ)) (c : κ) (i : ι) : (σ × List (Sigma ρ)) × Option (ρ c) :=
  match handle s.1 c i with
  | (s', none) => ((s', s.2), none)
  | (s', some r) => ((s', ⟨c, r⟩ :: s.2), some r)

/-- The others change the state and not the record. -/
def recordingRely (s s' : σ × List (Sigma ρ)) : Prop := rely s.1 s'.1 ∧ s'.2 = s.2

/-- From every state and record of the precondition the thread ensures the postcondition. -/
abbrev Recorded (P : σ × List (Sigma ρ) → Prop) (p : Prog κ ρ ε α)
    (Q : Except ε α → σ × List (Sigma ρ) → Prop) : Prop :=
  Triple (recording handle) (recordingRely rely) (fun c s => may c s.1) P p Q

/-- A property of records that a longer one keeps. -/
def Growing (F : List (Sigma ρ) → Prop) : Prop := ∀ e t, F t → F (e :: t)

variable {handle rely may} {F G : List (Sigma ρ) → Prop}

theorem growing_true : Growing (ρ := ρ) fun _ => True := fun _ _ _ => trivial

theorem Growing.and (hF : Growing F) (hG : Growing G) : Growing fun t => F t ∧ G t :=
  fun e t h => ⟨hF e t h.1, hG e t h.2⟩

theorem Growing.imp {p : Prop} (hF : Growing F) : Growing fun t => p → F t := fun e t h hp => hF e t (h hp)

theorem growing_mem (x : Sigma ρ) : Growing fun t => x ∈ t := fun e _ h => .tail e h

theorem recordingRely_refl (hrefl : ∀ s, rely s s) (s : σ × List (Sigma ρ)) : recordingRely rely s s :=
  ⟨hrefl s.1, rfl⟩

theorem recordingRely_trans (htrans : ∀ s₁ s₂ s₃, rely s₁ s₂ → rely s₂ s₃ → rely s₁ s₃)
    (s₁ s₂ s₃ : σ × List (Sigma ρ)) (h : recordingRely rely s₁ s₂) (h' : recordingRely rely s₂ s₃) :
    recordingRely rely s₁ s₃ :=
  ⟨htrans _ _ _ h.1 h'.1, h'.2.trans h.2⟩

variable {P : σ → Prop} {Q : Except ε α → σ → Prop} {R : Except ε α → List (Sigma ρ) → Prop}
  {p : Prog κ ρ ε α}

theorem stable_recording (hP : Stable rely P) (F : List (Sigma ρ) → Prop) :
    Stable (recordingRely rely) fun s => P s.1 ∧ F s.2 := by
  rintro s s' ⟨hrely, hsame⟩ ⟨hs, ht⟩
  exact ⟨hP s.1 s'.1 hrely hs, hsame ▸ ht⟩

theorem recording_eq {s s' : σ × List (Sigma ρ)} {c : κ} {i : ι} {r : ρ c}
    (h : recording handle s c i = (s', some r)) : handle s.1 c i = (s'.1, some r) ∧ s'.2 = ⟨c, r⟩ :: s.2 := by
  unfold recording at h
  split at h
  · cases h
  rename_i state reply hhandle
  obtain ⟨rfl, hreply⟩ := Prod.mk.inj h
  cases hreply
  exact ⟨hhandle, rfl⟩

theorem ensures_recording (hF : Growing F) {s : σ} {t : List (Sigma ρ)}
    (h : p.Ensures handle rely may Q s) (ht : F t) (hy : p.Yields R t) :
    p.Ensures (recording handle) (recordingRely rely) (fun c s => may c s.1) (fun r s => Q r s.1 ∧ F s.2 ∧ R r s.2)
    (s, t) := by
  induction p generalizing s t with
  | pure | throw =>
    rintro ⟨s', t'⟩ ⟨hrely, rfl⟩
    exact ⟨h s' hrely, ht, hy⟩
  | call c next ih =>
    rintro ⟨s', t'⟩ ⟨hrely, rfl⟩
    obtain ⟨hmay, hnext⟩ := h s' hrely
    refine ⟨hmay, fun i s'' r he => ?_⟩
    obtain ⟨s'', t''⟩ := s''
    obtain ⟨hhandle, htrace⟩ := recording_eq he
    obtain rfl : t'' = ⟨c, r⟩ :: t' := htrace
    exact ih r (hnext i s'' r hhandle) (hF _ _ ht) (hy r)

/-- A triple about the state, and what the replies say about the result. -/
theorem triple_recording (hF : Growing F) (h : Triple handle rely may P p Q) (hy : ∀ t, F t → p.Yields R t) :
    Recorded handle rely may (fun s => P s.1 ∧ F s.2) p fun r s => Q r s.1 ∧ F s.2 ∧ R r s.2 :=
  fun s hs => ensures_recording hF (h s.1 hs.1) hs.2 (hy s.2 hs.2)

end Recording

end NazoAuth.Lib.Prog
