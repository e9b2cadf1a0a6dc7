import NazoAuth.Operator.Journal

/-!
# Operator journal — what a restart finds

The files of an operation are its record and the temporary of a later one. The record that counts is
the one that a restart finds: a temporary that was written to its end, else the published record
(`Files.recorded?`). Between two commands the files keep an invariant (`FilesInv`): a temporary
continues the published record, and nothing continues a completed one. Each call that changes files
either leaves what a restart finds as it is (`Same`) or moves it on (`Later`).
-/

namespace NazoAuth.Operator

open Lib Prog
open Function (update)

variable {δ : Type}

/-! ## Files of an operation -/

structure Files (δ : Type) where
  record : Option (Content δ)
  temporary : Option (Content δ)
  deriving DecidableEq

def Directory.files (d : Directory δ) (id : String) : Files δ := ⟨d (.record id), d (.temporary id)⟩

def Files.published? (x : Files δ) : Option (OperationJournalRecord δ) :=
  match x.record with
  | some (.json r) => some r
  | _ => none

def Files.recorded? (x : Files δ) : Option (OperationJournalRecord δ) :=
  match x.temporary with
  | some (.json t) => some t
  | _ => x.published?

@[simp] theorem files_update_record (d : Directory δ) (id id' : String) (c : Option (Content δ)) :
    Directory.files (update d (.record id) c) id'
      = if id' = id then { d.files id' with record := c } else d.files id' := by
  by_cases h : id' = id <;> simp [Directory.files, h]

@[simp] theorem files_update_temporary (d : Directory δ) (id id' : String)
    (c : Option (Content δ)) : Directory.files (update d (.temporary id) c) id'
      = if id' = id then { d.files id' with temporary := c } else d.files id' := by
  by_cases h : id' = id <;> simp [Directory.files, h]

@[simp] theorem files_update_publish (d : Directory δ) (n : Nat) (id : String) (c : Option (Content δ)) :
    Directory.files (update d (.publish n) c) id = d.files id := by
  simp [Directory.files]

/-! ## Records that follow each other -/

def OperationJournalRecord.identity (r : OperationJournalRecord δ) : String × String × String × String × Int :=
  (r.operationId, r.requestHash, r.controllerId, r.kid, r.acceptedAt)

/-- The record `r'` is `r`, or a later phase of it. -/
structure OperationJournalRecord.Le (r r' : OperationJournalRecord δ) : Prop where
  identity : r'.identity = r.identity
  phase : phaseRank r.phase ≤ phaseRank r'.phase
  completed : r.phase = .completed → r' = r

theorem OperationJournalRecord.Le.refl (r : OperationJournalRecord δ) : r.Le r := ⟨rfl, le_refl _, fun _ => rfl⟩

theorem OperationJournalRecord.Le.trans {r₁ r₂ r₃ : OperationJournalRecord δ} (h : r₁.Le r₂)
    (h' : r₂.Le r₃) : r₁.Le r₃ where
  identity := h'.identity.trans h.identity
  phase := h.phase.trans h'.phase
  completed := by
    intro hc
    obtain rfl := h.completed hc
    exact h'.completed hc

def Moved (x x' : Option (OperationJournalRecord δ)) : Prop := ∀ r, x = some r → ∃ r', x' = some r' ∧ r.Le r'

theorem Moved.refl (x : Option (OperationJournalRecord δ)) : Moved x x := fun r hr => ⟨r, hr, .refl r⟩

theorem Moved.trans {x₁ x₂ x₃ : Option (OperationJournalRecord δ)} (h : Moved x₁ x₂)
    (h' : Moved x₂ x₃) : Moved x₁ x₃ := by
  intro r hr
  obtain ⟨r', hr', hle⟩ := h r hr
  obtain ⟨r'', hr'', hle'⟩ := h' r' hr'
  exact ⟨r'', hr'', hle.trans hle'⟩

variable {f : DataFormat δ} {clean calm : Prop}

/-- The record can be read, and its result printed. -/
structure Sound (f : DataFormat δ) (r : OperationJournalRecord δ) : Prop where
  valid : validateRecord f r = .ok ()
  encoded : ∀ result, r.result = some result → encodeControlResult f result = .ok ()

/-- The record `t` continues `r`. -/
structure Continues (r t : OperationJournalRecord δ) : Prop where
  identity : t.identity = r.identity
  phase : phaseRank r.phase < phaseRank t.phase

variable {r t : OperationJournalRecord δ}

theorem Continues.open_ (h : Continues r t) : r.phase ≠ .completed := by
  intro hc
  have hlt := h.phase
  rw [hc] at hlt
  cases ht : t.phase <;> simp [ht, phaseRank] at hlt

theorem Continues.le (h : Continues r t) : r.Le t :=
  ⟨h.identity, h.phase.le, fun hc => absurd hc h.open_⟩

/-- The files of an operation between two commands. In a clean history no write has stopped in the
middle. -/
structure FilesInv (f : DataFormat δ) (clean : Prop) (id : String) (x : Files δ) : Prop where
  record : ∀ c, x.record = some c → ∃ r, c = .json r ∧ Sound f r ∧ r.operationId = id
  temporary : ∀ t, x.temporary = some (.json t) → ∃ r, x.record = some (.json r) ∧ Sound f t ∧ Continues r t
  torn : x.temporary = some .torn → ¬ clean ∧ ∃ r, x.record = some (.json r) ∧ r.phase ≠ .completed

/-- All files are as they may be, and a restart finds what it would have found before. The files
themselves are the same, but for a temporary that has taken the place of its record. -/
structure SameFiles (f : DataFormat δ) (clean : Prop) (id : String) (x x' : Files δ) : Prop where
  inv : FilesInv f clean id x'
  files : x' = x ∨ ∃ t, x.temporary = some (.json t) ∧ x' = ⟨some (.json t), none⟩
  recorded : x'.recorded? = x.recorded?
  published : Moved x.published? x'.published?

structure LaterFiles (f : DataFormat δ) (clean : Prop) (id : String) (x x' : Files δ) : Prop where
  inv : FilesInv f clean id x'
  recorded : Moved x.recorded? x'.recorded?
  published : Moved x.published? x'.published?

def Inv (f : DataFormat δ) (clean : Prop) (d : Directory δ) : Prop := ∀ id, FilesInv f clean id (d.files id)

def Same (f : DataFormat δ) (clean : Prop) (d d' : Directory δ) : Prop :=
  ∀ id, SameFiles f clean id (d.files id) (d'.files id)

def Later (f : DataFormat δ) (clean : Prop) (d d' : Directory δ) : Prop :=
  ∀ id, LaterFiles f clean id (d.files id) (d'.files id)

section Relations

variable {id : String} {x x' x'' : Files δ} {d d' d'' : Directory δ}

theorem SameFiles.refl (h : FilesInv f clean id x) : SameFiles f clean id x x := ⟨h, .inl rfl, rfl, .refl _⟩

theorem SameFiles.later (h : SameFiles f clean id x x') : LaterFiles f clean id x x' :=
  ⟨h.inv, h.recorded ▸ .refl _, h.published⟩

theorem Same.refl (h : Inv f clean d) : Same f clean d d := fun id => .refl (h id)

theorem Same.trans (d d' d'' : Directory δ) (h : Same f clean d d') (h' : Same f clean d' d'') :
    Same f clean d d'' := by
  intro id
  refine ⟨(h' id).inv, ?_, (h' id).recorded.trans (h id).recorded, (h id).published.trans (h' id).published⟩
  rcases (h' id).files with hsame | ⟨t, ht, hadopted⟩
  · rw [hsame]
    exact (h id).files
  · rcases (h id).files with hsame | ⟨t', -, hfirst⟩
    · exact .inr ⟨t, hsame ▸ ht, hadopted⟩
    · rw [hfirst] at ht
      cases ht

theorem Same.later (h : Same f clean d d') : Later f clean d d' := fun id => (h id).later

theorem Same.inv (h : Same f clean d d') : Inv f clean d' := fun id => (h id).inv

theorem Later.refl (h : Inv f clean d) : Later f clean d d := (Same.refl h).later

theorem Later.trans (d d' d'' : Directory δ) (h : Later f clean d d') (h' : Later f clean d' d'') :
    Later f clean d d'' :=
  fun id => ⟨(h' id).inv, (h id).recorded.trans (h' id).recorded, (h id).published.trans (h' id).published⟩

theorem Later.inv (h : Later f clean d d') : Inv f clean d' := fun id => (h id).inv

theorem same_of_files (id : String) (hi : Inv f clean d) (hother : ∀ id', id' ≠ id → d'.files id' = d.files id')
    (h : SameFiles f clean id (d.files id) (d'.files id)) : Same f clean d d' := by
  intro id'
  by_cases hid : id' = id
  · exact hid ▸ h
  · rw [hother id' hid]
    exact .refl (hi id')

theorem later_of_files (id : String) (hi : Inv f clean d) (hother : ∀ id', id' ≠ id → d'.files id' = d.files id')
    (h : LaterFiles f clean id (d.files id) (d'.files id)) : Later f clean d d' := by
  intro id'
  by_cases hid : id' = id
  · exact hid ▸ h
  · rw [hother id' hid]
    exact (SameFiles.refl (hi id')).later

/-! ## Changes of files -/

variable {r t : OperationJournalRecord δ}

theorem later_written (h : FilesInv f clean id ⟨some (.json r), none⟩) (ht : Sound f t) (hc : Continues r t) :
    LaterFiles f clean id ⟨some (.json r), none⟩ ⟨some (.json r), some (.json t)⟩ where
  inv := ⟨h.record, fun t' ht' => ⟨r, rfl, by cases ht'; exact ht, by cases ht'; exact hc⟩,
    fun htorn => (nomatch htorn)⟩
  recorded := by
    intro r' hr'
    obtain rfl : r = r' := Option.some.inj hr'
    exact ⟨t, rfl, hc.le⟩
  published := .refl _

theorem later_torn (h : FilesInv f clean id ⟨some (.json r), none⟩) (hclean : ¬ clean)
    (hopen : r.phase ≠ .completed) :
    LaterFiles f clean id ⟨some (.json r), none⟩ ⟨some (.json r), some .torn⟩ where
  inv := ⟨h.record, fun _ ht' => (nomatch ht'), fun _ => ⟨hclean, r, rfl, hopen⟩⟩
  recorded := .refl _
  published := .refl _

theorem same_adopted (h : FilesInv f clean id ⟨some (.json r), some (.json t)⟩) :
    SameFiles f clean id ⟨some (.json r), some (.json t)⟩ ⟨some (.json t), none⟩ := by
  obtain ⟨r', hr', ht, hc⟩ := h.temporary t rfl
  obtain rfl : r = r' := by simpa using hr'
  refine ⟨⟨fun c hcontent => ?_, fun _ ht' => (nomatch ht'), fun htorn => (nomatch htorn)⟩,
    .inr ⟨t, rfl, rfl⟩, rfl, fun r' hr' => ?_⟩
  · obtain ⟨r', hr', -, hid⟩ := h.record _ rfl
    obtain rfl : r = r' := by simpa using hr'
    obtain rfl : .json t = c := Option.some.inj hcontent
    exact ⟨t, rfl, ht, (congrArg Prod.fst hc.identity).trans hid⟩
  · obtain rfl : r = r' := Option.some.inj hr'
    exact ⟨t, rfl, hc.le⟩

theorem later_published (ht : Sound f t) (hid : t.operationId = id) :
    LaterFiles f clean id ⟨none, none⟩ ⟨some (.json t), none⟩ where
  inv := by
    refine ⟨fun c hcontent => ?_, fun _ ht' => (nomatch ht'), fun htorn => (nomatch htorn)⟩
    obtain rfl : .json t = c := Option.some.inj hcontent
    exact ⟨t, rfl, ht, hid⟩
  recorded := fun r' hr' => nomatch hr'
  published := fun r' hr' => nomatch hr'

end Relations

/-! ## Specifications of the calls -/

/-- What the environment does: where it is calm every call succeeds, and in a clean history no write
is torn. -/
def allowed (calm clean : Prop) (i : Input δ) : Prop := (calm → i.io = .done) ∧ (clean → i.io ≠ .torn)

/-- A side effect is started where `P` holds; all other commands are free. -/
def may {σ : Type} (P : OperationJournalRecord δ → σ → Prop) : Command δ → σ → Prop
  | .sideEffect r, d => P r d
  | _, _ => True

section Calls

variable {P : OperationJournalRecord δ → Directory δ → Prop} {R : Directory δ → Directory δ → Prop}
  {d : Directory δ} {file source target : FileName}

section

variable (htrans : ∀ d₁ d₂ d₃, R d₁ d₂ → R d₂ d₃ → R d₁ d₃)

include htrans

theorem spec_present {Q : Except JournalFlowError Bool → Directory δ → Prop}
    (hR : R d d) (hok : Q (.ok (d file).isSome) d) (herr : ¬ calm → ∀ m, Q (.error (.transport m)) d) :
    Spec handle (allowed calm clean) (may P) R (regularStateFilePresent file) d Q := by
  refine spec_call htrans hR trivial fun i hi => ?_
  by_cases hio : i.io = .done
  · simp only [handle, if_pos hio]
    exact ⟨hR, spec_pure hR hok⟩
  · simp only [handle, if_neg hio]
    exact ⟨hR, spec_throw hR (herr (fun hcalm => hio (hi.1 hcalm)) _)⟩

variable {Q : Except JournalFlowError (OperationJournalRecord δ) → Directory δ → Prop}
  {r : OperationJournalRecord δ}

theorem spec_readRecord (hfile : d file = some (.json r)) (hr : Sound f r) (hR : R d d)
    (hok : Q (.ok r) d) (herr : ¬ calm → ∀ m, Q (.error (.transport m)) d) :
    Spec handle (allowed calm clean) (may P) R (readRecord f file) d Q := by
  refine spec_call htrans hR trivial fun i hi => ?_
  by_cases hio : i.io = .done
  · have hdecode : decodeRecord f (.json r) = .ok r := by
      simp only [decodeRecord, hr.valid]
      rfl
    simp only [handle, if_pos hio, hfile]
    refine ⟨hR, spec_ofExcept hR ?_⟩
    rw [show (Except.ok (Content.json r)) >>= decodeRecord f = decodeRecord f (.json r) from rfl, hdecode]
    exact hok
  · simp only [handle, if_neg hio]
    exact ⟨hR, spec_throw hR (herr (fun hcalm => hio (hi.1 hcalm)) _)⟩

theorem spec_readRecord_torn (hfile : d file = some .torn) (hR : R d d) (herr : ∀ m, Q (.error (.transport m)) d) :
    Spec handle (allowed calm clean) (may P) R (readRecord f file) d Q := by
  refine spec_call htrans hR trivial fun i hi => ?_
  by_cases hio : i.io = .done
  · simp only [handle, if_pos hio, hfile]
    exact ⟨hR, spec_throw hR (herr _)⟩
  · simp only [handle, if_neg hio]
    exact ⟨hR, spec_throw hR (herr _)⟩

theorem spec_rename {Q : Except JournalFlowError Unit → Directory δ → Prop}
    {c : Content δ} (hsource : d source = some c) (hR : R d d)
    (hok : R d (update (update d target (some c)) source none)
      ∧ R (update (update d target (some c)) source none)
          (update (update d target (some c)) source none)
      ∧ Q (.ok ()) (update (update d target (some c)) source none))
    (herr : ¬ calm → ∀ m, Q (.error (.transport m)) d) :
    Spec handle (allowed calm clean) (may P) R (rename source target) d Q := by
  refine spec_call htrans hR trivial fun i hi => ?_
  by_cases hio : i.io = .done
  · simp only [handle, hio, hsource]
    exact ⟨hok.1, spec_pure hok.2.1 hok.2.2⟩
  · simp only [handle, hio]
    exact ⟨hR, spec_throw hR (herr (fun hcalm => hio (hi.1 hcalm)) _)⟩

theorem spec_syncDirectory {Q : Except JournalFlowError Unit → Directory δ → Prop} (hR : R d d)
    (hok : Q (.ok ()) d) (herr : ¬ calm → ∀ m, Q (.error (.transport m)) d) :
    Spec handle (allowed calm clean) (may P) R syncDirectory d Q := by
  refine spec_call htrans hR trivial fun i hi => ?_
  by_cases hio : i.io = .done
  · simp only [handle, hio]
    exact ⟨hR, spec_pure hR hok⟩
  · simp only [handle, hio]
    exact ⟨hR, spec_throw hR (herr (fun hcalm => hio (hi.1 hcalm)) _)⟩

end

/-! ## Recovery -/

theorem spec_adopt {id : String} {t : OperationJournalRecord δ} (hi : Inv f clean d)
    (hfiles : d.files id = ⟨some (.json r), some (.json t)⟩) :
    Spec handle (allowed calm clean) (may P) (Same f clean) (adopt id) d fun res d' => match res with
      | .ok () => d'.files id = ⟨some (.json t), none⟩
      | .error e => (∃ m, e = .transport m) ∧ ¬ calm := by
  have hsource : d (.temporary id) = some (.json t) := congrArg Files.temporary hfiles
  have hnew : Directory.files (update (update d (.record id) (some (.json t))) (.temporary id)
      none) id = ⟨some (.json t), none⟩ := by
    simp [Directory.files]
  have hsame : Same f clean d (update (update d (.record id) (some (.json t)))
      (.temporary id) none) := by
    refine same_of_files id hi (fun id' hid => by simp [hid]) ?_
    rw [hnew, hfiles]
    exact same_adopted (hfiles ▸ hi id)
  refine spec_bind Same.trans (spec_rename Same.trans hsource (.refl hi) ⟨hsame, .refl hsame.inv, ?_⟩ ?_)
  · refine spec_syncDirectory Same.trans (.refl hsame.inv) hnew fun hcalm m => ⟨⟨m, rfl⟩, hcalm⟩
  · exact fun hcalm m => ⟨⟨m, rfl⟩, hcalm⟩

/-- **Recovery publishes what a restart finds.** It fails only when a call fails, or at a torn
temporary. -/
theorem spec_recoverTemporary [DecidableEq δ] (hi : Inv f clean d) (id : String) :
    Spec handle (allowed calm clean) (may P) (Same f clean) (recoverTemporary f id) d fun res d' => match res with
      | .ok () => d'.files id = ⟨(d.files id).recorded?.map .json, none⟩
      | .error e => (∃ m, e = .transport m) ∧ (¬ calm ∨ (d.files id).temporary = some .torn) := by
  have hfail : ¬ calm → ∀ m, (∃ m', JournalFlowError.transport m = .transport m')
      ∧ (¬ calm ∨ (d.files id).temporary = some .torn) := fun hcalm m => ⟨⟨m, rfl⟩, .inl hcalm⟩
  refine spec_bind Same.trans (spec_present Same.trans (.refl hi) ?_ hfail)
  rcases Option.eq_none_or_eq_some (d.files id).temporary with htmp | ⟨c, htmp⟩
  · -- There is nothing to recover: the record, if any, is what a restart finds.
    have hfile : d (.temporary id) = none := htmp
    simp only [hfile]
    refine spec_pure (.refl hi) ?_
    cases hrec : (d.files id).record with
    | none => simp only [Files.recorded?, Files.published?, htmp, hrec]; exact congrArg₂ Files.mk hrec htmp
    | some c =>
      obtain ⟨r, rfl, -⟩ := (hi id).record c hrec
      simp only [Files.recorded?, Files.published?, htmp, hrec]
      exact congrArg₂ Files.mk hrec htmp
  · have hfile : d (.temporary id) = some c := htmp
    simp only [hfile]
    cases c with
    | torn =>
      exact spec_bind Same.trans (spec_readRecord_torn Same.trans hfile (.refl hi) fun m => ⟨⟨m, rfl⟩, .inr htmp⟩)
    | json t =>
      obtain ⟨r, hrec, ht, hc⟩ := (hi id).temporary t htmp
      obtain ⟨r', hr', hr, hid⟩ := (hi id).record _ hrec
      obtain rfl : r = r' := by simpa using hr'
      have hrecfile : d (.record id) = some (.json r) := hrec
      have hids : t.operationId = r.operationId ∧ t.requestHash = r.requestHash :=
        ⟨congrArg Prod.fst hc.identity, congrArg (fun x => x.2.1) hc.identity⟩
      refine spec_bind Same.trans (spec_readRecord Same.trans hfile ht (.refl hi) ?_ hfail)
      refine spec_bind Same.trans (spec_present Same.trans (.refl hi) ?_ hfail)
      simp only [hrecfile]
      refine spec_bind Same.trans (spec_readRecord Same.trans hrecfile hr (.refl hi) ?_ hfail)
      simp only [hids.1, hids.2, ne_eq, not_true_eq_false, decide_false, Bool.or_self, Bool.false_eq_true,
        if_false, hc.phase, decide_true, Bool.true_or, if_true]
      have hx : d.files id = ⟨some (.json r), some (.json t)⟩ := by rw [Directory.files, hrecfile, hfile]
      refine spec_mono (spec_adopt hi hx) (fun _ _ h => h) fun res d' _ hres => ?_
      cases res with
      | ok => rw [hx]; exact hres
      | error => exact ⟨hres.1, .inl hres.2⟩

end Calls

end NazoAuth.Operator
