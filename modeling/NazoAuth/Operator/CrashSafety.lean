import NazoAuth.Lib.Except
import NazoAuth.Operator.Recovery

/-!
# Operator journal — safe under crashes

An attempt first recovers and loads the record (`spec_loadAccepted`), so what it goes on with is
what a restart finds. Another request stops there. A completed record is answered with its result.
In all other cases the record is moved on by whole steps, and the side effect stands behind the
executing record.
-/

namespace NazoAuth.Operator

open Lib
open Prog hiding pure
open Function (update)

variable {δ : Type} {f : DataFormat δ} {clean calm : Prop} {d : Directory δ}

/-! ## Records that can be read -/

theorem isAlphanum_of_isLowerHex {c : Char} (h : isLowerHex c = true) : c.isAlphanum = true := by
  simp only [isLowerHex, Bool.or_eq_true, Bool.and_eq_true, decide_eq_true_eq] at h
  rcases h with hdigit | ⟨hge, hle⟩
  · show (c.isAlpha || c.isDigit) = true
    rw [hdigit, Bool.or_true]
  have hlower : c.isLower = true := by
    refine Bool.and_eq_true_iff.mpr ⟨decide_eq_true hge, decide_eq_true ?_⟩
    exact UInt32.le_trans hle (show 'f'.val ≤ 'z'.val by decide)
  show ((c.isUpper || c.isLower) || c.isDigit) = true
  rw [hlower, Bool.or_true, Bool.true_or]

theorem fileSafe_of_uuidv7 {id : String} (h : validateUuidv7 id = .ok ()) :
    ensureFileSafeIdentifier id = .ok () := by
  obtain ⟨_, huuid, -⟩ := of_bind h
  unfold validateUuid at huuid
  split_ifs at huuid with hshape
  simp only [Bool.and_eq_true, decide_eq_true_eq, List.all_eq_true] at hshape
  obtain ⟨hlen, hall⟩ := hshape
  have hchars : id.toList.all (fun c => c.isAlphanum || c = '-') = true := by
    refine List.all_eq_true.mpr fun c hc => ?_
    obtain ⟨i, hi⟩ := List.mem_iff_getElem?.mp hc
    have hp := hall (c, i) (List.mem_zipIdx_iff_getElem?.mpr hi)
    split_ifs at hp with hsep
    · exact Bool.or_eq_true_iff.mpr (.inr hp)
    · exact Bool.or_eq_true_iff.mpr (.inl (isAlphanum_of_isLowerHex hp))
  have hempty : id.isEmpty = false := by
    rw [Bool.eq_false_iff]
    intro he
    rw [String.isEmpty_iff.mp he] at hlen
    cases hlen
  unfold ensureFileSafeIdentifier
  rw [hempty, hlen, hchars]
  rfl

theorem hashShape_of_lowerHex {hash : String} (h : validateLowerHex hash 64 = .ok ()) :
    ensureRequestHashShape hash = .ok () := by
  unfold validateLowerHex at h
  split_ifs at h with hshape
  simp only [Bool.and_eq_true, decide_eq_true_eq] at hshape
  unfold ensureRequestHashShape
  rw [hshape.1, hshape.2]
  rfl

variable {r : OperationJournalRecord δ}

theorem validateRecord_eq_ok : validateRecord f r = .ok () ↔ validateHeader r = .ok () ∧ validatePhase f r = .ok ()
      ∧ r.recoveryCoverageVersion = if r.result.any (coveredRecovery f) then some 1 else none := by
  unfold validateRecord
  constructor
  · intro h
    obtain ⟨_, hheader, h⟩ := of_bind h
    obtain ⟨_, hphase, h⟩ := of_bind h
    refine ⟨hheader, hphase, ?_⟩
    by_contra hne
    rw [if_pos hne] at h
    cases h
  · rintro ⟨hheader, hphase, hcover⟩
    rw [hheader, hphase, hcover]
    simp [bind, Except.bind, pure, Except.pure]

theorem result_of_open (h : Sound f r) (hopen : r.phase ≠ .completed) : r.result = none := by
  have hphase := (validateRecord_eq_ok.mp h.valid).2.1
  unfold validatePhase at hphase
  cases hres : r.result with
  | none => rfl
  | some =>
    rw [hres] at hphase
    cases hp : r.phase with
    | completed => exact absurd hp hopen
    | accepted | executing => rw [hp] at hphase; cases hphase

theorem result_of_completed (h : Sound f r) (hphase : r.phase = .completed) :
    ∃ result, r.result = some result := by
  have hp := (validateRecord_eq_ok.mp h.valid).2.1
  unfold validatePhase at hp
  cases hres : r.result with
  | none => rw [hphase, hres] at hp; cases hp
  | some result => exact ⟨result, rfl⟩

theorem sound_executing (h : Sound f r) (hacc : r.phase = .accepted) (baseline : Option String) :
    Sound f { r with phase := .executing, migrationBaseline := baseline } := by
  have hres : r.result = none := result_of_open h (by rw [hacc]; exact fun hc => nomatch hc)
  obtain ⟨hheader, -, hcover⟩ := validateRecord_eq_ok.mp h.valid
  refine ⟨validateRecord_eq_ok.mpr ⟨hheader, ?_, hcover⟩, h.encoded⟩
  simp only [hres]
  rfl

theorem continues_executing (hacc : r.phase = .accepted) (baseline : Option String) :
    Continues r { r with phase := .executing, migrationBaseline := baseline } :=
  ⟨rfl, by rw [hacc]; exact Nat.zero_lt_one⟩

theorem sound_complete (h : Sound f r) {outcome : ControlOutcome} {error : Option ControlErrorCode}
    {data : Option δ} {completedAt : Int}
    (henc : encodeControlResult f (controlResult r outcome error data completedAt) = .ok ()) :
    Sound f (r.complete f (controlResult r outcome error data completedAt)) := by
  obtain ⟨hheader, -, -⟩ := validateRecord_eq_ok.mp h.valid
  obtain ⟨_, hvalid, -⟩ := of_bind henc
  refine ⟨validateRecord_eq_ok.mpr ⟨hheader, ?_, ?_⟩, fun result hres => ?_⟩
  · simp only [validatePhase, OperationJournalRecord.complete, hvalid]
    simp [controlResult, bind, Except.bind, mapError_ok, pure, Except.pure]
  · rfl
  · cases hres
    exact henc

theorem continues_complete (hexec : r.phase = .executing) (result : ControlResult δ) :
    Continues r (r.complete f result) :=
  ⟨rfl, by rw [hexec]; exact Nat.one_lt_two⟩

theorem Inv.published {id : String} {temporary : Option (Content δ)} (hi : Inv f clean d)
    (hfiles : d.files id = ⟨some (.json r), temporary⟩) : Sound f r ∧ r.operationId = id := by
  obtain ⟨r', hr', hsound, hid⟩ := (hi id).record (.json r) (by rw [hfiles])
  cases hr'
  exact ⟨hsound, hid⟩

/-! ## Programs that move the journal on -/

section Specs

variable {P : OperationJournalRecord δ → Directory δ → Prop} {id : String} {r t : OperationJournalRecord δ}

/-- Wherever the program is stopped, it has moved the journal on. When it ends with a value, `Q`
holds. -/
def Moves (f : DataFormat δ) (calm clean : Prop) (P : OperationJournalRecord δ → Directory δ → Prop) {ε α : Type}
    (p : Prog (Command δ) (Reply δ) ε α) (d : Directory δ) (Q : α → Directory δ → Prop) : Prop :=
  Spec handle (allowed calm clean) (may P) (Later f clean) p d fun res d' => ∀ a, res = .ok a → Q a d'

section Moves

variable {ε ε' α β : Type} {p : Prog (Command δ) (Reply δ) ε α} {Q : α → Directory δ → Prop} (hi : Inv f clean d)

include hi

theorem moves_pure {a : α} (h : Q a d) : Moves f calm clean P (.pure a : Prog (Command δ) (Reply δ) ε α) d Q :=
  spec_pure (.refl hi) fun _ ha => Except.ok.inj ha ▸ h

theorem moves_throw {e : ε} : Moves f calm clean P (.throw e : Prog (Command δ) (Reply δ) ε α) d Q :=
  spec_throw (.refl hi) nofun

/-- A check between two programs. -/
theorem moves_ofExcept {x : Except ε β} {g : β → Prog (Command δ) (Reply δ) ε α}
    (h : ∀ a, x = .ok a → Moves f calm clean P (g a) d Q) :
    Moves f calm clean P ((Prog.ofExcept x : Prog (Command δ) (Reply δ) ε β) >>= g) d Q := by
  cases x with
  | error => exact moves_throw hi
  | ok a => exact h a rfl

theorem moves_transport {x : Except String β} {g : β → Journal δ α}
    (h : ∀ a, x = .ok a → Moves f calm clean P (g a) d Q) : Moves f calm clean P (transport x >>= g) d Q :=
  moves_ofExcept hi fun a ha => h a (mapError_eq_ok.mp ha)

/-- A command that changes no file. -/
theorem moves_ask {c : Command δ} {next : Reply δ c → Prog (Command δ) (Reply δ) ε α} (hmay : may P c d)
    (hstill : ∀ i, (handle d c i).1 = d) (h : ∀ i, Moves f calm clean P (next (handle d c i).2) d Q) :
    Moves f calm clean P (.call c next) d Q := by
  refine spec_call Later.trans (.refl hi) hmay fun i _ => ?_
  rw [hstill i]
  exact ⟨.refl hi, h i⟩

omit hi

theorem moves_bind {Q' : β → Directory δ → Prop} {g : α → Prog (Command δ) (Reply δ) ε β}
    (h : Moves f calm clean P p d Q)
    (hnext : ∀ a d', Inv f clean d' → Q a d' → Moves f calm clean P (g a) d' Q') :
    Moves f calm clean P (p >>= g) d Q' := by
  refine spec_bind Later.trans (spec_mono h (fun _ _ h => h) fun res d' hlater hres => ?_)
  cases res with
  | error => exact nofun
  | ok a => exact hnext a d' hlater.inv (hres a rfl)

theorem moves_mapError {g : ε → ε'} (h : Moves f calm clean P p d Q) : Moves f calm clean P (p.mapError g) d Q :=
  spec_mapError (spec_mono h (fun _ _ h => h) fun _ _ _ hres a ha => hres a (mapError_eq_ok.mp ha))

end Moves

/-! ## Replacing a record -/

theorem moves_createTemporary (hi : Inv f clean d) (hfiles : d.files id = ⟨some (.json r), none⟩)
    (ht : Sound f t) (hc : Continues r t) :
    Moves f calm clean P (createNew (.temporary id) t) d fun _ d' =>
    d'.files id = ⟨some (.json r), some (.json t)⟩ := by
  have hfree : d (.temporary id) = none := congrArg Files.temporary hfiles
  have hrec : d (.record id) = some (.json r) := congrArg Files.record hfiles
  have hlater : ∀ content, LaterFiles f clean id ⟨some (.json r), none⟩ ⟨some (.json r), some content⟩ →
      Later f clean d (update d (.temporary id) (some content)) := by
    intro content hlater
    refine later_of_files id hi (fun id' hid => by simp [hid]) ?_
    simpa [hfiles] using hlater
  refine spec_call Later.trans (.refl hi) trivial fun i hin => ?_
  cases hio : i.io with
  | done =>
    have hwritten := hlater _ (later_written (hfiles ▸ hi id) ht hc)
    simp only [handle, hfree, hio]
    exact ⟨hwritten, moves_pure hwritten.inv (by simp [Directory.files, hrec])⟩
  | torn =>
    have htorn := hlater _ (later_torn (hfiles ▸ hi id) (fun hclean => hin.2 hclean hio) hc.open_)
    simp only [handle, hfree, hio]
    exact ⟨htorn, moves_throw htorn.inv⟩
  | failed =>
    simp only [handle, hfree, hio]
    exact ⟨.refl hi, moves_throw hi⟩

theorem moves_replaceRecord (hi : Inv f clean d) (hfiles : d.files id = ⟨some (.json r), none⟩)
    (ht : Sound f t) (hc : Continues r t) :
    Moves f calm clean P (replaceRecord id t) d fun _ d' => d'.files id = ⟨some (.json t), none⟩ := by
  refine moves_bind (moves_createTemporary hi hfiles ht hc) fun _ d' hi' hboth => ?_
  refine spec_mono (spec_adopt hi' hboth) (fun _ _ h => h.later) fun res _ _ hres a ha => ?_
  cases ha
  exact hres

/-! ## Loading and accepting -/

/-- **What a process loads is what a restart finds.** Another request is a conflict, and nothing is
changed. -/
theorem spec_loadAccepted [DecidableEq δ] (hi : Inv f clean d) (operation : ControlOperation) :
    Spec handle (allowed calm clean) (may P) (Same f clean) (loadAccepted f operation) d fun res d' =>
    match res with
      | .ok none => (d.files operation.operationId).recorded? = none
        ∧ d'.files operation.operationId = ⟨none, none⟩
      | .ok (some r) => (d.files operation.operationId).recorded? = some r
          ∧ d'.files operation.operationId = ⟨some (.json r), none⟩ ∧ r.requestHash = operation.requestHash
      | .error e => (e = .operationIdConflict
            ∧ ∃ r, (d.files operation.operationId).recorded? = some r ∧ r.requestHash ≠ operation.requestHash)
          ∨ ((∃ m, e = .transport m) ∧ (¬ calm ∨ (d.files operation.operationId).temporary = some .torn)) := by
  unfold loadAccepted
  rw [fileSafe_of_uuidv7 operation.id_valid, hashShape_of_lowerHex operation.hash_valid]
  refine spec_bind Same.trans (spec_pure (.refl hi) ?_)
  refine spec_bind Same.trans (spec_pure (.refl hi) ?_)
  refine spec_bind Same.trans (spec_mono (spec_recoverTemporary hi operation.operationId) (fun _ _ h => h)
    fun res d' hsame hres => ?_)
  cases res with
  | error => exact .inr hres
  | ok =>
    have hrefl : Same f clean d' d' := .refl hsame.inv
    have hrec : d' (.record operation.operationId) = (d.files operation.operationId).recorded?.map .json :=
      congrArg Files.record hres
    refine spec_bind Same.trans (spec_present Same.trans hrefl ?_ fun hcalm m => .inr ⟨⟨m, rfl⟩, .inl hcalm⟩)
    rcases Option.eq_none_or_eq_some (d.files operation.operationId).recorded? with hnone | ⟨r, hsome⟩
    · rw [hnone] at hrec hres
      simp only [hrec, Option.map_none, Option.isSome_none, Bool.not_false, if_true]
      exact spec_pure hrefl ⟨hnone, hres⟩
    · rw [hsome] at hrec hres
      simp only [hrec, Option.map_some, Option.isSome_some, Bool.not_true, Bool.false_eq_true, if_false]
      obtain ⟨hsound, hid⟩ := hsame.inv.published hres
      refine spec_bind Same.trans (spec_readRecord Same.trans hrec hsound hrefl ?_
        fun hcalm m => .inr ⟨⟨m, rfl⟩, .inl hcalm⟩)
      by_cases hhash : r.requestHash = operation.requestHash
      · simp only [hid, hhash, ne_eq, not_true_eq_false, decide_false, Bool.or_self, Bool.false_eq_true, if_false]
        exact spec_pure hrefl ⟨hsome, hres, hhash⟩
      · simp only [hid, hhash, ne_eq, not_true_eq_false, decide_false, not_false_eq_true, decide_true,
          Bool.false_or, if_true]
        exact spec_throw hrefl (.inl ⟨rfl, r, hsome, hhash⟩)

theorem same_publish (hi : Inv f clean d) (n : Nat) (c : Option (Content δ)) :
    Same f clean d (update d (.publish n) c) := by
  intro id
  exact .refl (hi id)

theorem moves_syncDirectory {Q : Unit → Directory δ → Prop} (hi : Inv f clean d) (h : Q () d) :
    Moves f calm clean P syncDirectory d Q :=
  spec_syncDirectory Later.trans (.refl hi) (fun _ _ => h) fun _ _ => nofun

theorem moves_published (hi : Inv f clean d) (n : Nat) {published : Except String Unit}
    (hfiles : published = .ok () → d.files id = ⟨some (.json r), none⟩) :
    Moves f calm clean P (.call (.removeFile (.publish n)) fun cleanup => do
        transport cleanup
        transport published
        syncDirectory : Journal δ Unit) d fun _ d' => d'.files id = ⟨some (.json r), none⟩ := by
  have hend : ∀ d₁ : Directory δ, Inv f clean d₁ → d₁.files id = d.files id →
      ∀ cleanup : Except String Unit, Moves f calm clean P (do
        transport cleanup
        transport published
        syncDirectory) d₁ fun _ d' => d'.files id = ⟨some (.json r), none⟩ := by
    intro d₁ hi₁ hsame cleanup
    refine moves_transport hi₁ fun _ _ => ?_
    refine moves_transport hi₁ fun _ hok => ?_
    exact moves_syncDirectory hi₁ (hsame.trans (hfiles hok))
  refine spec_call Later.trans (.refl hi) trivial fun i _ => ?_
  simp only [handle]
  split_ifs with hdone
  · have hsame := same_publish hi n none
    exact ⟨hsame.later, hend _ hsame.inv (files_update_publish ..) _⟩
  · exact ⟨.refl hi, hend d hi rfl _⟩

theorem moves_publishAccepted (hi : Inv f clean d) (hfiles : d.files r.operationId = ⟨none, none⟩)
    (hr : Sound f r) :
    Moves f calm clean P (publishAccepted r) d fun _ d' => d'.files r.operationId = ⟨some (.json r), none⟩ := by
  unfold publishAccepted
  refine moves_ask hi trivial (fun _ => rfl) fun i => ?_
  simp only [handle]
  generalize i.random = n
  have hwritten := fun content => same_publish hi n (some content)
  have hcreated : Moves f calm clean P (createNew (.publish n) r) d fun _ d' =>
      d' = update d (.publish n) (some (.json r)) := by
    refine spec_call Later.trans (.refl hi) trivial fun i _ => ?_
    rcases Option.eq_none_or_eq_some (d (.publish n)) with hfree | ⟨c, hused⟩
    · cases hio : i.io <;> simp only [handle, hfree, hio]
      · exact ⟨(hwritten _).later, moves_pure (hwritten _).inv rfl⟩
      · exact ⟨.refl hi, moves_throw hi⟩
      · exact ⟨(hwritten _).later, moves_throw (hwritten _).inv⟩
    · simp only [handle, hused]
      exact ⟨.refl hi, moves_throw hi⟩
  refine moves_bind hcreated ?_
  rintro - d₁ hi₁ rfl
  have hempty : Directory.files (update d (.publish n) (some (.json r))) r.operationId = ⟨none, none⟩ :=
    (files_update_publish ..).trans hfiles
  refine spec_call Later.trans (.refl hi₁) trivial fun j _ => ?_
  by_cases hlink : j.io = .done
  · -- The link is the publication.
    have hnew : Directory.files (update (update d (.publish n) (some (.json r)))
        (.record r.operationId) (some (.json r))) r.operationId = ⟨some (.json r), none⟩ := by
      simp [hfiles]
    have hlater : Later f clean (update d (.publish n) (some (.json r)))
        (update (update d (.publish n) (some (.json r))) (.record r.operationId)
          (some (.json r))) := by
      refine later_of_files r.operationId hi₁ (fun id' hid => by simp [hid]) ?_
      rw [hnew, hempty]
      exact later_published hr rfl
    have htarget : d (.record r.operationId) = none := congrArg Files.record hfiles
    simp only [handle, hlink, Function.update_self, Function.update_apply, reduceCtorEq, if_false, htarget,
      decide_true, Option.isSome_some, Option.isNone_none, Bool.and_self, if_true]
    exact ⟨hlater, moves_published hlater.inv n fun _ => hnew⟩
  · simp only [handle, hlink, decide_false, Bool.false_and, Bool.false_eq_true, if_false]
    exact ⟨.refl hi₁, moves_published hi₁ n fun h => by cases h⟩

theorem sound_accepted (hheader : validateHeader r = .ok ()) (hphase : r.phase = .accepted)
    (hresult : r.result = none) (hversion : r.recoveryCoverageVersion = none) : Sound f r := by
  refine ⟨validateRecord_eq_ok.mpr ⟨hheader, ?_, ?_⟩, fun result hres => ?_⟩
  · rw [validatePhase, hphase, hresult]
    rfl
  · rw [hversion, hresult]
    rfl
  · cases hresult.symm.trans hres

theorem moves_accept (hi : Inv f clean d) (operation : ControlOperation)
    (snapshot : AuthorizationSnapshot) (hfiles : d.files operation.operationId = ⟨none, none⟩) :
    Moves f calm clean P (accept operation snapshot) d fun r d' =>
      d'.files operation.operationId = ⟨some (.json r), none⟩ ∧ r.requestHash = operation.requestHash := by
  refine moves_ofExcept hi fun _ _ => ?_
  refine moves_ofExcept hi fun _ _ => ?_
  refine moves_ofExcept hi fun _ hcontroller => ?_
  refine moves_ofExcept hi fun _ hkid => ?_
  split_ifs with htime
  · exact moves_throw hi
  refine moves_ask hi trivial (fun _ => rfl) fun i => ?_
  refine moves_transport hi fun _ _ => ?_
  refine moves_ask hi trivial (fun _ => rfl) fun j => ?_
  refine moves_transport hi fun _ _ => ?_
  refine moves_bind (moves_publishAccepted hi hfiles (sound_accepted ?_ rfl rfl rfl)) fun _ d' hi' hfiles => ?_
  · simp only [validateHeader, fileSafe_of_uuidv7 operation.id_valid, hashShape_of_lowerHex operation.hash_valid,
      hcontroller, hkid, htime]
    rfl
  exact moves_pure hi' ⟨hfiles, rfl⟩

/-! ## Execution -/

/-- The record of a side effect is published as executing, for this request. -/
structure Covered (operation : ControlOperation) (r : OperationJournalRecord δ) (d : Directory δ) : Prop where
  files : d.files operation.operationId = ⟨some (.json r), none⟩
  executing : r.phase = .executing
  request : r.requestHash = operation.requestHash

variable {operation : ControlOperation}

theorem moves_finishOperation (hi : Inv f clean d) (hfiles : d.files id = ⟨some (.json r), none⟩)
    (hexec : r.phase = .executing) (outcome : ControlOutcome) (error : Option ControlErrorCode) (data : Option δ) :
    Moves f calm clean P (finishOperation f r outcome error data) d fun _ _ => True := by
  obtain ⟨hsound, hid⟩ := hi.published hfiles
  refine moves_ask hi trivial (fun _ => rfl) fun i => moves_ofExcept hi fun _ henc => ?_
  have hown : d.files (controlResult r outcome error data i.clock).operationId = ⟨some (.json r), none⟩ :=
    (congrArg d.files hid).trans hfiles
  exact moves_bind (moves_replaceRecord hi hown (sound_complete hsound (mapError_eq_ok.mp henc))
    (continues_complete hexec _)) fun _ _ hi' _ => moves_pure hi' trivial

section

variable (hi : Inv f clean d) (hfiles : d.files operation.operationId = ⟨some (.json r), none⟩)
  (hhash : r.requestHash = operation.requestHash)

include hi hfiles hhash

theorem moves_sideEffect (hexec : r.phase = .executing) :
    Moves f calm clean (Covered operation) (.call (.sideEffect r) fun
        | .ok data => finishOperation f r .succeeded none data
        | .error (.retryable message) => Prog.throw (.retryableExecution message)
        | .error (.terminal _) => finishOperation f r .failed (some .executionFailed) none : Journal δ
          (JournaledOutcome δ))
      d fun _ _ => True := by
  refine moves_ask hi ⟨hfiles, hexec, hhash⟩ (fun _ => rfl) fun i => ?_
  split
  · exact moves_finishOperation hi hfiles hexec _ _ _
  · exact moves_throw hi
  · exact moves_finishOperation hi hfiles hexec _ _ _

theorem moves_runJournaledOperation :
    Moves f calm clean (Covered operation) (runJournaledOperation f r) d fun _ _ => True := by
  obtain ⟨hsound, hid⟩ := hi.published hfiles
  unfold runJournaledOperation
  cases hres : r.result with
  | some => exact moves_pure hi trivial
  | none =>
    unfold enterExecuting
    cases hphase : r.phase with
    | completed =>
      obtain ⟨result, hsome⟩ := result_of_completed hsound hphase
      cases hres.symm.trans hsome
    | executing => exact moves_sideEffect hi hfiles hhash hphase
    | accepted =>
      have hmarked : Moves f calm clean (Covered operation) (markExecuting r) d fun r₁ d' =>
          d'.files operation.operationId = ⟨some (.json r₁), none⟩
            ∧ r₁.requestHash = operation.requestHash ∧ r₁.phase = .executing :=
        moves_bind (moves_replaceRecord hi (hid ▸ hfiles) (sound_executing hsound hphase r.migrationBaseline)
          (continues_executing hphase r.migrationBaseline))
          fun _ d' hi' hnew => moves_pure hi' ⟨(congrArg d'.files hid).symm.trans hnew, hhash, rfl⟩
      exact moves_bind hmarked fun _ _ hi' h => moves_sideEffect hi' h.1 h.2.1 h.2.2

theorem moves_journaledExecution :
    Moves f calm clean (Covered operation) (journaledExecution f operation r) d fun _ _ => True := by
  obtain ⟨hsound, hid⟩ := hi.published hfiles
  have hcheckpoint : Moves f calm clean (Covered operation) (checkpointMigration operation r) d fun r₁ d' =>
      d'.files operation.operationId = ⟨some (.json r₁), none⟩ ∧ r₁.requestHash = operation.requestHash := by
    unfold checkpointMigration
    split_ifs with hneeds
    · -- The baseline of a migration is published with the executing phase.
      simp only [OperationJournalRecord.needsMigrationBaseline, Bool.and_eq_true, decide_eq_true_eq] at hneeds
      have hacc := hneeds.2.1
      refine moves_ask hi trivial (fun _ => rfl) fun i => moves_ofExcept hi fun revision _ => moves_mapError ?_
      unfold persistMigrationBaseline
      split_ifs
      · exact moves_throw hi
      · exact moves_bind (moves_replaceRecord hi (hid ▸ hfiles) (sound_executing hsound hacc (some revision))
          (continues_executing hacc (some revision)))
          fun _ d' hi' hnew => moves_pure hi' ⟨(congrArg d'.files hid).symm.trans hnew, hhash⟩
    · exact moves_pure hi ⟨hfiles, hhash⟩
  refine moves_bind hcheckpoint fun r₁ d₁ hi₁ hr₁ => ?_
  refine moves_bind (moves_mapError (moves_runJournaledOperation hi₁ hr₁.1 hr₁.2)) fun outcome d' hi' _ => ?_
  exact moves_ofExcept hi' fun _ _ => moves_pure hi' trivial

end

variable [DecidableEq δ]

/-- Every attempt moves the journal on, and starts its side effect behind the executing record. -/
theorem moves_executeCompact (calm : Prop) (hi : Inv f clean d) (operation : ControlOperation) :
    Moves f calm clean (Covered operation) (executeCompact f operation) d fun _ _ => True := by
  refine spec_bind Later.trans (spec_mapError (spec_mono (spec_loadAccepted hi operation) (fun _ _ h => h.later)
    fun res d' hlater hres => ?_))
  cases res with
  | error => exact nofun
  | ok loaded =>
    cases loaded with
    | some => exact moves_journaledExecution hlater.inv hres.2.1 hres.2.2
    | none =>
      refine moves_ask hlater.inv trivial (fun _ => rfl) fun i => moves_ofExcept hlater.inv fun snapshot _ => ?_
      exact moves_bind (moves_mapError (moves_accept hlater.inv operation snapshot hres.2))
        fun _ _ hi' hacc => moves_journaledExecution hi' hacc.1 hacc.2

end Specs

end NazoAuth.Operator
