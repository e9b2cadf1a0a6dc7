import NazoAuth.Replay.Store

/-!
# Replay — histories of the store

A request that is accepted has set the marker that it asked for (`effect_of_serve`), and a marker
keeps its key until its deadline. So requests of one kind are accepted once if the marker of each
outlives the time in which the others can be accepted (`accepted_once`).
-/

namespace NazoAuth.Replay

open Lib

/-! ## Consumption -/

section Consumption

variable {ω : Type} {asks : ω → Consumption} {clock : ω → Nat} {store₀ store store' : Store}
  {op : ω} {out : Outcome} {log : List (ω × Outcome)}

/-- A machine whose requests consume what they ask for. -/
def serve (asks : ω → Consumption) (clock : ω → Nat) (store : Store) (op : ω) : Store × Outcome :=
  match asks op with
  | .refused => (store, .refused)
  | .failed => (store, .failed)
  | .set key expiration => setNx store key expiration (clock op)

def Outcome.isAccepted : Outcome → Bool
  | .accepted _ _ => true
  | _ => false

def marking (clock : ω → Nat) (e : ω × Outcome) : Option (Marking String) :=
  match e.2 with
  | .accepted key d => some ⟨key, d, clock e.1⟩
  | _ => none

theorem marking_eq_some {e : ω × Outcome} {a : Marking String} (h : marking clock e = some a) :
    e.2 = .accepted a.key a.deadline ∧ a.now = clock e.1 := by
  unfold marking at h
  split at h
  · cases h
    exact ⟨by assumption, rfl⟩
  · cases h

/-- The marker of an accepted request is the one that it asked for. -/
def Grants (asks : ω → Consumption) (clock : ω → Nat) (op : ω) (key : String) (d : Int) : Prop :=
  ∃ expiration, asks op = .set key expiration ∧ deadline (clock op) expiration = some d

/-- **What a request does.** -/
theorem effect_of_serve (he : serve asks clock store op = (store', out)) :
    (store' = store ∧ out.isAccepted = false) ∨ ∃ key d, out = .accepted key d ∧ Grants asks clock op key d
      ∧ visible (clock op) (store key) = none ∧ store' = Function.update store key (some ⟨(), d⟩) := by
  unfold serve at he
  split at he
  · cases he
    exact .inl ⟨rfl, rfl⟩
  · cases he
    exact .inl ⟨rfl, rfl⟩
  rename_i key expiration hset
  unfold setNx at he
  split at he
  · cases he
    exact .inl ⟨rfl, rfl⟩
  rename_i d hd
  split_ifs at he with hvisible
  · cases he
    exact .inl ⟨rfl, rfl⟩
  · cases he
    exact .inr ⟨key, d, rfl, ⟨expiration, hset, hd⟩, Option.not_isSome_iff_eq_none.mp hvisible, rfl⟩

theorem marks_of_serve (store : Store) (op : ω) (store' : Store) (out : Outcome)
    (he : serve asks clock store op = (store', out)) : Marks (id store) (id store') (marking clock (op, out)) := by
  rcases effect_of_serve he with ⟨rfl, hout⟩ | ⟨key, d, rfl, -, hvisible, rfl⟩
  · cases out with
    | accepted => cases hout
    | refused | failed | replayed => rfl
  · exact ⟨hvisible, rfl⟩

theorem grants_of_run (hrun : Run (serve asks clock) store₀ log store) :
    ∀ e ∈ log, ∀ key d, e.2 = .accepted key d → Grants asks clock e.1 key d := by
  refine hrun.invariant (I := fun log _ => ∀ e ∈ log, ∀ key d, e.2 = .accepted key d → Grants asks clock e.1 key d)
    (fun _ _ _ => trivial) (by simp) ?_ trivial
  intro log s o s' r _ _ ih he e hmem key d haccepted
  rcases List.mem_cons.mp hmem with rfl | hmem
  · rcases effect_of_serve he with ⟨-, hout⟩ | ⟨key', d', hr, hgrants, -⟩
    · rw [show r = .accepted key d from haccepted] at hout
      cases hout
    · cases hr.symm.trans haccepted
      exact hgrants
  · exact ih e hmem key d haccepted

/-- **A key is taken until its deadline**, whatever the requests are that ask for it. -/
theorem served_apart (hrun : Run (serve asks clock) store₀ log store)
    (htimed : TimedBy (fun e => (clock e.1 : Int)) log) :
    log.Pairwise fun newer older => ∀ key d d', newer.2 = .accepted key d →
      older.2 = .accepted key d' → d' < (clock newer.1 : Int) := by
  refine (markings_apart (fun _ _ h => (marking_eq_some h).2) marks_of_serve hrun htimed).imp
    fun {newer older} hapart key d d' hnewer holder => ?_
  refine hapart ⟨key, d, clock newer.1⟩ ⟨key, d', clock older.1⟩ ?_ ?_ rfl
  · unfold marking
    rw [hnewer]
  · unfold marking
    rw [holder]

/-- **Served once**: requests of a kind have one key, and a later one comes before the deadline of
an earlier one. -/
theorem served_once {p : ω × Outcome → Bool} (hrun : Run (serve asks clock) store₀ log store)
    (htimed : TimedBy (fun e => (clock e.1 : Int)) log) (haccepted : ∀ e, p e = true → e.2.isAccepted = true)
    (hcovers : ∀ e ∈ log, ∀ e' ∈ log, p e = true → p e' = true → ∀ key d key' d', Grants asks clock e.1 key d →
      Grants asks clock e'.1 key' d' → key = key'
    ∧ ((clock e'.1 : Int) ≤ clock e.1 → (clock e.1 : Int) ≤ d')) : log.countP p ≤ 1 := by
  have hgrants : ∀ e ∈ log, ∀ a, marking clock e = some a → Grants asks clock e.1 a.key a.deadline :=
    fun e he a ha => grants_of_run hrun e he _ _ (marking_eq_some ha).1
  refine countP_marked_le_one (fun _ _ h => (marking_eq_some h).2) marks_of_serve hrun htimed (fun e he hp => ?_)
    (fun e he e' he' hp hp' a b ha hb => ?_)
  · have haccepted := haccepted e hp
    cases hout : e.2 with
    | accepted => exact ⟨_, by unfold marking; rw [hout]⟩
    | refused | failed | replayed => rw [hout] at haccepted; cases haccepted
  · rw [(marking_eq_some ha).2, (marking_eq_some hb).2]
    exact hcovers e he e' he' hp hp' _ _ _ _ (hgrants e he a ha) (hgrants e' he' b hb)

/-- What a request does when its checks have passed. -/
theorem serve_of_grants {key : String} {d : Int} (h : Grants asks clock op key d) :
    serve asks clock store op = if (visible (clock op) (store key)).isSome then (store, .replayed)
      else (Function.update store key (some ⟨(), d⟩), .accepted key d) := by
  obtain ⟨expiration, hset, hd⟩ := h
  simp only [serve, hset, setNx, hd]

/-- **Who asks for a marker sets it, or finds one that a request has set before.** -/
theorem answered {key : String} (hrun : Run (serve asks clock) store₀ log store)
    (htimed : TimedBy (fun e => (clock e.1 : Int)) log) (hfresh : store₀ key = none) :
    ∀ e ∈ log, ∀ d, Grants asks clock e.1 key d → ∃ e' ∈ log, ∃ d', e'.2 = .accepted key d'
      ∧ (e' = e ∨ (clock e'.1 : Int) ≤ clock e.1 ∧ (clock e.1 : Int) ≤ d') := by
  -- The marker of the key is always that of an accepted request.
  refine (hrun.invariant (I := fun log store =>
      (∀ m, store key = some m → ∃ e ∈ log, e.2 = .accepted key m.deadline)
      ∧ ∀ e ∈ log, ∀ d, Grants asks clock e.1 key d → ∃ e' ∈ log, ∃ d', e'.2 = .accepted key d'
        ∧ (e' = e ∨ (clock e'.1 : Int) ≤ clock e.1 ∧ (clock e.1 : Int) ≤ d'))
    (fun _ _ h => (List.pairwise_cons.mp h).2) ⟨by simp [hfresh], by simp⟩ ?_ htimed).2
  rintro log store op store' out - htimed ⟨hstored, hanswered⟩ he
  refine ⟨fun m hm => ?_, fun e hmem d hgrants => ?_⟩
  · rcases effect_of_serve he with ⟨rfl, -⟩ | ⟨key', d, rfl, -, -, rfl⟩
    · obtain ⟨e, hmem, haccepted⟩ := hstored m hm
      exact ⟨e, .tail _ hmem, haccepted⟩
    · by_cases hkey : key = key'
      · subst hkey
        rw [Function.update_self] at hm
        cases hm
        exact ⟨_, .head _, rfl⟩
      · rw [Function.update_of_ne hkey] at hm
        obtain ⟨e, hmem, haccepted⟩ := hstored m hm
        exact ⟨e, .tail _ hmem, haccepted⟩
  · rcases List.mem_cons.mp hmem with rfl | hmem
    · rw [serve_of_grants hgrants] at he
      split_ifs at he with hvisible
      · obtain ⟨m, hm⟩ := Option.isSome_iff_exists.mp hvisible
        obtain ⟨hm, hlive⟩ := Option.filter_eq_some_iff.mp hm
        obtain ⟨e', he', haccepted⟩ := hstored m hm
        have hclock := (List.pairwise_cons.mp htimed).1 e' he'
        exact ⟨e', .tail _ he', m.deadline, haccepted, .inr ⟨hclock, of_decide_eq_true hlive⟩⟩
      · cases he
        exact ⟨_, .head _, d, rfl, .inl rfl⟩
    · obtain ⟨e', he', d', haccepted, hbefore⟩ := hanswered e hmem d hgrants
      exact ⟨e', .tail _ he', d', haccepted, hbefore⟩

end Consumption

/-! ## Histories -/

section Histories

variable {cfg : Config} {store₀ store : Store} {log : List (Op × Outcome)}

def storeNow (e : Op × Outcome) : Int := e.1.now

def Granted (cfg : Config) (op : Op) (key : String) (d : Int) : Prop :=
  ∃ expiration, consumption cfg op = .set key expiration ∧ deadline op.now expiration = some d

def acceptedOf (carries : Request → Bool) (e : Op × Outcome) : Bool := carries e.1.request && e.2.isAccepted

/-- Two requests of a kind whose checks pass have one key, and the later one comes before the
deadline of the earlier one. -/
def Covers (cfg : Config) (carries : Request → Bool) (log : List (Op × Outcome)) : Prop :=
  ∀ e ∈ log, ∀ e' ∈ log, carries e.1.request = true → carries e'.1.request = true → ∀ key d key' d',
    Granted cfg e.1 key d → Granted cfg e'.1 key' d' → key = key' ∧ (storeNow e' ≤ storeNow e → storeNow e ≤ d')

/-- The markers that requests of a kind ask for are not there at the start, and no other request
asks for them. -/
structure Alone (cfg : Config) (carries : Request → Bool) (store₀ : Store) (log : List (Op × Outcome)) : Prop where
  fresh : ∀ e ∈ log, carries e.1.request = true → ∀ key d, Granted cfg e.1 key d → store₀ key = none
  only : ∀ e ∈ log, carries e.1.request = true → ∀ key d, Granted cfg e.1 key d →
    ∀ e' ∈ log, ∀ d', Granted cfg e'.1 key d' → carries e'.1.request = true

variable {carries : Request → Bool} (hrun : Run (exec cfg) store₀ log store) (htimed : TimedBy storeNow log)

include hrun htimed

/-- **Accepted once**, by a marker that outlives the window. -/
theorem accepted_once (hcovers : Covers cfg carries log) : log.countP (acceptedOf carries) ≤ 1 := by
  refine served_once hrun htimed (fun _ h => (Bool.and_eq_true _ _ ▸ h).2) fun e he e' he' hp hp' => ?_
  exact hcovers e he e' he' (Bool.and_eq_true _ _ ▸ hp).1 (Bool.and_eq_true _ _ ▸ hp').1

/-- A request whose checks pass is accepted, or one of its kind was accepted before and its marker
is there. -/
theorem Alone.answered (halone : Alone cfg carries store₀ log) {e : Op × Outcome} (he : e ∈ log)
    (hcarries : carries e.1.request = true) {key : String} {d : Int} (hgranted : Granted cfg e.1 key d) :
    ∃ e' ∈ log, ∃ d', acceptedOf carries e' = true ∧ e'.2 = .accepted key d'
      ∧ Granted cfg e'.1 key d' ∧ (e' = e ∨ storeNow e' ≤ storeNow e ∧ storeNow e ≤ d') := by
  obtain ⟨e', he', d', haccepted, hbefore⟩ :=
    NazoAuth.Replay.answered hrun htimed (halone.fresh e he hcarries key d hgranted) e he d hgranted
  have hgranted' : Granted cfg e'.1 key d' := grants_of_run hrun e' he' key d' haccepted
  refine ⟨e', he', d', ?_, haccepted, hgranted', hbefore⟩
  simp [acceptedOf, haccepted, Outcome.isAccepted, halone.only e he hcarries key d hgranted e' he' d' hgranted']

/-- **Nothing less will do**: requests of a kind that are accepted once cover each other, if their
markers have one lifetime. -/
theorem covers_of_accepted_once (halone : Alone cfg carries store₀ log) {lifetime : Int} (hpos : 0 ≤ lifetime)
    (hlifetime : ∀ e ∈ log, carries e.1.request = true → ∀ key d, Granted cfg e.1 key d →
    d = storeNow e + lifetime) (honce : log.countP (acceptedOf carries) ≤ 1) : Covers cfg carries log := by
  intro e he e' he' hcarries hcarries' key d key' d' hgranted hgranted'
  obtain ⟨a, ha, da, hpa, hacca, hga, hbefore⟩ := halone.answered hrun htimed he hcarries hgranted
  obtain ⟨b, hb, db, hpb, haccb, hgb, hbefore'⟩ := halone.answered hrun htimed he' hcarries' hgranted'
  -- Only one request was accepted, so both have met its marker.
  obtain rfl : a = b := eq_of_countP_le_one honce ha hb hpa hpb
  obtain ⟨rfl, rfl⟩ := Outcome.accepted.inj (hacca.symm.trans haccb)
  have hda := hlifetime a ha (Bool.and_eq_true _ _ ▸ hpa).1 key da hga
  have hd' := hlifetime e' he' hcarries' key d' hgranted'
  refine ⟨rfl, fun hlater => ?_⟩
  have hstart : storeNow a ≤ storeNow e' := hbefore'.elim (fun h => by rw [h]) And.left
  rcases hbefore with rfl | ⟨-, hlive⟩
  · omega
  · omega

end Histories

/-! ## Clocks -/

section Clocks

theorem unixSeconds_nonneg (t : Nat) : 0 ≤ unixSeconds t := by
  unfold unixSeconds
  omega

theorem unixSeconds_le (t : Nat) : unixSeconds t * 1000 ≤ t := by
  unfold unixSeconds
  omega

theorem lt_unixSeconds (t : Nat) : (t : Int) < (unixSeconds t + 1) * 1000 := by
  unfold unixSeconds
  omega

variable {n d ttl : Int} {now : Nat}

theorem saturate_le (h : 0 ≤ n) : saturate n ≤ n := by
  simp only [saturate]
  omega

theorem saturate_nonneg (h : 0 ≤ n) : 0 ≤ saturate n := by
  simp only [saturate]
  omega

theorem le_saturate_of_le (h : n ≤ maxI64) : n ≤ saturate n := by
  simp only [saturate, maxI64] at h ⊢
  omega

theorem le_saturate {m : Int} (h : saturate n ≤ m) (hm : m < 2 ^ 63 - 1) : n ≤ saturate n := by
  simp only [saturate] at h ⊢
  omega

section

variable (h : deadline now (.ex ttl) = some d)

include h

theorem deadline_ex : 0 < ttl ∧ d = now + ttl * 1000 ∧ d ≤ maxMillis := by
  simp only [deadline] at h
  split_ifs at h with hbad
  simp only [Bool.or_eq_true, decide_eq_true_eq] at hbad
  cases h
  refine ⟨by omega, rfl, by omega⟩

theorem seconds_of_deadline_ex : unixSeconds now ≤ maxMillis / 1000 ∧ ttl ≤ maxMillis / 1000 := by
  obtain ⟨hpos, hdeadline, hmax⟩ := deadline_ex h
  have hle := unixSeconds_le now
  omega

theorem unixSeconds_le_maxI64 : unixSeconds now ≤ maxI64 := by
  obtain ⟨hle, -⟩ := seconds_of_deadline_ex h
  simp only [maxMillis, maxI64] at hle ⊢
  omega

end

theorem deadline_exat {expiresAt : Int} (h : deadline now (.exat expiresAt) = some d) : d = expiresAt * 1000 := by
  simp only [deadline] at h
  split_ifs at h
  exact (Option.some.inj h).symm

/-- The marker outlives a window whose last second is covered by its lifetime. -/
theorem live_of_ttl {now' : Nat} (h : deadline now' (.ex ttl) = some d)
    (hcovers : unixSeconds now + 1 ≤ unixSeconds now' + ttl) : (now : Int) ≤ d := by
  obtain ⟨-, rfl, -⟩ := deadline_ex h
  have hend := lt_unixSeconds now
  have hstart := unixSeconds_le now'
  omega

theorem live_of_exat {now' : Nat} {expiresAt : Int} (h : deadline now' (.exat expiresAt) = some d)
    (hbefore : unixSeconds now < expiresAt) : (now : Int) ≤ d := by
  rw [deadline_exat h]
  have hend := lt_unixSeconds now
  omega

end Clocks

end NazoAuth.Replay
