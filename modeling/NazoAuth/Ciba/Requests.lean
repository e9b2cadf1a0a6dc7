import NazoAuth.Lib.Register
import NazoAuth.Ciba.Steps

/-!
# Backchannel authentication — requests are decided at most once

For one `auth_req_id`, over every history of creation, polls, decisions, ping claims and completions
and expiry by any number of nodes.
-/

namespace NazoAuth.Ciba

open Lib Lib.Json

/-! ## Histories of a request -/

/-- The last creation of a history and the events after it. -/
def current : Log → Option (Text × Log)
  | [] => none
  | (_, .created text) :: _ => some (text, [])
  | e :: log => (current log).map fun c => (c.1, e :: c.2)

def isCreation (e : Op × Outcome) : Bool :=
  match e.2 with
  | .created _ => true
  | _ => false

theorem current_cons {e : Op × Outcome} (h : isCreation e = false) (log : Log) :
    current (e :: log) = (current log).map fun c => (c.1, e :: c.2) := by
  obtain ⟨op, outcome⟩ := e
  cases outcome with
  | created => simp [isCreation] at h
  | quiet | replaced | decided | pinged => rfl

variable {op : Op}

theorem current_of_split {newer older : Log} {text : Text} (h : ∀ e ∈ newer, isCreation e = false) :
    current (newer ++ (op, .created text) :: older) = some (text, newer) := by
  induction newer with
  | nil => rfl
  | cons e newer ih =>
    have ih := ih fun e he => h e (.tail _ he)
    rw [List.cons_append, current_cons (h e List.mem_cons_self), ih]
    rfl

def written (e : Op × Outcome) : Option Text :=
  match e.2 with
  | .replaced _ after => some after
  | .decided _ _ _ _ after => some after
  | .pinged _ after => some after
  | _ => none

def isDecision (e : Op × Outcome) : Bool :=
  match e.2 with
  | .decided _ _ _ _ _ => true
  | _ => false

/-! ## The invariant -/

/-- A text that says of a request what its creation said. -/
structure Faithful (identity : CibaIdentity) (times : CibaTimes) (text : Text) : Prop where
  sameIdentity : readIdentity text.document = some identity
  sameTimes : readTimes text.document = some times ∨ readTimes text.document = none
  shortTimes : times.Short → readTimes text.document = some times

/-- The status of the second text may follow that of the first. -/
def StatusLe (before after : Text) : Prop :=
  readStatus before.document = some .pending ∨ readStatus after.document = readStatus before.document

theorem StatusLe.refl (text : Text) : StatusLe text text := .inr rfl

theorem StatusLe.trans {a b c : Text} (h1 : StatusLe a b) (h2 : StatusLe b c) : StatusLe a c := by
  rcases h1 with h1 | h1
  · exact .inl h1
  · rcases h2 with h2 | h2
    · exact .inl (h1 ▸ h2)
    · exact .inr (h2.trans h1)

/-- A key, where there is one, holds the text and, where times are short, expires at the retention
deadline. -/
def KeyHolds (times : CibaTimes) (text : Text) (slot : Slot) : Prop :=
  ∀ e, slot.key = some e → e.value = text ∧ (times.Short → e.deadline = some (times.retentionExpiresAt * 1000))

/-- A request `newer` events after its creation as `text`. -/
structure RequestInv (identity : CibaIdentity) (times : CibaTimes) (text : Text) (newer : Log)
    (slot : Slot) : Prop where
  scopes : identity.scopes ≠ []
  audiences : identity.audiences ≠ []
  created : readIdentity text.document = some identity ∧ readTimes text.document = some times ∧
    readStatus text.document = some .pending
  faithful : ∀ e ∈ newer, ∀ t, written e = some t → Faithful identity times t
  orderly : Orderly written text StatusLe newer
  undecided : readStatus (latest written text newer).document = some .pending → newer.countP isDecision = 0
  once : newer.countP isDecision ≤ 1
  decided : ∀ op decision deadline storeNow before after,
    (op, Outcome.decided decision deadline storeNow before after) ∈ newer →
    readStatus before.document = some .pending ∧ readStatus after.document = some decision.status ∧
      (times.Short → storeSeconds storeNow < times.expiresAt ∧ ∀ a, deadline = some a → storeSeconds storeNow < a)
  key : KeyHolds times (latest written text newer) slot

section Invariant

variable {identity : CibaIdentity} {times : CibaTimes} {text : Text} {newer : Log} {slot slot' : Slot} {op : Op}

theorem RequestInv.latest_faithful (h : RequestInv identity times text newer slot) :
    Faithful identity times (latest written text newer) :=
  latest_of_all ⟨h.created.1, .inl h.created.2.1, fun _ => h.created.2.1⟩ h.faithful

variable {state : CibaRequestState} {after before : Text}

theorem faithful_serialized (hid : state.identity = identity) (ht : state.times = times)
    (hr : times.InRange) : Faithful identity times (serialized state) := by
  have htimes : readTimes (serialized state).document = some times := by
    rw [← ht] at hr ⊢
    exact readTimes_encodeState hr
  have hident : readIdentity (serialized state).document = some identity := by
    rw [← hid]
    exact readIdentity_encodeState state
  exact ⟨hident, .inl htimes, fun _ => htimes⟩

theorem Faithful.pinged (h : Faithful identity times before) (hs : identity.scopes ≠ [])
    (ha : identity.audiences ≠ []) (hedit : PingEdit before.document after.document) :
    Faithful identity times after where
  sameIdentity := hedit.readIdentity h.sameIdentity hs ha
  sameTimes := by
    rcases hedit.readTimes with ht | ht
    · rw [ht]
      exact h.sameTimes
    · exact .inr ht
  shortTimes := fun hshort => hedit.readTimes_of_short (h.shortTimes hshort) hshort

theorem Faithful.decoded (h : Faithful identity times before)
    (hd : decodeState before.document = some state) : state.identity = identity
      ∧ state.times = times ∧ times.InRange := by
  obtain ⟨hid, ht, -⟩ := decodeState_reads hd
  have htimes : state.times = times := by
    rcases h.sameTimes with hs | hs
    · rw [ht] at hs
      exact Option.some.inj hs
    · rw [ht] at hs
      cases hs
  refine ⟨?_, htimes, ?_⟩
  · rw [h.sameIdentity] at hid
    exact (Option.some.inj hid).symm
  · rw [← htimes]
    exact inRange_of_readTimes ht

/-! ### Steps -/

theorem quiet_step (h : RequestInv identity times text newer slot) (hk : slot'.key = slot.key ∨ slot'.key = none) :
    RequestInv identity times text ((op, .quiet) :: newer) slot' where
  scopes := h.scopes
  audiences := h.audiences
  created := h.created
  faithful := List.forall_mem_cons.mpr ⟨fun t ht => (by cases ht), h.faithful⟩
  orderly := ⟨h.orderly, fun v hv => by cases hv⟩
  undecided := h.undecided
  once := h.once
  decided := by
    intro op' decision deadline storeNow before after hmem
    rcases List.mem_cons.mp hmem with heq | hmem
    · cases heq
    · exact h.decided op' decision deadline storeNow before after hmem
  key := by
    intro e he
    rcases hk with hk | hk
    · exact h.key e (hk ▸ he)
    · simp [hk] at he

theorem write_step {e : Op × Outcome} (h : RequestInv identity times text newer slot)
    (hw : written e = some after) (hd : isDecision e = false) (hf : Faithful identity times after)
    (hs : readStatus after.document = readStatus (latest written text newer).document)
    (hk : KeyHolds times after slot') : RequestInv identity times text (e :: newer) slot' where
  scopes := h.scopes
  audiences := h.audiences
  created := h.created
  faithful := by
    refine List.forall_mem_cons.mpr ⟨fun t ht => ?_, h.faithful⟩
    cases hw.symm.trans ht
    exact hf
  orderly := by
    refine ⟨h.orderly, fun v hv => ?_⟩
    rw [hw] at hv
    cases hv
    exact .inr hs
  undecided := by
    intro hpending
    rw [latest_of_some hw, hs] at hpending
    rw [List.countP_cons_of_neg (by simp [hd])]
    exact h.undecided hpending
  once := by
    rw [List.countP_cons_of_neg (by simp [hd])]
    exact h.once
  decided := by
    intro op' decision deadline storeNow before after' hmem
    rcases List.mem_cons.mp hmem with heq | hmem
    · subst heq
      cases hd
    · exact h.decided op' decision deadline storeNow before after' hmem
  key := by
    rw [latest_of_some hw newer]
    exact hk

theorem decided_step {decision : CibaDecision} {deadline : Option Int} {storeNow : Int}
    (h : RequestInv identity times text newer slot) (hb : before = latest written text newer)
    (hf : Faithful identity times after) (hpending : readStatus before.document = some .pending)
    (hs : readStatus after.document = some decision.status)
    (htime : times.Short → storeSeconds storeNow < times.expiresAt
    ∧ ∀ a, deadline = some a → storeSeconds storeNow < a) (hk : KeyHolds times after slot') :
    RequestInv identity times text ((op, .decided decision deadline storeNow before after) :: newer) slot' where
  scopes := h.scopes
  audiences := h.audiences
  created := h.created
  faithful := by
    refine List.forall_mem_cons.mpr ⟨fun t ht => ?_, h.faithful⟩
    cases ht
    exact hf
  orderly := ⟨h.orderly, fun v _ => .inl (hb ▸ hpending)⟩
  undecided := by
    intro hnow
    have hnow : readStatus after.document = some .pending := hnow
    rw [hs] at hnow
    exact absurd (Option.some.inj hnow) decision.status_ne_pending
  once := by
    rw [List.countP_cons_of_pos (by simp [isDecision]), h.undecided (hb ▸ hpending)]
  decided := by
    intro op' decision' deadline' storeNow' before' after' hmem
    rcases List.mem_cons.mp hmem with heq | hmem
    · cases heq
      exact ⟨hpending, hs, htime⟩
    · exact h.decided op' decision' deadline' storeNow' before' after' hmem
  key := hk

theorem Written.key (h : Written slot' after times.retentionExpiresAt) : KeyHolds times after slot' := by
  intro k hk
  obtain ⟨d, hwritten, hd⟩ := h
  cases hwritten.symm.trans hk
  exact ⟨rfl, fun hshort => hd (hshort _ (by simp))⟩

end Invariant

/-- The invariant of a history: nothing is stored before the first creation; a request keeps its own
after it. -/
def HistoryInv (log : Log) (w : World) : Prop :=
  match current log with
  | none => w.slot.key = none
  | some (text, newer) => ∃ identity times, RequestInv identity times text newer w.slot

variable {authReqId : String} {log : Log} {w w' : World}

/-- An event on a stored request is one of the current one. -/
theorem HistoryInv.stored {e : Op × Outcome} {k : StoredText} (hinv : HistoryInv log w)
    (he : isCreation e = false) (hk : w.slot.key = some k)
    (hstep : ∀ identity times text newer, RequestInv identity times text newer w.slot →
      RequestInv identity times text (e :: newer) w'.slot) : HistoryInv (e :: log) w' := by
  unfold HistoryInv at hinv ⊢
  rw [current_cons he]
  cases hc : current log with
  | none =>
    rw [hc, hk] at hinv
    cases hinv
  | some =>
    rw [hc] at hinv
    obtain ⟨identity, times, hinv⟩ := hinv
    exact ⟨identity, times, hstep _ _ _ _ hinv⟩

theorem historyInv_step {outcome : Outcome} (hinv : HistoryInv log w)
    (he : exec authReqId w op = (w', outcome)) : HistoryInv ((op, outcome) :: log) w' := by
  cases effect_of_exec he with
  | created hstatus hscopes haud htimes hk =>
    rename_i state
    have hread := readTimes_encodeState htimes
    refine ⟨state.identity, state.times, hscopes, haud,
      ⟨readIdentity_encodeState state, hread, (readStatus_encodeState state).trans (by rw [hstatus])⟩, ?_, trivial,
      fun _ => rfl, Nat.zero_le _, ?_, ?_⟩
    · intro e he
      cases he
    · intro op' decision deadline storeNow before after hmem
      cases hmem
    exact Written.key hk
  | quiet hk =>
    unfold HistoryInv at hinv ⊢
    rw [current_cons rfl]
    cases hc : current log with
    | none =>
      rw [hc] at hinv
      exact hk.elim (fun hk => hk.trans hinv) id
    | some =>
      rw [hc] at hinv
      obtain ⟨identity, times, hinv⟩ := hinv
      exact ⟨identity, times, quiet_step hinv hk⟩
  | replaced hk hk' hd hid ht hs =>
    refine hinv.stored rfl hk fun identity times text newer hinv => ?_
    obtain ⟨hb, -⟩ := hinv.key _ hk
    simp only at hb
    obtain ⟨hident, htimes, hrange⟩ := (hb ▸ hinv.latest_faithful).decoded hd
    refine write_step hinv rfl rfl (faithful_serialized (hid.trans hident) (ht.trans htimes) hrange) ?_ ?_
    · rw [← hb, (decodeState_reads hd).2.2, ← hs]
      exact readStatus_encodeState _
    · rw [← htimes]
      exact Written.key hk'
  | decided hk hk' hd hid ht hpending hs htime =>
    refine hinv.stored rfl hk fun identity times text newer hinv => ?_
    obtain ⟨hb, -⟩ := hinv.key _ hk
    simp only at hb
    obtain ⟨hident, htimes, hrange⟩ := (hb ▸ hinv.latest_faithful).decoded hd
    refine decided_step hinv hb (faithful_serialized (hid.trans hident) (ht.trans htimes) hrange) ?_ ?_ ?_ ?_
    · rw [(decodeState_reads hd).2.2, hpending]
    · rw [← hs]
      exact readStatus_encodeState _
    · rw [← htimes]
      exact htime
    · rw [← htimes]
      exact Written.key hk'
  | pinged hk hk' hedit =>
    refine hinv.stored rfl hk fun identity times text newer hinv => ?_
    obtain ⟨hb, hdead⟩ := hinv.key _ hk
    simp only at hb hdead
    refine write_step hinv rfl rfl ((hb ▸ hinv.latest_faithful).pinged hinv.scopes hinv.audiences hedit) ?_ ?_
    · rw [← hb]
      exact hedit.readStatus
    · intro k hk
      cases hk'.symm.trans hk
      exact ⟨rfl, hdead⟩

theorem historyInv_of_run (hr : Run (exec authReqId) empty log w) : HistoryInv log w := by
  refine Run.invariant (fun _ _ _ => trivial) ?_
    (fun _ _ _ _ _ _ _ hinv he => historyInv_step hinv he) hr trivial
  rfl

/-! ## The result -/

/-- A request, created as `text`, over the events since. -/
structure DecidedOnce (identity : CibaIdentity) (times : CibaTimes) (text : Text) (newer : Log)
    (slot : Slot) : Prop where
  created : readIdentity text.document = some identity ∧ readTimes text.document = some times ∧
    readStatus text.document = some .pending
  /-- At most one decision commits. -/
  once : newer.countP isDecision ≤ 1
  /-- The status leaves pending at most once and does not change afterwards. -/
  status : ∀ recent earlier, newer = recent ++ earlier →
    StatusLe (latest written text earlier) (latest written text newer)
  /-- The client, the user, the scopes, the audiences, the acr, the binding message and the ping target stay. -/
  sameIdentity : ∀ e ∈ newer, ∀ t, written e = some t → readIdentity t.document = some identity
  /-- Times of at most fourteen digits stay. -/
  sameTimes : times.Short → ∀ e ∈ newer, ∀ t, written e = some t → readTimes t.document = some times
  /-- A decision moves from pending, and where times are short, before the expiry and the deadline of the
  caller. -/
  decision : ∀ op decision deadline storeNow before after,
    (op, Outcome.decided decision deadline storeNow before after) ∈ newer →
    readStatus before.document = some .pending ∧ readStatus after.document = some decision.status ∧
      (times.Short → storeSeconds storeNow < times.expiresAt ∧ ∀ a, deadline = some a → storeSeconds storeNow < a)
  /-- The key holds the last text. -/
  key : KeyHolds times (latest written text newer) slot

/-- **A request is decided at most once and keeps its content.** -/
theorem request_decided_once (authReqId : String) (newer older : Log) (op : Op) (text : Text)
    (w : World) (hr : Run (exec authReqId) empty (newer ++ (op, .created text) :: older) w)
    (hlast : ∀ e ∈ newer, isCreation e = false) :
    ∃ identity times, DecidedOnce identity times text newer w.slot := by
  have hinv := historyInv_of_run hr
  unfold HistoryInv at hinv
  rw [current_of_split hlast] at hinv
  obtain ⟨identity, times, hinv⟩ := hinv
  refine ⟨identity, times, hinv.created, hinv.once, ?_, ?_, ?_, hinv.decided, hinv.key⟩
  · intro recent earlier hsplit
    have horderly := hinv.orderly
    rw [hsplit] at horderly ⊢
    exact latest_le StatusLe.refl (fun _ _ _ => StatusLe.trans) recent horderly
  · intro e he t ht
    exact (hinv.faithful e he t ht).sameIdentity
  · intro hshort e he t ht
    exact (hinv.faithful e he t ht).shortTimes hshort

/-! ## An expiry beyond the precision of the scripts -/

variable (ttlSeconds : Nat)

/-- A request in ping mode with the given time to live, made at time zero. -/
def pingRequest : BackchannelRequest where
  clientId := "bank"
  userId := 1
  scopes := ["openid"]
  defaultAudience := "https://api.example"
  acr := none
  bindingMessage := some "W4SCT"
  requestedExpirySeconds := none
  authReqIdTtlSeconds := ttlSeconds
  pollIntervalSeconds := 5
  ping := some ("https://bank.example/ping", some "token")
  now := 0
  now_range := by decide

/-- The request is created and denied, and its ping is claimed. -/
def pingOps : List Op :=
  [.create (pingRequest ttlSeconds) 0, .start 0 (.decide .deny none (some 60)), .step 0 ⟨1000, 1, false⟩,
    .step 0 ⟨1000, 1, false⟩, .claimPing 2 32 1 2000]

def pingRun : Log × World := execAll (exec "id") empty [] (pingOps ttlSeconds)

def pingCreated : Text :=
  (((newRequestState (pingRequest ttlSeconds)).map (CibaRequestState.withAuthReqId "id")).map serialized).getD
    ⟨.null, 0⟩

theorem request_decided_once_ping :
    (∃ identity times, DecidedOnce identity times (pingCreated 600) ((pingRun 600).1.take 4) (pingRun 600).2.slot)
      ∧ ((pingRun 600).1.take 4).countP isDecision = 1 := by
  have hlog : (pingRun 600).1 = (pingRun 600).1.take 4
      ++ (.create (pingRequest 600) 0, .created (pingCreated 600)) :: [] := by
    decide +kernel
  have hr : Run (exec "id") empty (pingRun 600).1 (pingRun 600).2 := run_execAll _ _
  exact ⟨request_decided_once "id" _ [] _ _ _ hr (by decide +kernel), by decide +kernel⟩

/-- **An expiry of more than fourteen digits changes**: the claim of the ping writes it with
fourteen, as a number that no later load reads. -/
theorem long_expiry_changes :
    ∃ newer op text w, Run (exec "id") empty (newer ++ [(op, .created text)]) w
      ∧ (∀ e ∈ newer, isCreation e = false) ∧ text.document.get? "expires_at" = some (.num 100000000000123) ∧
      (∃ e ∈ newer, (written e).bind (fun t => t.document.get? "expires_at") = some (.real 10000000000012 1)) ∧
      load 3000 w.slot = .error .corruptData := by
  have hlog : (pingRun 100000000000123).1 = (pingRun 100000000000123).1.take 4 ++
      [(.create (pingRequest 100000000000123) 0, .created (pingCreated 100000000000123))] := by
    decide +kernel
  have hr : Run (exec "id") empty (pingRun 100000000000123).1 (pingRun 100000000000123).2 := run_execAll _ _
  rw [hlog] at hr
  exact ⟨_, _, _, _, hr, by decide +kernel, by decide +kernel, by decide +kernel, by rfl⟩

end NazoAuth.Ciba
