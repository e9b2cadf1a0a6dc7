import NazoAuth.Ciba.Service

/-!
# Backchannel authentication — what one operation can do
-/

namespace NazoAuth.Ciba

open Lib Lib.Json

/-! ## The ping scripts -/

variable {name : String}

theorem readTarget_set (h1 : "auth_req_id" ≠ name) (h2 : "endpoint" ≠ name) (value j : Json) :
    readTarget (set name value j) = readTarget j := by
  simp only [readTarget, get?_set_of_ne h1, get?_set_of_ne h2]

theorem readTarget_erase (h1 : "auth_req_id" ≠ name) (h2 : "endpoint" ≠ name) (j : Json) :
    readTarget (erase name j) = readTarget j := by
  simp only [readTarget, get?_erase_of_ne h1, get?_erase_of_ne h2]

theorem readTarget_endPing (status : String) (j : Json) : readTarget (endPing status j) = readTarget j := by
  rw [endPing, readTarget_erase (by decide) (by decide), readTarget_erase (by decide) (by decide),
    readTarget_set (by decide) (by decide)]

theorem set_obj (name : String) (value : Json) (members : List (String × Json)) :
    ∃ members', set name value (.obj members) = .obj members' := by
  simp only [Json.set]
  split_ifs
  · exact ⟨_, rfl⟩
  · exact ⟨_, rfl⟩

theorem endPing_obj (status : String) (members : List (String × Json)) :
    ∃ members', endPing status (.obj members) = .obj members' := by
  obtain ⟨members', h⟩ := set_obj "status" (.str status) members
  exact ⟨_, by rw [endPing, h]; rfl⟩

/-- What a ping script does to the key. -/
inductive PingEffect (storeNow : Int) (slot slot' : Slot) : Prop
  | kept : slot'.key = slot.key → PingEffect storeNow slot slot'
  | edited {current after} : slot.visible storeNow = some current →
      slot'.key = some ⟨after, current.deadline⟩ → PingEdit current.value.document after.document →
      PingEffect storeNow slot slot'

variable {ping : List (String × Json)}

theorem pingOf_obj {doc : Json} (h : pingOf doc = some ping) :
    doc.get? "ping_notification" = some (.obj ping) ∧ ∃ members, doc = .obj members := by
  have hget : doc.get? "ping_notification" = some (.obj ping) := by
    unfold pingOf at h
    split at h
    · rename_i ping' heq
      rw [heq, Option.some.inj h]
    · cases h
  refine ⟨hget, ?_⟩
  cases doc with
  | obj members => exact ⟨members, rfl⟩
  | null | bool | num | real | str | arr => cases hget

variable {slot : Slot} {storeNow : Int} {due : Option Int}

theorem writePing_effect {current : StoredText} {ping' : Json} {layout : Nat}
    (hv : slot.visible storeNow = some current) (hp : pingOf current.value.document = some ping)
    (hobj : ∃ members, ping' = .obj members) (ht : readTarget ping' = readTarget (.obj ping)) :
    PingEffect storeNow slot (writePing current ping' layout due) := by
  obtain ⟨hget, members, hdoc⟩ := pingOf_obj hp
  obtain ⟨members', rfl⟩ := hobj
  exact .edited hv rfl ⟨ping, members', members, hget, hdoc, ht, rfl⟩

theorem claimDuePing_effect (storeNow : Int) (slot : Slot) (now lockUntil : Int) (layout : Nat) :
    PingEffect storeNow slot (claimDuePing storeNow slot now lockUntil layout) := by
  unfold claimDuePing
  cases hv : slot.visible storeNow with
  | none => exact .kept rfl
  | some current =>
    simp only
    cases hexp : luaToNumber (current.value.document.get? "expires_at") with
    | none => exact .kept rfl
    | some =>
      cases hp : pingOf current.value.document with
      | none => exact .kept rfl
      | some ping =>
        simp only
        split_ifs with h1 h2
        · exact writePing_effect hv hp (endPing_obj _ _) (readTarget_endPing _ _)
        · exact .kept rfl
        cases hnext : luaToNumber ((Json.obj ping).get? "next_attempt_at") with
        | none => exact .kept rfl
        | some =>
          simp only
          split_ifs with h3 h4
          · cases hatt : luaToNumber ((Json.obj ping).get? "attempts") with
            | none => exact .kept rfl
            | some attempts =>
              refine writePing_effect hv hp ?_ ?_
              · obtain ⟨members, hset⟩ := set_obj "attempts" (.num (attempts + 1)) ping
                rw [hset]
                exact set_obj _ _ _
              · rw [readTarget_set (by decide) (by decide), readTarget_set (by decide) (by decide)]
          · exact .kept rfl
          · exact .kept rfl

theorem finishPing_effect (storeNow : Int) (slot : Slot) (attempts : Nat) (outcome : CibaPingFinishOutcome)
    (layout : Nat) : PingEffect storeNow slot (finishPing storeNow slot attempts outcome layout) := by
  unfold finishPing
  cases hv : slot.visible storeNow with
  | none => exact .kept rfl
  | some current =>
    simp only
    cases hp : pingOf current.value.document with
    | none => exact .kept rfl
    | some =>
      simp only
      split_ifs with h1
      · exact .kept rfl
      cases outcome with
      | retryAt =>
        exact writePing_effect hv hp (set_obj _ _ _) (readTarget_set (by decide) (by decide) _ _)
      | delivered | failed => exact writePing_effect hv hp (endPing_obj _ _) (readTarget_endPing _ _)

/-! ## The scripts on whole values -/

theorem dropExpired_key (now : Int) (slot : Slot) (expected : Text) :
    (dropExpired now slot expected).key = slot.key ∨ (dropExpired now slot expected).key = none := by
  unfold dropExpired
  split_ifs
  · exact .inr rfl
  · exact .inl rfl

/-- A time of at most fourteen digits is a number of a script. -/
theorem luaDouble_of_digits {n : Int} (h : n.natAbs < luaDigits) : luaDouble n = n :=
  luaDouble_of_small (h.trans (by decide))

/-- A text is written, with the deadline given if that is short. -/
def Written (slot' : Slot) (text : Text) (deadline : Int) : Prop :=
  ∃ d, slot'.key = some ⟨text, d⟩ ∧ (deadline.natAbs < luaDigits → d = some (deadline * 1000))

variable {authorizationDeadline : Option Int} {now : Int} {slot' : Slot} {stored : Snapshot}

theorem written_of_write (slot : Slot) (text : Text) (deadline : Int) (due : Option Int) :
    Written (slot.write text (luaDouble deadline) due).1 text deadline ∧
      wrote (slot.write text (luaDouble deadline) due).2 = true := by
  unfold Slot.write
  split_ifs with hmax
  · exact ⟨⟨_, rfl, fun hshort => by rw [luaDouble_of_digits hshort]⟩, rfl⟩
  · refine ⟨⟨_, rfl, fun hshort => ?_⟩, rfl⟩
    rw [luaDouble_of_digits hshort] at hmax
    exact absurd (hshort.le.trans (by decide)) hmax

theorem setNxDeadline_cases (now : Int) (slot : Slot) (text : Text) (deadline : Int)
    (authorizationDeadline : Option Int) :
    Written (setNxDeadline now slot text deadline authorizationDeadline).1 text deadline ∧
      wrote (setNxDeadline now slot text deadline authorizationDeadline).2 = true ∨
    (setNxDeadline now slot text deadline authorizationDeadline).1 = slot ∧
      wrote (setNxDeadline now slot text deadline authorizationDeadline).2 = false := by
  unfold setNxDeadline
  split_ifs
  · exact .inr ⟨rfl, rfl⟩
  · exact .inr ⟨rfl, rfl⟩
  · exact .inr ⟨rfl, rfl⟩
  · exact .inl (written_of_write _ _ _ _)

/-- What a comparing script does to the key. -/
theorem compareDeadline_cases (now : Int) (slot : Slot) (expected : Text) (deadline : Int)
    (authorizationDeadline : Option Int) (matched : Slot × Except CibaStatePortError CibaAtomicResult) :
    (∃ d, slot.key = some ⟨expected, d⟩ ∧ elapsed now authorizationDeadline = false ∧
      compareDeadline now slot expected deadline authorizationDeadline matched = matched) ∨
    ∃ slot' result, (slot'.key = slot.key ∨ slot'.key = none) ∧ wrote (.ok result) = false ∧
      compareDeadline now slot expected deadline authorizationDeadline matched = (slot', .ok result) := by
  unfold compareDeadline
  split_ifs with hauth hdead
  · exact .inr ⟨slot, _, .inl rfl, rfl, rfl⟩
  · exact .inr ⟨_, _, dropExpired_key now slot expected, rfl, rfl⟩
  cases hv : slot.visible now with
  | none => exact .inr ⟨slot, _, .inl rfl, rfl, rfl⟩
  | some current =>
    dsimp only
    split_ifs with hval
    · exact .inr ⟨slot, _, .inl rfl, rfl, rfl⟩
    obtain rfl : current.value = expected := not_not.mp hval
    exact .inl ⟨current.deadline, Slot.key_of_visible hv, Bool.eq_false_iff.mpr hauth, rfl⟩

/-- A deadline that is not over lies ahead, if it is short. -/
theorem lt_of_not_elapsed {storeNow : Nat} {d e : Int} (h : elapsed storeNow (some d) = false)
    (hd : d ≤ e) (he : e.natAbs < luaDigits) : storeSeconds storeNow < d := by
  have hlt : storeSeconds storeNow < luaDouble d := by simpa [elapsed] using h
  have hclock : 0 ≤ storeSeconds storeNow := by
    unfold storeSeconds
    omega
  have hpos : 0 < d := pos_of_luaDouble_pos (hclock.trans_lt hlt)
  rwa [luaDouble_of_digits (by omega)] at hlt

theorem delete_key : (delete now slot stored authorizationDeadline).1.key = slot.key
    ∨ (delete now slot stored authorizationDeadline).1.key = none := by
  unfold delete compareDeleteDeadline
  obtain ⟨d, -, -, heq⟩ | ⟨slot', result, hk, -, heq⟩ := compareDeadline_cases now slot stored.version
    stored.state.retentionExpiresAt authorizationDeadline (⟨none, none⟩, .ok .applied)
  · rw [heq]
    exact .inr rfl
  · rw [heq]
    exact hk

/-! ## The inversion of an operation -/

inductive Effect (slot slot' : Slot) : Outcome → Prop
  | quiet : (slot'.key = slot.key ∨ slot'.key = none) → Effect slot slot' .quiet
  | created {state} : state.status = .pending → state.scopes ≠ [] → state.audiences ≠ [] →
      state.times.InRange → Written slot' (serialized state) state.retentionExpiresAt →
      Effect slot slot' (.created (serialized state))
  | replaced {before d state next} : slot.key = some ⟨before, d⟩ →
      Written slot' (serialized next) state.retentionExpiresAt → decodeState before.document = some state →
      next.identity = state.identity → next.times = state.times → next.status = state.status →
      Effect slot slot' (.replaced before (serialized next))
  | decided {decision authorizationDeadline storeNow before d state next} : slot.key = some ⟨before, d⟩ →
      Written slot' (serialized next) state.retentionExpiresAt → decodeState before.document = some state →
      next.identity = state.identity → next.times = state.times → state.status = .pending →
      next.status = decision.status →
      (state.times.Short → storeSeconds storeNow < state.expiresAt ∧
        ∀ a, authorizationDeadline = some a → storeSeconds storeNow < a) →
      Effect slot slot' (.decided decision authorizationDeadline storeNow before (serialized next))
  | pinged {before after d} : slot.key = some ⟨before, d⟩ → slot'.key = some ⟨after, d⟩ →
      PingEdit before.document after.document → Effect slot slot' (.pinged before after)

theorem effect_of_ping (h : PingEffect storeNow slot slot') :
    Effect slot slot' (pingEvent storeNow slot slot') := by
  unfold pingEvent
  cases h with
  | kept hk =>
    rw [hk]
    cases hv : slot.visible storeNow with
    | none => exact .quiet (.inl hk)
    | some =>
      rw [Slot.key_of_visible hv]
      simp only [if_pos]
      exact .quiet (.inl hk)
  | edited hv hk hedit =>
    rename_i current after
    have hcur := Slot.key_of_visible hv
    simp only [hv, hk]
    split_ifs with heq
    · refine .quiet (.inl ?_)
      rw [hk, hcur, ← heq]
    · exact .pinged hcur hk hedit

/-- What a turn of a worker does to the key. -/
abbrev Turn (w : World) (r : World × Process × Outcome) : Prop := Effect w.slot r.1.slot r.2.2

variable {p : Process} {w : World} {a c e : Phase} {attempt : Nat} {env : Env}
  {request : BackchannelRequest} {authReqId : String}

/-- A replacement by a worker is refused, or its event is what `hevent` makes of it. -/
theorem effect_of_replace {next : CibaRequestState} {event : Outcome}
    (hevent : ∀ d slot', w.slot.key = some ⟨stored.version, d⟩ →
      Written slot' (serialized next) stored.state.retentionExpiresAt →
      elapsed now authorizationDeadline = false → Effect w.slot slot' event) :
    Turn w (w.replace p now stored next authorizationDeadline a c e event) := by
  unfold World.replace replace
  by_cases hret : next.retentionExpiresAt ≠ stored.state.retentionExpiresAt
  · rw [if_pos hret]
    exact .quiet (.inl rfl)
  rw [if_neg hret, compareSetDeadline]
  obtain ⟨d, hk, hauth, heq⟩ | ⟨slot', result, hk, hquiet, heq⟩ := compareDeadline_cases now w.slot stored.version
    stored.state.retentionExpiresAt authorizationDeadline
    (w.slot.write (serialized next) (luaDouble stored.state.retentionExpiresAt) (dueAt next))
  · rw [heq]
    obtain ⟨hwritten, hwrote⟩ :=
      written_of_write w.slot (serialized next) stored.state.retentionExpiresAt (dueAt next)
    simp only [hwrote, if_true]
    exact hevent d _ hk hwritten hauth
  · rw [heq]
    simp only [hquiet]
    exact .quiet hk

theorem effect_of_delete : Turn w (w.delete p now stored authorizationDeadline a c e) := by
  have hk : (delete now w.slot stored authorizationDeadline).1.key = w.slot.key
    ∨ (delete now w.slot stored authorizationDeadline).1.key = none := delete_key
  exact .quiet hk

theorem pollTurn_effect : Turn w (pollTurn w p attempt stored authorizationDeadline env) := by
  unfold pollTurn
  cases hev : evaluateCibaPoll stored.state env.now with
  | authorizationPending =>
    obtain ⟨hs, hn, hid, ht⟩ := evaluateCibaPoll_next (.inl hev)
    exact effect_of_replace fun d slot' hk hk' _ => .replaced hk hk' stored.decoded hid ht (hn.trans hs.symm)
  | slowDown =>
    obtain ⟨hs, hn, hid, ht⟩ := evaluateCibaPoll_next (.inr hev)
    exact effect_of_replace fun d slot' hk hk' _ => .replaced hk hk' stored.decoded hid ht (hn.trans hs.symm)
  | approved =>
    dsimp only
    split_ifs
    · exact .quiet (.inl rfl)
    · exact effect_of_replace fun d slot' hk hk' _ => .replaced hk hk' stored.decoded rfl rfl rfl
  | denied | expired => exact effect_of_delete

theorem decideTurn_effect {decision : CibaDecision} {expectedUserId : Option Uuid} :
    Turn w (decideTurn w p attempt stored decision expectedUserId authorizationDeadline env) := by
  unfold decideTurn
  cases hev : evaluateCibaDecision stored.state expectedUserId decision env.now with
  | invalidAuthenticationContext | userMismatch | alreadyHandled => exact .quiet (.inl rfl)
  | expired => exact effect_of_delete
  | commit =>
    obtain ⟨hs, hn, hid, ht⟩ := evaluateCibaDecision_commit hev
    refine effect_of_replace fun d slot' hk hk' hauth => ?_
    refine .decided hk hk' stored.decoded hid ht hs hn fun hshort => ?_
    have hexp : stored.state.expiresAt.natAbs < luaDigits := hshort _ (by simp [CibaRequestState.times])
    cases authorizationDeadline with
    | none => exact ⟨lt_of_not_elapsed hauth le_rfl hexp, fun a ha => by cases ha⟩
    | some a =>
      have hdeadline := lt_of_not_elapsed hauth (min_le_right a stored.state.expiresAt) hexp
      refine ⟨lt_of_lt_of_le hdeadline (min_le_right _ _), ?_⟩
      rintro _ ⟨⟩
      exact lt_of_lt_of_le hdeadline (min_le_left _ _)

/-- What the endpoint creates: a pending request with scopes and an audience. -/
theorem newRequestState_pending {state : CibaRequestState} (h : newRequestState request = some state) :
    state.status = .pending ∧ state.scopes ≠ [] ∧ state.audiences ≠ [] ∧ state.times.InRange := by
  unfold newRequestState at h
  split_ifs at h with hopenid
  cases h
  refine ⟨rfl, ?_, by simp, ?_⟩
  · intro hnil
    simp only at hnil
    simp [hnil] at hopenid
  · intro n hn
    simp only [List.mem_cons, List.not_mem_nil, or_false] at hn
    rcases hn with rfl | rfl | rfl
    · exact request.now_range
    · exact saturate_range _
    · exact saturate_range _

theorem create_effect : Effect slot (create authReqId slot request storeNow).1
    (create authReqId slot request storeNow).2 := by
  unfold create
  cases hnew : newRequestState request with
  | none => exact .quiet (.inl rfl)
  | some state =>
    obtain ⟨hstatus, hscopes, haud, htimes⟩ := newRequestState_pending hnew
    dsimp only
    cases validateNewState state with
    | error => exact .quiet (.inl rfl)
    | ok =>
      obtain ⟨hwritten, hwrote⟩ | ⟨hslot, hwrote⟩ := setNxDeadline_cases storeNow slot
        (serialized (state.withAuthReqId authReqId)) state.retentionExpiresAt (some state.expiresAt)
      · simp only [hwrote, if_true]
        exact Effect.created hstatus hscopes haud htimes hwritten
      · simp only [hwrote]
        exact .quiet (.inl (by rw [hslot]))

/-- **The inversion of an operation.** -/
theorem effect_of_exec {op : Op} {w' : World} {outcome : Outcome}
    (h : exec authReqId w op = (w', outcome)) : Effect w.slot w'.slot outcome := by
  obtain ⟨rfl, rfl⟩ := Prod.mk.inj h.symm
  cases op with
  | create request storeNow => exact create_effect
  | start worker =>
    simp only
    cases w.workers worker with
    | none | some => exact .quiet (.inl rfl)
  | step worker env =>
    simp only
    cases w.workers worker with
    | none => exact .quiet (.inl rfl)
    | some p =>
      show Turn w (workerStep w p env)
      unfold workerStep
      cases p.phase with
      | load | finished => exact .quiet (.inl rfl)
      | ready =>
        dsimp only
        cases p.task with
        | poll => exact pollTurn_effect
        | decide => exact decideTurn_effect
  | claimPing =>
    simp only
    split_ifs
    · exact effect_of_ping (claimDuePing_effect _ _ _ _ _)
    · exact .quiet (.inl rfl)
  | finishPing => exact effect_of_ping (finishPing_effect _ _ _ _ _)
  | expire storeNow =>
    refine .quiet ?_
    simp only
    cases hv : w.slot.visible storeNow with
    | none => exact .inr rfl
    | some => exact .inl (Slot.key_of_visible hv).symm

end NazoAuth.Ciba
