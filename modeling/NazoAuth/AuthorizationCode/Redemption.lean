import NazoAuth.AuthorizationCode.Store

/-!
# Authorization codes — one redemption

For one stored code, over every history of begins, marks, finalizations, discards and expiry by any
number of clients, with lost replies and repeated delivery.
-/

namespace NazoAuth.AuthorizationCode

open Lib Lib.Json

/-! ## Records -/

theorem statusOf_eq {text : Text} {status : CodeStatus}
    (h : luaStatus text.document = some status.text) : statusOf text = some status := by
  unfold statusOf
  rw [h]
  cases status <;> rfl

variable {doc : Json} {status : String}

theorem obj_of_luaStatus (h : luaStatus doc = some status) : ∃ members, doc = .obj members := by
  cases doc with
  | obj members => exact ⟨members, rfl⟩
  | null | bool | num | real | str | arr => cases h

theorem statusOf_consumingDocument (h : luaStatus doc = some status) (consumingAt : String)
    (layout : Nat) : statusOf ⟨consumingDocument consumingAt doc, layout⟩ = some .consuming := by
  obtain ⟨members, rfl⟩ := obj_of_luaStatus h
  refine statusOf_eq ?_
  simp only [luaStatus, consumingDocument, get?_reencode]
  rw [get?_set_of_ne (by decide), get?_set_self]
  rfl

variable {P : Type}

theorem statusOf_terminal (codec : CodeCodec P) (terminal : Terminal) :
    statusOf ⟨wire codec terminal.state, 0⟩ = some .consumed
      ∨ statusOf ⟨wire codec terminal.state, 0⟩ = some .failed := by
  cases terminal with
  | consumed => exact .inl rfl
  | failed => exact .inr rfl

/-- Pending to consuming. -/
structure Begins (before after : Text) : Prop where
  pending : statusOf before = some .pending
  consuming : statusOf after = some .consuming

/-- Consuming to consumed or failed. -/
structure Ends (before after : Text) : Prop where
  consuming : statusOf before = some .consuming
  terminal : statusOf after = some .consumed ∨ statusOf after = some .failed

def RecordLe (before after : Text) : Prop :=
  before = after ∨ (statusOf before = some .pending ∧ statusOf after ≠ some .pending) ∨ Ends before after

theorem RecordLe.trans {a b c : Text} (h1 : RecordLe a b) (h2 : RecordLe b c) : RecordLe a c := by
  rcases h1 with rfl | ⟨hp, hb⟩ | hends
  · exact h2
  · rcases h2 with rfl | ⟨hp', -⟩ | hends
    · exact .inr (.inl ⟨hp, hb⟩)
    · exact absurd hp' hb
    · refine .inr (.inl ⟨hp, ?_⟩)
      rcases hends.terminal with ht | ht <;> simp [ht]
  · rcases h2 with rfl | ⟨hp, -⟩ | hends'
    · exact .inr (.inr hends)
    · rcases hends.terminal with ht | ht <;> simp [ht] at hp
    · rcases hends.terminal with ht | ht <;> simp [hends'.consuming] at ht

theorem RecordLe.absorbing {before after : Text} (h : RecordLe before after)
    (hb : statusOf before = some .consumed ∨ statusOf before = some .failed) : after = before := by
  rcases h with rfl | ⟨hp, -⟩ | hends
  · rfl
  · rcases hb with hb | hb <;> simp [hb] at hp
  · rcases hb with hb | hb <;> simp [hends.consuming] at hb

/-! ## Scripts -/

/-- What a begin does. -/
inductive BeginEffect (now : Int) (code : Option (Entry Text)) : Option (Entry Text) × String → Prop
  | moved {current payload after} : visible now code = some current → Begins current.value after →
      (current.value.document.get? "payload").bind str? = some payload →
      BeginEffect now code (some ⟨after, current.deadline⟩, "consuming|" ++ payload)
  | kept {reply} : stripPrefix "consuming|" reply = none → BeginEffect now code (code, reply)

variable {reply : String} {code : Option (Entry Text)} {now : Int} {payload : P}

theorem beginScript_effect {rawText : Text → String} {consumingAt : String} {layout : Nat} :
    BeginEffect now code (beginScript rawText now code consumingAt layout) := by
  unfold beginScript
  cases hv : visible now code with
  | none => exact .kept (by decide)
  | some current =>
    dsimp only
    cases hs : luaStatus current.value.document with
    | none => exact .kept (by decide)
    | some =>
      dsimp only
      split_ifs with h1 h2 h3 h4
      · subst h1
        cases hp : (current.value.document.get? "payload").bind str? with
        | none => exact .kept (by decide)
        | some => exact .moved hv ⟨statusOf_eq hs, statusOf_consumingDocument hs consumingAt layout⟩ hp
      · exact .kept (by decide)
      · exact .kept (by simp [stripPrefix, List.isPrefixOf])
      · exact .kept (by decide)
      · exact .kept (by decide)

theorem markScript_effect {replacement : Text} {ttlSeconds : Nat} :
    (markScript now code replacement ttlSeconds).1 = code
      ∨ ∃ current, visible now code = some current ∧ statusOf current.value = some .consuming ∧
        (markScript now code replacement ttlSeconds).1 = some ⟨replacement, now + ttlSeconds * 1000⟩ := by
  unfold markScript
  cases hv : visible now code with
  | none => exact .inl rfl
  | some current =>
    dsimp only
    cases hs : luaStatus current.value.document with
    | none => exact .inl rfl
    | some status =>
      dsimp only
      split_ifs with h1 h2
      · exact .inl rfl
      · exact .inl rfl
      · obtain rfl : status = "consuming" := not_not.mp h1
        exact .inr ⟨current, rfl, statusOf_eq hs, rfl⟩

theorem eq_of_consumingPayload {result : BeginReply P}
    (h : BeginReply.consumingPayload result = some payload) : result = .ok (.consuming payload) := by
  unfold BeginReply.consumingPayload at h
  split at h
  · cases h; rfl
  · cases h

/-- Only the reply to a begin that moved the record is read as a consumption. -/
theorem parseBeginReply_consuming {codec : CodeCodec P}
    (h : BeginReply.consumingPayload (parseBeginReply codec reply) = some payload) :
    ∃ raw, stripPrefix "consuming|" reply = some raw ∧ codec.decodePayload raw = some payload := by
  have h : parseBeginReply codec reply = .ok (.consuming payload) := eq_of_consumingPayload h
  unfold parseBeginReply at h
  cases hs : stripPrefix "consuming|" reply with
  | some raw =>
    simp only [hs] at h
    cases hd : codec.decodePayload raw with
    | none => simp [hd] at h
    | some =>
      simp only [hd] at h
      cases h
      exact ⟨raw, rfl, hd⟩
  | none =>
    simp only [hs] at h
    cases hc : stripPrefix "consumed|" reply with
    | some raw =>
      simp only [hc] at h
      cases hr : codec.readState raw with
      | none | some => simp [hr] at h
    | none =>
      simp only [hc] at h
      split_ifs at h <;> cases h

/-! ## The inversion of an operation -/

section Machine

variable {P : Type} (e : Op × Outcome P)

def recordWritten : Option Text :=
  match e.2 with
  | .began _ _ (some (_, after)) => some after
  | .marked _ _ after => some after
  | _ => none

/-- The client and payload of a begin that returns the consuming state. -/
def consumingBegin : Option (Nat × P) :=
  match e.2 with
  | .began client result _ => (BeginReply.consumingPayload result).map fun payload => (client, payload)
  | _ => none

def beginsRecord : Bool :=
  match e.2 with
  | .began _ _ (some _) => true
  | _ => false

def isMarked : Bool :=
  match e.2 with
  | .marked _ _ _ => true
  | _ => false

inductive Effect (codec : CodeCodec P) (w w' : World) : Op × Outcome P → Prop
  | kept {e : Op × Outcome P} : (w'.code = w.code ∨ w'.code = none) →
      (∀ c, w'.holding c = true → w.holding c = true) →
      recordWritten e = none → consumingBegin e = none → Effect codec w w' e
  | began {op client result before after d raw} : w.code = some ⟨before, d⟩ → w'.code = some ⟨after, d⟩ →
      Begins before after → (before.document.get? "payload").bind str? = some raw →
      (∀ payload, result.consumingPayload = some payload → codec.decodePayload raw = some payload) →
      (∀ c, w'.holding c = true → w.holding c = true ∨ c = client ∧ ∃ payload,
      result.consumingPayload = some payload) → Effect codec w w' (op, .began client result (some (before, after)))
  | marked {op client before after d d'} : w.code = some ⟨before, d⟩ →
      w'.code = some ⟨after, d'⟩ → Ends before after → w.holding client = true →
      (∀ c, w'.holding c = true → w.holding c = true) → Effect codec w w' (op, .marked client before after)

variable {codec : CodeCodec P} {w w' : World} {outcome : Outcome P}

theorem begin_effect {client : Nat} {consumingAt : String} {layout : Nat} {now : Int} {received : Bool}
    (h : exec codec w (.begin client consumingAt layout now received) = (w', outcome)) :
    Effect codec w w' (.begin client consumingAt layout now received, outcome) := by
  cases hb : beginScript codec.rawText now w.code consumingAt layout with
  | mk code' reply =>
    simp only [exec, hb] at h
    cases (hb ▸ beginScript_effect : BeginEffect now w.code (code', reply)) with
    | @moved current raw after hv hbegins hraw =>
      have hne : current.value ≠ after := by
        intro heq
        have hconsuming := hbegins.consuming
        rw [← heq, hbegins.pending] at hconsuming
        cases hconsuming
      rw [overwritten_edit hv, if_neg hne] at h
      cases h
      refine .began (eq_some_of_visible hv) rfl hbegins hraw ?_ ?_
      · intro payload hresult
        obtain ⟨raw', hstrip, hdecode⟩ := parseBeginReply_consuming hresult
        rw [stripPrefix_append] at hstrip
        cases hstrip
        exact hdecode
      · intro c hc
        simp only [Bool.or_eq_true, Bool.and_eq_true, decide_eq_true_eq, Option.isSome_iff_exists] at hc
        rcases hc with hc | ⟨hcl, hpayload, -⟩
        · exact .inl hc
        · exact .inr ⟨hcl, hpayload⟩
    | kept hstrip =>
      have hresult : BeginReply.consumingPayload (parseBeginReply codec reply) = none := by
        rw [Option.eq_none_iff_forall_ne_some]
        intro payload hresult
        obtain ⟨raw, hsome, -⟩ := parseBeginReply_consuming hresult
        simp [hstrip] at hsome
      rw [overwritten_self] at h
      cases h
      refine .kept (.inl rfl) ?_ rfl ?_
      · simp [hresult]
      · simp only [consumingBegin, hresult, Option.map_none]

/-- **The inversion of an operation.** -/
theorem effect_of_exec {op : Op} (h : exec codec w op = (w', outcome)) : Effect codec w w' (op, outcome) := by
  cases op with
  | begin => exact begin_effect h
  | mark client terminal ttlSeconds now =>
    simp only [exec] at h
    by_cases hold : w.holding client = true
    · rw [if_pos hold] at h
      cases hm : markScript now w.code ⟨wire codec terminal.state, 0⟩ ttlSeconds with
      | mk =>
        rw [hm] at h
        have heffect := hm ▸ markScript_effect
        rcases heffect with rfl | ⟨current, hv, hs, rfl⟩
        · rw [overwritten_self] at h
          cases h
          exact .kept (.inl rfl) (fun c hc => hc) rfl rfl
        · have hends : Ends current.value ⟨wire codec terminal.state, 0⟩ := ⟨hs, statusOf_terminal codec terminal⟩
          have hne : current.value ≠ ⟨wire codec terminal.state, 0⟩ := by
            intro heq
            rw [heq] at hs
            rcases hends.terminal with ht | ht <;> simp [hs] at ht
          rw [overwritten_edit hv, if_neg hne] at h
          cases h
          exact .marked (eq_some_of_visible hv) rfl hends hold fun c hc => hc
    · rw [if_neg hold] at h
      cases h
      exact .kept (.inl rfl) (fun c hc => hc) rfl rfl
  | finalize =>
    simp only [exec] at h
    split_ifs at h
    · cases h
      exact .kept (.inr rfl) (fun c hc => hc) rfl rfl
    · cases h
      exact .kept (.inl rfl) (fun c hc => hc) rfl rfl
  | discard =>
    cases h
    exact .kept (.inl rfl) (fun c hc => hc) rfl rfl
  | expire now =>
    cases h
    refine .kept ?_ (fun c hc => hc) rfl rfl
    cases hv : visible now w.code with
    | none => exact .inr rfl
    | some => exact .inl (eq_some_of_visible hv).symm

/-! ## The invariant -/

def recordAfter (codec : CodeCodec P) (payload : P) (log : Log P) : Text :=
  latest recordWritten (pendingRecord codec payload) log

/-- What an event does to the record left by the older events: begin or end its consumption. -/
def Moves (before : Text) (e : Op × Outcome P) : Prop :=
  match e.2 with
  | .began _ _ (some (b, a)) => b = before ∧ Begins b a
  | .marked _ b a => b = before ∧ Ends b a
  | _ => True

structure CodeInv (codec : CodeCodec P) (payload : P) (log : Log P) (w : World) : Prop where
  store : ∀ e, w.code = some e → e.value = recordAfter codec payload log
  orderly : Orderly recordWritten (pendingRecord codec payload) RecordLe log
  moves : ∀ newer e older, log = newer ++ e :: older → Moves (recordAfter codec payload older) e
  pending : statusOf (recordAfter codec payload log) = some .pending →
    recordAfter codec payload log = pendingRecord codec payload ∧ log.countP beginsRecord = 0
  begunOnce : log.countP beginsRecord ≤ 1
  unmarked : statusOf (recordAfter codec payload log) = some .pending ∨
    statusOf (recordAfter codec payload log) = some .consuming → log.countP isMarked = 0
  markedOnce : log.countP isMarked ≤ 1
  handed : ∀ e ∈ log, ∀ client p, consumingBegin e = some (client, p) → p = payload ∧ beginsRecord e = true
  holders : ∀ c, w.holding c = true → ∃ op before after,
    (op, Outcome.began c (.ok (.consuming payload)) (some (before, after))) ∈ log
  record : ∀ op c result before after, (op, Outcome.began c result (some (before, after))) ∈ log →
    statusOf (recordAfter codec payload log) = some .consuming → after = recordAfter codec payload log

variable {log : Log P} {e : Op × Outcome P} {payload : P}

theorem moves_cons (h : ∀ newer e' older, log = newer ++ e' :: older → Moves (recordAfter codec payload older) e')
    (he : Moves (recordAfter codec payload log) e) :
    ∀ newer e' older, e :: log = newer ++ e' :: older → Moves (recordAfter codec payload older) e' := by
  intro newer e' older hsplit
  cases newer with
  | nil =>
    cases hsplit
    exact he
  | cons e₀ newer => exact h newer e' older (List.cons.inj hsplit).2

theorem moves_of_kept (h : recordWritten e = none) (before : Text) :
    Moves before e ∧ beginsRecord e = false ∧ isMarked e = false := by
  obtain ⟨op, outcome⟩ := e
  cases outcome with
  | quiet | markRefused | discarded => exact ⟨trivial, rfl, rfl⟩
  | marked => cases h
  | began client result record =>
    cases record with
    | none => exact ⟨trivial, rfl, rfl⟩
    | some => cases h

section Steps

variable {codec : CodeCodec P} {payload : P} {log : Log P} {w w' : World}

theorem kept_step {e : Op × Outcome P} (h : CodeInv codec payload log w)
    (hcode : w'.code = w.code ∨ w'.code = none)
    (hhold : ∀ c, w'.holding c = true → w.holding c = true) (hrec : recordWritten e = none)
    (hbeg : consumingBegin e = none) : CodeInv codec payload (e :: log) w' := by
  obtain ⟨hmove, hbegins, hmarked⟩ := moves_of_kept hrec (recordAfter codec payload log)
  have hafter : recordAfter codec payload (e :: log) = recordAfter codec payload log := latest_of_none hrec log
  have hcount : (e :: log).countP beginsRecord = log.countP beginsRecord :=
    List.countP_cons_of_neg (by simp [hbegins])
  have hmarks : (e :: log).countP isMarked = log.countP isMarked := List.countP_cons_of_neg (by simp [hmarked])
  refine ⟨?_, ⟨h.orderly, fun v hv => ?_⟩, moves_cons h.moves hmove, ?_, ?_, ?_, ?_, ?_, ?_, ?_⟩
  · intro e' he'
    rw [hafter]
    rcases hcode with hcode | hcode
    · exact h.store e' (hcode ▸ he')
    · simp [hcode] at he'
  · rw [hrec] at hv
    cases hv
  · rw [hafter, hcount]
    exact h.pending
  · rw [hcount]
    exact h.begunOnce
  · rw [hafter, hmarks]
    exact h.unmarked
  · rw [hmarks]
    exact h.markedOnce
  · intro e' he' client p hp
    rcases List.mem_cons.mp he' with rfl | he'
    · simp [hbeg] at hp
    · exact h.handed e' he' client p hp
  · intro c hc
    obtain ⟨op, before, after, hmem⟩ := h.holders c (hhold c hc)
    exact ⟨op, before, after, .tail _ hmem⟩
  · intro op c result before after hmem hs
    rw [hafter] at hs ⊢
    rcases List.mem_cons.mp hmem with heq | hmem
    · subst heq
      cases hbegins
    · exact h.record op c result before after hmem hs

variable {after before : Text} {client : Nat} {d : Int} {op : Op}

theorem begun_step {result : BeginReply P} {raw : String} (h : CodeInv codec payload log w)
    (hb : w.code = some ⟨before, d⟩) (ha : w'.code = some ⟨after, d⟩)
    (hbegins : Begins before after) (hraw : (before.document.get? "payload").bind str? = some raw)
    (hresult : ∀ p, result.consumingPayload = some p → codec.decodePayload raw = some p)
    (hhold : ∀ c, w'.holding c = true → w.holding c = true ∨ c = client ∧ ∃ p, result.consumingPayload = some p) :
    CodeInv codec payload ((op, .began client result (some (before, after))) :: log) w' := by
  have hbefore : before = recordAfter codec payload log := h.store _ hb
  obtain ⟨hfirst, hcount⟩ := h.pending (hbefore ▸ hbegins.pending)
  -- the record was never written, so the payload is the stored one
  have hraw' : raw = codec.encodePayload payload := by
    rw [hbefore, hfirst] at hraw
    exact (Option.some.inj hraw).symm
  have hpayload : ∀ p, result.consumingPayload = some p → p = payload := by
    intro p hp
    have hdecode := hresult p hp
    rw [hraw', codec.decode_encode] at hdecode
    exact (Option.some.inj hdecode).symm
  have hnone : ∀ op' c r b a, (op', Outcome.began c r (some (b, a))) ∉ log := by
    intro op' c r b a hmem
    have hnot := List.countP_eq_zero.mp hcount _ hmem
    exact hnot rfl
  refine ⟨?_, ⟨h.orderly, fun v hv => ?_⟩, moves_cons h.moves ⟨hbefore, hbegins⟩, ?_, ?_, ?_, ?_, ?_, ?_, ?_⟩
  · intro e he
    rw [ha] at he
    cases he
    rfl
  · cases hv
    refine .inr (.inl ⟨?_, by simp [hbegins.consuming]⟩)
    have hpending := hbegins.pending
    rw [hbefore] at hpending
    exact hpending
  · intro hs
    have hs : statusOf after = some .pending := hs
    simp [hbegins.consuming] at hs
  · exact Nat.le_of_eq (by rw [List.countP_cons_of_pos rfl, hcount])
  · intro _
    exact h.unmarked (.inl (hbefore ▸ hbegins.pending))
  · exact h.markedOnce
  · intro e he c p hp
    rcases List.mem_cons.mp he with rfl | he
    · simp only [consumingBegin, Option.map_eq_some_iff] at hp
      obtain ⟨p', hp', heq⟩ := hp
      cases heq
      exact ⟨hpayload _ hp', rfl⟩
    · exact h.handed e he c p hp
  · intro c hc
    rcases hhold c hc with hc | ⟨rfl, p, hp⟩
    · obtain ⟨op', b, a, hmem⟩ := h.holders c hc
      exact ⟨op', b, a, .tail _ hmem⟩
    obtain rfl := hpayload p hp
    have hres := eq_of_consumingPayload hp
    subst hres
    exact ⟨op, before, after, List.mem_cons_self⟩
  · intro op' c r b a hmem _
    rcases List.mem_cons.mp hmem with heq | hmem
    · cases heq
      rfl
    · exact absurd hmem (hnone op' c r b a)

theorem marked_step {d' : Int} (h : CodeInv codec payload log w) (hb : w.code = some ⟨before, d⟩)
    (ha : w'.code = some ⟨after, d'⟩) (hends : Ends before after)
    (hhold : ∀ c, w'.holding c = true → w.holding c = true) :
    CodeInv codec payload ((op, .marked client before after) :: log) w' := by
  have hbefore : before = recordAfter codec payload log := h.store _ hb
  have hterminal : statusOf after ≠ some .pending ∧ statusOf after ≠ some .consuming := by
    rcases hends.terminal with ht | ht <;> simp [ht]
  refine ⟨?_, ⟨h.orderly, fun v hv => ?_⟩, moves_cons h.moves ⟨hbefore, hends⟩, ?_, ?_, ?_, ?_, ?_, ?_, ?_⟩
  · intro e he
    rw [ha] at he
    cases he
    rfl
  · cases hv
    rw [hbefore] at hends
    exact .inr (.inr hends)
  · exact fun hs => absurd hs hterminal.1
  · exact h.begunOnce
  · exact fun hs => hs.elim (absurd · hterminal.1) (absurd · hterminal.2)
  · exact Nat.le_of_eq (by rw [List.countP_cons_of_pos rfl, h.unmarked (.inr (hbefore ▸ hends.consuming))])
  · intro e he c p hp
    rcases List.mem_cons.mp he with rfl | he
    · cases hp
    · exact h.handed e he c p hp
  · intro c hc
    obtain ⟨op', b, a, hmem⟩ := h.holders c (hhold c hc)
    exact ⟨op', b, a, .tail _ hmem⟩
  · exact fun _ _ _ _ _ _ hs => absurd hs hterminal.2

end Steps

theorem codeInv_of_run {deadline : Int} {material : DecisionMaterial}
    (hr : Run (exec codec) (stored codec payload deadline material) log w) : CodeInv codec payload log w := by
  refine Run.invariant (fun _ _ _ => trivial) ?_ ?_ hr trivial
  · refine ⟨?_, trivial, ?_, fun _ => ⟨rfl, rfl⟩, Nat.zero_le _, fun _ => rfl, Nat.zero_le _, ?_, ?_, ?_⟩
    · intro e he
      cases he
      rfl
    · intro newer e older hsplit
      simp at hsplit
    · intro e he
      cases he
    · intro c hc
      cases hc
    · intro op c result before after hmem
      cases hmem
  · intro log w op w' outcome _ _ hinv he
    cases effect_of_exec he with
    | kept hcode hhold hrec hbeg => exact kept_step hinv hcode hhold hrec hbeg
    | began hb ha hbegins hraw hresult hhold => exact begun_step hinv hb ha hbegins hraw hresult hhold
    | marked hb ha hends _ hhold => exact marked_step hinv hb ha hends hhold

/-! ## The result -/

/-- The redemption of a stored code over a history. -/
structure RedeemedOnce (codec : CodeCodec P) (payload : P) (deadline : Int)
    (material : DecisionMaterial) (log : Log P) (w : World) : Prop where
  /-- At most one begin returns the consuming state. -/
  once : log.countP (fun e => (consumingBegin e).isSome) ≤ 1
  /-- What it returns is the stored payload. -/
  samePayload : ∀ e ∈ log, ∀ client p, consumingBegin e = some (client, p) → p = payload
  /-- The record moves from pending to consuming, and from consuming to consumed or failed. -/
  moves : ∀ newer e older, log = newer ++ e :: older → Moves (recordAfter codec payload older) e
  absorbing : ∀ newer older, log = newer ++ older →
    (statusOf (recordAfter codec payload older) = some .consumed
      ∨ statusOf (recordAfter codec payload older) = some .failed) →
    recordAfter codec payload log = recordAfter codec payload older
  store : ∀ e, w.code = some e → e.value = recordAfter codec payload log
  gone : ∀ newer older w₁, log = newer ++ older →
    Run (exec codec) (stored codec payload deadline material) older w₁ → w₁.code = none → w.code = none
  /-- A mark is applied to the very record that the begin of its client has written. -/
  marks : ∀ newer op client before after older, log = newer ++ (op, .marked client before after) :: older →
    ∃ op' first, (op', Outcome.began client (.ok (.consuming payload)) (some (first, before))) ∈ older
  /-- No outcome is overwritten. -/
  markedOnce : log.countP isMarked ≤ 1

theorem gone_of_run (h : Run (exec codec) w log w') (hw : w.code = none) : w'.code = none := by
  refine Run.state_invariant (I := fun w => w.code = none) hw (fun w op w' outcome hw he => ?_) h
  cases effect_of_exec he with
  | kept hcode => exact hcode.elim (fun h => h.trans hw) id
  | began hb | marked hb => simp [hw] at hb

/-- **A code is redeemed at most once.** -/
theorem code_redeemed_once (codec : CodeCodec P) (payload : P) (deadline : Int) (material : DecisionMaterial)
    (log : Log P) (w : World) (hr : Run (exec codec) (stored codec payload deadline material) log w) :
    RedeemedOnce codec payload deadline material log w := by
  have hinv := codeInv_of_run hr
  refine ⟨?_, fun e he client p hp => (hinv.handed e he client p hp).1, hinv.moves, ?_, hinv.store, ?_, ?_,
    hinv.markedOnce⟩
  · refine Nat.le_trans (List.countP_mono_left fun e he hsome => ?_) hinv.begunOnce
    obtain ⟨⟨client, p⟩, hp⟩ := Option.isSome_iff_exists.mp hsome
    exact (hinv.handed e he client p hp).2
  · intro newer older hsplit hterminal
    have horderly := hinv.orderly
    rw [hsplit] at horderly ⊢
    have hle := latest_le (R := RecordLe) (fun _ => .inl rfl) (fun _ _ _ => RecordLe.trans) newer horderly
    exact hle.absorbing hterminal
  · intro newer older w₁ hsplit hr₁ hgone
    subst hsplit
    obtain ⟨w₂, hr₂, hnew⟩ := hr.split
    obtain rfl := hr₁.unique hr₂
    exact gone_of_run hnew hgone
  · intro newer op client before after older hsplit
    subst hsplit
    obtain ⟨hbefore, hends⟩ : before = recordAfter codec payload older ∧ Ends before after :=
      hinv.moves newer (op, .marked client before after) older rfl
    obtain ⟨w₁, hold, -⟩ := hr.split
    cases hold with
    | cons hold he =>
      have hinv₁ := codeInv_of_run hold
      cases effect_of_exec he with
      | kept _ _ hrec => cases hrec
      | marked _ _ _ hholding _ =>
        obtain ⟨op', first, record, hmem⟩ := hinv₁.holders client hholding
        have hrecord := hinv₁.record op' client _ first record hmem (hbefore ▸ hends.consuming)
        exact ⟨op', first, by rw [hbefore, ← hrecord]; exact hmem⟩

end Machine

/-! ## Two clients -/

def textCodec : CodeCodec String := ⟨id, some, fun _ => rfl, fun _ => "", fun _ => none⟩

/-- The first client begins, the second finds the code busy, the first marks it failed, and marks it
again. -/
def contestOps : List Op :=
  [.begin 0 "2026-01-01T00:00:00.000Z" 1 0 true, .begin 1 "2026-01-01T00:00:01.000Z" 1 1000 true,
    .mark 0 (.failed "2026-01-01T00:00:02.000Z" "error") 60 2000, .mark 0 .consumed 60 3000]

def contest : Log String × World :=
  execAll (exec textCodec) (stored textCodec "payload" 60000 ⟨none, none⟩) [] contestOps

theorem code_redeemed_once_contest : RedeemedOnce textCodec "payload" 60000 ⟨none, none⟩ contest.1 contest.2 ∧
      contest.1.countP (fun e => (consumingBegin e).isSome) = 1 ∧ contest.1.countP isMarked = 1 ∧
      statusOf (recordAfter textCodec "payload" contest.1) = some .failed :=
  ⟨code_redeemed_once textCodec "payload" 60000 ⟨none, none⟩ contest.1 contest.2
    (run_execAll _ _), by decide +kernel, by decide +kernel, by decide +kernel⟩

end NazoAuth.AuthorizationCode
