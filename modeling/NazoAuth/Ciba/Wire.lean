import NazoAuth.Lib.Cjson
import NazoAuth.Ciba.State

/-!
# Backchannel authentication — the stored document

A request is stored as a JSON document. The service encodes and decodes it as a whole; the ping
scripts edit one member of it and re-encode the rest.
-/

namespace NazoAuth.Ciba

open Lib Lib.Json

/-! ## Encoding -/

def CibaStatus.text : CibaStatus → String
  | .pending => "pending"
  | .approved => "approved"
  | .denied => "denied"

def CibaPingNotificationStatus.text : CibaPingNotificationStatus → String
  | .awaitingDecision => "awaiting_decision"
  | .pending => "pending"
  | .delivered => "delivered"
  | .failed => "failed"

def strings (l : List String) : Json := .arr (l.map .str)

def encodeContext (context : CibaAuthenticationContext) : Json :=
  .obj (member "auth_time" (some (.num context.authTime)) ++ (member "amr" (some (strings context.amr)) ++
    (member "oidc_sid" (context.oidcSid.map .str))))

def encodePing (ping : CibaPingNotification) : Json :=
  .obj (member "auth_req_id" (ping.authReqId.map .str) ++ (member "endpoint" (some (.str ping.endpoint)) ++
    (member "client_notification_token" (ping.clientNotificationToken.map .str) ++
    (member "status" (some (.str ping.status.text)) ++ (member "attempts" (some (.num ping.attempts)) ++
    (member "next_attempt_at" (ping.nextAttemptAt.map .num)))))))

variable (state : CibaRequestState)

/-- Members in the order of the fields; absent options are left out, except `last_poll_at`, which is
null. -/
def encodeState : Json :=
  .obj (member "client_id" (some (.str state.clientId))
    ++ (member "user_id" (some (.str (uuidText state.userId))) ++
    (member "scopes" (some (strings state.scopes)) ++ (member "audiences" (some (strings state.audiences)) ++
    (member "acr" (state.acr.map .str) ++
    (member "authentication_context" (state.authenticationContext.map encodeContext) ++
    (member "binding_message" (state.bindingMessage.map .str)
    ++ (member "issued_at" (some (.num state.issuedAt)) ++ (member "status" (some (.str state.status.text)) ++
    (member "interval_seconds" (some (.num state.intervalSeconds)) ++
    (member "expires_at" (some (.num state.expiresAt)) ++
    (member "retention_expires_at" (some (.num state.retentionExpiresAt)) ++
    (member "last_poll_at" (some ((state.lastPollAt.map .num).getD .null)) ++
    (member "ping_notification" (state.pingNotification.map encodePing)))))))))))))))

/-! ## Reading -/

def readStatusText : String → Option CibaStatus
  | "pending" => some .pending
  | "approved" => some .approved
  | "denied" => some .denied
  | _ => none

def readPingStatusText : String → Option CibaPingNotificationStatus
  | "awaiting_decision" => some .awaitingDecision
  | "pending" => some .pending
  | "delivered" => some .delivered
  | "failed" => some .failed
  | _ => none

def readStatus (doc : Json) : Option CibaStatus := ((doc.get? "status").bind str?).bind readStatusText

def readTarget (ping : Json) : Option (Option String × String) := do
  let authReqId ← optionally str? (ping.get? "auth_req_id")
  let endpoint ← (ping.get? "endpoint").bind str?
  return (authReqId, endpoint)

def readIdentity (doc : Json) : Option CibaIdentity := do
  let clientId ← (doc.get? "client_id").bind str?
  let userId ← ((doc.get? "user_id").bind str?).bind parseUuid
  let scopes ← (doc.get? "scopes").bind strings?
  let audiences ← (doc.get? "audiences").bind strings?
  let acr ← optionally str? (doc.get? "acr")
  let bindingMessage ← optionally str? (doc.get? "binding_message")
  let pingTarget ← optionally readTarget (doc.get? "ping_notification")
  return ⟨clientId, userId, scopes, audiences, acr, bindingMessage, pingTarget⟩

/-- A member that is absent reads as zero. -/
def defaultZero (read : Json → Option Int) : Option Json → Option Int
  | none => some 0
  | some j => read j

def readTimes (doc : Json) : Option CibaTimes := do
  let issuedAt ← defaultZero i64? (doc.get? "issued_at")
  let expiresAt ← (doc.get? "expires_at").bind i64?
  let retentionExpiresAt ← (doc.get? "retention_expires_at").bind i64?
  return ⟨issuedAt, expiresAt, retentionExpiresAt⟩

def decodeContext (j : Json) : Option CibaAuthenticationContext := do
  let authTime ← (j.get? "auth_time").bind i64?
  let amr ← (j.get? "amr").bind strings?
  let oidcSid ← optionally str? (j.get? "oidc_sid")
  return ⟨authTime, amr, oidcSid⟩

def decodePing (j : Json) : Option CibaPingNotification := do
  let target ← readTarget j
  let token ← optionally str? (j.get? "client_notification_token")
  let status ← ((j.get? "status").bind str?).bind readPingStatusText
  let attempts ← defaultZero (int? 0 (2 ^ 32)) (j.get? "attempts")
  let nextAttemptAt ← optionally i64? (j.get? "next_attempt_at")
  return ⟨target.1, target.2, token, status, attempts.toNat, nextAttemptAt⟩

def decodeState (doc : Json) : Option CibaRequestState := do
  let identity ← readIdentity doc
  let times ← readTimes doc
  let status ← readStatus doc
  let authenticationContext ← optionally decodeContext (doc.get? "authentication_context")
  let intervalSeconds ← (doc.get? "interval_seconds").bind (nat? (2 ^ 64))
  let lastPollAt ← optionally i64? (doc.get? "last_poll_at")
  let pingNotification ← optionally decodePing (doc.get? "ping_notification")
  return {
    clientId := identity.clientId
    userId := identity.userId
    scopes := identity.scopes
    audiences := identity.audiences
    acr := identity.acr
    authenticationContext := authenticationContext
    bindingMessage := identity.bindingMessage
    issuedAt := times.issuedAt
    status := status
    intervalSeconds := intervalSeconds
    expiresAt := times.expiresAt
    retentionExpiresAt := times.retentionExpiresAt
    lastPollAt := lastPollAt
    pingNotification := pingNotification }

/-! ## Reading what was encoded -/

@[simp] theorem readStatusText_text (status : CibaStatus) : readStatusText status.text = some status := by
  cases status <;> rfl

@[simp] theorem optionally_str?_map (s : Option String) : optionally str? (s.map .str) = some s := by
  cases s <;> rfl

@[simp] theorem strings?_strings (l : List String) : strings? (strings l) = some l := strings?_strs l

theorem readTarget_encodePing (ping : CibaPingNotification) : readTarget (encodePing ping) = some ping.target := by
  simp [readTarget, encodePing, CibaPingNotification.target, str?]

theorem optionally_readTarget_map (ping : Option CibaPingNotification) :
    optionally readTarget (ping.map encodePing) = some (ping.map CibaPingNotification.target) := by
  cases ping with
  | none => rfl
  | some ping =>
    have h := readTarget_encodePing ping
    simp only [encodePing] at h
    simp only [Option.map_some, optionally, encodePing, h]

theorem readIdentity_encodeState : readIdentity (encodeState state) = some state.identity := by
  simp [readIdentity, encodeState, CibaRequestState.identity, str?, parseUuid_uuidText, optionally_readTarget_map]

theorem readStatus_encodeState : readStatus (encodeState state) = some state.status := by
  simp [readStatus, encodeState, str?]

/-- Times are 64-bit integers. -/
def CibaTimes.InRange (times : CibaTimes) : Prop :=
  ∀ n ∈ [times.issuedAt, times.expiresAt, times.retentionExpiresAt], -2 ^ 63 ≤ n ∧ n < 2 ^ 63

theorem i64?_num {n : Int} (h : -2 ^ 63 ≤ n ∧ n < 2 ^ 63) : i64? (.num n) = some n := by
  simp only [i64?, int?]
  rw [if_pos h]

theorem readTimes_encodeState {state : CibaRequestState} (h : state.times.InRange) :
    readTimes (encodeState state) = some state.times := by
  simp [CibaTimes.InRange, CibaRequestState.times] at h
  obtain ⟨h1, h2, h3⟩ := h
  simp [readTimes, encodeState, defaultZero, CibaRequestState.times, i64?_num h1, i64?_num h2, i64?_num h3]

/-! ## What a whole state says -/

theorem optionally_decodePing {j : Option Json} {ping : Option CibaPingNotification}
    (h : optionally decodePing j = some ping) :
    optionally readTarget j = some (ping.map CibaPingNotification.target) := by
  have hsome : ∀ j : Json, ∀ p, decodePing j = some p → readTarget j = some p.target := by
    intro j p hp
    simp only [decodePing, Option.bind_eq_bind, Option.bind_eq_some_iff, Option.pure_def, Option.some.injEq] at hp
    obtain ⟨target, ht, token, -, status, -, attempts, -, next, -, rfl⟩ := hp
    exact ht
  cases j with
  | none => cases h; rfl
  | some j =>
    by_cases hj : j = .null
    · subst hj; cases h; rfl
    have hopt : ∀ {α : Type} (read : Json → Option α), optionally read (some j) = (read j).map some := by
      intro α read
      cases j <;> first | rfl | exact absurd rfl hj
    rw [hopt, Option.map_eq_some_iff] at h
    obtain ⟨p, hp, rfl⟩ := h
    rw [hopt, hsome j p hp]
    rfl

variable {doc : Json}

/-- **The inversion of decoding.** -/
theorem decodeState_reads {state : CibaRequestState} (h : decodeState doc = some state) :
    readIdentity doc = some state.identity ∧ readTimes doc = some state.times
      ∧ readStatus doc = some state.status := by
  simp only [decodeState, Option.bind_eq_bind, Option.bind_eq_some_iff, Option.pure_def, Option.some.injEq] at h
  obtain ⟨identity, hi, times, ht, status, hs, context, -, interval, -, last, -, ping, hping, rfl⟩ := h
  refine ⟨?_, ht, hs⟩
  have htarget := optionally_decodePing hping
  have hsame : optionally readTarget (doc.get? "ping_notification") = some identity.pingTarget := by
    simp only [readIdentity, Option.bind_eq_bind, Option.bind_eq_some_iff, Option.pure_def, Option.some.injEq]
      at hi
    obtain ⟨_, -, _, -, _, -, _, -, _, -, _, -, target, htgt, rfl⟩ := hi
    exact htgt
  rw [htarget] at hsame
  rw [hi]
  simp only [CibaRequestState.identity, Option.some.inj hsame]

theorem inRange_of_readTimes {times : CibaTimes} (h : readTimes doc = some times) : times.InRange := by
  have hi64 : ∀ {j : Json} {n : Int}, i64? j = some n → -2 ^ 63 ≤ n ∧ n < 2 ^ 63 := by
    intro j n hj
    cases j with
    | num =>
      simp only [i64?, int?] at hj
      split_ifs at hj with hm
      exact Option.some.inj hj ▸ hm
    | null | bool | real | str | arr | obj => cases hj
  simp only [readTimes, Option.bind_eq_bind, Option.bind_eq_some_iff, Option.pure_def, Option.some.injEq] at h
  obtain ⟨issuedAt, hissued, expiresAt, ⟨j₂, -, hexpires⟩, retention, ⟨j₃, -, hretention⟩, rfl⟩ := h
  have hissued : -2 ^ 63 ≤ issuedAt ∧ issuedAt < 2 ^ 63 := by
    cases hget : doc.get? "issued_at" with
    | none =>
      rw [hget] at hissued
      cases hissued
      decide
    | some =>
      rw [hget] at hissued
      exact hi64 hissued
  intro n hn
  simp only [List.mem_cons, List.not_mem_nil, or_false] at hn
  rcases hn with rfl | rfl | rfl
  · exact hissued
  · exact hi64 hexpires
  · exact hi64 hretention

/-! ## What survives a script -/

/-- An edit of the notification that leaves its target alone, and the re-encoding of the
document. -/
structure PingEdit (doc doc' : Json) : Prop where
  edited : ∃ ping ping' members, doc.get? "ping_notification" = some (.obj ping) ∧ doc = .obj members ∧
    readTarget (.obj ping') = readTarget (.obj ping) ∧ doc' = reencode (set "ping_notification" (.obj ping') doc)

variable {doc' : Json}

theorem PingEdit.get? (h : PingEdit doc doc') {name : String} (hname : name ≠ "ping_notification") :
    doc'.get? name = (doc.get? name).map reencode := by
  obtain ⟨ping, ping', members, -, -, -, rfl⟩ := h.edited
  rw [get?_reencode, get?_set_of_ne hname]

theorem PingEdit.readStatus (h : PingEdit doc doc') : readStatus doc' = readStatus doc := by
  rw [Ciba.readStatus, h.get? (by decide), bind_str?_reencode]
  rfl

theorem readTarget_reencode (j : Json) : readTarget (reencode j) = readTarget j := by
  simp only [readTarget, get?_reencode, optionally_str?_reencode, bind_str?_reencode]

theorem PingEdit.readTarget (h : PingEdit doc doc') :
    optionally readTarget (doc'.get? "ping_notification")
    = optionally readTarget (doc.get? "ping_notification") := by
  obtain ⟨ping, ping', members, hget, hdoc, htarget, rfl⟩ := h.edited
  subst hdoc
  have hedit := readTarget_reencode (.obj ping')
  rw [get?_reencode, get?_set_self, hget]
  simp only [Option.map_some, reencode, optionally] at hedit ⊢
  rw [hedit, htarget]

theorem PingEdit.strings (h : PingEdit doc doc') {name : String} (hname : name ≠ "ping_notification")
    {l : List String} (hl : (doc.get? name).bind strings? = some l) (hne : l ≠ []) :
    (doc'.get? name).bind strings? = some l := by
  rw [h.get? hname]
  cases hget : doc.get? name with
  | none => simp [hget] at hl
  | some =>
    rw [hget] at hl
    exact strings?_reencode hl hne

/-- **Whom and what a request is for survives a script.** -/
theorem PingEdit.readIdentity (h : PingEdit doc doc') {identity : CibaIdentity}
    (hid : readIdentity doc = some identity) (hscopes : identity.scopes ≠ [])
    (haud : identity.audiences ≠ []) : readIdentity doc' = some identity := by
  simp only [Ciba.readIdentity, Option.bind_eq_bind, Option.bind_eq_some_iff, Option.pure_def, Option.some.injEq]
    at hid ⊢
  obtain ⟨clientId, hc, userId, hu, scopes, hs, audiences, ha, acr, hacr, binding, hb, target, ht, rfl⟩ := hid
  have hstr : ∀ {name : String} {s : String}, name ≠ "ping_notification" →
      (∃ j, doc.get? name = some j ∧ str? j = some s) → ∃ j, doc'.get? name = some j ∧ str? j = some s := by
    intro name s hname hread
    rw [← Option.bind_eq_some_iff] at hread ⊢
    rw [h.get? hname, bind_str?_reencode]
    exact hread
  have hlist : ∀ {name : String} {l : List String}, name ≠ "ping_notification" → l ≠ [] →
      (∃ j, doc.get? name = some j ∧ strings? j = some l) → ∃ j, doc'.get? name = some j
        ∧ strings? j = some l := by
    intro name l hname hne hread
    rw [← Option.bind_eq_some_iff] at hread ⊢
    exact h.strings hname hread hne
  have hopt : ∀ {name : String} {s : Option String}, name ≠ "ping_notification" →
      optionally str? (doc.get? name) = some s → optionally str? (doc'.get? name) = some s := by
    intro name s hname hread
    rw [h.get? hname, optionally_str?_reencode]
    exact hread
  obtain ⟨text, huser, hparse⟩ := hu
  exact ⟨clientId, hstr (by decide) hc, userId, ⟨text, hstr (by decide) huser, hparse⟩, scopes,
    hlist (by decide) hscopes hs, audiences, hlist (by decide) haud ha, acr, hopt (by decide) hacr,
    binding, hopt (by decide) hb, target, h.readTarget.trans ht, rfl⟩

/-- Times of at most fourteen digits. -/
def CibaTimes.Short (times : CibaTimes) : Prop :=
  ∀ n ∈ [times.issuedAt, times.expiresAt, times.retentionExpiresAt], n.natAbs < luaDigits

theorem bind_i64?_reencode (j : Option Json) :
    (j.map reencode).bind i64? = j.bind i64? ∨ (j.map reencode).bind i64? = none := by
  cases j with
  | none => exact .inl rfl
  | some j => exact int?_reencode _ _ j

theorem defaultZero_reencode (j : Option Json) :
    defaultZero i64? (j.map reencode) = defaultZero i64? j ∨ defaultZero i64? (j.map reencode) = none := by
  cases j with
  | none => exact .inl rfl
  | some j => exact int?_reencode _ _ j

theorem PingEdit.readTimes (h : PingEdit doc doc') : readTimes doc' = readTimes doc ∨ readTimes doc' = none := by
  have h1 := defaultZero_reencode (doc.get? "issued_at")
  have h2 := bind_i64?_reencode (doc.get? "expires_at")
  have h3 := bind_i64?_reencode (doc.get? "retention_expires_at")
  rw [← h.get? (by decide)] at h1 h2 h3
  simp only [Ciba.readTimes]
  rcases h1 with h1 | h1
  · rcases h2 with h2 | h2
    · rcases h3 with h3 | h3
      · exact .inl (by rw [h1, h2, h3])
      · right
        rw [h3]
        cases defaultZero i64? (doc'.get? "issued_at") <;> cases (doc'.get? "expires_at").bind i64? <;> rfl
    · right
      rw [h2]
      cases defaultZero i64? (doc'.get? "issued_at") <;> rfl
  · exact .inr (by rw [h1]; rfl)

theorem PingEdit.readTimes_of_short (h : PingEdit doc doc') {times : CibaTimes}
    (ht : Ciba.readTimes doc = some times) (hshort : times.Short) : Ciba.readTimes doc' = some times := by
  simp only [Ciba.readTimes, Option.bind_eq_bind, Option.bind_eq_some_iff, Option.pure_def, Option.some.injEq]
    at ht ⊢
  obtain ⟨issuedAt, hissued, expiresAt, hexpires, retention, hretention, rfl⟩ := ht
  have hread : ∀ {name : String} {n : Int}, name ≠ "ping_notification" → n.natAbs < luaDigits →
      (∃ j, doc.get? name = some j ∧ i64? j = some n) → ∃ j, doc'.get? name = some j ∧ i64? j = some n := by
    rintro name n hname hn ⟨j, hget, hj⟩
    exact ⟨reencode j, by rw [h.get? hname, hget]; rfl, int?_reencode_of_small hj hn⟩
  have hissued' : defaultZero i64? (doc'.get? "issued_at") = some issuedAt := by
    rw [h.get? (by decide)]
    cases hget : doc.get? "issued_at" with
    | none => rw [hget] at hissued; exact hissued
    | some =>
      rw [hget] at hissued
      exact int?_reencode_of_small hissued (hshort issuedAt (by simp))
  exact ⟨issuedAt, hissued', expiresAt, hread (by decide) (hshort expiresAt (by simp)) hexpires, retention,
    hread (by decide) (hshort retention (by simp)) hretention, rfl⟩

end NazoAuth.Ciba
